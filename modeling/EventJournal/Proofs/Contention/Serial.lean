import EventJournal.Proofs.History
import EventJournal.Proofs.Table.Effects

/-!
# Transactions one after another

A database is serializable if its transactions can be put in an order in which each of them
was told what a table of rows would have told it that runs one transaction after the other:
those that were committed leave their rows to the next one, and the others leave nothing.
No order is asked of a transaction in which a statement failed; nor is anything said of when
the transactions took place, so that the order need not be the one in which they ended.

Who runs a program against the same table is told the same (`Replay.run`). So the effect of
a unit of work on rows, which is proved of one client alone, holds of every transaction of a
serial order at its turn.

## Main results

* `Replay.run` — exchanges that a table can have had with a program are its run.
* `Serial.split` — the rows at a turn.
* `Serial.grows` — where nothing is deleted, rows are only added along a serial order.
-/

namespace EventJournal

/-- The exchanges lead through the program to its value. -/
inductive Program.Leads {α : Type} : Program α → List Exchange → α → Prop
  | done (value : α) : Leads (.done value) [] value
  | send {s : Statement} {next : Except DbError s.Answer → Program α}
      {answer : Except DbError s.Answer} {rest : List Exchange} {value : α}
      (leads : Leads (next answer) rest value) : Leads (.send s next) (⟨s, answer⟩ :: rest) value

/-- A table has taken part in the exchanges. The frame of the transaction is not its
concern. -/
inductive Replay (c : Circumstances) : EventTable → List Exchange → EventTable → Prop
  | nil (t : EventTable) : Replay c t [] t
  | frame {e : Exchange} {es : List Exchange} {t u : EventTable}
      (frame : e.statement.isFrame = true) (rest : Replay c t.tick es u) : Replay c t (e :: es) u
  | answered {s : Statement} {answer : Except DbError s.Answer} {es : List Exchange}
      {t t' u : EventTable} (plain : s.isFrame = false)
      (same : (EventTable.database c.truthful).answer s t = (answer, t'))
      (rest : Replay c t' es u) : Replay c t (⟨s, answer⟩ :: es) u

namespace Replay

variable {c : Circumstances} {e : Exchange} {es others : List Exchange} {t t' u : EventTable}

theorem cons_frame (frame : e.statement.isFrame = true) :
    Replay c t (e :: es) u ↔ Replay c t.tick es u := by
  constructor
  · intro h
    cases h with
    | frame _ rest => exact rest
    | answered plain _ _ => exact absurd (frame.symm.trans plain) Bool.false_ne_true.symm
  · exact .frame frame

theorem cons_answered {s : Statement} {answer : Except DbError s.Answer}
    (plain : s.isFrame = false) :
    Replay c t (⟨s, answer⟩ :: es) u ↔
      ∃ t', (EventTable.database c.truthful).answer s t = (answer, t') ∧ Replay c t' es u := by
  constructor
  · intro h
    cases h with
    | frame frame _ => exact absurd (plain.symm.trans frame) Bool.false_ne_true
    | answered _ same rest => exact ⟨_, same, rest⟩
  · rintro ⟨t', same, rest⟩
    exact .answered plain same rest

theorem append (h : Replay c t es t') (k : Replay c t' others u) : Replay c t (es ++ others) u := by
  induction h with
  | nil t => exact k
  | frame frame _ ih => exact .frame frame (ih k)
  | answered plain same _ ih => exact .answered plain same (ih k)

theorem of_append (h : Replay c t (es ++ others) u) :
    ∃ t', Replay c t es t' ∧ Replay c t' others u := by
  induction es generalizing t with
  | nil => exact ⟨t, .nil t, h⟩
  | cons e es ih =>
      rw [List.cons_append] at h
      cases h with
      | frame frame rest =>
          obtain ⟨t', first, last⟩ := ih rest
          exact ⟨t', .frame frame first, last⟩
      | answered plain same rest =>
          obtain ⟨t', first, last⟩ := ih rest
          exact ⟨t', .answered plain same first, last⟩

/-- Exchanges that a table can have had with a program are its run. -/
theorem run {α : Type} {program : Program α} {value : α} (h : Replay c t es u)
    (frames : ∀ e ∈ es, e.statement.isFrame = false) (leads : program.Leads es value) :
    program.run (EventTable.database c.truthful) t = (value, u) := by
  induction leads generalizing t with
  | done value =>
      cases h
      rfl
  | @send s next answer rest value _ ih =>
      obtain ⟨plain, frames⟩ := List.forall_mem_cons.1 frames
      obtain ⟨t', same, rest⟩ := (cons_answered plain).1 h
      show (next ((EventTable.database c.truthful).answer s t).1).run
        (EventTable.database c.truthful) ((EventTable.database c.truthful).answer s t).2 = _
      rw [same]
      exact ih rest frames

end Replay

namespace Transaction

/-- At its turn, the transaction makes the one rows of the others. -/
def Turns (tx : Transaction) (rows rows' : List StoredEvent) : Prop :=
  ∃ c t u, t.working = some rows ∧ Replay c t tx.exchanges u ∧ u.working = some rows'

end Transaction

/-- The transactions take effect one after the other. -/
inductive Serial : List StoredEvent → List Transaction → List StoredEvent → Prop
  | nil (rows : List StoredEvent) : Serial rows [] rows
  | committed {tx : Transaction} {order : List Transaction} {rows rows' after : List StoredEvent}
      (committed : tx.committed = true) (turns : tx.Turns rows rows')
      (rest : Serial rows' order after) : Serial rows (tx :: order) after
  | undone {tx : Transaction} {order : List Transaction} {rows rows' after : List StoredEvent}
      (undone : tx.committed = false) (turns : tx.Turns rows rows')
      (rest : Serial rows order after) : Serial rows (tx :: order) after

/-- The record has a serial order. A transaction that has no place in it was not committed,
and one of its statements has failed. -/
structure Record.Serialized (r : Record) (before : List StoredEvent) (order : List Transaction)
    (after : List StoredEvent) : Prop where
  accounted : ∃ others, r.ended.Perm (order ++ others) ∧
    ∀ tx ∈ others, tx.committed = false ∧ tx.failed = true
  serial : Serial before order after

namespace Serial

variable {order others : List Transaction} {tx : Transaction}
  {before rows rows' after : List StoredEvent}

theorem append (h : Serial before order rows) (k : Serial rows others after) :
    Serial before (order ++ others) after := by
  induction h with
  | nil _ => exact k
  | committed good turns _ ih => exact .committed good turns (ih k)
  | undone bad turns _ ih => exact .undone bad turns (ih k)

theorem of_append (h : Serial before (order ++ others) after) :
    ∃ rows, Serial before order rows ∧ Serial rows others after := by
  induction order generalizing before with
  | nil => exact ⟨before, .nil before, h⟩
  | cons tx order ih =>
      rw [List.cons_append] at h
      cases h with
      | committed good turns rest =>
          obtain ⟨rows, first, last⟩ := ih rest
          exact ⟨rows, .committed good turns first, last⟩
      | undone bad turns rest =>
          obtain ⟨rows, first, last⟩ := ih rest
          exact ⟨rows, .undone bad turns first, last⟩

/-- A transaction of the order has its turn: there are rows before it and rows after it. -/
theorem split (h : Serial before order after) (there : tx ∈ order) :
    ∃ earlier later rows rows', order = earlier ++ tx :: later ∧ Serial before earlier rows ∧
      Serial rows [tx] rows' ∧ Serial rows' later after := by
  obtain ⟨earlier, later, rfl⟩ := List.append_of_mem there
  obtain ⟨rows, first, rest⟩ := h.of_append
  rw [← List.singleton_append] at rest
  obtain ⟨rows', turn, last⟩ := rest.of_append
  exact ⟨earlier, later, rows, rows', rfl, first, turn, last⟩

theorem turns_of_committed (h : Serial rows [tx] rows') (committed : tx.committed = true) :
    tx.Turns rows rows' := by
  cases h with
  | committed _ turns rest =>
      cases rest
      exact turns
  | undone undone _ _ => exact absurd (undone.symm.trans committed) Bool.false_ne_true

theorem turns_of_undone (h : Serial rows [tx] rows') (undone : tx.committed = false) :
    rows' = rows ∧ ∃ seen, tx.Turns rows seen := by
  cases h with
  | committed committed _ _ => exact absurd (undone.symm.trans committed) Bool.false_ne_true
  | undone _ turns rest =>
      cases rest
      exact ⟨rfl, _, turns⟩

end Serial

/-! ## Where nothing is deleted -/

namespace EventTable

variable {c : Circumstances} {s : Statement} {t : EventTable} {rows : List StoredEvent}

/-- A statement that keeps events adds rows, or none. -/
theorem grows_answer (keeps : s.keepsEvents = true) (plain : s.isFrame = false)
    (there : t.working = some rows) :
    ∃ rows', ((database c).answer s t).2.working = some rows' ∧ rows <+: rows' := by
  by_cases leaves : leavesRows s = true
  · rw [snd_answer_of_leavesRows leaves]
    exact ⟨rows, there, List.prefix_refl rows⟩
  · cases s with
    | insertEvent draft =>
        rcases answer_insertEvent c draft t with ⟨drawn, position, time, -, -, done⟩ | ⟨e, failed⟩
        · rw [done, write_of_working (t := t.tick) there, visible_of_working there]
          exact ⟨_, rfl, List.prefix_append _ _⟩
        · rw [failed]
          exact ⟨rows, there, List.prefix_refl rows⟩
    | deleteEvent _ | closeGap _ _ | deleteStream _ => cases keeps
    | begin | commit | rollback => cases plain
    | _ => exact absurd rfl leaves

end EventTable

theorem Replay.grows {c : Circumstances} {es : List Exchange} {t u : EventTable}
    (h : Replay c t es u) (keeps : ∀ e ∈ es, e.statement.keepsEvents = true) :
    ∀ {rows}, t.working = some rows → ∃ rows', u.working = some rows' ∧ rows <+: rows' := by
  induction h with
  | nil t => exact fun there => ⟨_, there, List.prefix_refl _⟩
  | frame _ _ ih => exact fun there => ih (List.forall_mem_cons.1 keeps).2 there
  | answered plain same _ ih =>
      intro rows there
      obtain ⟨mine, others⟩ := List.forall_mem_cons.1 keeps
      obtain ⟨between, working, first⟩ := EventTable.grows_answer mine plain there
      rw [same] at working
      obtain ⟨rows', working, last⟩ := ih others working
      exact ⟨rows', working, first.trans last⟩

/-- Where nothing is deleted, rows are only added along a serial order. -/
theorem Serial.grows {before after : List StoredEvent} {order : List Transaction}
    (h : Serial before order after)
    (keeps : ∀ tx ∈ order, ∀ e ∈ tx.exchanges, e.statement.keepsEvents = true) :
    before <+: after := by
  induction h with
  | nil rows => exact List.prefix_refl rows
  | committed _ turns _ ih =>
      obtain ⟨mine, others⟩ := List.forall_mem_cons.1 keeps
      obtain ⟨c, t, u, there, replay, reached⟩ := turns
      obtain ⟨rows', working, first⟩ := replay.grows mine there
      rw [reached] at working
      cases working
      exact first.trans (ih others)
  | undone _ _ _ ih => exact ih (List.forall_mem_cons.1 keeps).2

end EventJournal

import EventJournal.Proofs.Contention.Serial

/-!
# One transaction at a time

The plainest database that is serializable: a table that lets one transaction be open, while
all other clients wait. A statement outside of a transaction is one by itself. What fails,
and how, is up to the circumstances; whatever is not committed is dropped.

Its transactions take effect in the order in which they end, so that the record itself is a
serial order.

## Main results

* `SerialTable.serialized` — whatever clients do, and in any order of turns, their record is
  serialized.
-/

namespace EventJournal

/-- A table with the client whose transaction is open. Between transactions, the rows to work
on are the stored ones. -/
structure SerialTable where
  table : EventTable := { working := some [] }
  holder : Option Nat := none

namespace SerialTable

/-- The table at the end of a transaction. -/
def close (t : EventTable) (good : Bool) : EventTable :=
  if good = true then { t with stored := t.visible, working := some t.visible }
  else { t with working := some t.stored }

/-- The client may send the statement now. -/
def isFree (d : SerialTable) (client : Nat) : Statement → Bool
  | .begin => d.holder.isNone
  | _ => d.holder.all (· = client)

/-- The answer of the table. What frames a transaction does not touch its rows. -/
def respond (c : Circumstances) (s : Statement) (t : EventTable) :
    Except DbError s.Answer × EventTable :=
  if s.isFrame = true then (((EventTable.database c.truthful).answer s t).1, t.tick)
  else (EventTable.database c.truthful).answer s t

/-- Who holds which table after an exchange. -/
def after (d : SerialTable) (client : Nat) (t : EventTable) : Exchange → SerialTable
  | ⟨.begin, .ok _⟩ => ⟨t, some client⟩
  | ⟨.begin, .error _⟩ => ⟨t, d.holder⟩
  | ⟨.commit, answer⟩ => ⟨close t answer.isOk, none⟩
  | ⟨.rollback, _⟩ => ⟨close t false, none⟩
  | e =>
      match d.holder with
      | some _ => ⟨t, d.holder⟩
      | none => ⟨close t !e.failed, none⟩

/-- The database. -/
def database (c : Circumstances) : SharedDatabase SerialTable where
  answer client s d :=
    if d.isFree client s = true then
      (some (respond c s d.table).1,
        d.after client (respond c s d.table).2 ⟨s, (respond c s d.table).1⟩)
    else (none, d)

variable {c : Circumstances} {client : Nat} {s : Statement} {t : EventTable}
  {rows before : List StoredEvent} {d : SerialTable} {r : Record}

/-! ## A statement -/

/-- An exchange with the table, for the record. -/
theorem replay_respond (c : Circumstances) (s : Statement) (t : EventTable) :
    Replay c t [⟨s, (respond c s t).1⟩] (respond c s t).2 := by
  unfold respond
  cases frame : s.isFrame with
  | true => exact .frame frame (.nil _)
  | false => exact .answered frame rfl (.nil _)

/-- In a transaction, what is stored stays. -/
theorem respond_working (c : Circumstances) (s : Statement) (there : t.working = some rows) :
    (respond c s t).2.stored = t.stored ∧ ∃ rows', (respond c s t).2.working = some rows' := by
  unfold respond
  split
  · exact ⟨rfl, rows, there⟩
  · rename_i plain
    by_cases leaves : EventTable.leavesRows s = true
    · rw [EventTable.snd_answer_of_leavesRows leaves]
      exact ⟨rfl, rows, there⟩
    · cases s with
      | insertEvent draft =>
          rcases EventTable.answer_insertEvent c.truthful draft t with
            ⟨_, _, _, -, -, done⟩ | ⟨e, failed⟩
          · rw [done, EventTable.write_of_working (t := t.tick) there]
            exact ⟨rfl, _, rfl⟩
          · rw [failed]
            exact ⟨rfl, rows, there⟩
      | deleteEvent _ | closeGap _ _ | deleteStream _ =>
          rcases EventTable.answer_cases c.truthful _ t with done | ⟨e, failed⟩
          · rw [done, EventTable.perform, EventTable.write_of_working (t := t.tick) there]
            exact ⟨rfl, _, rfl⟩
          · rw [failed]
            exact ⟨rfl, rows, there⟩
      | begin | commit | rollback => exact absurd rfl plain
      | _ => exact absurd rfl leaves

/-! ## The record -/

/-- The rows at the end of a transaction. -/
theorem serial_close (tx : Transaction) {t₀ : EventTable} (there : t₀.working = some t.stored)
    (replay : Replay c t₀ tx.exchanges t) (working : t.working = some rows) :
    Serial t.stored [tx] (close t tx.committed).stored ∧
      (close t tx.committed).working = some (close t tx.committed).stored := by
  have turns : tx.Turns t.stored rows := ⟨c, t₀, t, there, replay, working⟩
  unfold close
  cases good : tx.committed with
  | true =>
      rw [if_pos rfl, EventTable.visible_of_working working]
      exact ⟨.committed good turns (.nil _), rfl⟩
  | false =>
      rw [if_neg Bool.false_ne_true]
      exact ⟨.undone good turns (.nil _), rfl⟩

/-- The record is a serial order up to the stored rows, and the open transaction has led to
the rows it works on. -/
structure Invariant (c : Circumstances) (before : List StoredEvent) (d : SerialTable) (r : Record) :
    Prop where
  serial : Serial before r.ended d.table.stored
  holds : ∀ client, (r.current client).isSome = true ↔ d.holder = some client
  turn : ∀ client, d.holder.all (· = client) = true →
    ∃ t rows, t.working = some d.table.stored ∧
      Replay c t ((r.current client).getD []) d.table ∧ d.table.working = some rows

theorem Invariant.begins (c : Circumstances) (stored : List StoredEvent) :
    Invariant c stored { table := { stored, working := some stored } } {} where
  serial := .nil stored
  holds _ := ⟨nofun, nofun⟩
  turn _ _ := ⟨_, stored, rfl, .nil _, rfl⟩

/-- Between transactions, no client has an open one. -/
theorem Invariant.current_of_idle (h : Invariant c before d r) (idle : d.holder = none)
    (client : Nat) : r.current client = none := by
  rw [← Option.not_isSome_iff_eq_none, h.holds client, idle]
  exact nofun

section

variable (h : Invariant c before d r) (free : d.holder.all (· = client) = true)

include h free

/-- No other client has an open transaction. -/
theorem Invariant.current_of_ne {other : Nat} (apart : other ≠ client) :
    r.current other = none := by
  cases found : r.current other with
  | none => rfl
  | some es =>
      have mine := (h.holds other).1 (by rw [found]; rfl)
      rw [mine] at free
      exact absurd (of_decide_eq_true free) apart

/-- A transaction ends. -/
theorem Invariant.ends {e : Exchange} (replay : Replay c d.table [e] t)
    (kept : t.stored = d.table.stored) (working : t.working = some rows) (good : Bool) :
    Invariant c before ⟨close t good, none⟩
      ⟨Function.update r.current client none,
        r.ended ++ [⟨client, (r.current client).getD [] ++ [e], good⟩]⟩ := by
  obtain ⟨t₀, _, there, led, -⟩ := h.turn client free
  have closed := serial_close ⟨client, (r.current client).getD [] ++ [e], good⟩
    (kept ▸ there) (led.append replay) working
  have idle : ∀ other, Function.update r.current client none other = none := by
    intro other
    by_cases mine : other = client
    · rw [mine, Function.update_self]
    · rw [Function.update_of_ne mine, h.current_of_ne free mine]
  refine ⟨(kept ▸ h.serial).append closed.1, fun other => ?_, fun other _ => ?_⟩
  · show (Function.update r.current client none other).isSome = true ↔ _
    rw [idle other]
    exact ⟨nofun, nofun⟩
  · show ∃ t rows, _ ∧ Replay c t ((Function.update r.current client none other).getD []) _ ∧ _
    rw [idle other]
    exact ⟨_, _, closed.2, .nil _, closed.2⟩

/-- The client goes on with its transaction. -/
theorem Invariant.goes {es : List Exchange} {t₀ : EventTable} (there : t₀.working = some t.stored)
    (led : Replay c t₀ es t) (kept : t.stored = d.table.stored) (working : t.working = some rows) :
    Invariant c before ⟨t, some client⟩ ⟨Function.update r.current client (some es), r.ended⟩ := by
  refine ⟨kept ▸ h.serial, fun other => ?_, fun other free' => ?_⟩
  · show (Function.update r.current client (some es) other).isSome = true ↔ some client = some other
    by_cases mine : other = client
    · rw [mine, Function.update_self]
      exact ⟨fun _ => rfl, fun _ => rfl⟩
    · rw [Function.update_of_ne mine, h.current_of_ne free mine]
      exact ⟨nofun, fun same => absurd (Option.some.inj same).symm mine⟩
  · obtain rfl : client = other := of_decide_eq_true free'
    show ∃ t₀ rows, _ ∧
      Replay c t₀ ((Function.update r.current client (some es) client).getD []) t ∧ _
    rw [Function.update_self]
    exact ⟨t₀, rows, there, led, working⟩

end

theorem all_of_isFree (free : d.isFree client s = true) : d.holder.all (· = client) = true := by
  unfold isFree at free
  split at free
  · rw [Option.isNone_iff_eq_none.1 free]
    rfl
  · exact free

theorem after_of_not_isBoundary {e : Exchange} (h : e.statement.isBoundary = false) :
    d.after client t e =
      match d.holder with
      | some _ => ⟨t, d.holder⟩
      | none => ⟨close t !e.failed, none⟩ := by
  obtain ⟨statement, answer⟩ := e
  cases statement <;> first | rfl | cases h

/-- A statement in an open transaction, or one by itself. -/
theorem Invariant.inside (h : Invariant c before d r) {e : Exchange}
    (free : d.holder.all (· = client) = true) (inside : e.statement.isBoundary = false)
    (replay : Replay c d.table [e] t) (kept : t.stored = d.table.stored)
    (working : t.working = some rows) :
    Invariant c before (d.after client t e) (r.add client e) := by
  obtain ⟨t₀, _, there, led, -⟩ := h.turn client free
  rw [after_of_not_isBoundary inside]
  unfold Record.add
  cases held : d.holder with
  | some other =>
      -- who may send while a transaction is open is its client
      rw [held] at free
      obtain rfl : other = client := of_decide_eq_true free
      obtain ⟨es, current⟩ := Option.isSome_iff_exists.1 ((h.holds other).2 held)
      rw [current] at led ⊢
      rw [Transaction.extend_some inside, List.append_nil]
      exact h.goes (held ▸ free) (kept ▸ there) (led.append replay) kept working
  | none =>
      have ended := h.ends free replay kept working !e.failed
      rw [h.current_of_idle held client] at ended ⊢
      rw [Transaction.extend_none inside]
      exact ended

/-- A transaction begins, or time passes. -/
theorem Invariant.begin (h : Invariant c before d r) (idle : d.holder = none)
    (answer : Except DbError Unit) :
    Invariant c before (d.after client d.table.tick ⟨.begin, answer⟩)
      (r.add client ⟨.begin, answer⟩) := by
  have free : ∀ client, d.holder.all (· = client) = true := fun client => by rw [idle]; rfl
  have fresh : d.table.tick.working = some d.table.tick.stored := by
    obtain ⟨t, _, there, led, -⟩ := h.turn client (free client)
    rw [h.current_of_idle idle client] at led
    cases led
    exact there
  unfold Record.add
  cases answer with
  | ok _ =>
      show Invariant c before ⟨d.table.tick, some client⟩
        ⟨Function.update r.current client (some []), r.ended ++ []⟩
      rw [List.append_nil]
      exact h.goes (free client) fresh (.nil _) rfl fresh
  | error e =>
      show Invariant c before ⟨d.table.tick, d.holder⟩
        ⟨Function.update r.current client (r.current client), r.ended ++ []⟩
      rw [List.append_nil, Function.update_eq_self]
      refine ⟨h.serial, h.holds, fun other _ => ?_⟩
      rw [h.current_of_idle idle other]
      exact ⟨_, _, fresh, .nil _, fresh⟩

/-- One case for each kind of statement: the begin of a transaction, its two ends, and what
is inside of one or stands alone. -/
theorem Invariant.answer (h : Invariant c before d r) (free : d.isFree client s = true) :
    Invariant c before
      (d.after client (respond c s d.table).2 ⟨s, (respond c s d.table).1⟩)
      (r.add client ⟨s, (respond c s d.table).1⟩) := by
  have mine := all_of_isFree free
  obtain ⟨_, _, -, -, working⟩ := h.turn client mine
  have replay := replay_respond c s d.table
  obtain ⟨kept, _, working⟩ := respond_working c s working
  cases boundary : s.isBoundary with
  | false => exact h.inside mine boundary replay kept working
  | true =>
      cases s with
      | begin => exact h.begin (Option.isNone_iff_eq_none.1 free) _
      | commit => exact h.ends mine replay kept working _
      | rollback => exact h.ends mine replay kept working false
      | _ => cases boundary

/-- Whatever clients do on a table that has one transaction open at a time, and in any order
of turns, their record is serialized, in the order in which the transactions have ended. -/
theorem serialized {α : Type} (c : Circumstances) (stored : List StoredEvent)
    (programs : Nat → Program α) (turns : List Nat) :
    let x : Crowd α SerialTable := ⟨programs, { table := { stored, working := some stored } }⟩
    (x.record (database c) turns).Serialized stored (x.record (database c) turns).ended
      (x.run (database c) turns).database.table.stored := by
  intro x
  have step : ∀ client s (d : SerialTable × Record), Invariant c stored d.1 d.2 →
      Invariant c stored ((database c).recorded.answer client s d).2.1
        ((database c).recorded.answer client s d).2.2 := by
    intro client s d h
    unfold SharedDatabase.recorded database
    by_cases free : d.1.isFree client s = true
    · simp only [free, if_true]
      exact h.answer free
    · simp only [free]
      exact h
  have kept := Crowd.run_keeps (I := fun d : SerialTable × Record => Invariant c stored d.1 d.2)
    step turns (x.withRecord {}) (.begins c stored)
  rw [Crowd.run_withRecord_eq] at kept
  exact ⟨⟨[], by rw [List.append_nil], fun _ there => nomatch there⟩, kept.serial⟩

end SerialTable

end EventJournal

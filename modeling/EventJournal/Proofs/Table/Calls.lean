import EventJournal.Proofs.Sends
import EventJournal.Proofs.Table
import EventJournal.Proofs.Transaction.Attempts

/-!
# What a call makes of a table of events

The table outside of a transaction is told by the stored rows, the last position drawn and
the count of rows that were stored unheard; `Keeps` is a property of these three. Through
a transaction it is kept until the commit. What the commit makes of it is told by what the
unit of the call has reached by then (`ends_inTransaction_of_unit`).

The catalog sends no statement that changes rows of events, so its transactions keep
everything, also where the answer to their commit is lost.

## Main results

* `EventTable.ends_inTransaction_of_unit` — the two ways in which a unit takes effect.
* `EventTable.ends_ensure_keeps` — the catalog leaves the rows of events alone.
-/

namespace EventJournal

namespace EventTable

open EventJournal.Action

variable {σ α : Type} {c : Circumstances} {P : List StoredEvent → Nat → Nat → Prop} {s : σ}
  {t : EventTable}

/-! ## Statements -/

theorem leavesRows_of_isOfCatalog {statement : Statement} (h : statement.isOfCatalog = true) :
    leavesRows statement = true := by
  cases statement <;> first | rfl | cases h

theorem leavesRows_of_isLookup {statement : Statement} (h : statement.isLookup = true) :
    leavesRows statement = true :=
  leavesRows_of_isOfCatalog (Statement.isOfCatalog_of_isLookup h)

/-- A statement that leaves the rows alone, by the two kinds of answers. -/
theorem ends_ask_of_leavesRows {statement : Statement} (h : leavesRows statement = true)
    {ok : statement.Answer → σ → EventTable → Prop} {bad : Abort → σ → EventTable → Prop}
    (answered : c.fault t.clock = none → ok (c.reading t.clock t.visible statement) s t.tick)
    (failed : ∀ e, c.fault t.clock = some e → bad (.error e.toJournalError) s t.tick) :
    Ends (database c) (ask statement) s t ok bad := by
  have answer := answer_of_leavesRows h c t
  cases fault : c.fault t.clock with
  | none =>
      rw [fault] at answer
      exact (ends_ask_of_ok answer).2 (answered fault)
  | some e =>
      rw [fault] at answer
      exact (ends_ask_of_error answer).2 (failed e fault)

/-- A statement that replaces the rows, by the two kinds of answers. -/
theorem ends_ask_of_write {statement : Statement} {f : List StoredEvent → List StoredEvent}
    {rows : List StoredEvent} (ne : statement ≠ .commit)
    (means : ∀ now t, ∃ answer, perform c now t statement = (.ok answer, t.write (f t.visible)))
    (there : t.working = some rows) {ok : statement.Answer → σ → EventTable → Prop}
    {bad : Abort → σ → EventTable → Prop}
    (answered : ∀ answer, ok answer s { t.tick with working := some (f rows) })
    (failed : ∀ e : DbError, bad (.error e.toJournalError) s t.tick) :
    Ends (database c) (ask statement) s t ok bad := by
  have result : (∃ answer, (database c).answer statement t =
      (.ok answer, { t.tick with working := some (f rows) })) ∨
      ∃ e, (database c).answer statement t = (.error e, t.tick) := by
    rcases answer_cases c statement t with done | ⟨e, failed⟩
    · obtain ⟨answer, meant⟩ := means t.clock t.tick
      refine .inl ⟨answer, ?_⟩
      rw [done, meant, write_of_working (t := t.tick) there, visible_tick, visible_of_working there]
    · exact .inr ⟨e, by rw [failed, afterFault_of_ne ne]⟩
  rcases result with ⟨answer, done⟩ | ⟨e, failure⟩
  · exact (ends_ask_of_ok done).2 (answered answer)
  · exact (ends_ask_of_error failure).2 (failed e)

/-! ## Transactions -/

/-- What is stored has a property. -/
def Keeps (P : List StoredEvent → Nat → Nat → Prop) (t : EventTable) : Prop :=
  P t.stored t.lastDrawn t.unacknowledged

theorem keeps_of_leavesRows (statement : Statement) (h : leavesRows statement = true)
    (t : EventTable) (keeps : Keeps P t) : Keeps P ((database c).answer statement t).2 := by
  rw [snd_answer_of_leavesRows h]
  exact keeps

theorem keeps_rollback (keeps : Keeps P t) : Keeps P ((database c).answer .rollback t).2 := by
  rcases answer_cases c .rollback t with done | ⟨e, failed⟩
  · rw [done]
    exact keeps
  · rw [failed]
    exact keeps

/-- A transaction begins with the stored rows, or not at all. -/
theorem ends_begin (keeps : Keeps P t) :
    Ends (database c) (ask .begin) s t (fun _ _ t => t.working = some t.stored ∧ Keeps P t)
      (fun _ _ t => Keeps P t) := by
  rcases answer_cases c .begin t with done | ⟨e, failed⟩
  · exact (ends_ask_of_ok done).2 ⟨rfl, keeps⟩
  · exact (ends_ask_of_error failed).2 keeps

theorem toJournalError_of_isConnectionLoss {e : DbError} (h : e.isConnectionLoss = true) :
    e.toJournalError = .connectionLost e.message := by
  have other : e.isConflict = false := by
    cases conflict : e.isConflict with
    | false => rfl
    | true =>
        cases e with
        | database code text =>
            rcases Bool.or_eq_true_iff.1 conflict with code | code <;>
              cases of_decide_eq_true code <;> exact absurd h Bool.false_ne_true
        | _ => cases conflict
  rw [DbError.toJournalError, other, h]
  rfl

/-- A commit, by its three kinds of answers. -/
theorem ends_commit {ok : Unit → σ → EventTable → Prop} {bad : Abort → σ → EventTable → Prop}
    (done : ok () s t.tick.commit) (failed : ∀ cause, bad cause s t.tick)
    (unheard : ∀ text, bad (.error (.connectionLost text)) s t.tick.commitUnheard) :
    Ends (database c) (ask .commit) s t ok bad := by
  rcases answer_commit c t with answer | ⟨e, answer | ⟨lost, answer⟩⟩
  · exact (ends_ask_of_ok answer).2 done
  · exact (ends_ask_of_error answer).2 (failed _)
  · rw [ends_ask_of_error answer, toJournalError_of_isConnectionLoss lost]
    exact unheard _

/-- A unit that has run is followed by the commit. Whatever else happens before keeps what
was stored. -/
theorem ends_inTransaction_of_commit {isolation : Isolation} {unit : Action σ α}
    {ok : α → σ → EventTable → Prop} {bad : Abort → σ → EventTable → Prop}
    (reached : α → EventTable → Prop)
    (runs : ∀ s t, t.working = some t.stored → Keeps P t →
      Ends (database c) unit s t (fun value _ t => Keeps P t ∧ reached value t)
        (fun _ _ t => Keeps P t))
    (commits : ∀ value s t, Keeps P t → reached value t →
      Ends (database c) (ask .commit) s t (fun _ s t => ok value s t) bad)
    (kept : ∀ cause s t, Keeps P t → bad cause s t) (keeps : Keeps P t) :
    Ends (database c) (inTransaction isolation unit) s t ok bad := by
  rw [ends_inTransaction]
  refine (ends_begin keeps).mono ?_ fun _ _ _ keeps => kept _ _ _ keeps
  intro _ s t got
  obtain ⟨fresh, keeps⟩ := got
  refine ends_ask_of_leavesRows rfl (fun _ => ?_) fun _ _ => ?_
  · refine (runs s t.tick fresh keeps).mono ?_ fun _ _ _ keeps => kept _ _ _ (keeps_rollback keeps)
    intro value s t got
    exact commits value s t got.1 got.2
  · exact kept _ _ _ (keeps_rollback (t := t.tick) keeps)

/-- A unit that has run takes effect at the commit, also where the answer to it is lost.
Whatever else happens keeps what was stored. -/
theorem ends_inTransaction_of_unit {isolation : Isolation} {unit : Action σ α}
    (reached : α → EventTable → Prop)
    (runs : ∀ s t, t.working = some t.stored → Keeps P t →
      Ends (database c) unit s t (fun value _ t => Keeps P t ∧ reached value t)
        (fun _ _ t => Keeps P t))
    (keeps : Keeps P t) :
    Ends (database c) (inTransaction isolation unit) s t
      (fun value _ t' => ∃ u, reached value u ∧ t' = u.tick.commit)
      (fun cause _ t' => Keeps P t' ∨ ∃ value u text, reached value u ∧
        cause = .error (.connectionLost text) ∧ t' = u.tick.commitUnheard) := by
  refine ends_inTransaction_of_commit reached runs ?_ (fun _ _ _ keeps => .inl keeps) keeps
  intro value s t keeps reached
  refine ends_commit ?_ ?_ ?_
  · exact ⟨t, reached, rfl⟩
  · exact fun _ => .inl keeps
  · exact fun text => .inr ⟨value, t, text, reached, rfl, rfl⟩

/-! ## The catalog -/

theorem stored_commit (h : t.working = some t.stored) : t.tick.commit.stored = t.stored :=
  visible_of_working h

theorem unacknowledged_commitUnheard (h : t.working = some t.stored) :
    t.tick.commitUnheard.unacknowledged = t.unacknowledged := by
  show t.unacknowledged + (t.visible.length - t.stored.length) = t.unacknowledged
  rw [visible_of_working h, Nat.sub_self, Nat.add_zero]

/-- A unit that sends nothing that changes rows changes nothing. -/
theorem ends_inTransaction_of_sends {isolation : Isolation} {unit : Action σ α}
    (sends : unit.Sends (leavesRows · = true)) (keeps : Keeps P t) :
    Ends (database c) (inTransaction isolation unit) s t (fun _ _ t => Keeps P t)
      (fun _ _ t => Keeps P t) := by
  have quiet : ∀ statement, leavesRows statement = true → ∀ t,
      t.working = some t.stored ∧ Keeps P t →
        ((database c).answer statement t).2.working =
          some ((database c).answer statement t).2.stored ∧
        Keeps P ((database c).answer statement t).2 := by
    intro statement allowed t h
    rw [snd_answer_of_leavesRows allowed]
    exact h
  refine Ends.mono (ends_inTransaction_of_unit
    (fun _ t => t.working = some t.stored ∧ Keeps P t) ?_ keeps) ?_ ?_
  · intro s t fresh keeps
    exact (Ends.of_sends quiet sends ⟨fresh, keeps⟩).mono (fun _ _ _ h => ⟨h.2, h⟩)
      fun _ _ _ h => h.2
  · intro value s _ got
    obtain ⟨t, ⟨fresh, keeps⟩, rfl⟩ := got
    unfold Keeps
    rw [stored_commit fresh]
    exact keeps
  · intro cause s t got
    rcases got with keeps | ⟨value, t, text, ⟨fresh, keeps⟩, -, rfl⟩
    · exact keeps
    · unfold Keeps
      rw [unacknowledged_commitUnheard fresh]
      exact (stored_commit fresh).symm ▸ keeps

/-- The catalog leaves the rows of events alone. -/
theorem ends_ensure_keeps (config : CatalogConfig) (key : LeafKey) (s : LeafCache)
    (keeps : Keeps P t) :
    Ends (database c) (Catalog.ensure config key) s t (fun _ _ t => Keeps P t)
      (fun _ _ t => Keeps P t) := by
  unfold Catalog.ensure
  rw [ends_bind]
  refine (Ends.of_sends keeps_of_leavesRows
    ((Catalog.sends_findLeaf key).mono fun _ => leavesRows_of_isLookup) keeps).mono ?_
    fun _ _ _ keeps => keeps
  intro found s t keeps
  cases found with
  | some leaf => exact (ends_pure leaf).2 keeps
  | none =>
      simp only [ends_bind, ends_modify, ends_pure]
      refine Ends.transact_keeps ?_ ?_ s t keeps
      · exact fun s t keeps =>
          ends_inTransaction_of_sends
            ((Catalog.sends_ensurePath config key).mono fun _ => leavesRows_of_isOfCatalog) keeps
      · intro f there
        cases there

/-- To heal missing partitions leaves the rows of events alone. -/
theorem ends_healer_keeps (config : CatalogConfig) (stream : Stream) (types : List String)
    (s : LeafCache) (keeps : Keeps P t) :
    Ends (database c) (Catalog.healer config stream types) s t (fun _ _ t => Keeps P t)
      (fun _ _ t => Keeps P t) := by
  refine Ends.forM (fun _ _ t => Keeps P t) ?_ types s t keeps
  intro type rest s t keeps
  rw [ends_bind]
  exact (ends_ensure_keeps config _ s keeps).mono (fun _ _ _ keeps => (ends_pure ()).2 keeps)
    fun _ _ _ keeps => keeps

/-- To look up the leaves of events leaves the rows alone. -/
theorem ends_locate_keeps (events : List Event) :
    ∀ known s t, Keeps P t → Ends (database c) (Journal.locate known events) s t
      (fun _ _ t => Keeps P t) (fun _ _ t => Keeps P t) := by
  induction events with
  | nil => exact fun known s t keeps => (ends_pure known).2 keeps
  | cons event rest ih =>
      intro known s t keeps
      unfold Journal.locate
      split
      · rw [ends_bind]
        refine (Ends.of_sends keeps_of_leavesRows
          ((Catalog.sends_findLeaf _).mono fun _ => leavesRows_of_isLookup) keeps).mono ?_
          fun _ _ _ keeps => keeps
        intro found s t keeps
        cases found with
        | some leaf => exact ih _ s t keeps
        | none => exact (ends_fail _).2 keeps
      · exact (ends_fail _).2 keeps

end EventTable

end EventJournal

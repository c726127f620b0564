import EventJournal.Proofs.Table.Calls

/-!
# Changes, one after the other

A `Change` is a call of a journal that may change the rows of events. Calls follow one
another, each by a journal of its own, whatever has become of those before.

## Main results

* `EventTable.ends_performAll_holds` — a property that the three kinds of units establish
  holds of the stored rows after any sequence of changes.
-/

namespace EventJournal

/-- A call that may change rows of events. -/
inductive Change where
  | append (transform : EventTransform) (batch : Batch)
  | appendMany (batches : List Batch)
  | linkTo (targets : Batch)
  | deleteEvent (event : Event) (force : Bool)
  | deleteStream (stream : Stream)

namespace Change

def perform (j : Journal) : Change → Action LeafCache Unit
  | .append transform batch => do
      let _ ← j.appendWith transform batch
  | .appendMany batches => do
      let _ ← j.appendMany batches
  | .linkTo targets => do
      let _ ← j.linkTo targets
  | .deleteEvent event force => do
      let _ ← j.deleteEvent event force
  | .deleteStream stream => do
      let _ ← j.deleteStream stream

/-- Changes one after the other, those that fail included. -/
def performAll (changes : List (Journal × Change)) : Action LeafCache Unit :=
  changes.forM fun (j, change) => do
    let _ ← Action.outcome (change.perform j)

end Change

namespace EventTable

open EventJournal.Action

variable {c : Circumstances} {P : List StoredEvent → Nat → Prop}

/-- The stored rows have a property, which may speak of the last position drawn. -/
def Holds (P : List StoredEvent → Nat → Prop) (t : EventTable) : Prop := P t.stored t.lastDrawn

/-- A transaction is open, and its rows and the stored ones have the property. -/
structure Works (P : List StoredEvent → Nat → Prop) (t : EventTable) : Prop where
  holds : Holds P t
  working : ∃ rows, t.working = some rows ∧ P rows t.lastDrawn

theorem Works.tick {t : EventTable} (h : Works P t) : Works P t.tick := ⟨h.holds, h.working⟩

theorem Works.commit {t : EventTable} (h : Works P t) : Holds P t.tick.commit := by
  obtain ⟨rows, there, good⟩ := h.working
  unfold Holds
  rw [show t.tick.commit.stored = rows from visible_of_working there]
  exact good

/-- The unit of a call turns working rows with the property into such rows. -/
def Establishes (c : Circumstances) (P : List StoredEvent → Nat → Prop) {α : Type}
    (unit : Action LeafCache α) : Prop :=
  ∀ s t, Works P t →
    Ends (database c) unit s t (fun _ _ t => Works P t) (fun _ _ t => Holds P t)

theorem Establishes.appendAll {chain : MiddlewareChain} {transform : EventTransform}
    (append : ∀ batch, Establishes c P (Batch.append chain transform batch))
    (batches : List Batch) : Establishes c P (Batch.appendAll chain transform batches) := by
  unfold Batch.appendAll
  induction batches with
  | nil =>
      intro s t works
      rw [ends_mapM_nil]
      exact works
  | cons batch rest ih =>
      intro s t works
      rw [ends_mapM_cons]
      refine (append batch s t works).mono ?_ fun _ _ _ holds => holds
      exact fun _ s t works => ih s t works

/-- The call of a unit keeps what the unit establishes. -/
theorem Establishes.ends_transact {α : Type} {unit : Action LeafCache α}
    (h : Establishes c P unit) (j : Journal) (s : LeafCache) (t : EventTable)
    (holds : Holds P t) :
    Ends (database c) (j.transact unit) s t (fun _ _ t => Holds P t) (fun _ _ t => Holds P t) := by
  refine Ends.transact_keeps ?_ ?_ s t holds
  · intro s t holds
    refine Ends.mono (ends_inTransaction_of_unit (P := fun rows lastDrawn _ => P rows lastDrawn)
      (fun _ t => Works P t) ?_ holds) ?_ ?_
    · intro s t fresh holds
      exact (h s t ⟨holds, _, fresh, holds⟩).mono (fun _ _ _ works => ⟨works.holds, works⟩)
        fun _ _ _ holds => holds
    · intro value s _ got
      obtain ⟨t, works, rfl⟩ := got
      exact works.commit
    · intro cause s t got
      rcases got with holds | ⟨value, t, text, works, -, rfl⟩
      · exact holds
      · exact works.commit
  · intro f there stream types s t holds
    cases there
    exact ends_healer_keeps (P := fun rows lastDrawn _ => P rows lastDrawn) _ stream types s holds

/-- A change keeps what the units of appends and deletions establish. -/
theorem ends_perform_holds
    (append : ∀ chain transform batch, Establishes c P (Batch.append chain transform batch))
    (deleteEvent : ∀ limit force event, Establishes c P (Event.delete limit force event))
    (deleteStream : ∀ stream, Establishes c P (Stream.delete stream))
    (j : Journal) (change : Change) (s : LeafCache) (t : EventTable) (holds : Holds P t) :
    Ends (database c) (change.perform j) s t (fun _ _ t => Holds P t) (fun _ _ t => Holds P t) := by
  cases change with
  | append transform batch =>
      simp only [Change.perform, ends_bind, ends_pure]
      exact (append _ transform batch).ends_transact j s t holds
  | appendMany batches =>
      simp only [Change.perform, ends_bind, ends_pure]
      exact (Establishes.appendAll (append _ .ok) batches).ends_transact j s t holds
  | deleteEvent event force =>
      simp only [Change.perform, ends_bind, ends_pure]
      exact (deleteEvent _ force event).ends_transact j s t holds
  | deleteStream stream =>
      simp only [Change.perform, ends_bind, ends_pure]
      exact (deleteStream stream).ends_transact j s t holds
  | linkTo targets =>
      simp only [Change.perform, Journal.linkTo, ends_bind, ends_pure]
      refine Ends.check (fun _ _ => ?_) fun _ _ => holds
      refine (ends_locate_keeps (P := fun rows lastDrawn _ => P rows lastDrawn) targets.events [] s
        t holds).mono ?_ fun _ _ _ holds => holds
      exact fun partitions s t holds => (append _ _ targets).ends_transact j s t holds

/-- Changes one after the other keep what the units of appends and deletions establish. -/
theorem ends_performAll_holds
    (append : ∀ chain transform batch, Establishes c P (Batch.append chain transform batch))
    (deleteEvent : ∀ limit force event, Establishes c P (Event.delete limit force event))
    (deleteStream : ∀ stream, Establishes c P (Stream.delete stream))
    (changes : List (Journal × Change)) (s : LeafCache) (t : EventTable) (holds : Holds P t) :
    Ends (database c) (Change.performAll changes) s t (fun _ _ t => Holds P t)
      (fun _ _ t => Holds P t) := by
  refine Ends.forM (fun _ _ t => Holds P t) ?_ changes s t holds
  rintro ⟨j, change⟩ rest s t holds
  simp only [ends_bind, ends_outcome, ends_pure]
  exact ends_perform_holds append deleteEvent deleteStream j change s t holds

end EventTable

end EventJournal

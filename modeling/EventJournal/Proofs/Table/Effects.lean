import EventJournal.Proofs.Table.Appends

/-!
# The effect of a unit of work on rows

A unit of work is one complete run between the begin of a transaction and its commit. What
such a run makes of the rows it sees is told without a word about statements: `Effect` of a
batch, `Effects` of batches one after the other, and the `Deletion` of an event. `Performs`
ties a unit to its effect over a table whose rows answer for themselves; a unit that ends
without a result has left what is stored alone.

## Main results

* `EventTable.performs_append`, `EventTable.performs_appendAll` — appends.
* `EventTable.performs_delete`, `EventTable.performs_deleteStream` — deletions.
-/

namespace EventJournal

/-- The last revision of a stream among rows, if there is one. -/
def Stream.lastIn (stream : Stream) (rows : List StoredEvent) : Option Int32 :=
  (Circumstances.lastRevision stream rows).head?

namespace Batch

/-- What it is to append a batch to rows: the stream is as expected, the events of the
batch, as they are stored, follow the rows under the next revisions, and the events
returned are what the middlewares make of the new rows. -/
structure Effect (chain : MiddlewareChain) (transform : EventTransform) (batch : Batch)
    (rows : List StoredEvent) (events : List Event) (rows' : List StoredEvent) : Prop where
  allowed : checkStream batch.stream = .ok ()
  expected : batch.expected.validate batch.stream (batch.stream.lastIn rows) = .ok ()
  added : ∃ prepared first added, prepare transform chain batch.events = .ok prepared ∧
    Revision.next? (batch.stream.lastIn rows) = some first ∧
    StoredEvent.HoldAll batch.stream first.toInt prepared added ∧
    MiddlewareChain.outcome (chain.deserializeAll (added.map StoredEvent.toEvent)) = .ok events ∧
    rows' = rows ++ added

/-- Batches are appended one after the other. -/
inductive Effects (chain : MiddlewareChain) (transform : EventTransform) :
    List Batch → List StoredEvent → List (List Event) → List StoredEvent → Prop
  | nil (rows : List StoredEvent) : Effects chain transform [] rows [] rows
  | cons {batch : Batch} {batches : List Batch} {events : List Event}
      {results : List (List Event)} {rows rows' rows'' : List StoredEvent}
      (first : batch.Effect chain transform rows events rows')
      (rest : Effects chain transform batches rows' results rows'') :
      Effects chain transform (batch :: batches) rows (events :: results) rows''

end Batch

/-- What it is to delete an event: it is not among the rows, or its row goes and the later
revisions of the stream are lowered by one, as far as that many rows may be renumbered. -/
inductive Event.Deletion (limit : Int64) (force : Bool) (event : Event)
    (rows : List StoredEvent) : Bool → List StoredEvent → Prop
  | missing {address : EventAddress} (there : event.address? = some address)
      (none : ∀ row ∈ rows, ¬(row.isAt address = true ∧ row.id = address.id)) :
      Deletion limit force event rows false rows
  | deleted {address : EventAddress} {row : StoredEvent} (there : event.address? = some address)
      (member : row ∈ rows) (found : row.isAt address = true ∧ row.id = address.id)
      (allowed : checkRenumbering address.stream
        (Int64.ofNat (rows.countP (·.isLater row.stream row.streamRevision))) limit force =
          .ok ()) :
      Deletion limit force event rows true
        ((rows.filter (!·.isAt row.address)).map (·.moveUp row.stream row.streamRevision))

namespace EventTable

open EventJournal.Action

variable {c : Circumstances} {σ α : Type} {s : σ} {t u : EventTable}

/-- A run of the unit in an open transaction has the effect on its rows, or it ends and
leaves what is stored alone. -/
def Performs (c : Circumstances) (unit : Action σ α)
    (effect : List StoredEvent → α → List StoredEvent → Prop) : Prop :=
  ∀ s t rows, t.working = some rows →
    Ends (database c) unit s t
      (fun value _ u => u.stored = t.stored ∧
        ∃ rows', u.working = some rows' ∧ effect rows value rows')
      (fun _ _ u => u.stored = t.stored)

/-! ## Appends -/

/-- Where the rows answer for the last revision, an append that has succeeded has had its
effect. -/
theorem Appended.effect {chain : MiddlewareChain} {transform : EventTransform} {batch : Batch}
    {events : List Event} {added : List StoredEvent}
    (h : Appended c.truthful chain transform batch t events added u) :
    batch.Effect chain transform t.visible events (t.visible ++ added) := by
  have expected := h.expected
  have held := h.held
  have last : lastRead c.truthful t batch.stream = batch.stream.lastIn t.visible := by
    rw [lastRead, Circumstances.reading_lastRevision]
    rfl
  rw [last] at expected held
  obtain ⟨prepared, first, shaped, next, held⟩ := held
  exact ⟨h.allowed, expected, prepared, first, added, shaped, next, held, h.returned, rfl⟩

theorem performs_append (chain : MiddlewareChain) (transform : EventTransform) (batch : Batch) :
    Performs c.truthful (batch.append chain transform : Action σ _)
      (batch.Effect chain transform) := by
  intro s t rows there
  have visible := visible_of_working there
  apply Ends.mono (ends_append chain transform batch there)
  · intro events s u got
    obtain ⟨added, appended⟩ := got
    have effect := appended.effect
    have working := appended.grown.working
    rw [visible] at effect working
    exact ⟨appended.grown.stored, _, working, effect⟩
  · exact fun _ _ _ spared => spared.stored

theorem performs_appendAll (chain : MiddlewareChain) (transform : EventTransform)
    (batches : List Batch) :
    Performs c.truthful (Batch.appendAll chain transform batches : Action σ _)
      (Batch.Effects chain transform batches) := by
  unfold Batch.appendAll
  induction batches with
  | nil =>
      intro s t rows there
      rw [ends_mapM_nil]
      exact ⟨rfl, rows, there, .nil rows⟩
  | cons batch rest ih =>
      intro s t rows there
      rw [ends_mapM_cons]
      apply Ends.mono (performs_append chain transform batch s t rows there)
      · intro events s u got
        obtain ⟨stored, rows', working, first⟩ := got
        apply Ends.mono (ih s u rows' working)
        · intro results s v got
          obtain ⟨kept, rows'', working, others⟩ := got
          exact ⟨kept.trans stored, rows'', working, .cons first others⟩
        · exact fun _ _ _ kept => kept.trans stored
      · exact fun _ _ _ stored => stored

/-! ## Deletions -/

theorem performs_delete (limit : Int64) (force : Bool) (event : Event) :
    Performs c.truthful (event.delete limit force : Action σ _)
      (fun rows value rows' => event.Deletion limit force rows value rows') := by
  intro s t rows there
  have visible := visible_of_working there
  unfold Event.delete
  cases stored : event.address? with
  | none => exact (ends_fail _).2 rfl
  | some address =>
      simp only [ends_bind]
      refine ends_ask_of_leavesRows rfl (fun _ => ?_) fun _ _ => rfl
      simp only [Circumstances.reading_reload, visible]
      split
      · rename_i none
        rw [ends_pure]
        refine ⟨rfl, rows, there, .missing stored fun row member found => ?_⟩
        have kept : row ∈ rows.filter fun row => row.isAt address && row.id = address.id :=
          List.mem_filter.2 ⟨member, by simpa using found⟩
        rw [none] at kept
        cases kept
      · -- what has been found is counted below, deleted, and closed up behind
        rename_i row others some
        have kept : row ∈ rows.filter fun row => row.isAt address && row.id = address.id := by
          rw [some]
          exact List.mem_cons_self
        obtain ⟨member, found⟩ := List.mem_filter.1 kept
        have found : row.isAt address = true ∧ row.id = address.id := by simpa using found
        have count : c.truthful.reading t.tick.clock t.tick.visible
            (.countLater row.stream row.streamRevision) =
              [Int64.ofNat (rows.countP (·.isLater row.stream row.streamRevision))] := by
          rw [visible_tick, visible]
          rfl
        simp only [ends_bind, ends_pure]
        refine ends_ask_of_leavesRows rfl (fun _ => ?_) fun _ _ => rfl
        rw [count]
        refine Ends.one (fun number none same => ?_) fun _ => rfl
        cases same
        refine Ends.check (fun _ allowed => ?_) fun _ _ => rfl
        refine ends_ask_of_write (t := t.tick.tick) (by simp) (fun _ _ => ⟨_, rfl⟩) there
          (fun _ => ?_) fun _ => rfl
        refine ends_ask_of_write (by simp) (fun _ _ => ⟨_, rfl⟩) rfl (fun _ => ?_) fun _ => rfl
        exact ⟨rfl, _, rfl, .deleted stored member found allowed⟩

theorem performs_deleteStream (stream : Stream) :
    Performs c.truthful (stream.delete : Action σ _)
      (fun rows value rows' => stream.isRegular = true ∧
        value = decide (0 < rows.countP (·.liesIn stream)) ∧
        rows' = rows.filter (!·.liesIn stream)) := by
  intro s t rows there
  have visible := visible_of_working there
  have answered : (database c.truthful).answer (.deleteStream stream) t =
      (.ok (rows.countP (·.liesIn stream)),
        { t.tick with working := some (rows.filter (!·.liesIn stream)) }) ∨
      ∃ e, (database c.truthful).answer (.deleteStream stream) t = (.error e, t.tick) := by
    rcases answer_cases c.truthful (.deleteStream stream) t with done | ⟨e, failed⟩
    · refine .inl ?_
      rw [done, perform, write_of_working (t := t.tick) there, visible_tick, visible]
    · exact .inr ⟨e, failed⟩
  unfold Stream.delete
  by_cases regular : stream.isRegular = true
  · rw [if_pos regular]
    simp only [ends_bind, ends_pure]
    rcases answered with done | ⟨e, failed⟩
    · exact (ends_ask_of_ok done).2 ⟨rfl, _, rfl, regular, rfl, rfl⟩
    · exact (ends_ask_of_error failed).2 rfl
  · rw [if_neg regular]
    exact (ends_fail _).2 rfl

end EventTable

end EventJournal

import EventJournal.Proofs.Table.Calls

/-!
# What an append does to a table

One account of an append within an open transaction, from which all that is proved about
appends is derived. An append that succeeds has added one row for each event of the batch,
under the revisions that follow the last one it has read and under positions that were
drawn one after the other (`Appended`). An append that fails may have added some of the
rows, but only to those of the open transaction (`Spared`).

## Main results

* `EventTable.ends_insertFrom` — the insertion of events, by induction on them.
* `EventTable.ends_append` — an append as a whole.
-/

namespace EventJournal

/-! ## Rows that hold events -/

namespace StoredEvent

/-- The row holds an event of a stream under a revision. -/
structure Holds (stream : Stream) (revision : Int) (event : Event) (row : StoredEvent) :
    Prop where
  place : row.liesIn stream = true
  revision : row.streamRevision.toInt = revision
  type : row.type = event.type
  data : row.data = event.data
  metadata : row.metadata = event.metadata
  linkId : row.linkId = event.linkId
  linkPartitionId : row.linkPartitionId = event.linkPartitionId
  linkGlobalPosition : row.linkGlobalPosition = event.linkGlobalPosition
  id : ∀ id, event.id = some id → row.id = id

/-- The rows hold the events one by one, under revisions that count up. -/
inductive HoldAll (stream : Stream) : Int → List Event → List StoredEvent → Prop
  | nil (revision : Int) : HoldAll stream revision [] []
  | cons {revision : Int} {event : Event} {row : StoredEvent} {events : List Event}
      {rows : List StoredEvent} (first : row.Holds stream revision event)
      (rest : HoldAll stream (revision + 1) events rows) :
      HoldAll stream revision (event :: events) (row :: rows)

theorem holds_filled {stream : Stream} {revision : Int32} {typeId : Int64} {event : Event}
    {drawn : Uuid} {position : Nat} {time : Instant} :
    (filled (Batch.draft stream revision typeId event) drawn position time).Holds stream
      revision.toInt event where
  place := by simp [liesIn, filled, ofDraft, Batch.draft]
  revision := rfl
  type := rfl
  data := rfl
  metadata := rfl
  linkId := rfl
  linkPartitionId := rfl
  linkGlobalPosition := rfl
  id id given := by
    show event.id.getD drawn = id
    rw [given, Option.getD_some]

end StoredEvent

/-- A value in range, by whether there is one. -/
theorem Batch.ends_inRange {σ α δ : Type} {db : Database δ} {s : σ} {d : δ} {found : Option α}
    {ok : α → σ → δ → Prop} {bad : Abort → σ → δ → Prop}
    (hok : ∀ value, found = some value → ok value s d) (hbad : found = none → bad .overflow s d) :
    Action.Ends db (inRange found) s d ok bad := by
  unfold inRange
  cases found with
  | none =>
      rw [Action.ends_abort]
      exact hbad rfl
  | some value =>
      rw [Action.ends_pure]
      exact hok value rfl

namespace EventTable

open EventJournal.Action

variable {c : Circumstances} {σ : Type} {s : σ} {t u v : EventTable}
  {rows added others : List StoredEvent}

/-! ## Rows that are added -/

/-- The rows have positions above the last one drawn before, each above that of the row
before it, and none above the last one drawn after. -/
def Drawn : Nat → List StoredEvent → Nat → Prop
  | before, [], after => before ≤ after
  | before, row :: rest, after =>
      ∃ position : Nat, before < position ∧ row.globalPosition.toInt = position ∧
        Drawn position rest after

theorem Drawn.le {before after : Nat} (h : Drawn before rows after) : before ≤ after := by
  induction rows generalizing before with
  | nil => exact h
  | cons row rest ih =>
      obtain ⟨position, above, -, drawn⟩ := h
      have := ih drawn
      omega

theorem Drawn.append {before between after : Nat} (h : Drawn before rows between)
    (k : Drawn between others after) : Drawn before (rows ++ others) after := by
  induction rows generalizing before with
  | nil =>
      cases others with
      | nil => exact Nat.le_trans h k
      | cons row rest =>
          obtain ⟨position, above, same, drawn⟩ := k
          exact ⟨position, Nat.lt_of_le_of_lt h above, same, drawn⟩
  | cons row rest ih =>
      obtain ⟨position, above, same, drawn⟩ := h
      exact ⟨position, above, same, ih drawn⟩

/-- What is stored is as it was, though positions may have been drawn. -/
structure Spared (t u : EventTable) : Prop where
  stored : u.stored = t.stored
  unacknowledged : u.unacknowledged = t.unacknowledged
  drawn : t.lastDrawn ≤ u.lastDrawn

theorem Spared.tick (t : EventTable) : Spared t t.tick := ⟨rfl, rfl, Nat.le_refl _⟩

theorem Spared.trans (h : Spared t u) (k : Spared u v) : Spared t v :=
  ⟨k.stored.trans h.stored, k.unacknowledged.trans h.unacknowledged,
    Nat.le_trans h.drawn k.drawn⟩

/-- Rows were added in an open transaction, under new positions. -/
structure Grown (t : EventTable) (added : List StoredEvent) (u : EventTable) : Prop where
  stored : u.stored = t.stored
  unacknowledged : u.unacknowledged = t.unacknowledged
  working : u.working = some (t.visible ++ added)
  drawn : Drawn t.lastDrawn added u.lastDrawn

theorem Grown.spared (h : Grown t added u) : Spared t u :=
  ⟨h.stored, h.unacknowledged, h.drawn.le⟩

theorem Grown.refl (there : t.working = some rows) : Grown t [] t where
  stored := rfl
  unacknowledged := rfl
  working := by rw [List.append_nil, there, visible_of_working there]
  drawn := Nat.le_refl _

/-- A statement that leaves rows alone may come first. -/
theorem Grown.of_tick (h : Grown t.tick added u) : Grown t added u :=
  ⟨h.stored, h.unacknowledged, h.working, h.drawn⟩

theorem Grown.trans (h : Grown t added u) (k : Grown u others v) : Grown t (added ++ others) v where
  stored := k.stored.trans h.stored
  unacknowledged := k.unacknowledged.trans h.unacknowledged
  working := by rw [k.working, visible_of_working h.working, List.append_assoc]
  drawn := h.drawn.append k.drawn

/-! ## Inserting events -/

/-- An insertion adds the row of the draft, or nothing. -/
theorem ends_insertEvent {draft : EventDraft} (there : t.working = some rows) :
    Ends (database c) (attempt (.insertEvent draft)) s t
      (fun answer _ u => (∃ e, answer = .error e) ∧ Spared t u ∨
        ∃ drawn position time, answer = .ok [.filled draft drawn position time] ∧
          Grown t [.filled draft drawn position time] u)
      (fun _ _ _ => False) := by
  rw [ends_of_runOn_ok (runOn_attempt _ _ _ _)]
  rcases answer_insertEvent c draft t with ⟨drawn, position, time, above, fits, done⟩ | ⟨e, failed⟩
  · have at_position := StoredEvent.toInt_globalPosition_filled fits draft drawn time
    rw [done, write_of_working (t := t.tick) there]
    refine .inr ⟨drawn, position, time, rfl, rfl, rfl, rfl, position, above, at_position, ?_⟩
    exact Nat.le_refl position
  · rw [failed]
    exact .inl ⟨⟨e, rfl⟩, .tick t⟩

/-- One event of a batch is added, or nothing. -/
theorem ends_insertOne {stream : Stream} {all : List Event} {first : Int32} {index : Nat}
    (event : Event) (there : t.working = some rows) :
    Ends (database c) (Batch.insertOne stream all first index event) s t
      (fun inserted _ u => ∃ row : StoredEvent, row.Holds stream (first.toInt + index) event ∧
        inserted = row.toEvent ∧ Grown t [row] u)
      (fun _ _ u => Spared t u) := by
  have spared : Spared t t.tick := .tick t
  unfold Batch.insertOne
  simp only [ends_bind, ends_pure]
  refine ends_ask_of_leavesRows rfl (fun _ => ?_) fun _ _ => spared
  refine Ends.one (fun typeId _ _ => ?_) fun _ => spared
  refine Batch.ends_inRange (fun revision next => ?_) fun _ => spared
  refine Ends.mono (ends_insertEvent (t := t.tick) there) ?_ fun _ _ _ never => never.elim
  intro answer s u got
  rcases got with ⟨⟨e, rfl⟩, spared⟩ | ⟨drawn, position, time, rfl, grown⟩
  · show Ends _ (check (.error _)) s u _ _
    rw [ends_check_error]
    exact (Spared.tick t).trans spared
  · show Ends _ (check (.ok _)) s u _ _
    rw [ends_check_ok]
    refine ⟨_, ?_, rfl, grown.of_tick⟩
    rw [← Revision.toInt_of_advance? next]
    exact StoredEvent.holds_filled

/-- The events of a batch from an index on are added one by one. -/
theorem ends_insertFrom {stream : Stream} {all : List Event} {first : Int32}
    (events : List Event) :
    ∀ index s t rows, t.working = some rows →
      Ends (database c) (Batch.insertFrom stream all first index events : Action σ _) s t
        (fun inserted _ u => ∃ added : List StoredEvent,
          StoredEvent.HoldAll stream (first.toInt + (index : Nat)) events added ∧
            inserted = added.map StoredEvent.toEvent ∧ Grown t added u)
        (fun _ _ u => Spared t u) := by
  induction events with
  | nil =>
      intro index s t rows there
      unfold Batch.insertFrom
      rw [ends_pure]
      exact ⟨[], .nil _, rfl, .refl there⟩
  | cons event rest ih =>
      intro index s t rows there
      unfold Batch.insertFrom
      simp only [ends_bind, ends_pure]
      refine (ends_insertOne event there).mono ?_ fun _ _ _ spared => spared
      intro _ s u got
      obtain ⟨row, holds, rfl, grown⟩ := got
      apply Ends.mono (ih (index + 1) s u _ grown.working)
      · intro _ s v got
        obtain ⟨added, all, rfl, more⟩ := got
        refine ⟨row :: added, .cons holds ?_, rfl, grown.trans more⟩
        rw [show first.toInt + (index : Int) + 1 = first.toInt + ((index + 1 : Nat) : Int) by omega]
        exact all
      · exact fun _ _ _ spared => grown.spared.trans spared

/-! ## Appending -/

/-- The last revision of a stream that an append reads. -/
def lastRead (c : Circumstances) (t : EventTable) (stream : Stream) : Option Int32 :=
  List.head? (c.reading t.tick.clock t.visible (.lastRevision stream))

/-- An append that has succeeded: its preconditions held, its rows hold the events of the
batch as they are stored, from the next revision on, and its events are what the
middlewares make of the rows. -/
structure Appended (c : Circumstances) (chain : MiddlewareChain) (transform : EventTransform)
    (batch : Batch) (t : EventTable) (events : List Event) (added : List StoredEvent)
    (u : EventTable) : Prop where
  allowed : Batch.checkStream batch.stream = .ok ()
  expected : batch.expected.validate batch.stream (lastRead c t batch.stream) = .ok ()
  held : ∃ prepared first, Batch.prepare transform chain batch.events = .ok prepared ∧
    Revision.next? (lastRead c t batch.stream) = some first ∧
      StoredEvent.HoldAll batch.stream first.toInt prepared added
  returned : MiddlewareChain.outcome (chain.deserializeAll (added.map StoredEvent.toEvent)) =
    .ok events
  grown : Grown t added u

/-- An append in an open transaction succeeds or spares what is stored. -/
theorem ends_append (chain : MiddlewareChain) (transform : EventTransform) (batch : Batch)
    (there : t.working = some rows) :
    Ends (database c) (Batch.append chain transform batch) s t
      (fun events _ u => ∃ added, Appended c chain transform batch t events added u)
      (fun _ _ u => Spared t u) := by
  have spared : Spared t t.tick.tick := (Spared.tick t).trans (.tick t.tick)
  unfold Batch.append
  simp only [ends_bind]
  refine Ends.check (fun _ allowed => ?_) fun _ _ => ⟨rfl, rfl, Nat.le_refl _⟩
  refine ends_ask_of_leavesRows rfl (fun _ => ?_) fun _ _ => .tick t
  refine ends_ask_of_leavesRows rfl (fun _ => ?_) fun _ _ => spared
  refine Ends.check (fun _ expected => ?_) fun _ _ => spared
  refine Ends.check (fun prepared shaped => ?_) fun _ _ => spared
  refine Batch.ends_inRange (fun first next => ?_) fun _ => spared
  apply Ends.mono (ends_insertFrom prepared 0 s t.tick.tick rows there)
  · intro _ s u got
    obtain ⟨added, held, rfl, grown⟩ := got
    refine Ends.check (fun events returned => ?_) fun _ _ => spared.trans grown.spared
    rw [Int.natCast_zero, Int.add_zero] at held
    exact ⟨added, allowed, expected, ⟨prepared, first, shaped, next, held⟩, returned,
      grown.of_tick.of_tick⟩
  · exact fun _ _ _ after => spared.trans after

end EventTable

end EventJournal

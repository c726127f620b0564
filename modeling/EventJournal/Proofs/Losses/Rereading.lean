import EventJournal.Proofs.Middlewares
import EventJournal.Proofs.Passes
import EventJournal.Proofs.Table.Appends

/-!
# The same events in other rows

An event that is inserted once more gets a row with another position and another time, and
with another identifier unless it brought one along. `Event.Alike` relates two events that
agree in everything else. Whether a caller sees alike events in the two rows depends on the
middlewares: one that makes something of a position shows it.

`MiddlewareChain.ReadsAlike` asks of a chain that it reads any two rows alike that hold the
same event. It speaks of whole rows, so a chain may make of the identifier what it likes as
long as the event has brought its own. Chains whose members are `Oblivious` to what is drawn
read every event alike; lossless middlewares are.

## Main results

* `MiddlewareChain.ReadsAlike.deserializeAll` — from events to lists of them.
* `MiddlewareChain.readsAlike_of_oblivious` — members that are oblivious.
* `Middleware.Lossless.oblivious` — lossless middlewares.
-/

namespace EventJournal

/-- The events agree in all but the identifier, the position and the time. -/
def Event.Alike (a b : Event) : Prop :=
  b = { a with id := b.id, globalPosition := b.globalPosition, createdAt := b.createdAt }

namespace Event.Alike

variable {a b : Event}

/-- Alike events have the same revision, and the same type, data and metadata. -/
theorem same (h : a.Alike b) : b.streamRevision = a.streamRevision ∧ b.payload = a.payload := by
  rw [h]
  exact ⟨rfl, rfl⟩

theorem withPayload (h : a.Alike b) (p : Payload) : (a.withPayload p).Alike (b.withPayload p) := by
  unfold Alike
  conv_lhs => rw [h]
  rfl

end Event.Alike

/-- Rows that hold the same event show alike events. -/
theorem StoredEvent.Holds.alike {stream : Stream} {revision : Int} {event : Event}
    {row other : StoredEvent} (h : row.Holds stream revision event)
    (k : other.Holds stream revision event) : row.toEvent.Alike other.toEvent := by
  obtain ⟨context, streamName, streamId⟩ := StoredEvent.liesIn_iff.1 h.place
  obtain ⟨context', streamName', streamId'⟩ := StoredEvent.liesIn_iff.1 k.place
  have same : other.streamRevision = row.streamRevision :=
    Int32.toInt_inj.1 (k.revision.trans h.revision.symm)
  unfold Event.Alike StoredEvent.toEvent
  rw [context, context', streamName, streamName', streamId, streamId', same, h.type, k.type,
    h.data, k.data, h.metadata, k.metadata, h.linkId, k.linkId, h.linkPartitionId,
    k.linkPartitionId, h.linkGlobalPosition, k.linkGlobalPosition]

namespace MiddlewareChain

/-- What the chain shows of an event it shows alike in every row that holds the event at the
same place. -/
def ReadsAlike (chain : MiddlewareChain) (event : Event) : Prop :=
  ∀ (stream : Stream) (revision : Int) (row other : StoredEvent),
    row.Holds stream revision event → other.Holds stream revision event →
    ∀ shown, outcome (chain.deserialize row.toEvent) = .ok shown →
      ∃ again, outcome (chain.deserialize other.toEvent) = .ok again ∧ shown.Alike again

/-- Events are shown if each of them is. -/
theorem outcome_each_cons {transform : Event → Event × Option JournalError} {event : Event}
    {rest shown : List Event} :
    outcome (each transform (event :: rest)) = .ok shown ↔
      ∃ first others, outcome (transform event) = .ok first ∧
        outcome (each transform rest) = .ok others ∧ shown = first :: others := by
  simp only [outcome_each, mapM_eq_ok_iff]
  exact List.forall₂_cons_left_iff

/-- Rows that hold the same events one by one are read alike. -/
theorem ReadsAlike.deserializeAll {chain : MiddlewareChain} {stream : Stream} {events : List Event}
    (alike : ∀ event ∈ events, chain.ReadsAlike event) {revision : Int}
    {rows others : List StoredEvent} (h : StoredEvent.HoldAll stream revision events rows)
    (k : StoredEvent.HoldAll stream revision events others) {shown : List Event}
    (read : outcome (chain.deserializeAll (rows.map StoredEvent.toEvent)) = .ok shown) :
    ∃ again, outcome (chain.deserializeAll (others.map StoredEvent.toEvent)) = .ok again ∧
      List.Forall₂ Event.Alike shown again := by
  unfold MiddlewareChain.deserializeAll at read ⊢
  induction h generalizing others shown with
  | nil =>
      cases k
      cases Except.ok.inj read
      exact ⟨[], rfl, .nil⟩
  | cons first rest ih =>
      cases k with
      | cons first' rest' =>
          obtain ⟨one, more, readOne, readMore, rfl⟩ := outcome_each_cons.1 read
          obtain ⟨now, later⟩ := List.forall_mem_cons.1 alike
          obtain ⟨oneAgain, readAgain, same⟩ := now _ _ _ _ first first' one readOne
          obtain ⟨moreAgain, readMoreAgain, sames⟩ := ih later rest' readMore
          exact ⟨_, outcome_each_cons.2 ⟨_, _, readAgain, readMoreAgain, rfl⟩, .cons same sames⟩

end MiddlewareChain

/-! ## Middlewares that do not look at what is drawn -/

/-- The transform makes alike events of alike events. -/
def EventTransform.Oblivious (transform : EventTransform) : Prop :=
  ∀ a b, a.Alike b → ∀ shown, transform a = .ok shown →
    ∃ again, transform b = .ok again ∧ shown.Alike again

namespace MiddlewareChain

theorem outcome_pass_alike {transforms : List EventTransform}
    (oblivious : ∀ transform ∈ transforms, EventTransform.Oblivious transform) {a b : Event}
    (alike : a.Alike b) {shown : Event} (read : outcome (pass transforms a) = .ok shown) :
    ∃ again, outcome (pass transforms b) = .ok again ∧ shown.Alike again := by
  induction transforms generalizing a b with
  | nil =>
      cases Except.ok.inj read
      exact ⟨b, rfl, alike⟩
  | cons transform rest ih =>
      obtain ⟨first, others⟩ := List.forall_mem_cons.1 oblivious
      unfold pass at read ⊢
      cases made : transform a with
      | error cause =>
          rw [made] at read
          cases read
      | ok e =>
          rw [made] at read
          obtain ⟨e', madeAgain, alike'⟩ := first a b alike e made
          rw [madeAgain]
          exact ih others alike' read

/-- A chain of middlewares that do not look at what is drawn reads every event alike. -/
theorem readsAlike_of_oblivious {chain : MiddlewareChain}
    (oblivious : ∀ m ∈ chain, EventTransform.Oblivious m.deserialize) (event : Event) :
    chain.ReadsAlike event := by
  intro stream revision row other h k shown read
  refine outcome_pass_alike (fun transform among => ?_) (h.alike k) read
  obtain ⟨m, member, rfl⟩ := List.mem_map.1 among
  exact oblivious m (List.mem_reverse.1 member)

end MiddlewareChain

/-- A lossless middleware looks at the payload alone. -/
theorem Middleware.Lossless.oblivious {m : Middleware} (lossless : m.Lossless) :
    EventTransform.Oblivious m.deserialize := by
  obtain ⟨-, read, -, deserializes, -⟩ := lossless
  intro a b alike shown made
  rw [deserializes] at made
  cases Except.ok.inj made
  refine ⟨_, deserializes b, ?_⟩
  rw [alike.same.2]
  exact alike.withPayload _

end EventJournal

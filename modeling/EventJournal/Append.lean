import EventJournal.Middleware
import EventJournal.Transaction

/-!
# Appending

A batch of events is appended to one stream: under the shared lock on the global
position, the last revision of the stream is read and compared with what the caller
expects; all events are transformed for the store; then they are inserted with the
revisions that follow. Nothing is inserted before every event of the batch has been
transformed, so a refusal leaves nothing behind.

An event for which there is no partition yet fails the batch with `missingPartitions`,
which names all types of the batch, so that one round of healing is enough for it.
-/

namespace EventJournal

/-- Events for one stream. -/
structure Batch where
  stream : Stream
  events : List Event
  expected : ExpectedRevision := .any

namespace Revision

/-- The revision a number of steps later, if it is one. -/
def advance? (revision : Int32) (steps : Nat) : Option Int32 :=
  if revision.toInt + steps ≤ Int32.maxValue.toInt then some (revision + Int32.ofNat steps)
  else none

theorem toInt_of_advance? {revision later : Int32} {steps : Nat}
    (h : advance? revision steps = some later) : later.toInt = revision.toInt + steps := by
  unfold advance? at h
  split at h
  · rename_i fits
    cases h
    have lower := revision.le_toInt
    have top : Int32.maxValue.toInt = 2 ^ 31 - 1 := rfl
    rw [Int32.toInt_add, Int32.toInt_ofNat', show Int32.size = 2 ^ 32 from rfl, Int.add_bmod_bmod]
    exact Int.bmod_eq_of_le (by omega) (by omega)
  · cases h

/-- The first free revision of a stream. -/
def next? : Option Int32 → Option Int32
  | none => some 0
  | some last => advance? last 1

end Revision

namespace Batch

variable {σ : Type}

/-- The types of events, each once, in the order in which they come first. -/
def distinctTypes (events : List Event) : List String := (events.map (·.type)).eraseDups

/-- The events as they are stored: after a transform and then the middlewares. -/
def prepare (transform : EventTransform) (chain : MiddlewareChain) (events : List Event) :
    Except JournalError (List Event) :=
  events.mapM fun event => do
    let event ← transform event
    MiddlewareChain.outcome (chain.serialize event)

/-- A value that exists unless arithmetic left its range. -/
def inRange {α : Type} : Option α → Action σ α
  | some value => pure value
  | none => Action.abort .overflow

/-- What the failure to insert an event of a batch means. -/
def insertError (stream : Stream) (events : List Event) (e : DbError) : JournalError :=
  if e.isMissingPartition then .missingPartitions stream (distinctTypes events)
  else e.toJournalError

/-- The row for an event. -/
def draft (stream : Stream) (revision : Int32) (typeId : Int64) (event : Event) : EventDraft where
  id := event.id
  stream := stream
  revision := revision
  type := event.type
  typeId := typeId
  data := event.data
  metadata := event.metadata
  linkId := event.linkId
  linkPartitionId := event.linkPartitionId
  linkGlobalPosition := event.linkGlobalPosition

/-- Inserts one event of a batch. -/
def insertOne (stream : Stream) (all : List Event) (first : Int32) (index : Nat) (event : Event) :
    Action σ Event := do
  let typeIds : List Int64 ← Action.ask (.eventTypeId event.type)
  let typeId ← Action.one typeIds
  let revision ← inRange (Revision.advance? first index)
  let answer : Except DbError (List StoredEvent) ←
    Action.attempt (.insertEvent (draft stream revision typeId event))
  let row ← Action.check ((answer.bind Action.firstRow).mapError (insertError stream all))
  pure row.toEvent

/-- Inserts the events that are left of a batch, the first of them at the given index. -/
def insertFrom (stream : Stream) (all : List Event) (first : Int32) :
    Nat → List Event → Action σ (List Event)
  | _, [] => pure []
  | index, event :: rest => do
      let inserted ← insertOne stream all first index event
      let others ← insertFrom stream all first (index + 1) rest
      pure (inserted :: others)

/-- The batch can be appended at all. -/
def checkStream (stream : Stream) : Except JournalError Unit :=
  if !stream.isRegular then .error (.systemStream stream)
  else if !stream.isValid then .error (.incompleteStream stream)
  else .ok ()

/-- Appends a batch, within a transaction. -/
def append (chain : MiddlewareChain) (transform : EventTransform) (batch : Batch) :
    Action σ (List Event) := do
  Action.check (checkStream batch.stream)
  let _ ← Action.ask (.lockPositions .shared)
  let revisions : List Int32 ← Action.ask (.lastRevision batch.stream)
  let last := revisions.head?
  Action.check (batch.expected.validate batch.stream last)
  let events ← Action.check (prepare transform chain batch.events)
  let first ← inRange (Revision.next? last)
  let inserted ← insertFrom batch.stream events first 0 events
  Action.check (MiddlewareChain.outcome (chain.deserializeAll inserted))

/-- Appends batches one after the other, within one transaction. -/
def appendAll (chain : MiddlewareChain) (transform : EventTransform) (batches : List Batch) :
    Action σ (List (List Event)) :=
  batches.mapM (append chain transform)

end Batch

end EventJournal

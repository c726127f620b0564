import EventJournal.Error
import EventJournal.Event

/-!
# Link events

A link event is made from a reference: the identifier and the position of a stored
event and the partition it lies in. `LinkDraft` collects these and `LinkDraft.build`
says what is missing.
-/

namespace EventJournal

/-- A reference to a stored event. -/
structure LinkReference where
  id : Uuid
  globalPosition : Int64
  partitionId : Int64
  deriving DecidableEq

/-- A reference of which parts may still be missing. -/
structure LinkDraft where
  id : Option Uuid := none
  globalPosition : Option Int64 := none
  partitionId : Option Int64 := none

namespace LinkReference

/-- The link event that refers to the stored event. -/
def toEvent (r : LinkReference) : Event where
  type := linkType
  linkId := some r.id
  linkPartitionId := some r.partitionId
  linkGlobalPosition := some r.globalPosition

end LinkReference

namespace LinkDraft

/-- Refers to an event, in place of the one referred to before. -/
def target (draft : LinkDraft) (event : Event) : LinkDraft :=
  { draft with id := event.id, globalPosition := event.globalPosition }

/-- Names the partition the event lies in. -/
def inPartition (draft : LinkDraft) (partitionId : Int64) : LinkDraft :=
  { draft with partitionId := some partitionId }

/-- The finished reference. -/
def build (draft : LinkDraft) : Except JournalError LinkReference :=
  match draft.id, draft.globalPosition with
  | some id, some globalPosition =>
      match draft.partitionId with
      | some partitionId => .ok ⟨id, globalPosition, partitionId⟩
      | none => .error .linkTargetPartitionUnknown
  | _, _ => .error .linkTargetNotPersisted

end LinkDraft

/-- The partitions of events by identifier, newest first. -/
abbrev PartitionsById := List (Uuid × Int64)

/-- The link event that stands for a stored event whose partition is known. -/
def linkFor (partitions : PartitionsById) (event : Event) : Except JournalError Event :=
  let draft := ({} : LinkDraft).target event
  let draft :=
    match event.id.bind fun id => List.lookup id partitions with
    | some partitionId => draft.inPartition partitionId
    | none => draft
  draft.build.map LinkReference.toEvent

end EventJournal

import EventJournal.Json.Decode

/-!
# Partitions

The events of the journal lie in a tree of partitions with three levels: contexts,
the stream names of a context, and the event types of a stream name. The partitions of
the last level, the leaves, hold the events. The catalog has an entry for each
partition, with the name of its table.
-/

namespace EventJournal

/-- The levels of the tree, from the root. -/
inductive PartitionLevel where
  | context
  | streamName
  | eventType
  deriving DecidableEq, Repr, Inhabited

/-- An entry of the catalog of partitions. -/
structure Partition where
  id : Int64
  context : String
  streamName : Option String
  eventType : Option String
  tableName : String
  deriving DecidableEq, Inhabited

/-- The place of a partition in the tree: a context, then perhaps a stream name, then
perhaps an event type. -/
structure PartitionKey where
  context : String
  streamName : Option String := none
  eventType : Option String := none
  deriving DecidableEq, Repr, Inhabited

namespace PartitionLevel

/-- The depth of a level, the root level first. -/
def depth : PartitionLevel → Nat
  | .context => 0
  | .streamName => 1
  | .eventType => 2

/-- What the names of the level's tables begin with. -/
def tableStem : PartitionLevel → String
  | .context => "contexts"
  | .streamName => "stream_names"
  | .eventType => "event_types"

/-- The column by which the partitions of the level are divided further. -/
def childKey? : PartitionLevel → Option String
  | .context => some "stream_name"
  | .streamName => some "type"
  | .eventType => none

def label : PartitionLevel → String
  | .context => "context"
  | .streamName => "stream_name"
  | .eventType => "event_type"

def ofLabel? (s : String) : Option PartitionLevel :=
  if s = "context" then some .context
  else if s = "stream_name" then some .streamName
  else if s = "event_type" then some .eventType
  else none

/-- Levels in order from the root; equal levels keep their order. -/
def sort (levels : List PartitionLevel) : List PartitionLevel :=
  levels.mergeSort fun a b => a.depth ≤ b.depth

end PartitionLevel

namespace PartitionKey

/-- The level a key belongs to. A key that skips a level belongs to the last level
above the gap. -/
def level (key : PartitionKey) : PartitionLevel :=
  match key.streamName, key.eventType with
  | some _, some _ => .eventType
  | some _, none => .streamName
  | none, _ => .context

/-- The key of a leaf. -/
def leaf (context streamName eventType : String) : PartitionKey :=
  ⟨context, some streamName, some eventType⟩

end PartitionKey

namespace Partition

def key (p : Partition) : PartitionKey := ⟨p.context, p.streamName, p.eventType⟩

def level (p : Partition) : PartitionLevel := p.key.level

def isLeaf (p : Partition) : Bool := p.level = .eventType

def toJson (p : Partition) : Json :=
  .object [
    ("id", .int p.id.toInt),
    ("context", .text p.context),
    ("stream_name", .ofOption .text p.streamName),
    ("event_type", .ofOption .text p.eventType),
    ("table_name", .text p.tableName)]

def ofJson? (json : Json) : Option Partition :=
  match json.fields? ["id", "context", "stream_name", "event_type", "table_name"] 5 with
  | some [id, context, streamName, eventType, tableName] => do
      some {
        id := ← Json.required Json.asInt64 id
        context := ← Json.required Json.asText context
        streamName := ← Json.optional Json.asText streamName
        eventType := ← Json.optional Json.asText eventType
        tableName := ← Json.required Json.asText tableName }
  | _ => none

end Partition

end EventJournal

import EventJournal.Stream

/-!
# Options of a read

A read goes forward or backward from an optional start, keeps the events that its
filter selects and returns at most a number of them. A stream is read by revision, the
stream of all events and the system streams by global position; a start of the other
kind is ignored.
-/

namespace EventJournal

inductive Direction where
  | forward
  | backward
  deriving DecidableEq, Repr, Inhabited

/-- The events a read keeps: those of any of the streams described and of any of the
types listed. An empty list does not restrict. -/
structure ReadFilter where
  streams : List StreamFilter := []
  eventTypes : List String := []
  deriving DecidableEq, Repr, Inhabited

structure ReadOptions where
  direction : Direction := .forward
  fromRevision : Option Int32 := none
  fromPosition : Option Int64 := none
  maxCount : Int64 := 1000
  filter : ReadFilter := {}
  resolveLinks : Bool := false
  deriving DecidableEq, Inhabited

namespace Direction

def isForward : Direction → Bool
  | .forward => true
  | .backward => false

/-- The keyword that orders rows in this direction. -/
def orderKeyword : Direction → String
  | .forward => "ASC"
  | .backward => "DESC"

/-- The operator that compares a row with the start of the read. -/
def boundOperator : Direction → String
  | .forward => ">="
  | .backward => "<="

def label : Direction → String
  | .forward => "forward"
  | .backward => "backward"

def ofJson? : Json → Option Direction :=
  Json.choice? [("forward", .forward), ("backward", .backward)]

end Direction

namespace ReadFilter

def isEmpty (f : ReadFilter) : Bool := f.streams.isEmpty && f.eventTypes.isEmpty

/-- What the descriptions of streams select; those without meaning are left out. -/
def scopes (f : ReadFilter) : List StreamScope := f.streams.filterMap StreamFilter.scope?

def toJson (f : ReadFilter) : Json :=
  .object [
    ("streams", .ofList StreamFilter.toJson f.streams),
    ("event_types", .ofList .text f.eventTypes)]

def ofJson? (json : Json) : Option ReadFilter :=
  match json.fields? ["streams", "event_types"] 0 with
  | some [streams, eventTypes] => do
      some {
        streams := ← Json.withDefault [] (Json.asList StreamFilter.ofJson?) streams
        eventTypes := ← Json.withDefault [] (Json.asList Json.asText) eventTypes }
  | _ => none

end ReadFilter

namespace ReadOptions

/-- The limit of a read that sets none. -/
def defaultMaxCount : Int64 := 1000

/-- The limit that applies: a limit that is not positive stands for the default. -/
def limit (o : ReadOptions) : Int64 :=
  if 0 < o.maxCount then o.maxCount else defaultMaxCount

def toJson (o : ReadOptions) : Json :=
  .object [
    ("direction", .text o.direction.label),
    ("from_revision", .ofOption (fun r => .int r.toInt) o.fromRevision),
    ("from_position", .ofOption (fun p => .int p.toInt) o.fromPosition),
    ("max_count", .int o.maxCount.toInt),
    ("filter", o.filter.toJson),
    ("resolve_link_tos", .bool o.resolveLinks)]

def ofJson? (json : Json) : Option ReadOptions :=
  let names :=
    ["direction", "from_revision", "from_position", "max_count", "filter", "resolve_link_tos"]
  match json.fields? names 6 with
  | some [direction, fromRevision, fromPosition, maxCount, filter, resolveLinks] => do
      some {
        direction := ← Json.required Direction.ofJson? direction
        fromRevision := ← Json.optional Json.asInt32 fromRevision
        fromPosition := ← Json.optional Json.asInt64 fromPosition
        maxCount := ← Json.required Json.asInt64 maxCount
        filter := ← Json.required ReadFilter.ofJson? filter
        resolveLinks := ← Json.required Json.asBool resolveLinks }
  | _ => none

end ReadOptions

end EventJournal

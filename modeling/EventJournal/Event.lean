import EventJournal.Instant
import EventJournal.Json.Decode
import EventJournal.Stream
import EventJournal.Uuid

/-!
# Events

An `Event` is what callers append and read. Before it is stored it may lack an
identifier, a place and a time; a `StoredEvent` is a row of the table and lacks none.

A link event refers to another event by its identifier, its global position and the
partition it lies in. A reader may put the event referred to in place of the link event
and keep the link event in its field `link`.
-/

namespace EventJournal

/-- An event as callers see it. -/
structure Event where
  id : Option Uuid := none
  type : String
  globalPosition : Option Int64 := none
  context : Option String := none
  streamName : Option String := none
  streamId : Option String := none
  streamRevision : Option Int32 := none
  data : Json := .empty
  metadata : Json := .empty
  linkId : Option Uuid := none
  linkPartitionId : Option Int64 := none
  linkGlobalPosition : Option Int64 := none
  createdAt : Option Instant := none
  /-- The link event in whose place this event was put. -/
  link : Option Event := none
  deriving Inhabited

/-- A row of the table of events. -/
structure StoredEvent where
  id : Uuid
  type : String
  globalPosition : Int64
  context : String
  streamName : String
  streamId : String
  streamRevision : Int32
  data : Json
  metadata : Json
  linkId : Option Uuid
  linkPartitionId : Option Int64
  linkGlobalPosition : Option Int64
  createdAt : Instant

/-- The type of link events. -/
def linkType : String := "$>"

namespace Event

/-- The event refers to another event. -/
def isLink (e : Event) : Bool := e.type = linkType && e.linkId.isSome

/-- The event has been stored. -/
def isPersisted (e : Event) : Bool := e.id.isSome && e.globalPosition.isSome

/-- The stream of the event, if it has a place. -/
def stream? (e : Event) : Option Stream :=
  match e.context, e.streamName, e.streamId with
  | some context, some streamName, some streamId => some { context, streamName, streamId }
  | _, _, _ => none

end Event

/-- A row as callers see it. -/
def StoredEvent.toEvent (row : StoredEvent) : Event where
  id := some row.id
  type := row.type
  globalPosition := some row.globalPosition
  context := some row.context
  streamName := some row.streamName
  streamId := some row.streamId
  streamRevision := some row.streamRevision
  data := row.data
  metadata := row.metadata
  linkId := row.linkId
  linkPartitionId := row.linkPartitionId
  linkGlobalPosition := row.linkGlobalPosition
  createdAt := some row.createdAt

/-! ## JSON -/

def Uuid.toJson (u : Uuid) : Json := .text u.render

def Uuid.ofJson? (json : Json) : Option Uuid := json.asText.bind Uuid.parse?

def Instant.toJson (t : Instant) : Json := .text t.render

def Instant.ofJson? (json : Json) : Option Instant := json.asText.bind Instant.parse?

namespace Event

/-- The fields of an event but its link, in order. -/
def members (e : Event) : List (String × Json) := [
  ("id", .ofOption Uuid.toJson e.id),
  ("type", .text e.type),
  ("global_position", .ofOption (fun p => .int p.toInt) e.globalPosition),
  ("context", .ofOption .text e.context),
  ("stream_name", .ofOption .text e.streamName),
  ("stream_id", .ofOption .text e.streamId),
  ("stream_revision", .ofOption (fun r => .int r.toInt) e.streamRevision),
  ("data", e.data),
  ("metadata", e.metadata),
  ("link_id", .ofOption Uuid.toJson e.linkId),
  ("link_partition_id", .ofOption (fun p => .int p.toInt) e.linkPartitionId),
  ("link_global_position", .ofOption (fun p => .int p.toInt) e.linkGlobalPosition),
  ("created_at", .ofOption Instant.toJson e.createdAt)]

mutual

/-- The link is left out where there is none. -/
def toJson : Event → Json
  | e@⟨_, _, _, _, _, _, _, _, _, _, _, _, _, link⟩ => .object (members e ++ linkMembers link)

/-- The member for the link. -/
def linkMembers : Option Event → List (String × Json)
  | none => []
  | some link => [("link", toJson link)]

end

/-- The names of the fields, in order. -/
def fieldNames : List String := [
  "id", "type", "global_position", "context", "stream_name", "stream_id", "stream_revision",
  "data", "metadata", "link_id", "link_partition_id", "link_global_position", "created_at"]

/-- The event of thirteen fields and a link. -/
def ofFields? (fields : List (Option Json)) (link : Option Event) : Option Event :=
  match fields with
  | [id, type, globalPosition, context, streamName, streamId, streamRevision, data, metadata,
      linkId, linkPartitionId, linkGlobalPosition, createdAt] => do
      some {
        id := ← Json.optional Uuid.ofJson? id
        type := ← Json.required Json.asText type
        globalPosition := ← Json.optional Json.asInt64 globalPosition
        context := ← Json.optional Json.asText context
        streamName := ← Json.optional Json.asText streamName
        streamId := ← Json.optional Json.asText streamId
        streamRevision := ← Json.optional Json.asInt32 streamRevision
        data := ← Json.required some data
        metadata := ← Json.required some metadata
        linkId := ← Json.optional Uuid.ofJson? linkId
        linkPartitionId := ← Json.optional Json.asInt64 linkPartitionId
        linkGlobalPosition := ← Json.optional Json.asInt64 linkGlobalPosition
        createdAt := ← Json.optional Instant.ofJson? createdAt
        link }
  | _ => none

mutual

def ofJson? : Json → Option Event
  | .object members => do
      let link ← linkMember? members
      ofFields? (fieldNames.map (Json.lookup · members)) link
  | .list items => do
      let link ← linkItem? 13 items
      ofFields? ((items.take 13).map some) link
  | _ => none

/-- The link among the members of an object; it may be missing or `null`. -/
def linkMember? : List (String × Json) → Option (Option Event)
  | [] => some none
  | (name, .null) :: rest => if name = "link" then some none else linkMember? rest
  | (name, value) :: rest =>
      if name = "link" then (ofJson? value).map some else linkMember? rest

/-- The link among the items of a list, at the given place; it may be missing or
`null`, and nothing follows it. -/
def linkItem? : Nat → List Json → Option (Option Event)
  | _, [] => some none
  | 0, [.null] => some none
  | 0, [value] => (ofJson? value).map some
  | 0, _ :: _ :: _ => none
  | place + 1, _ :: rest => linkItem? place rest

end

end Event

end EventJournal

import EventJournal.Query.Events
import EventJournal.Query.Leaves
import EventJournal.Query.Tables
import EventJournal.Sql.Literal

/-!
# Statements

Every statement the journal sends to the database is a value of `Statement`, named for
what it asks. `Statement.sql` is its text, `Statement.values` are the values bound to
it, and `Statement.Answer` is the type of what the database answers, so a program that
sends a statement cannot mistake its answer for another.

No text of a caller enters the text of a statement, with one exception: the bound of a
new partition, which `Sql.literal` quotes. Names of tables come from the catalog.
-/

namespace EventJournal

/-- How a transaction is kept apart from others. -/
inductive Isolation where
  | serializable
  | readCommitted
  deriving DecidableEq

/-- The two sides of the lock on the global position. -/
inductive LockMode where
  /-- Held by every append from before it draws a position to its end. -/
  | shared
  /-- Waits for every append that is under way. -/
  | exclusive
  deriving DecidableEq

/-- An event about to be inserted. -/
structure EventDraft where
  /-- The identifier, unless a new one is to be drawn. -/
  id : Option Uuid
  stream : Stream
  revision : Int32
  type : String
  typeId : Int64
  data : Json
  metadata : Json
  linkId : Option Uuid
  linkPartitionId : Option Int64
  linkGlobalPosition : Option Int64

/-- Where a stored event is found again. -/
structure EventAddress where
  stream : Stream
  type : String
  id : Uuid
  globalPosition : Int64

/-- A table to be created for a partition. -/
structure PartitionTable where
  name : String
  parent : String
  /-- The value that the rows of the partition have in common. -/
  bound : String
  level : PartitionLevel

inductive Statement where
  -- Transactions
  | begin
  | isolate (isolation : Isolation)
  | commit
  | rollback
  | lockPositions (mode : LockMode)
  -- Events
  | lastRevision (stream : Stream)
  | eventTypeId (type : String)
  | insertEvent (draft : EventDraft)
  | streamExists (stream : Stream)
  | readEvents (query : EventQuery)
  | readHeads (direction : Direction) (first : HeadProbe) (rest : List HeadProbe)
  | readTargets (first : LinkBranch) (rest : List LinkBranch)
  | reload (address : EventAddress)
  | countLater (stream : Stream) (revision : Int32)
  | deleteEvent (address : EventAddress)
  | closeGap (stream : Stream) (revision : Int32)
  | deleteStream (stream : Stream)
  | lastPosition
  -- Partitions
  | findPartition (key : PartitionKey)
  | findLeaves (query : LeafQuery)
  | partitionsById (ids : List Int64)
  | allPartitions
  | tableNameTaken (name : String)
  | createTable (table : PartitionTable)
  | registerPartition (key : PartitionKey) (table : String)
  -- The tables themselves
  | schemaStep (text : String)
  -- Selections of the caller's own
  | run (selection : Select)
  | selectPartitions (selection : Select)

/-- The form of an answer. -/
inductive AnswerShape where
  | unit
  | rowsAffected
  | events
  | partitions
  | int32s
  | int64s
  | bools
  deriving DecidableEq

@[reducible] def AnswerShape.Carrier : AnswerShape → Type
  | .unit => Unit
  | .rowsAffected => Nat
  | .events => List StoredEvent
  | .partitions => List Partition
  | .int32s => List Int32
  | .int64s => List Int64
  | .bools => List Bool

/-- The key of the lock on the global position. -/
def positionLockKey : Int64 := 7311142570156650343

namespace Isolation

def keyword : Isolation → String
  | .serializable => "SERIALIZABLE"
  | .readCommitted => "READ COMMITTED"

end Isolation

namespace PartitionTable

def definition (t : PartitionTable) : String :=
  "CREATE TABLE " ++ t.name ++ " PARTITION OF " ++ t.parent ++ " FOR VALUES IN (" ++
    Sql.literal t.bound ++ ")" ++
    match t.level.childKey? with
    | some column => " PARTITION BY LIST (" ++ column ++ ")"
    | none => ""

end PartitionTable

namespace EventAddress

/-- The row at the address; the stream id plays no part. -/
def select (a : EventAddress) : Select where
  columns := [Sql.qualifiedColumns "events"]
  source := .table "events"
  allOf := [
    { text := "events.context = ? AND events.stream_name = ? AND events.type = ?"
      values := [.text a.stream.context, .text a.stream.streamName, .text a.type] },
    { text := "events.global_position = ?", values := [.bigint a.globalPosition] },
    { text := "events.id = ?", values := [.uuid a.id] }]

end EventAddress

namespace Stream

/-- The values that the conditions on a stream are compared with. -/
def keyValues (s : Stream) : List SqlValue :=
  [.text s.context, .text s.streamName, .text s.streamId]

end Stream

namespace EventDraft

/-- The values of a new row, with the identifier that stands in for one that is not
given. -/
def values (d : EventDraft) (drawn : Uuid) : List SqlValue := [
  .uuid (d.id.getD drawn), .text d.stream.context, .text d.stream.streamName,
  .text d.stream.streamId, .int d.revision, .text d.type, .bigint d.typeId, .json d.data,
  .json d.metadata, .uuid d.linkId, .bigint d.linkPartitionId, .bigint d.linkGlobalPosition]

end EventDraft

namespace Statement

@[reducible] def shape : Statement → AnswerShape
  | .deleteStream _ => .rowsAffected
  | .run _ => .rowsAffected
  | .lastRevision _ => .int32s
  | .eventTypeId _ | .countLater _ _ | .lastPosition => .int64s
  | .streamExists _ | .tableNameTaken _ => .bools
  | .insertEvent _ | .readEvents _ | .readHeads _ _ _ | .readTargets _ _ | .reload _ => .events
  | .findPartition _ | .findLeaves _ | .partitionsById _ | .allPartitions
  | .registerPartition _ _ | .selectPartitions _ => .partitions
  | .begin | .isolate _ | .commit | .rollback | .lockPositions _ | .deleteEvent _
  | .closeGap _ _ | .createTable _ | .schemaStep _ => .unit

/-- What the database answers to a statement. -/
@[reducible] def Answer (s : Statement) : Type := s.shape.Carrier

/-- The condition that picks the rows of one stream. -/
def ofStream : String := "context = $1 AND stream_name = $2 AND stream_id = $3"

/-- The text that is sent. -/
def sql : Statement → String
  | .begin => "BEGIN"
  | .isolate isolation => "SET TRANSACTION ISOLATION LEVEL " ++ isolation.keyword
  | .commit => "COMMIT"
  | .rollback => "ROLLBACK"
  | .lockPositions .shared => "SELECT pg_advisory_xact_lock_shared($1)"
  | .lockPositions .exclusive => "SELECT pg_advisory_xact_lock($1)"
  | .lastRevision _ =>
      "SELECT stream_revision FROM events WHERE " ++ ofStream ++
        " ORDER BY stream_revision DESC LIMIT 1"
  | .eventTypeId _ =>
      "WITH inserted AS ( INSERT INTO event_types (type) VALUES ($1) " ++
        "ON CONFLICT (type) DO NOTHING RETURNING id ) " ++
        "SELECT id FROM inserted UNION ALL SELECT id FROM event_types WHERE type = $1 LIMIT 1"
  | .insertEvent _ =>
      "INSERT INTO events ( id, context, stream_name, stream_id, stream_revision, type, " ++
        "event_type_id, data, metadata, link_id, link_partition_id, link_global_position ) " ++
        "VALUES ($1, $2, $3, $4, $5, $6, $7, $8, $9, $10, $11, $12) " ++
        "RETURNING id, context, stream_name, stream_id, global_position, stream_revision, " ++
        "type, data, metadata, link_id, link_partition_id, link_global_position, created_at"
  | .streamExists _ => "SELECT EXISTS ( SELECT 1 FROM events WHERE " ++ ofStream ++ " )"
  | .readEvents query => query.select.sql
  | .readHeads direction first rest => (HeadProbe.selectAll direction first rest).sql
  | .readTargets first rest => (LinkBranch.selectAll first rest).sql
  | .reload address => address.select.sql
  | .countLater _ _ =>
      "SELECT COUNT(*) FROM events WHERE " ++ ofStream ++ " AND stream_revision > $4"
  | .deleteEvent _ =>
      "DELETE FROM events " ++
        "WHERE context = $1 AND stream_name = $2 AND type = $3 AND global_position = $4"
  | .closeGap _ _ =>
      "UPDATE events SET stream_revision = stream_revision - 1 WHERE " ++ ofStream ++
        " AND stream_revision > $4"
  | .deleteStream _ => "DELETE FROM events WHERE " ++ ofStream
  | .lastPosition => "SELECT COALESCE(MAX(global_position), 0) FROM events"
  | .findPartition key => key.select.sql
  | .findLeaves query => query.select.sql
  | .partitionsById _ =>
      "SELECT id, context, stream_name, event_type, table_name FROM partitions " ++
        "WHERE id = ANY($1) ORDER BY id"
  | .allPartitions =>
      "SELECT id, context, stream_name, event_type, table_name FROM partitions ORDER BY id"
  | .tableNameTaken _ =>
      "SELECT EXISTS (SELECT 1 FROM partitions WHERE table_name = $1) " ++
        "OR to_regclass($1) IS NOT NULL"
  | .createTable table => table.definition
  | .registerPartition _ _ =>
      "INSERT INTO partitions (context, stream_name, event_type, table_name) " ++
        "VALUES ($1, $2, $3, $4) RETURNING id, context, stream_name, event_type, table_name"
  | .schemaStep text => text
  | .run selection => selection.sql
  | .selectPartitions selection => selection.sql

/-- The values that are bound, in the order of their numbers. An event without an
identifier is inserted under the one drawn for it; identifiers of partitions are bound
in ascending order. -/
def values (drawn : Uuid) : Statement → List SqlValue
  | .lockPositions _ => [.bigint positionLockKey]
  | .lastRevision stream => stream.keyValues
  | .eventTypeId type => [.text type]
  | .insertEvent draft => draft.values drawn
  | .streamExists stream => stream.keyValues
  | .readEvents query => query.select.values
  | .readHeads direction first rest => (HeadProbe.selectAll direction first rest).values
  | .readTargets first rest => (LinkBranch.selectAll first rest).values
  | .reload address => address.select.values
  | .countLater stream revision => stream.keyValues ++ [.int revision]
  | .deleteEvent address =>
      [.text address.stream.context, .text address.stream.streamName, .text address.type,
        .bigint address.globalPosition]
  | .closeGap stream revision => stream.keyValues ++ [.int revision]
  | .deleteStream stream => stream.keyValues
  | .findPartition key => key.select.values
  | .findLeaves query => query.select.values
  | .partitionsById ids => [.bigints (ids.mergeSort (fun a b => a ≤ b))]
  | .tableNameTaken name => [.text name]
  | .registerPartition key table =>
      [.text key.context, .text key.streamName, .text key.eventType, .text table]
  | .run selection => selection.values
  | .selectPartitions selection => selection.values
  | .begin | .isolate _ | .commit | .rollback | .lastPosition | .allPartitions | .createTable _
  | .schemaStep _ => []

/-- The statement draws a new identifier each time it is sent. -/
def draws : Statement → Bool
  | .insertEvent draft => draft.id.isNone
  | _ => false

end Statement

end EventJournal

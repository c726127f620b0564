import EventJournal.Database.Program

/-!
# A scripted database

A database that answers from a list of replies, for observing what a program sends. It
keeps no tables: each statement uses up the next reply, whatever that says, and is
recorded with its values in `Script.trace`.

The statements that only control a transaction succeed by themselves, unless the next
reply is addressed to them. A script knows as much of transactions as the record needs:
whether one is open, because a rollback without one is neither sent nor recorded.

Identifiers that the program leaves to be drawn are numbered through the whole script,
so that a reader can tell them from identifiers that were given (`drawnId`,
`drawnNumber?`).
-/

namespace EventJournal

/-- The statements that a reply can be addressed to. -/
inductive ControlKey where
  | begin
  | commit
  | rollback
  | isolate
  | lock
  deriving DecidableEq

/-- What a reply says. -/
inductive ReplyBody where
  /-- Rows of events, each by those of its fields that are not left at their defaults. -/
  | events (rows : List Json)
  /-- The row of an inserted event, by the fields that differ from what was bound. -/
  | echo (fields : Json)
  | partitions (rows : List Partition)
  | int32s (values : List Int32)
  | int64s (values : List Int64)
  | bools (values : List Bool)
  /-- No rows, but a number of them was changed. -/
  | affected (count : Nat)
  | error (code : Option String) (text : String)
  /-- The connection breaks. -/
  | disconnect

structure Reply where
  /-- The statement that the reply is for; none for those that are not control. -/
  control : Option ControlKey := none
  body : ReplyBody

/-- A statement as it was sent. -/
structure Sent where
  sql : String
  values : List SqlValue

structure Script where
  /-- The replies that are left. -/
  replies : List Reply := []
  /-- What was sent, newest first. -/
  trace : List Sent := []
  /-- A transaction is open. -/
  inTransaction : Bool := false
  /-- The pool is closed, and no statement reaches the database. -/
  closed : Bool := false
  /-- How many identifiers have been drawn. -/
  drawn : Nat := 0

namespace ControlKey

/-- The key of a statement that controls a transaction. -/
def of? : Statement → Option ControlKey
  | .begin => some .begin
  | .commit => some .commit
  | .rollback => some .rollback
  | .isolate _ => some .isolate
  | .lockPositions _ => some .lock
  | _ => none

def ofLabel? (label : String) : Option ControlKey :=
  [("BEGIN", begin), ("COMMIT", commit), ("ROLLBACK", rollback), ("SET", isolate),
    ("LOCK", lock)].lookup label

end ControlKey

namespace StoredEvent

/-- A row whose fields all have their defaults. -/
def blank : StoredEvent where
  id := ⟨0⟩
  type := ""
  globalPosition := 0
  context := ""
  streamName := ""
  streamId := ""
  streamRevision := 0
  data := .empty
  metadata := .empty
  linkId := none
  linkPartitionId := none
  linkGlobalPosition := none
  createdAt := ⟨⟨2024, 1, 1⟩, 0, 0, 0, 0⟩

/-- A field of an object, where it is there and has the right form. -/
def given {α : Type} (fields : Json) (name : String) (decode : Json → Option α) (old : α) : α :=
  ((fields.member? name).bind decode).getD old

/-- The row with those fields replaced that an object has. -/
def override (row : StoredEvent) (fields : Json) : StoredEvent where
  id := given fields "id" Uuid.ofJson? row.id
  type := given fields "type" Json.asText row.type
  globalPosition := given fields "global_position" Json.asInt64 row.globalPosition
  context := given fields "context" Json.asText row.context
  streamName := given fields "stream_name" Json.asText row.streamName
  streamId := given fields "stream_id" Json.asText row.streamId
  streamRevision := given fields "stream_revision" Json.asInt32 row.streamRevision
  data := given fields "data" some row.data
  metadata := given fields "metadata" some row.metadata
  linkId := given fields "link_id" (Json.asOption Uuid.ofJson?) row.linkId
  linkPartitionId :=
    given fields "link_partition_id" (Json.asOption Json.asInt64) row.linkPartitionId
  linkGlobalPosition :=
    given fields "link_global_position" (Json.asOption Json.asInt64) row.linkGlobalPosition
  createdAt := given fields "created_at" Instant.ofJson? row.createdAt

/-- The row that an insertion stores, but for the columns the database fills in. -/
def ofDraft (draft : EventDraft) (drawn : Uuid) : StoredEvent :=
  { blank with
    id := draft.id.getD drawn
    type := draft.type
    context := draft.stream.context
    streamName := draft.stream.streamName
    streamId := draft.stream.streamId
    streamRevision := draft.revision
    data := draft.data
    metadata := draft.metadata
    linkId := draft.linkId
    linkPartitionId := draft.linkPartitionId
    linkGlobalPosition := draft.linkGlobalPosition }

end StoredEvent

namespace ReplyBody

/-- What breaks off a statement when the connection is lost. -/
def lostConnection : DbError := .io "expected to read 5 bytes, got 0 bytes at EOF"

/-- Rows of another form than the statement asked for. -/
def wrongForm : DbError := .protocol "unexpected form of a row"

/-- The number of rows of a reply, or of rows it says were changed. -/
def rowCount : ReplyBody → Nat
  | .events rows => rows.length
  | .echo _ => 1
  | .partitions rows => rows.length
  | .int32s values => values.length
  | .int64s values => values.length
  | .bools values => values.length
  | .affected count => count
  | .error _ _ => 0
  | .disconnect => 0

/-- The reply holds rows. -/
def hasRows : ReplyBody → Bool
  | .affected _ => false
  | body => 0 < body.rowCount

/-- A reply with rows as an answer of a given form. An echo answers with the given row. -/
def toCarrier (echoed : StoredEvent) :
    (shape : AnswerShape) → ReplyBody → Except DbError shape.Carrier
  | .unit, _ => .ok ()
  | .rowsAffected, body => .ok body.rowCount
  | .events, .events rows => .ok (rows.map StoredEvent.blank.override)
  | .events, .echo fields => .ok [echoed.override fields]
  | .partitions, .partitions rows => .ok rows
  | .int32s, .int32s values => .ok values
  | .int64s, .int64s values => .ok values
  | .bools, .bools values => .ok values
  | .events, body | .partitions, body | .int32s, body | .int64s, body | .bools, body =>
      if body.hasRows then .error wrongForm else .ok []

/-- A reply as the answer to a statement. -/
def answer (drawn : Uuid) (s : Statement) (body : ReplyBody) : Except DbError s.Answer :=
  match body with
  | .error code text => .error (.database code text)
  | .disconnect => .error lostConnection
  | body =>
      let echoed :=
        match s with
        | .insertEvent draft => StoredEvent.ofDraft draft drawn
        | _ => StoredEvent.blank
      toCarrier echoed s.shape body

end ReplyBody

namespace Script

/-- The number below which no identifier is drawn. -/
def firstDrawn : Nat := 0x9e3779b97f4a4c158000000000000000

/-- The identifier that is drawn as the one of a number. -/
def drawnId (number : Nat) : Uuid := ⟨BitVec.ofNat 128 (firstDrawn + number)⟩

/-- The number of an identifier that was drawn. -/
def drawnNumber? (id : Uuid) : Option Nat :=
  if firstDrawn < id.bits.toNat ∧ id.bits.toNat < firstDrawn + UInt32.size then
    some (id.bits.toNat - firstDrawn)
  else none

/-- Records a statement; draws an identifier if it needs one. -/
def record (script : Script) (s : Statement) : Script :=
  let drawn := if s.draws then script.drawn + 1 else script.drawn
  { script with drawn, trace := ⟨s.sql, s.values (drawnId drawn)⟩ :: script.trace }

/-- Whether a transaction is open after a statement. -/
def isOpenAfter (s : Statement) (wasOpen : Bool) (body : ReplyBody) : Bool :=
  match body, s with
  | .disconnect, _ => false
  | .error _ _, .begin => false
  | _, .begin => true
  | _, .commit => false
  | _, .rollback => false
  | _, _ => wasOpen

/-- Answers a statement with a reply. -/
def reply (script : Script) (s : Statement) (body : ReplyBody) :
    Except DbError s.Answer × Script :=
  (body.answer (drawnId script.drawn) s,
    { script with inTransaction := isOpenAfter s script.inTransaction body })

/-- An error of the script itself. -/
def fault (text : String) : ReplyBody := .error (some "XX000") text

/-- Answers a statement that reaches the database. -/
def answer (script : Script) (s : Statement) : Except DbError s.Answer × Script :=
  let script := script.record s
  match ControlKey.of? s, script.replies with
  | some key, next :: rest =>
      if next.control = some key then { script with replies := rest }.reply s next.body
      else script.reply s (.affected 0)
  | some _, [] => script.reply s (.affected 0)
  | none, [] => script.reply s (fault "script exhausted")
  | none, next :: rest =>
      if next.control.isSome then script.reply s (fault "script mismatch")
      else { script with replies := rest }.reply s next.body

/-- The statement is a rollback. -/
def isRollback : Statement → Bool
  | .rollback => true
  | _ => false

/-- Answers statements from a script. Over a closed pool, and for a rollback of nothing, a
statement does not reach the database. -/
def database : Database Script where
  answer s script :=
    if script.closed then (.error .poolClosed, script)
    else if isRollback s && !script.inTransaction then (.error .workerCrashed, script)
    else script.answer s

end Script

end EventJournal

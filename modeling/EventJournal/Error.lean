import EventJournal.ExpectedRevision
import EventJournal.Stream
import EventJournal.Text.Quoted

/-!
# Errors of the journal

`JournalError` holds what a caller may be told and what the transaction loop recovers
from by itself. A cause carries the data of its message; `JournalError.message` is the
only place where a message is worded.

A call may also end without an answer: `Abort` adds to the errors the two faults that
no caller can handle, arithmetic beyond the width of a revision or position and a
statement whose placeholders and values do not match, and the end of a search for a
free table name that was given too few tries.
-/

namespace EventJournal

/-- Why a call failed. -/
inductive JournalError where
  /-- The stream is not as the append expected. -/
  | wrongExpectedVersion (stream : Stream) (expected : ExpectedRevision) (actual : Option Int32)
  /-- A stream was read that has no events. -/
  | streamNotFound (stream : Stream)
  /-- A change was asked of a stream that cannot be changed. -/
  | systemStream (stream : Stream)
  /-- Deleting an event would renumber more rows than allowed. -/
  | tooManyRecordsToLock (stream : Stream) (count : Int64)
  /-- The leaves of events to be inserted do not exist. -/
  | missingPartitions (stream : Stream) (eventTypes : List String)
  /-- The database could not serialize the transaction. -/
  | serializationConflict (text : String)
  /-- Another writer created the same partition first. -/
  | partitionRace (text : String)
  /-- The connection to the database is gone. -/
  | connectionLost (text : String)
  /-- Every attempt the policy allows ended in a conflict. -/
  | retriesExhausted (attempts : Nat) (last : JournalError)
  /-- The request makes no sense. -/
  | invalidRequest (text : String)
  /-- A middleware refused an event. -/
  | middleware (text : String)
  /-- A payload could not be encoded. -/
  | codec (text : String)
  /-- Any other error of the database. -/
  | backend (text : String)
  deriving DecidableEq, Inhabited

/-- How a call may end without a result. -/
inductive Abort where
  | error (cause : JournalError)
  /-- A revision, position or cursor would leave its width. -/
  | overflow
  /-- A piece of a statement has more or fewer placeholders than values. -/
  | misfit
  /-- The search for a free table name ran out of tries. -/
  | outOfTries
  deriving DecidableEq, Inhabited

namespace JournalError

/-- An optional revision as messages show it. -/
def showRevision : Option Int32 → String
  | none => "None"
  | some revision => "Some(" ++ toString revision.toInt ++ ")"

/-- The message of a failed expectation. -/
def expectationMessage (stream : Stream) (expected : ExpectedRevision) (actual : Option Int32) :
    String :=
  match expected, actual with
  | .streamExists, none => "Expected stream " ++ stream.label ++ " to exist, but it doesn't"
  | .noStream, some revision =>
      "Expected stream " ++ stream.label ++
        " to be absent, but it actually exists (last revision " ++ toString revision.toInt ++ ")"
  | .exact wanted, none =>
      "Expected stream " ++ stream.label ++ " to be at revision " ++ toString wanted.toInt ++
        ", but the stream does not exist"
  | .exact wanted, some revision =>
      "Expected stream " ++ stream.label ++ " to be at revision " ++ toString wanted.toInt ++
        ", but it is at revision " ++ toString revision.toInt
  | _, _ =>
      "Wrong expected revision " ++ expected.label ++ " for stream " ++ stream.label ++
        " (actual " ++ showRevision actual ++ ")"

/-- The message for the caller. -/
def message : JournalError → String
  | .wrongExpectedVersion stream expected actual => expectationMessage stream expected actual
  | .streamNotFound stream => "Stream " ++ stream.label ++ " does not exist"
  | .systemStream stream =>
      "Stream " ++ stream.label ++ " is a system stream and cannot be modified"
  | .tooManyRecordsToLock stream count =>
      "Deleting the event would lock " ++ toString count.toInt ++ " records of stream " ++
        stream.label ++ "; pass force to proceed"
  | .missingPartitions stream eventTypes =>
      "Missing partitions for stream " ++ stream.label ++ ": " ++ Text.showList eventTypes
  | .serializationConflict text => "Serialization conflict: " ++ text
  | .partitionRace text => "Partition race: " ++ text
  | .connectionLost text => "Connection lost: " ++ text
  | .retriesExhausted attempts last =>
      "Transaction gave up after " ++ toString attempts ++ " attempts: " ++ last.message
  | .invalidRequest text => "Invalid request: " ++ text
  | .middleware text => "Middleware error: " ++ text
  | .codec text => "Codec error: " ++ text
  | .backend text => "Backend error: " ++ text

/-- The whole transaction should be attempted again. -/
def isRetryable : JournalError → Bool
  | .serializationConflict _ => true
  | .partitionRace _ => true
  | _ => false

def isConnectionLost : JournalError → Bool
  | .connectionLost _ => true
  | _ => false

def isWrongExpectedVersion : JournalError → Bool
  | .wrongExpectedVersion _ _ _ => true
  | _ => false

/-! ## Requests that make no sense -/

def linkTargetNotPersisted : JournalError :=
  .invalidRequest "link target must be a persisted event"

def linkTargetIsLink : JournalError := .invalidRequest "link target must not be a link event"

def linkTargetPartitionUnknown : JournalError :=
  .invalidRequest "link target partition is unknown"

def linkTargetHasNoLeaf (id : String) : JournalError :=
  .invalidRequest ("no partition holds link target " ++ id)

def incompleteStream (stream : Stream) : JournalError :=
  .invalidRequest
    ("stream " ++ stream.label ++ " needs a context, a stream name and a stream id")

def unknownSystemStream (name : String) : JournalError :=
  .invalidRequest ("unknown system stream " ++ name)

def revisionCursorOutOfRange (cursor : Int64) : JournalError :=
  .invalidRequest ("revision cursor " ++ toString cursor.toInt ++ " out of range")

def eventNotPersisted : JournalError := .invalidRequest "only persisted events can be deleted"

end JournalError

/-- The expectation of an append, checked against the last revision of its stream. -/
def ExpectedRevision.validate (expected : ExpectedRevision) (stream : Stream)
    (last : Option Int32) : Except JournalError Unit :=
  if expected.admits last then .ok () else .error (.wrongExpectedVersion stream expected last)

end EventJournal

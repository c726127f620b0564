import EventJournal.Error

/-!
# Errors of the database

A statement fails with a `DbError`: an error the database itself reports, with a code of
five characters, or a fault on the way to it. `DbError.toJournalError` says what each
means for the journal. Codes that only one statement knows what to do with are told
apart by predicates, before that.
-/

namespace EventJournal

/-- Why a statement failed. -/
inductive DbError where
  /-- The database reports an error. -/
  | database (code : Option String) (text : String)
  | io (text : String)
  | tls (text : String)
  | protocol (text : String)
  | configuration (text : String)
  | columnNotFound (name : String)
  /-- A row was asked for and there is none. -/
  | rowNotFound
  | poolTimedOut
  | poolClosed
  | workerCrashed
  deriving DecidableEq, Inhabited

namespace DbError

def message : DbError → String
  | .database _ text => "error returned from database: " ++ text
  | .io text => "error communicating with database: " ++ text
  | .tls text => "error occurred while attempting to establish a TLS connection: " ++ text
  | .protocol text => "encountered unexpected or invalid data: " ++ text
  | .configuration text => "error with configuration: " ++ text
  | .columnNotFound name => "no column found for name: " ++ name
  | .rowNotFound => "no rows returned by a query that expected to return at least one row"
  | .poolTimedOut => "pool timed out while waiting for an open connection"
  | .poolClosed => "attempted to acquire a connection on a closed pool"
  | .workerCrashed => "attempted to communicate with a crashed background worker"

/-- The code of an error that the database reports. -/
def code? : DbError → Option String
  | .database code _ => code
  | _ => none

/-- The code begins with the given characters. -/
def hasClass (e : DbError) (start : String) : Bool :=
  match e.code? with
  | some code => start.toList.isPrefixOf code.toList
  | none => false

/-- Transactions got in each other's way; trying again may help. -/
def isConflict (e : DbError) : Bool := e.code? = some "40001" || e.code? = some "40P01"

/-- The connection is gone, or was never there. -/
def isConnectionLoss : DbError → Bool
  | .io _ => true
  | .tls _ => true
  | .poolClosed => true
  | .workerCrashed => true
  | e => e.hasClass "08" || e.hasClass "57P0"

/-- What the error means where no statement gives it another meaning. -/
def toJournalError (e : DbError) : JournalError :=
  if e.isConflict then .serializationConflict e.message
  else if e.isConnectionLoss then .connectionLost e.message
  else .backend e.message

def isUniqueViolation (e : DbError) : Bool := e.code? = some "23505"

/-- A table of the same name, or for the same values, is there already. -/
def isDuplicateRelation (e : DbError) : Bool :=
  e.code? = some "42P07" || e.code? = some "42P17"

/-- The first text occurs in the second. -/
def occurs (part : List Char) : List Char → Bool
  | [] => part.isEmpty
  | c :: rest => part.isPrefixOf (c :: rest) || occurs part rest

/-- A row fits into no partition. The code alone says only that some check failed. -/
def isMissingPartition : DbError → Bool
  | .database code text => code = some "23514" && occurs "no partition".toList text.toList
  | _ => false

end DbError

end EventJournal

import EventJournal.Middleware
import EventJournal.Read.Links
import EventJournal.Read.Rows

/-!
# Long reads

A long read goes page by page. Its `PageCursor` says where the next page begins; after
each page it moves one past the last event of the page, in the direction of the read,
until a page is not full or the cursor falls below zero. An error is the last item of a
read.
-/

namespace EventJournal

/-- Where the next page of a read begins. -/
inductive PageCursor where
  /-- Where the options of the read say, which may take a query to find out. -/
  | start
  | at (place : Int64)
  | done
  deriving DecidableEq

namespace Read

variable {σ : Type}

/-- The place of a row in the order of a read. -/
def placeOf (stream : Stream) (row : StoredEvent) : Int64 :=
  if stream.isRegular then row.streamRevision.toInt64 else row.globalPosition

/-- The place at which a read is told to begin. -/
def explicitStart (stream : Stream) (options : ReadOptions) : Option Int64 :=
  if stream.isRegular then options.fromRevision.map Int32.toInt64 else options.fromPosition

/-- The place of the first event of a read; none if there is no event. -/
def firstPlace (stream : Stream) (options : ReadOptions) : Action σ (Option Int64) := do
  match explicitStart stream options, options.direction with
  | some place, _ => pure (some place)
  | none, .forward => pure (some 0)
  | none, .backward =>
      let last ← rows stream { options with maxCount := 1, resolveLinks := false }
      pure (last.head?.map (placeOf stream))

/-- The options of the page that begins at a place; a revision may be too large for one. -/
def pageOptions (stream : Stream) (options : ReadOptions) (place : Int64) :
    Except JournalError ReadOptions :=
  if stream.isRegular then
    if Int32.minValue.toInt ≤ place.toInt ∧ place.toInt ≤ Int32.maxValue.toInt then
      .ok { options with fromRevision := some place.toInt32, resolveLinks := false }
    else .error (.revisionCursorOutOfRange place)
  else .ok { options with fromPosition := some place, resolveLinks := false }

/-- One place further in a direction, if that is a place. -/
def step? (direction : Direction) (place : Int64) : Option Int64 :=
  match direction with
  | .forward => if place = Int64.maxValue then none else some (place + 1)
  | .backward => if place = Int64.minValue then none else some (place - 1)

/-- Where to go on after a page of a size whose last event has a place; none if the place
has no neighbour. -/
def cursorAfter? (direction : Direction) (size : Nat) (limit : Int64) (last : Int64) :
    Option PageCursor :=
  if (size : Int) < limit.toInt then some .done
  else (step? direction last).map fun next => if next < 0 then .done else .at next

/-- The events of the page that begins at a place, and where to go on; none past the
end. -/
def page (chain : MiddlewareChain) (stream : Stream) (options : ReadOptions) (place : Int64) :
    Action σ (Option (List Event × PageCursor)) := do
  let found ← rows stream (← Action.check (pageOptions stream options place))
  match found.getLast? with
  | none => pure none
  | some last =>
      match cursorAfter? options.direction found.length options.limit
        (placeOf stream last) with
      | none => Action.abort .overflow
      | some next =>
          let events := found.map StoredEvent.toEvent
          let events ← if options.resolveLinks then resolveLinks events else pure events
          let events ← Action.check (MiddlewareChain.outcome (chain.deserializeAll events))
          pure (some (events, next))

/-- The page at a cursor, and where to go on; none past the end. -/
def pageAt (chain : MiddlewareChain) (stream : Stream) (options : ReadOptions) :
    PageCursor → Action σ (Option (List Event × PageCursor))
  | .done => pure none
  | .at place => page chain stream options place
  | .start => do
      match ← firstPlace stream options with
      | some place => page chain stream options place
      | none => pure none

/-- The next item of a long read: a page or the error that ends it. -/
def nextPage (chain : MiddlewareChain) (stream : Stream) (options : ReadOptions)
    (cursor : PageCursor) : Action σ (Option (Except JournalError (List Event) × PageCursor)) := do
  match ← Action.outcome (pageAt chain stream options cursor) with
  | .ok none => pure none
  | .ok (some (events, next)) => pure (some (.ok events, next))
  | .error (.error cause) => pure (some (.error cause, .done))
  | .error abort => Action.abort abort

/-- The items of a long read from a cursor to its end, or as many as are asked for. -/
def pages (chain : MiddlewareChain) (stream : Stream) (options : ReadOptions) :
    (count : Nat) → PageCursor → Action σ (List (Except JournalError (List Event)))
  | 0, _ => pure []
  | count + 1, cursor => do
      match ← nextPage chain stream options cursor with
      | none => pure []
      | some (item, next) =>
          let rest ← pages chain stream options count next
          pure (item :: rest)

end Read

end EventJournal

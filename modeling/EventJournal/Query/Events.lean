import EventJournal.Error
import EventJournal.ReadOptions
import EventJournal.Sql.Columns
import EventJournal.Sql.Select

/-!
# Queries for events

An `EventQuery` says which events a read asks for, in terms of streams, types and
bounds. `EventQuery.ofOptions` derives it from a stream and the options of a read, and
`EventQuery.select` writes it as a selection. No text of a caller enters the latter but
as a bound value.

A regular stream is its own condition: descriptions of other streams do not widen it,
and a position does not bound it. The other streams are restricted by the descriptions
and bounded by a position; if descriptions are given and none has a meaning, nothing is
selected.
-/

namespace EventJournal

/-- A condition on one event. -/
inductive EventCondition where
  | inScope (scope : StreamScope)
  /-- The event is the first of its stream. -/
  | firstOfStream
  | never
  | revisionFrom (direction : Direction) (revision : Int32)
  | positionFrom (direction : Direction) (position : Int64)
  | typeAmong (types : List String)

/-- What events are ordered by. -/
inductive EventOrder where
  | revision
  | position
  deriving DecidableEq

/-- The first `limit` events, in the order asked for, that meet one condition of the
first group, if it has any, and all conditions of the second. -/
structure EventQuery where
  resolveLinks : Bool
  anyOf : List StreamScope
  allOf : List EventCondition
  order : EventOrder
  direction : Direction
  limit : Int64

namespace StreamScope

/-- The condition that an event lies in the scope. -/
def eventFragment : StreamScope → Fragment
  | .context c => { text := "events.context = ?", values := [.text c] }
  | .streamName c n =>
      { text := "events.context = ? AND events.stream_name = ?", values := [.text c, .text n] }
  | .stream c n i =>
      { text := "events.context = ? AND events.stream_name = ? AND events.stream_id = ?"
        values := [.text c, .text n, .text i] }

end StreamScope

namespace EventCondition

def fragment : EventCondition → Fragment
  | .inScope scope => scope.eventFragment
  | .firstOfStream => { text := "events.stream_revision = 0" }
  | .never => .never
  | .revisionFrom direction revision =>
      { text := "events.stream_revision " ++ direction.boundOperator ++ " ?"
        values := [.int revision]
        fits := by cases direction <;> rfl }
  | .positionFrom direction position =>
      { text := "events.global_position " ++ direction.boundOperator ++ " ?"
        values := [.bigint position]
        fits := by cases direction <;> rfl }
  | .typeAmong types => { text := "events.type = ANY(?)", values := [.texts types] }

end EventCondition

namespace EventOrder

def column : EventOrder → String
  | .revision => "events.stream_revision"
  | .position => "events.global_position"

end EventOrder

namespace EventQuery

/-- The restriction to the types listed; none if the list is empty. -/
def typeConditions : List String → List EventCondition
  | [] => []
  | types => [.typeAmong types]

/-- A read of one stream, by revision. -/
def ofStream (stream : Stream) (options : ReadOptions) : EventQuery where
  resolveLinks := options.resolveLinks
  anyOf := []
  allOf :=
    .inScope (.stream stream.context stream.streamName stream.streamId) ::
      (options.fromRevision.toList.map (.revisionFrom options.direction) ++
        typeConditions options.filter.eventTypes)
  order := .revision
  direction := options.direction
  limit := options.limit

/-- What remains of the descriptions of streams if none of them has a meaning. -/
def noScope (filter : ReadFilter) : List EventCondition :=
  if filter.scopes.isEmpty && !filter.streams.isEmpty then [.never] else []

/-- A read of many streams, by global position. -/
def ofFilter (extra : List EventCondition) (options : ReadOptions) : EventQuery where
  resolveLinks := options.resolveLinks
  anyOf := options.filter.scopes
  allOf :=
    extra ++ noScope options.filter ++
      options.fromPosition.toList.map (.positionFrom options.direction) ++
      typeConditions options.filter.eventTypes
  order := .position
  direction := options.direction
  limit := options.limit

/-- The query of a read. -/
def ofOptions (stream : Stream) (options : ReadOptions) : Except JournalError EventQuery :=
  match stream.kind with
  | .regular => .ok (ofStream stream options)
  | .all => .ok (ofFilter [] options)
  | .system =>
      if stream.streamName = Stream.streams.streamName then .ok (ofFilter [.firstOfStream] options)
      else .error (.unknownSystemStream stream.streamName)

/-- The column of the event that a row stands for: of the event referred to, if the join
found it. -/
def resolvedColumn (column : String) : String :=
  "CASE WHEN original.id IS NULL THEN events." ++ column ++ " ELSE original." ++ column ++
    " END AS " ++ column

/-- Puts the event that a link event refers to beside it. -/
def joinTargets : Fragment where
  text :=
    "LEFT JOIN events original ON original.id = events.link_id " ++
      "AND original.global_position = events.link_global_position"
  fits := by decide +kernel

def select (q : EventQuery) : Select where
  columns :=
    if q.resolveLinks then Sql.eventColumns.map resolvedColumn
    else [Sql.qualifiedColumns "events"]
  source := .table "events"
  joins := if q.resolveLinks then [joinTargets] else []
  anyOf := q.anyOf.map StreamScope.eventFragment
  allOf := q.allOf.map EventCondition.fragment
  order := [q.order.column ++ " " ++ q.direction.orderKeyword]
  limit := some q.limit

end EventQuery

end EventJournal

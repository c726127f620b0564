import EventJournal.Partition
import EventJournal.ReadOptions
import EventJournal.Sql.Columns
import EventJournal.Sql.Select

/-!
# Queries over the tables of leaves

Two reads ask several tables at once, one member of a union for each: the grouped read
asks for the first event of each leaf or stream (`HeadProbe`), and the resolution of
links for the events that links into a leaf refer to (`LinkBranch`).

The name of a table comes from the catalog and stands in the text of conditions, where a
question mark would pass for the place of a value. Both types therefore hold a proof
that none of their conditions is written beside such a name, and are built by functions
that fail where it is missing.
-/

namespace EventJournal

/-- Asks for the first event of a table, or of one stream in it. -/
structure HeadProbe where
  table : String
  streamId : Option String := none
  fromPosition : Option Int64 := none
  plain : '?' ∉ table.toList ∨ streamId = none ∧ fromPosition = none

/-- Asks a table for events by their identifiers. -/
structure LinkBranch where
  table : String
  ids : List Uuid
  plain : '?' ∉ table.toList

namespace HeadProbe

def build? (table : String) (streamId : Option String) (fromPosition : Option Int64) :
    Option HeadProbe :=
  if plain : '?' ∉ table.toList ∨ streamId = none ∧ fromPosition = none then
    some { table, streamId, fromPosition, plain }
  else none

/-- The conditions on a table whose name has no question mark. -/
def conditions (table : String) (plain : '?' ∉ table.toList) (direction : Direction)
    (streamId : Option String) (fromPosition : Option Int64) : List Fragment :=
  streamId.toList.map (fun (id : String) =>
      Fragment.onTable table ".stream_id = ?" [.text id] plain rfl) ++
    fromPosition.toList.map fun (position : Int64) =>
      Fragment.onTable table (".global_position " ++ direction.boundOperator ++ " ?")
        [.bigint position] plain (by cases direction <;> rfl)

def select (direction : Direction) (probe : HeadProbe) : Select where
  columns := [Sql.qualifiedColumns probe.table]
  source := .table probe.table
  allOf :=
    if plain : '?' ∉ probe.table.toList then
      conditions probe.table plain direction probe.streamId probe.fromPosition
    else []
  order := [probe.table ++ ".global_position " ++ direction.orderKeyword]
  limit := some 1

/-- All probes of a grouped read at once. -/
def selectAll (direction : Direction) (first : HeadProbe) (rest : List HeadProbe) : Select where
  source := .union (first.select direction) (rest.map (HeadProbe.select direction))
  order := ["global_position " ++ direction.orderKeyword]

end HeadProbe

namespace LinkBranch

def build? (table : String) (ids : List Uuid) : Option LinkBranch :=
  if plain : '?' ∉ table.toList then some { table, ids, plain } else none

def select (branch : LinkBranch) : Select where
  columns := [Sql.qualifiedColumns branch.table]
  source := .table branch.table
  allOf := [Fragment.onTable branch.table ".id = ANY(?)" [.uuids branch.ids] branch.plain rfl]

/-- All branches at once. -/
def selectAll (first : LinkBranch) (rest : List LinkBranch) : Select where
  source := .union first.select (rest.map LinkBranch.select)

end LinkBranch

end EventJournal

/-!
# Columns of the tables

The names under which statements ask for the columns of the two tables that are read
row by row, the events and the catalog of partitions.
-/

namespace EventJournal.Sql

/-- The columns of the events, in the order in which they are asked for. -/
def eventColumns : List String := [
  "id", "context", "stream_name", "stream_id", "global_position", "stream_revision", "type",
  "event_type_id", "data", "metadata", "link_id", "link_partition_id", "link_global_position",
  "created_at"]

/-- The columns of the catalog of partitions. -/
def partitionColumns : List String :=
  ["id", "context", "stream_name", "event_type", "table_name"]

/-- A column of a table that is known by a name. -/
def qualified (table column : String) : String := table ++ "." ++ column

/-- The columns of the events as one list, each with the name of its table. -/
def qualifiedColumns (table : String) : String :=
  ", ".intercalate (eventColumns.map (qualified table))

end EventJournal.Sql

import EventJournal.Partition
import EventJournal.ReadOptions
import EventJournal.Sql.Columns
import EventJournal.Sql.Select

/-!
# Queries for leaves

A `LeafQuery` asks the catalog for the leaves that can hold an event of a filter. A leaf
is one context, stream name and event type, so a description that names a single stream
selects the same leaves as the stream's context and stream name.
-/

namespace EventJournal

/-- The leaves that meet one of the descriptions and hold one of the types. -/
structure LeafQuery where
  filter : ReadFilter

namespace StreamScope

/-- The condition that a leaf can hold events of the scope. -/
def leafFragment : StreamScope → Fragment
  | .context c => { text := "partitions.context = ?", values := [.text c] }
  | .streamName c n | .stream c n _ =>
      { text := "partitions.context = ? AND partitions.stream_name = ?"
        values := [.text c, .text n] }

end StreamScope

namespace LeafQuery

/-- The condition on the type of a leaf. -/
def typeFragments : List String → List Fragment
  | [] => []
  | types => [{ text := "partitions.event_type = ANY(?)", values := [.texts types] }]

/-- If descriptions are given and none has a meaning, no leaf is selected. -/
def scopeFragments (filter : ReadFilter) : List Fragment :=
  if filter.scopes.isEmpty && !filter.streams.isEmpty then [.never] else []

def select (q : LeafQuery) : Select where
  columns := Sql.partitionColumns.map (Sql.qualified "partitions")
  source := .table "partitions"
  anyOf := q.filter.scopes.map StreamScope.leafFragment
  allOf :=
    { text := "partitions.event_type IS NOT NULL" } ::
      (scopeFragments q.filter ++ typeFragments q.filter.eventTypes)
  order := ["partitions.id ASC"]

end LeafQuery

/-- The entry of one key in the catalog. -/
def PartitionKey.select (key : PartitionKey) : Select where
  columns := Sql.partitionColumns
  source := .table "partitions"
  allOf := [
    { text := "context = ?", values := [.text key.context] },
    match key.streamName with
    | some streamName => { text := "stream_name = ?", values := [.text streamName] }
    | none => { text := "stream_name IS NULL" },
    match key.eventType with
    | some eventType => { text := "event_type = ?", values := [.text eventType] }
    | none => { text := "event_type IS NULL" }]

end EventJournal

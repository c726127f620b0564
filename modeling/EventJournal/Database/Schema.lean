/-!
# Tables of the journal

The statements that create the tables and their indexes where they do not exist yet: the
events, divided by context, the catalog of partitions, and the event types. The indexes
of the events are inherited by every partition.
-/

namespace EventJournal.Schema

/-- A statement laid out on lines of its own. -/
def layOut (lines : List String) : String :=
  "\n" ++ String.join (lines.map fun line => "    " ++ line ++ "\n") ++ "    "

def createEvents : String := layOut [
  "CREATE TABLE IF NOT EXISTS events (",
  "    id                   UUID NOT NULL,",
  "    context              VARCHAR NOT NULL,",
  "    stream_name          VARCHAR NOT NULL,",
  "    stream_id            VARCHAR NOT NULL,",
  "    global_position      BIGSERIAL NOT NULL,",
  "    stream_revision      INT NOT NULL,",
  "    type                 VARCHAR NOT NULL,",
  "    event_type_id        BIGINT,",
  "    data                 JSONB NOT NULL DEFAULT '\x7b\x7d'::jsonb,",
  "    metadata             JSONB NOT NULL DEFAULT '\x7b\x7d'::jsonb,",
  "    link_id              UUID,",
  "    link_partition_id    BIGINT,",
  "    link_global_position BIGINT,",
  "    created_at           TIMESTAMPTZ NOT NULL DEFAULT NOW()",
  ") PARTITION BY LIST (context)"]

def indexEventsByRevision : String := layOut [
  "CREATE INDEX IF NOT EXISTS idx_events_stream_revision",
  "ON events (context, stream_name, stream_id, stream_revision)"]

def indexEventsByPosition : String := layOut [
  "CREATE INDEX IF NOT EXISTS idx_events_global_position",
  "ON events (global_position)"]

def indexEventsById : String := layOut [
  "CREATE INDEX IF NOT EXISTS idx_events_id",
  "ON events (id)"]

def createPartitions : String := layOut [
  "CREATE TABLE IF NOT EXISTS partitions (",
  "    id          BIGSERIAL PRIMARY KEY,",
  "    context     VARCHAR NOT NULL,",
  "    stream_name VARCHAR,",
  "    event_type  VARCHAR,",
  "    table_name  VARCHAR NOT NULL,",
  "    CONSTRAINT uq_partitions_table_name UNIQUE (table_name)",
  ")"]

def indexContexts : String := layOut [
  "CREATE UNIQUE INDEX IF NOT EXISTS idx_partitions_by_context",
  "ON partitions (context)",
  "WHERE stream_name IS NULL AND event_type IS NULL"]

def indexStreamNames : String := layOut [
  "CREATE UNIQUE INDEX IF NOT EXISTS idx_partitions_by_stream_name",
  "ON partitions (context, stream_name)",
  "WHERE stream_name IS NOT NULL AND event_type IS NULL"]

def indexLeaves : String := layOut [
  "CREATE UNIQUE INDEX IF NOT EXISTS idx_partitions_by_event_type",
  "ON partitions (context, stream_name, event_type)",
  "WHERE event_type IS NOT NULL"]

def createEventTypes : String := layOut [
  "CREATE TABLE IF NOT EXISTS event_types (",
  "    id   BIGSERIAL PRIMARY KEY,",
  "    type VARCHAR NOT NULL,",
  "    CONSTRAINT uq_event_types_type UNIQUE (type)",
  ")"]

/-- All statements, in the order in which they are sent. -/
def steps : List String := [
  createEvents, indexEventsByRevision, indexEventsByPosition, indexEventsById,
  createPartitions, indexContexts, indexStreamNames, indexLeaves, createEventTypes]

end EventJournal.Schema

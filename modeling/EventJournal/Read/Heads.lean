import EventJournal.Middleware
import EventJournal.Read.Links

/-!
# The first event of each leaf

A grouped read returns one event for each leaf that its filter selects: the first in the
direction of the read, from the position it begins at. A description that names a single
stream asks for the first event of that stream instead. Overlapping descriptions can ask
for one event more than once; it is returned once.
-/

namespace EventJournal.Read

variable {σ : Type}

/-- A description says something about a leaf. -/
def covers (leaf : Partition) (filter : StreamFilter) : Bool :=
  filter.context = some leaf.context &&
    (filter.streamName.isNone || filter.streamName = leaf.streamName)

/-- A leaf is asked for as a whole, not only for single streams. -/
def wantsWhole (filters : List StreamFilter) (leaf : Partition) : Bool :=
  filters.isEmpty || filters.any fun filter =>
    covers leaf filter &&
      match filter.scope? with
      | some (.context _) | some (.streamName _ _) => true
      | _ => false

/-- The single streams asked for in a leaf. -/
def wantedStreams (filters : List StreamFilter) (leaf : Partition) : List String :=
  filters.filterMap fun filter =>
    if covers leaf filter then
      match filter.scope? with
      | some (.stream _ _ id) => some id
      | _ => none
    else none

/-- What is asked of one leaf: nothing of a stream, or the stream with an identifier. -/
def wanted (filters : List StreamFilter) (leaf : Partition) : List (Option String) :=
  (if wantsWhole filters leaf then [none] else []) ++ (wantedStreams filters leaf).map some

/-- The probes of a grouped read, leaf by leaf. -/
def probes? (options : ReadOptions) (leaves : List Partition) : Option (List HeadProbe) :=
  (leaves.flatMap fun leaf =>
    (wanted options.filter.streams leaf).map fun streamId => (leaf.tableName, streamId)).mapM
    fun (table, streamId) => HeadProbe.build? table streamId options.fromPosition

/-- The rows that are left after a row at a position: without those at the position of
the row before them. -/
def dropRepeatedAfter (position : Int64) : List StoredEvent → List StoredEvent
  | [] => []
  | row :: rest =>
      if row.globalPosition = position then dropRepeatedAfter position rest
      else row :: dropRepeatedAfter row.globalPosition rest

/-- Drops every row at the position of the row before it. -/
def dropRepeated : List StoredEvent → List StoredEvent
  | [] => []
  | row :: rest => row :: dropRepeatedAfter row.globalPosition rest

/-- The first event of each leaf, or of each stream asked for in it, by position. -/
def heads (chain : MiddlewareChain) (options : ReadOptions) : Action σ (List Event) := do
  let leaves ← Catalog.findLeaves options.filter
  match probes? options leaves with
  | none => Action.abort .misfit
  | some [] => pure []
  | some (first :: rest) =>
      let found : List StoredEvent ← Action.ask (.readHeads options.direction first rest)
      let events := (dropRepeated found).map StoredEvent.toEvent
      let events ← if options.resolveLinks then resolveLinks events else pure events
      Action.check (MiddlewareChain.outcome (chain.deserializeAll events))

end EventJournal.Read

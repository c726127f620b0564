import EventJournal.Catalog

/-!
# Resolving links

Each link event in a list is replaced by the event it refers to, which keeps the link
event in its field `link`. The events referred to are fetched with two statements for
the whole list: one for the partitions they lie in and one for the events in the tables
of these. A link event whose event is not found stays as it is.
-/

namespace EventJournal

/-- An event that is asked for: its partition and its identifier. -/
abbrev LinkTarget : Type := Int64 × Uuid

namespace LinkTarget

/-- What the link events of a list refer to, in order and with repetitions. -/
def ofEvents (events : List Event) : List LinkTarget :=
  events.filterMap fun event =>
    if event.isLink then
      match event.linkPartitionId, event.linkId with
      | some partition, some id => some (partition, id)
      | _, _ => none
    else none

/-- The partitions of targets, each once. -/
def partitions (targets : List LinkTarget) : List Int64 := (targets.map (·.1)).eraseDups

/-- The targets in one partition. -/
def idsIn (targets : List LinkTarget) (partition : Int64) : List Uuid :=
  targets.filterMap fun target => if target.1 = partition then some target.2 else none

end LinkTarget

namespace Read

variable {σ : Type}

/-- A branch for each partition that a target lies in. -/
def branches? (targets : List LinkTarget) (partitions : List Partition) :
    Option (List LinkBranch) :=
  (partitions.filterMap fun partition =>
    match LinkTarget.idsIn targets partition.id with
    | [] => none
    | ids => some (partition.tableName, ids)).mapM fun (table, ids) => LinkBranch.build? table ids

/-- The event that a link event refers to; of several rows the last one. -/
def target? (rows : List StoredEvent) (event : Event) : Option StoredEvent :=
  if event.isLink then
    match event.linkId, event.linkGlobalPosition with
    | some id, some position =>
        rows.reverse.find? fun row => row.id = id && row.globalPosition = position
    | _, _ => none
  else none

/-- The event referred to, with the link event inside, or the event itself. -/
def merge (rows : List StoredEvent) (event : Event) : Event :=
  match target? rows event with
  | some row => { row.toEvent with link := some event }
  | none => event

/-- Replaces the link events of a list. -/
def resolveLinks (events : List Event) : Action σ (List Event) := do
  let targets := LinkTarget.ofEvents events
  let partitions ← Catalog.findByIds (LinkTarget.partitions targets)
  match branches? targets partitions with
  | none => Action.abort .misfit
  | some [] => pure events
  | some (first :: rest) =>
      let rows : List StoredEvent ← Action.ask (.readTargets first rest)
      pure (events.map (merge rows))

end Read

end EventJournal

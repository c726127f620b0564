import EventJournal.Partition.TableName
import EventJournal.Transaction

/-!
# The catalog of partitions

Leaves are looked up by context, stream name and event type, and created where they are
missing: a partition of each level, from the root, with an entry in the catalog for each,
in one transaction. Partitions are never dropped, so a leaf that has been seen is kept in
a `LeafCache` and not asked for again; that a leaf is missing is never kept.

Two writers may create the same partition at once. The one that fails sees the table or
the entry of the other as a duplicate, which is a `partitionRace`, and finds the other's
partition when it runs again.
-/

namespace EventJournal

/-- What a leaf holds: the events of one type in the streams of one name. -/
structure LeafKey where
  context : String
  streamName : String
  eventType : String
  deriving DecidableEq, Repr

def LeafKey.toPartitionKey (key : LeafKey) : PartitionKey :=
  .leaf key.context key.streamName key.eventType

/-- The leaves seen so far. -/
structure LeafCache where
  entries : List (LeafKey × Partition) := []

namespace LeafCache

def find? (cache : LeafCache) (key : LeafKey) : Option Partition := cache.entries.lookup key

/-- Keeps a leaf, in place of one kept before. -/
def insert (cache : LeafCache) (key : LeafKey) (leaf : Partition) : LeafCache where
  entries := (key, leaf) :: cache.entries.filter (·.1 ≠ key)

def size (cache : LeafCache) : Nat := cache.entries.length

@[simp] theorem find?_insert_self (cache : LeafCache) (key : LeafKey) (leaf : Partition) :
    (cache.insert key leaf).find? key = some leaf := by
  simp [insert, find?]

theorem find?_insert_of_ne {key other : LeafKey} (h : other ≠ key) (cache : LeafCache)
    (leaf : Partition) : (cache.insert key leaf).find? other = cache.find? other := by
  have step : ∀ entries : List (LeafKey × Partition),
      (entries.filter (·.1 ≠ key)).lookup other = entries.lookup other := by
    intro entries
    induction entries with
    | nil => rfl
    | cons entry rest ih =>
        obtain ⟨k, p⟩ := entry
        by_cases hk : k = key
        · subst hk
          have hne : (other == k) = false := by simpa using h
          simpa [List.lookup_cons, hne] using ih
        · have keep : ((k, p) :: rest).filter (·.1 ≠ key) = (k, p) :: rest.filter (·.1 ≠ key) := by
            simp [hk]
          rw [keep, List.lookup_cons, List.lookup_cons, ih]
  have hne : (other == key) = false := by simpa using h
  simpa [insert, find?, List.lookup_cons, hne] using step cache.entries

end LeafCache

/-- How partitions are created. -/
structure CatalogConfig where
  retry : RetryPolicy := {}
  /-- How many names are tried for a table. A search that finds as many names taken gives
  up with `Abort.outOfTries`; it needs no more tries than there are tables and entries. -/
  nameTries : Nat
  /-- What the first name for a table is made from. Keys may have it in common. -/
  digest : PartitionKey → String := TableName.digest

namespace PartitionKey

/-- The value that the rows of a partition share with each other and not with those of
its siblings. -/
def bound (key : PartitionKey) : String :=
  match key.streamName, key.eventType with
  | some _, some eventType => eventType
  | some streamName, none => streamName
  | none, _ => key.context

end PartitionKey

namespace Catalog

variable {σ : Type}

/-- What a failure to create a table or its entry means. -/
def creationError (table : String) (e : DbError) : JournalError :=
  if e.isUniqueViolation || e.isDuplicateRelation then .partitionRace (table ++ ": " ++ e.message)
  else e.toJournalError

def findPartition (key : PartitionKey) : Action σ (Option Partition) := do
  let rows : List Partition ← Action.ask (.findPartition key)
  pure rows.head?

/-- The first name that is not taken, of a name and its successors. -/
def freeName : (tries : Nat) → (name : String) → Action σ String
  | 0, _ => Action.abort .outOfTries
  | tries + 1, name => do
      let rows : List Bool ← Action.ask (.tableNameTaken name)
      match ← Action.one rows with
      | false => pure name
      | true => freeName tries (TableName.successor name)

/-- Creates a partition: its table, as a part of its parent's, and its entry. -/
def create (config : CatalogConfig) (parent : String) (key : PartitionKey) :
    Action σ Partition := do
  let name ← freeName config.nameTries (TableName.candidate key.level (config.digest key))
  match ← Action.attempt
      (.createTable { name, parent, bound := key.bound, level := key.level }) with
  | .error e => Action.fail (creationError name e)
  | .ok _ =>
      let answer : Except DbError (List Partition) ← Action.attempt (.registerPartition key name)
      Action.check ((answer.bind Action.firstRow).mapError (creationError name))

def findOrCreate (config : CatalogConfig) (parent : String) (key : PartitionKey) :
    Action σ Partition := do
  match ← findPartition key with
  | some partition => pure partition
  | none => create config parent key

/-- The leaf and the partitions above it, each of them found or created. -/
def ensurePath (config : CatalogConfig) (key : LeafKey) : Action σ Partition := do
  let context ← findOrCreate config "events" ⟨key.context, none, none⟩
  let streamName ←
    findOrCreate config context.tableName ⟨key.context, some key.streamName, none⟩
  findOrCreate config streamName.tableName key.toPartitionKey

/-- A leaf that exists. -/
def findLeaf (key : LeafKey) : Action LeafCache (Option Partition) := do
  match (← Action.state).find? key with
  | some leaf => pure (some leaf)
  | none =>
      let found ← findPartition key.toPartitionKey
      match found with
      | some leaf => Action.modify (·.insert key leaf)
      | none => pure ()
      pure found

/-- A leaf, created if it does not exist. -/
def ensure (config : CatalogConfig) (key : LeafKey) : Action LeafCache Partition := do
  match ← findLeaf key with
  | some leaf => pure leaf
  | none =>
      let leaf ← Action.transact config.retry none (ensurePath config key)
      Action.modify (·.insert key leaf)
      pure leaf

/-- Asks for the leaf of each type in a stream, one after the other. -/
def healWith (ensure : LeafKey → Action σ Partition) : Healer σ := fun stream types =>
  types.forM fun type => do
    let _ ← ensure ⟨stream.context, stream.streamName, type⟩

/-- Creates the leaves of a stream for the types that have none. -/
def healer (config : CatalogConfig) : Healer LeafCache := healWith (ensure config)

/-- The leaves that can hold events of a filter. -/
def findLeaves (filter : ReadFilter) : Action σ (List Partition) :=
  Action.ask (.findLeaves ⟨filter⟩)

def findByIds : List Int64 → Action σ (List Partition)
  | [] => pure []
  | ids => Action.ask (.partitionsById ids)

def list : Action σ (List Partition) := Action.ask .allPartitions

end Catalog

end EventJournal

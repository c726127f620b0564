import EventJournal.Proofs.Sends
import EventJournal.Proofs.Table

/-!
# A database of partitions

A `CatalogTable` executes the statements of the catalog on the entries of the partitions
and on the relations there are. A partition is a relation with a place: the table it is a
part of, and the value its rows share. Tables are created and entries inserted by an open
transaction on a copy of both, which takes their place at the commit.

No two relations have one name, and the unique indexes keep entries apart, by the names of
their tables and, on each level, by their keys. Whatever else may keep a statement from
being executed is left to the `Circumstances`.

## Main results

* `CatalogTable.answer_cases` — a statement does what it means, or fails.
* `CatalogTable.answer_createTable`, `CatalogTable.answer_registerPartition` — what that is
  for the two statements that create a partition.
-/

namespace EventJournal

/-- A table of the database, with its place if it is a partition: its parent, and the value
that its rows have in common. -/
structure Relation where
  name : String
  place : Option (String × String) := none
  deriving DecidableEq

namespace Relation

/-- The relation is the partition with the given table. -/
def isPartition (table : String) (relation : Relation) : Bool :=
  relation.place.isSome && relation.name = table

end Relation

namespace Partition

/-- A unique index keeps a new entry and this one apart. An index takes an absent value for
different from any other, so none speaks of keys that skip a level. -/
def clashes (key : PartitionKey) (table : String) (entry : Partition) : Bool :=
  entry.tableName = table ||
    entry.key = key && (key.streamName.isSome || key.eventType.isNone)

end Partition

/-- The entries of the catalog, and the relations there are. -/
structure Forest where
  entries : List Partition := []
  relations : List Relation := []

namespace Forest

/-- A name stands for a table already, in the catalog or in the database. -/
def isTaken (f : Forest) (name : String) : Bool :=
  f.entries.any (·.tableName = name) || f.relations.any (·.name = name)

/-- A new table. -/
def plant (f : Forest) (table : PartitionTable) : Forest :=
  { f with relations := f.relations ++ [⟨table.name, some (table.parent, table.bound)⟩] }

/-- A new entry. -/
def record (f : Forest) (entry : Partition) : Forest := { f with entries := f.entries ++ [entry] }

end Forest

structure CatalogTable where
  /-- What there is as of the last commit. -/
  stored : Forest := {}
  /-- What an open transaction sees. -/
  working : Option Forest := none
  /-- The last identifier drawn, and zero before any. -/
  lastDrawn : Nat := 0
  /-- The number of statements so far. -/
  clock : Nat := 0

namespace CatalogTable

/-- What a statement sees. -/
def visible (t : CatalogTable) : Forest := t.working.getD t.stored

/-- The database with something else in the place of what a statement sees. -/
def write (t : CatalogTable) (f : Forest) : CatalogTable :=
  match t.working with
  | some _ => { t with working := some f }
  | none => { t with stored := f }

def tick (t : CatalogTable) : CatalogTable := { t with clock := t.clock + 1 }

def duplicateTable : DbError := .database (some "42P07") "relation already exists"

def duplicateKey : DbError :=
  .database (some "23505") "duplicate key value violates unique constraint"

/-- Creates a table, unless there is a relation of its name. -/
def createTable (t : CatalogTable) (table : PartitionTable) : Except DbError Unit × CatalogTable :=
  if t.visible.relations.any (·.name = table.name) then (.error duplicateTable, t)
  else (.ok (), t.write (t.visible.plant table))

/-- Inserts an entry under the next identifier, unless a unique index keeps it out. -/
def register (c : Circumstances) (now : Nat) (t : CatalogTable) (key : PartitionKey)
    (table : String) : Except DbError (List Partition) × CatalogTable :=
  let id := t.lastDrawn + 1 + c.skipped now
  if id ≤ Int64.maxValue.toInt then
    if t.visible.entries.any (·.clashes key table) then
      (.error duplicateKey, { t with lastDrawn := id })
    else
      let entry : Partition :=
        ⟨Int64.ofNat id, key.context, key.streamName, key.eventType, table⟩
      (.ok [entry], { t.write (t.visible.record entry) with lastDrawn := id })
  else (.error EventTable.sequenceExhausted, t)

/-- What the transaction has created is there for good. -/
def commit (t : CatalogTable) : CatalogTable := { t with stored := t.visible, working := none }

/-- What a statement means where it does not fail. -/
def perform (c : Circumstances) (now : Nat) (t : CatalogTable) :
    (s : Statement) → Except DbError s.Answer × CatalogTable
  | .begin => (.ok (), { t with working := some t.stored })
  | .commit => (.ok (), t.commit)
  | .rollback => (.ok (), { t with working := none })
  | .findPartition key => (.ok (t.visible.entries.filter (·.key = key)), t)
  | .tableNameTaken name => (.ok [t.visible.isTaken name], t)
  | .createTable table => t.createTable table
  | .registerPartition key table => t.register c now key table
  | s => (.ok (c.reading now [] s), t)

/-- What a statement leaves behind that is answered with an error. -/
def afterFault (c : Circumstances) (now : Nat) (t : CatalogTable) (e : DbError) :
    Statement → CatalogTable
  | .commit => if e.isConnectionLoss && c.landed now then t.commit else t
  | _ => t

/-- The database. -/
def database (c : Circumstances) : Database CatalogTable where
  answer s t :=
    match c.fault t.clock with
    | none => t.tick.perform c t.clock s
    | some e => (.error e, t.tick.afterFault c t.clock e s)

@[simp] theorem working_tick (t : CatalogTable) : t.tick.working = t.working := rfl

@[simp] theorem visible_tick (t : CatalogTable) : t.tick.visible = t.visible := rfl

theorem visible_of_working {t : CatalogTable} {f : Forest} (h : t.working = some f) :
    t.visible = f := by
  rw [visible, h, Option.getD_some]

theorem write_of_working {t : CatalogTable} {f : Forest} (h : t.working = some f)
    (f' : Forest) : t.write f' = { t with working := some f' } := by
  rw [write, h]

/-! ## Statements -/

section

variable (c : Circumstances) (t : CatalogTable)

/-- A statement does what it means, or fails. -/
theorem answer_cases (s : Statement) :
    (database c).answer s t = t.tick.perform c t.clock s ∨
      ∃ e, (database c).answer s t = (.error e, t.tick.afterFault c t.clock e s) := by
  unfold database
  dsimp only
  split
  · exact .inl rfl
  · exact .inr ⟨_, rfl⟩

/-- A statement that fails leaves everything as it is, unless it is a commit. -/
theorem answer_of_ne_commit {s : Statement} (h : s ≠ .commit) :
    (database c).answer s t = t.tick.perform c t.clock s ∨
      ∃ e, (database c).answer s t = (.error e, t.tick) := by
  rcases answer_cases c t s with done | ⟨e, failed⟩
  · exact .inl done
  · refine .inr ⟨e, failed.trans (congrArg (Prod.mk _) ?_)⟩
    unfold afterFault
    split
    · exact absurd rfl h
    · rfl

/-- A commit makes good what the transaction has created, or does nothing. -/
theorem stored_answer_commit :
    ((database c).answer .commit t).2.stored = t.visible ∨
      ((database c).answer .commit t).2.stored = t.stored := by
  rcases answer_cases c t .commit with done | ⟨e, failed⟩
  · rw [done]
    exact .inl rfl
  · rw [failed]
    unfold afterFault
    dsimp only
    split
    · exact .inl rfl
    · exact .inr rfl

/-- A rollback leaves what is stored. -/
theorem stored_answer_rollback : ((database c).answer .rollback t).2.stored = t.stored := by
  rcases answer_of_ne_commit c t (s := .rollback) (by simp) with done | ⟨e, failed⟩
  · rw [done]
    rfl
  · rw [failed]
    rfl

variable {c t} {f : Forest}

/-- The statement creates nothing, and leaves the transaction as it is. -/
def looks : Statement → Bool
  | .begin | .commit | .rollback | .createTable _ | .registerPartition _ _ => false
  | _ => true

theorem looks_of_isLookup {s : Statement} (h : s.isLookup = true) : looks s = true := by
  cases s <;> first | rfl | cases h

theorem snd_answer_of_looks {s : Statement} (h : looks s = true) (c : Circumstances)
    (t : CatalogTable) : ((database c).answer s t).2 = t.tick := by
  have ne : s ≠ .commit := by
    rintro rfl
    cases h
  rcases answer_of_ne_commit c t ne with done | ⟨e, failed⟩
  · rw [done]
    cases s <;> first | rfl | cases h
  · rw [failed]

/-- A partition is found by its key. -/
theorem answer_findPartition (key : PartitionKey) :
    (database c).answer (.findPartition key) t =
        (.ok (t.visible.entries.filter (·.key = key)), t.tick) ∨
      ∃ e, (database c).answer (.findPartition key) t = (.error e, t.tick) :=
  answer_of_ne_commit c t (by simp)

/-- A table is created where there is no relation of its name. -/
theorem answer_createTable (working : t.working = some f) (table : PartitionTable) :
    ((∀ relation ∈ f.relations, relation.name ≠ table.name) ∧
        (database c).answer (.createTable table) t =
          (.ok (), { t.tick with working := some (f.plant table) })) ∨
      ∃ e, (database c).answer (.createTable table) t = (.error e, t.tick) := by
  rcases answer_of_ne_commit c t (s := .createTable table) (by simp) with done | failed
  · rw [done]
    unfold perform createTable
    dsimp only
    rw [visible_tick, visible_of_working working]
    split
    · exact .inr ⟨_, rfl⟩
    · rename_i fresh
      rw [write_of_working ((working_tick t).trans working)]
      refine .inl ⟨?_, rfl⟩
      simpa using fresh
  · exact .inr failed

/-- An entry is inserted where no unique index keeps it out. -/
theorem answer_registerPartition (working : t.working = some f) (key : PartitionKey)
    (table : String) :
    (∃ entry lastDrawn, entry.key = key ∧ entry.tableName = table ∧
        (∀ other ∈ f.entries, other.clashes key table = false) ∧
        (database c).answer (.registerPartition key table) t =
          (.ok [entry], { t.tick with working := some (f.record entry), lastDrawn })) ∨
      ∃ e lastDrawn, (database c).answer (.registerPartition key table) t =
        (.error e, { t.tick with lastDrawn }) := by
  rcases answer_of_ne_commit c t (s := .registerPartition key table) (by simp) with
    done | ⟨e, failed⟩
  · rw [done]
    unfold perform register
    dsimp only
    rw [visible_tick, visible_of_working working]
    split
    · split
      · exact .inr ⟨_, _, rfl⟩
      · rename_i fresh
        rw [write_of_working ((working_tick t).trans working)]
        refine .inl ⟨_, _, ?_, ?_, ?_, rfl⟩
        · rfl
        · rfl
        · simpa using fresh
    · exact .inr ⟨_, t.lastDrawn, rfl⟩
  · exact .inr ⟨e, t.lastDrawn, failed⟩

end

end CatalogTable

end EventJournal

import EventJournal.Proofs.Catalog.Table
import EventJournal.Proofs.Transaction.Attempts

/-!
# The partitions form a forest

The catalog and the relations are two accounts of the same partitions, and nothing in the
database ties one to the other: a table can be created without an entry, and hung below a
table of another stream name. `Forest.WellGrown` says that the accounts agree and that
every partition hangs where its key belongs. It holds of what is stored after any calls of
`Catalog.ensure`, whatever fails on the way and whatever the first names of tables are made
from: keys that have a name in common are kept apart by the search for a free one.

Between a table and its entry a transaction is not well grown. If the entry is kept out,
the transaction is rolled back, and the table with it.

## Main results

* `Forest.WellGrown.grow` — a new partition with its entry, below the one above it.
* `CatalogTable.ends_findOrCreate` — one level of the tree.
* `CatalogTable.ensured_wellGrown` — the catalog after any calls.
-/

namespace EventJournal

/-! ## The invariant -/

namespace Forest

/-- The place of a partition: a context is a part of the table of all events, a stream name
of the table of its context, and an event type of the table of its stream name. The rows
of a partition have in common what the last part of its key says. -/
inductive Place (f : Forest) : PartitionKey → String × String → Prop where
  | context (context : String) : f.Place ⟨context, none, none⟩ ("events", context)
  | streamName {above : Partition} {context : String} (there : above ∈ f.entries)
      (key : above.key = ⟨context, none, none⟩) (name : String) :
      f.Place ⟨context, some name, none⟩ (above.tableName, name)
  | eventType {above : Partition} {context name : String} (there : above ∈ f.entries)
      (key : above.key = ⟨context, some name, none⟩) (type : String) :
      f.Place ⟨context, some name, some type⟩ (above.tableName, type)

/-- The entries and the partitions are the same ones, and each hangs in its place. -/
structure WellGrown (f : Forest) : Prop where
  entry_has_table : ∀ entry ∈ f.entries, f.relations.countP (·.isPartition entry.tableName) = 1
  table_has_entry : ∀ relation ∈ f.relations, relation.place.isSome = true →
    f.entries.countP (·.tableName = relation.name) = 1
  names : (f.entries.map (·.tableName)).Nodup
  /-- There is one entry for a context, for a stream name of a context, and for an event type
  of a stream name. -/
  keys : (f.entries.map (·.key)).Nodup
  hangs : ∀ entry ∈ f.entries, ∃ place, f.Place entry.key place ∧
    ⟨entry.tableName, some place⟩ ∈ f.relations

/-- Before there are partitions, all is well. -/
theorem WellGrown.bare (names : List String) :
    WellGrown { relations := names.map fun name => ⟨name, none⟩ } where
  entry_has_table _ there := nomatch there
  table_has_entry relation there partition := by
    obtain ⟨name, -, rfl⟩ := List.mem_map.1 there
    cases partition
  names := .nil
  keys := .nil
  hangs _ there := nomatch there

variable {f : Forest} {key : PartitionKey} {place : String × String}

theorem Place.mono {f' : Forest} (h : f.Place key place) (subset : f.entries ⊆ f'.entries) :
    f'.Place key place := by
  cases h with
  | context context => exact .context context
  | streamName there key name => exact .streamName (subset there) key name
  | eventType there key type => exact .eventType (subset there) key type

/-- A key that has a place skips no level. -/
theorem Place.complete (h : f.Place key place) :
    (key.streamName.isSome || key.eventType.isNone) = true := by
  cases h <;> rfl

/-- What a new item has to itself stays apart from what the others have. -/
theorem nodup_map_concat {α β : Type} {g : α → β} {items : List α} {new : α}
    (h : (items.map g).Nodup) (apart : ∀ item ∈ items, g item ≠ g new) :
    ((items ++ [new]).map g).Nodup := by
  rw [List.map_append, List.nodup_append]
  refine ⟨h, by simp, ?_⟩
  intro value old other there
  obtain ⟨item, member, rfl⟩ := List.mem_map.1 old
  rw [List.mem_singleton.1 there]
  exact apart item member

/-- A partition and its entry, below the partition above it. -/
theorem WellGrown.grow (h : f.WellGrown) {entry : Partition} {parent bound : String}
    (level : PartitionLevel) (place : f.Place entry.key (parent, bound))
    (newTable : ∀ relation ∈ f.relations, relation.name ≠ entry.tableName)
    (newEntry : ∀ other ∈ f.entries, other.clashes entry.key entry.tableName = false) :
    ((f.plant ⟨entry.tableName, parent, bound, level⟩).record entry).WellGrown := by
  have apart : ∀ other ∈ f.entries, other.tableName ≠ entry.tableName ∧ other.key ≠ entry.key := by
    intro other there
    have kept := newEntry other there
    rw [Partition.clashes, place.complete, Bool.and_true, Bool.or_eq_false_iff] at kept
    exact ⟨of_decide_eq_false kept.1, of_decide_eq_false kept.2⟩
  have grown : f.entries ⊆ (f.entries ++ [entry]) := List.subset_append_left _ _
  constructor
  · -- the new partition is that of the new entry and of no old one
    intro other there
    show List.countP _ (f.relations ++ [_]) = 1
    rw [List.countP_append]
    rcases List.mem_append.1 there with old | new
    · have other_table : (Relation.mk entry.tableName (some (parent, bound))).isPartition
          other.tableName = false := by
        simpa [Relation.isPartition] using Ne.symm (apart other old).1
      rw [h.entry_has_table other old, List.countP_singleton, other_table]
      rfl
    · rw [List.mem_singleton.1 new]
      have none_before : f.relations.countP (·.isPartition entry.tableName) = 0 := by
        refine List.countP_eq_zero.2 fun relation old => ?_
        simpa [Relation.isPartition] using fun _ => newTable relation old
      rw [none_before]
      simp [Relation.isPartition]
  · -- and the new entry is that of no old partition
    intro relation there partition
    show List.countP _ (f.entries ++ [entry]) = 1
    rw [List.countP_append]
    rcases List.mem_append.1 there with old | new
    · have other_name := Ne.symm (newTable relation old)
      rw [h.table_has_entry relation old partition]
      simp [other_name]
    · rw [List.mem_singleton.1 new]
      have none_before : f.entries.countP (·.tableName = entry.tableName) = 0 := by
        refine List.countP_eq_zero.2 fun other old => ?_
        simpa using (apart other old).1
      simp [none_before]
  · exact nodup_map_concat h.names fun other there => (apart other there).1
  · exact nodup_map_concat h.keys fun other there => (apart other there).2
  · intro other there
    rcases List.mem_append.1 there with old | new
    · obtain ⟨spot, hangs, relation⟩ := h.hangs other old
      exact ⟨spot, hangs.mono grown, List.mem_append_left _ relation⟩
    · rw [List.mem_singleton.1 new]
      exact ⟨(parent, bound), place.mono grown, List.mem_append_right _ (List.mem_singleton.2 rfl)⟩

end Forest

namespace Catalog

/-- Calls for leaves one after the other, those that fail included. -/
def ensureAll (calls : List (CatalogConfig × LeafKey)) : Action LeafCache Unit :=
  calls.forM fun (config, key) => do
    let _ ← Action.outcome (ensure config key)

end Catalog

namespace CatalogTable

open EventJournal.Action

variable {σ : Type} {c : Circumstances} {s : σ} {t : CatalogTable} {f : Forest}

/-! ## One level -/

/-- A transaction is open on a well grown forest that has an entry with the given key, and
what is stored is as it was. -/
def Reaches (stored : Forest) (key : PartitionKey) (entry : Partition) (t : CatalogTable) : Prop :=
  t.stored = stored ∧ ∃ f, t.working = some f ∧ f.WellGrown ∧ entry ∈ f.entries ∧ entry.key = key

/-- What creates nothing leaves both forests. -/
theorem ends_of_looks {α : Type} {action : Action σ α}
    (sends : action.Sends (looks · = true)) :
    Ends (database c) action s t
      (fun _ _ u => u.stored = t.stored ∧ u.working = t.working)
      (fun _ _ u => u.stored = t.stored ∧ u.working = t.working) := by
  have start : t.stored = t.stored ∧ t.working = t.working := ⟨rfl, rfl⟩
  refine Ends.of_sends (I := fun u : CatalogTable => u.stored = t.stored ∧ u.working = t.working)
    ?_ sends start
  intro s looks u kept
  rw [snd_answer_of_looks looks]
  exact kept

/-- A partition is created with its entry, or the transaction fails. -/
theorem ends_create (config : CatalogConfig) (key : PartitionKey) {parent : String}
    (working : t.working = some f) (grown : f.WellGrown)
    (place : f.Place key (parent, key.bound)) :
    Ends (database c) (Catalog.create config parent key) s t
      (fun entry _ u => Reaches t.stored key entry u) (fun _ _ u => u.stored = t.stored) := by
  unfold Catalog.create
  rw [ends_bind]
  apply Ends.mono (ends_of_looks ((Catalog.sends_freeName _ _).mono fun _ => looks_of_isLookup))
  · intro name s u kept
    obtain ⟨stored, same⟩ := kept
    have working : u.working = some f := same.trans working
    rw [ends_bind]
    rcases answer_createTable (c := c) working ⟨name, parent, key.bound, key.level⟩ with
      ⟨newTable, answer⟩ | ⟨e, answer⟩
    · rw [ends_attempt_of_answer answer]
      dsimp only
      rw [ends_bind]
      rcases answer_registerPartition (c := c)
          (t := { u.tick with working := some (f.plant ⟨name, parent, key.bound, key.level⟩) })
          rfl key name with ⟨entry, id, rfl, rfl, newEntry, answer⟩ | ⟨e, id, answer⟩
      · rw [ends_attempt_of_answer answer]
        show Ends _ (check (.ok entry)) s _ _ _
        rw [ends_check_ok]
        have grown := grown.grow entry.key.level place newTable newEntry
        exact ⟨stored, _, rfl, grown, List.mem_append_right _ (List.mem_singleton.2 rfl), rfl⟩
      · rw [ends_attempt_of_answer answer]
        exact (ends_fail _).2 stored
    · rw [ends_attempt_of_answer answer]
      exact (ends_fail _).2 stored
  · exact fun _ _ _ kept => kept.1

/-- A partition is found, or created with its entry, or the transaction fails. -/
theorem ends_findOrCreate (config : CatalogConfig) (key : PartitionKey) {parent : String}
    (working : t.working = some f) (grown : f.WellGrown)
    (place : f.Place key (parent, key.bound)) :
    Ends (database c) (Catalog.findOrCreate config parent key) s t
      (fun entry _ u => Reaches t.stored key entry u) (fun _ _ u => u.stored = t.stored) := by
  unfold Catalog.findOrCreate Catalog.findPartition
  simp only [ends_bind, ends_pure]
  rcases answer_findPartition (c := c) (t := t) key with answer | ⟨e, answer⟩
  · rw [ends_ask_of_ok answer, visible_of_working working]
    split
    · rename_i entry found
      obtain ⟨there, same⟩ := List.mem_filter.1 (List.mem_of_mem_head? found)
      rw [ends_pure]
      exact ⟨rfl, f, working, grown, there, of_decide_eq_true same⟩
    · exact ends_create config key (t := t.tick) working grown place
  · exact (ends_ask_of_error answer).2 rfl

/-! ## A call -/

/-- The three levels of a leaf, one below the other. -/
theorem ends_ensurePath (config : CatalogConfig) (key : LeafKey) (working : t.working = some f)
    (grown : f.WellGrown) :
    Ends (database c) (Catalog.ensurePath config key) s t
      (fun leaf _ u => Reaches t.stored key.toPartitionKey leaf u)
      (fun _ _ u => u.stored = t.stored) := by
  unfold Catalog.ensurePath
  rw [ends_bind]
  apply Ends.mono (ends_findOrCreate config _ working grown (.context key.context))
  · intro context s u reaches
    obtain ⟨stored, f, working, grown, there, is⟩ := reaches
    rw [ends_bind, ← stored]
    apply Ends.mono (ends_findOrCreate config _ working grown (.streamName there is key.streamName))
    · intro streamName s v reaches
      obtain ⟨stored, f, working, grown, there, is⟩ := reaches
      rw [← stored]
      exact ends_findOrCreate config _ working grown (.eventType there is key.eventType)
    · exact fun _ _ _ stored => stored
  · exact fun _ _ _ stored => stored

/-- A commit leaves a well grown forest, however it is answered. -/
theorem ends_commit_wellGrown (stored : t.stored.WellGrown) (visible : t.visible.WellGrown) :
    Ends (database c) (ask .commit) s t (fun _ _ u => u.stored.WellGrown)
      (fun _ _ u => u.stored.WellGrown) := by
  have after : ((database c).answer .commit t).2.stored.WellGrown := by
    rcases stored_answer_commit c t with same | same <;> rw [same] <;> assumption
  refine Ends.ask ?_ ?_ <;>
    · intro _ u answered
      rw [answered] at after
      exact after

/-- A transaction that creates a path leaves a well grown forest. -/
theorem ends_inTransaction_ensurePath (config : CatalogConfig) (key : LeafKey)
    (isolation : Isolation) (grown : t.stored.WellGrown) :
    Ends (database c) (inTransaction isolation (Catalog.ensurePath config key)) s t
      (fun _ _ u => u.stored.WellGrown) (fun _ _ u => u.stored.WellGrown) := by
  have undone : ∀ u : CatalogTable, u.stored = t.stored →
      ((database c).answer .rollback u).2.stored.WellGrown := by
    intro u stored
    rw [stored_answer_rollback, stored]
    exact grown
  rw [ends_inTransaction]
  rcases answer_of_ne_commit c t (s := .begin) (by simp) with answer | ⟨e, answer⟩
  · rw [ends_ask_of_ok answer]
    apply Ends.mono (ends_of_looks (sends_ask rfl))
    · intro _ s u kept
      obtain ⟨stored, working⟩ := kept
      apply Ends.mono (ends_ensurePath config key working grown)
      · intro leaf s v reaches
        obtain ⟨same, f, working, grown', -⟩ := reaches
        have stored : v.stored.WellGrown := by
          rw [same, stored]
          exact grown
        have visible : v.visible.WellGrown := by
          rw [visible_of_working working]
          exact grown'
        exact ends_commit_wellGrown stored visible
      · exact fun _ _ v same => undone v (same.trans stored)
    · exact fun _ _ u kept => undone u kept.1
  · exact (ends_ask_of_error answer).2 grown

/-- A call for a leaf leaves a well grown forest, however it ends. -/
theorem ends_ensure (config : CatalogConfig) (key : LeafKey) {s : LeafCache}
    (grown : t.stored.WellGrown) :
    Ends (database c) (Catalog.ensure config key) s t (fun _ _ u => u.stored.WellGrown)
      (fun _ _ u => u.stored.WellGrown) := by
  unfold Catalog.ensure
  rw [ends_bind]
  have looked : ∀ u : CatalogTable, u.stored = t.stored ∧ u.working = t.working →
      u.stored.WellGrown := by
    intro u kept
    rw [kept.1]
    exact grown
  apply Ends.mono (ends_of_looks ((Catalog.sends_findLeaf key).mono fun _ => looks_of_isLookup))
  · intro found s u kept
    cases found with
    | some leaf => exact (ends_pure leaf).2 (looked u kept)
    | none =>
        simp only [ends_bind, ends_modify, ends_pure]
        refine Ends.transact_keeps (I := fun u : CatalogTable => u.stored.WellGrown) ?_ ?_ s u
          (looked u kept)
        · exact fun s u grown => ends_inTransaction_ensurePath config key .serializable grown
        · intro _ absent
          cases absent
  · exact fun _ _ u kept => looked u kept

/-- After any calls for leaves, beside whatever other relations there are, every entry of
the catalog has one partition and every partition one entry, no two entries have the same
table or the same key, and every partition is a part of the one its key puts it in. -/
theorem ensured_wellGrown (c : Circumstances) (calls : List (CatalogConfig × LeafKey))
    (cache : LeafCache) (others : List String) :
    ((Catalog.ensureAll calls).runOn (database c) cache
      { stored := { relations := others.map fun name => ⟨name, none⟩ } }).2.stored.WellGrown := by
  refine Ends.database (I := fun u : CatalogTable => u.stored.WellGrown) ?_
  refine Ends.forM (fun _ _ (u : CatalogTable) => u.stored.WellGrown) ?_ calls cache _
    (Forest.WellGrown.bare others)
  intro call rest s u grown
  obtain ⟨config, key⟩ := call
  simp only [ends_bind, ends_outcome, ends_pure]
  exact ends_ensure config key grown

end CatalogTable

end EventJournal

import EventJournal.Proofs.Healing.Faultless

/-!
# A database of leaves

A `LeafTable` is a small database that answers for itself in what an append and the catalog
ask: it keeps the last revision of each stream and the entries of partitions. An open
transaction works on a copy, which takes the place of what is stored at the commit. A row
is refused if there is no entry for its leaf. Every name for a table is free, and a table
is no more than its entry.

## Main results

* `LeafTable.faultless` — appends are served, and leaves are found or created.
* `LeafTable.healthy` — the database fails only for want of a leaf.
-/

namespace EventJournal

/-- What a transaction sees. -/
structure LeafTable.Content where
  last : LastRevisions := fun _ => none
  partitions : List Partition := []

structure LeafTable where
  /-- What there is as of the last commit. -/
  stored : LeafTable.Content := {}
  /-- What an open transaction sees. -/
  working : Option LeafTable.Content := none
  /-- The number of statements so far. -/
  clock : Nat := 0

namespace LeafTable

open EventJournal.Action

namespace Content

/-- There is an entry for the key. -/
def has (content : Content) (key : PartitionKey) : Bool :=
  content.partitions.any (·.key = key)

/-- A new entry. -/
def record (content : Content) (entry : Partition) : Content :=
  { content with partitions := content.partitions ++ [entry] }

/-- The last revisions with that of a new row. -/
def put (content : Content) (draft : EventDraft) : Content :=
  { content with last := Function.update content.last draft.stream (some draft.revision) }

theorem has_record (content : Content) (entry : Partition) (key : PartitionKey) :
    (content.record entry).has key = (content.has key || decide (key = entry.key)) := by
  unfold has record
  rw [List.any_append]
  simp [eq_comm]

end Content

def visible (t : LeafTable) : Content := t.working.getD t.stored

def write (t : LeafTable) (content : Content) : LeafTable :=
  match t.working with
  | some _ => { t with working := some content }
  | none => { t with stored := content }

/-- The error for a row without a leaf. -/
def noPartition : DbError :=
  .database (some "23514") "no partition of relation \"events\" found for row"

/-- What a statement means. -/
def perform (t : LeafTable) : (s : Statement) → Except DbError s.Answer × LeafTable
  | .begin => (.ok (), { t with working := some t.stored })
  | .commit => (.ok (), { t with stored := t.visible, working := none })
  | .rollback => (.ok (), { t with working := none })
  | .lastRevision stream => (.ok (t.visible.last stream).toList, t)
  | .eventTypeId _ => (.ok [1], t)
  | .insertEvent draft =>
      if t.visible.has draft.leaf.toPartitionKey then
        (.ok [.filled draft ⟨BitVec.ofNat 128 t.clock⟩ t.clock ⟨⟨2024, 1, 1⟩, 0, 0, 0, 0⟩],
          t.write (t.visible.put draft))
      else (.error noPartition, t)
  | .findPartition key => (.ok (t.visible.partitions.filter (·.key = key)), t)
  | .tableNameTaken _ => (.ok [false], t)
  | .registerPartition key table =>
      let entry : Partition :=
        ⟨Int64.ofNat t.clock, key.context, key.streamName, key.eventType, table⟩
      (.ok [entry], t.write (t.visible.record entry))
  | s => (.ok s.shape.nothing, t)

def tick (t : LeafTable) : LeafTable := { t with clock := t.clock + 1 }

/-- The database. -/
def database : Database LeafTable where
  answer s t := t.tick.perform s

/-! ## Where a table stands -/

/-- The leaves that a content has. -/
def Content.leaves (content : Content) : Leaves := fun key => content.has key.toPartitionKey

/-- What is stored has the given last revisions and leaves, and the cache knows no others. -/
structure Keeps (stored : LastRevisions) (cache : LeafCache) (leaves : Leaves) (t : LeafTable) :
    Prop where
  last : t.stored.last = stored
  exist : t.stored.leaves = leaves
  cached : ∀ key leaf, cache.find? key = some leaf → leaves key = true

/-- No transaction is open. -/
def Idle (stored : LastRevisions) (cache : LeafCache) (leaves : Leaves) (t : LeafTable) : Prop :=
  t.working = none ∧ Keeps stored cache leaves t

/-- A transaction is open that sees the given last revisions, and the leaves that are
stored. -/
def Inside (stored : LastRevisions) (cache : LeafCache) (leaves : Leaves) (last : LastRevisions)
    (t : LeafTable) : Prop :=
  (∃ content, t.working = some content ∧ content.last = last ∧ content.leaves = leaves) ∧
    Keeps stored cache leaves t

/-- A transaction is open, whatever it has done. -/
def Opened (stored : LastRevisions) (cache : LeafCache) (leaves : Leaves) (t : LeafTable) : Prop :=
  t.working ≠ none ∧ Keeps stored cache leaves t

variable {stored last : LastRevisions} {cache : LeafCache} {leaves : Leaves} {t : LeafTable}
  {content : Content}

@[simp] theorem stored_tick (t : LeafTable) : t.tick.stored = t.stored := rfl

@[simp] theorem working_tick (t : LeafTable) : t.tick.working = t.working := rfl

theorem visible_of_working (h : t.working = some content) : t.visible = content := by
  rw [visible, h, Option.getD_some]

theorem write_of_working (h : t.working = some content) (content' : Content) :
    t.write content' = { t with working := some content' } := by
  rw [write, h]

/-- A row is inserted if there is an entry for its leaf. -/
theorem answer_insertEvent (h : t.working = some content) (draft : EventDraft) :
    database.answer (.insertEvent draft) t =
      if content.leaves draft.leaf then
        (.ok [.filled draft ⟨BitVec.ofNat 128 t.tick.clock⟩ t.tick.clock
          ⟨⟨2024, 1, 1⟩, 0, 0, 0, 0⟩],
          { t.tick with working := some (content.put draft) })
      else (.error noPartition, t.tick) := by
  have h : t.tick.working = some content := h
  unfold database perform
  dsimp only
  rw [visible_of_working h, write_of_working h]
  rfl

/-- A partition is found by its key. -/
theorem answer_findPartition (h : t.working = some content) (key : PartitionKey) :
    database.answer (.findPartition key) t =
      (.ok (content.partitions.filter (·.key = key)), t.tick) := by
  have h : t.tick.working = some content := h
  unfold database perform
  dsimp only
  rw [visible_of_working h]

/-- A partition is created under its key. -/
theorem answer_registerPartition (h : t.working = some content) (key : PartitionKey)
    (table : String) :
    ∃ entry, entry.key = key ∧ database.answer (.registerPartition key table) t =
      (.ok [entry], { t.tick with working := some (content.record entry) }) := by
  have h : t.tick.working = some content := h
  unfold database perform
  dsimp only
  rw [visible_of_working h, write_of_working h]
  exact ⟨_, rfl, rfl⟩

/-- The database serves appends. -/
theorem serves : database.Service (· = stored) (Idle stored) (Inside stored) where
  begin is :=
    ⟨stored, _, rfl, rfl, ⟨_, rfl, is.2.last, is.2.exist⟩, is.2.last, is.2.exist, is.2.cached⟩
  isolate is level := ⟨_, rfl, is.1, is.2.last, is.2.exist, is.2.cached⟩
  lock is := ⟨_, rfl, is.1, is.2.last, is.2.exist, is.2.cached⟩
  lastRevision {s leaves last t} is stream := by
    obtain ⟨⟨content, working, rfl, seen⟩, keeps⟩ := is
    refine ⟨_, _, rfl, ?_, ⟨content, working, rfl, seen⟩, keeps.last, keeps.exist, keeps.cached⟩
    show (t.visible.last stream).toList.head? = content.last stream
    rw [visible_of_working working, Option.head?_toList]
  eventTypeId is type := ⟨1, [], _, rfl, is.1, is.2.last, is.2.exist, is.2.cached⟩
  insert {s leaves last t} is draft next there := by
    obtain ⟨⟨content, working, rfl, rfl⟩, keeps⟩ := is
    have answer := answer_insertEvent working draft
    rw [if_pos there] at answer
    exact ⟨_, _, _, _, _, answer, ⟨_, rfl, rfl, rfl⟩, keeps.last, keeps.exist, keeps.cached⟩
  refuse {s leaves last t} is draft next absent := by
    obtain ⟨⟨content, working, rfl, rfl⟩, keeps⟩ := is
    have answer := answer_insertEvent working draft
    rw [if_neg (ne_true_of_eq_false absent)] at answer
    exact ⟨_, _, answer, by decide, rfl, keeps.last, keeps.exist, keeps.cached⟩
  commit is := ⟨_, rfl⟩

/-! ## The catalog -/

variable {σ : Type} {s : σ} {config : CatalogConfig}

/-- The transaction sees one entry more, if it was not there. -/
def Reached (t : LeafTable) (content : Content) (key : PartitionKey) (u : LeafTable) : Prop :=
  u.stored = t.stored ∧ ∃ grown : Content, u.working = some grown ∧ grown.last = content.last ∧
    ∀ other, grown.has other = (content.has other || decide (other = key))

/-- A partition is found, or created. -/
theorem ends_findOrCreate (tries : config.nameTries ≠ 0) (parent : String) (key : PartitionKey)
    (working : t.working = some content) :
    Ends database (Catalog.findOrCreate config parent key) s t
      (fun _ s' u => s' = s ∧ Reached t content key u) fun _ _ _ => False := by
  unfold Catalog.findOrCreate Catalog.findPartition
  simp only [ends_bind, ends_pure]
  refine (ends_ask_of_ok (answer_findPartition working key)).2 ?_
  split
  · rename_i entry found
    obtain ⟨there, same⟩ := List.mem_filter.1 (List.mem_of_mem_head? found)
    refine (ends_pure entry).2 ⟨rfl, rfl, content, working, rfl, fun other => ?_⟩
    by_cases is : other = key
    · have has : content.has key = true := List.any_eq_true.2 ⟨entry, there, same⟩
      rw [is, has, Bool.true_or]
    · rw [decide_eq_false is, Bool.or_false]
  · obtain ⟨more, tries⟩ := Nat.exists_eq_succ_of_ne_zero tries
    unfold Catalog.create
    rw [tries]
    unfold Catalog.freeName
    simp only [ends_bind]
    refine (ends_ask_of_ok rfl).2 ?_
    refine (ends_check_ok false).2 ?_
    rw [ends_pure]
    have made (table : PartitionTable) (t : LeafTable) :
        database.answer (.createTable table) t = (.ok (), t.tick) := rfl
    refine (ends_attempt_of_answer (made _ _)).2 ?_
    dsimp only
    rw [ends_bind]
    obtain ⟨entry, rfl, answer⟩ := answer_registerPartition (t := t.tick.tick.tick) working key
      (TableName.candidate key.level (config.digest key))
    refine (ends_attempt_of_answer answer).2 ((ends_check_ok entry).2 ?_)
    exact ⟨rfl, rfl, content.record entry, rfl, rfl, content.has_record entry⟩

/-- The path to a leaf adds that leaf and no other. -/
theorem ends_ensurePath (tries : config.nameTries ≠ 0) (key : LeafKey)
    (working : t.working = some content) :
    Ends database (Catalog.ensurePath config key) s t
      (fun _ s' u => s' = s ∧ u.stored = t.stored ∧ ∃ grown : Content,
        u.working = some grown ∧ grown.last = content.last ∧
          grown.leaves = content.leaves.grow [key])
      fun _ _ _ => False := by
  unfold Catalog.ensurePath
  simp only [ends_bind]
  refine (ends_findOrCreate tries _ _ working).mono ?_ fun _ _ _ never => never
  rintro context _ t₁ ⟨rfl, stored₁, content₁, working₁, last₁, has₁⟩
  refine (ends_findOrCreate tries _ _ working₁).mono ?_ fun _ _ _ never => never
  rintro name _ t₂ ⟨rfl, stored₂, content₂, working₂, last₂, has₂⟩
  refine (ends_findOrCreate tries _ _ working₂).mono ?_ fun _ _ _ never => never
  rintro leaf _ t₃ ⟨rfl, stored₃, content₃, working₃, last₃, has₃⟩
  refine ⟨rfl, stored₃.trans (stored₂.trans stored₁), content₃, working₃,
    last₃.trans (last₂.trans last₁), funext fun other => ?_⟩
  -- the partitions above the leaf are no leaves
  obtain ⟨_, _, _⟩ := other
  obtain ⟨_, _, _⟩ := key
  unfold Content.leaves Leaves.grow
  rw [has₃, has₂, has₁]
  simp [LeafKey.toPartitionKey, PartitionKey.leaf]

/-- A leaf that is there may be kept. -/
theorem Keeps.insert {key : LeafKey} (keeps : Keeps stored cache leaves t) (leaf : Partition)
    (there : leaves key = true) : Keeps stored (cache.insert key leaf) leaves t := by
  refine ⟨keeps.last, keeps.exist, fun other kept found => ?_⟩
  by_cases same : other = key
  · rwa [same]
  · rw [LeafCache.find?_insert_of_ne same] at found
    exact keeps.cached other kept found

/-- A leaf that is stored is found. -/
theorem finds (is : Idle stored cache leaves t) (key : LeafKey) :
    ∃ (found : List Partition) (t' : LeafTable),
      database.answer (.findPartition key.toPartitionKey) t = (.ok found, t') ∧
        Idle stored cache leaves t' ∧ ∀ leaf, found.head? = some leaf →
          leaves key = true ∧ Idle stored (cache.insert key leaf) leaves t' := by
  have answer : database.answer (.findPartition key.toPartitionKey) t =
      (.ok (t.stored.partitions.filter (·.key = key.toPartitionKey)), t.tick) := by
    unfold database perform
    dsimp only
    rw [visible, working_tick, is.1, Option.getD_none, stored_tick]
  have idle : Idle stored cache leaves t.tick := ⟨is.1, is.2.last, is.2.exist, is.2.cached⟩
  refine ⟨_, _, answer, idle, fun leaf first => ?_⟩
  obtain ⟨member, same⟩ := List.mem_filter.1 (List.mem_of_mem_head? first)
  have there : leaves key = true := by
    rw [← is.2.exist]
    exact List.any_eq_true.2 ⟨leaf, member, same⟩
  exact ⟨there, idle.1, idle.2.insert leaf there⟩

/-- A leaf is created in a transaction. -/
theorem creates (tries : config.nameTries ≠ 0) (key : LeafKey) (is : Idle stored cache leaves t) :
    Ends database (inTransaction .serializable (Catalog.ensurePath config key)) cache t
      (fun leaf cache t => Idle stored (cache.insert key leaf) (leaves.grow [key]) t)
      fun _ _ _ => False := by
  rw [ends_inTransaction]
  refine (ends_ask_of_ok rfl).2 ((ends_ask_of_ok rfl).2 ?_)
  have working : { t.tick with working := some t.stored }.tick.working = some t.stored := rfl
  refine (ends_ensurePath tries key working).mono ?_ fun _ _ _ never => never.elim
  rintro leaf _ u ⟨rfl, same, grown, working, last, exist⟩
  have committed : database.answer .commit u =
      (.ok (), { u.tick with stored := grown, working := none }) := by
    unfold database perform
    dsimp only
    rw [visible_of_working (t := u.tick) working]
  refine (ends_ask_of_ok committed).2 ⟨rfl, Keeps.insert ?_ leaf (Leaves.grow_of_mem (by simp))⟩
  refine ⟨last.trans is.2.last, exist.trans (congrArg (Leaves.grow · [key]) is.2.exist), ?_⟩
  exact fun key leaf found => Leaves.grow_of_leaf (is.2.cached key leaf found)

/-! ## The laws -/

/-- Within a transaction what is stored stays as it is. -/
theorem Opened.answer {s : Statement} (within : s.IsWithin) (is : Opened stored cache leaves t) :
    Opened stored cache leaves (database.answer s t).2 := by
  have plain := within.plain
  obtain ⟨open_, keeps⟩ := is
  obtain ⟨content, working⟩ := Option.ne_none_iff_exists'.1 open_
  have same : Opened stored cache leaves t.tick := ⟨open_, keeps.last, keeps.exist, keeps.cached⟩
  cases s with
  | insertEvent draft =>
      rw [answer_insertEvent working]
      split
      · exact ⟨Option.some_ne_none _, keeps.last, keeps.exist, keeps.cached⟩
      · exact same
  | registerPartition key table =>
      obtain ⟨entry, -, answer⟩ := answer_registerPartition working key table
      rw [answer]
      exact ⟨Option.some_ne_none _, keeps.last, keeps.exist, keeps.cached⟩
  | _ => first | exact same | cases plain

/-- Appends are served, and leaves are found or created. -/
theorem faultless (stored : LastRevisions) (tries : config.nameTries ≠ 0) :
    database.Faultless config stored (Idle stored) (Inside stored) (Opened stored) where
  serves := serves
  opens is := by
    obtain ⟨⟨content, working, -⟩, keeps⟩ := is
    exact ⟨working ▸ Option.some_ne_none content, keeps⟩
  keeps within is := is.answer within
  undo is := ⟨rfl, is.2.last, is.2.exist, is.2.cached⟩
  rest is := ⟨rfl, is.2.last, is.2.exist, is.2.cached⟩
  known is kept := is.2.cached _ _ kept
  finds is key := finds is key
  creates is key := creates tries key is

/-- The database fails only for want of a leaf. -/
theorem healthy (stored : LastRevisions) (tries : config.nameTries ≠ 0) :
    database.Healthy (Catalog.ensure config) (· = stored) (Idle stored) (Inside stored) :=
  (faultless stored tries).healthy

/-- A table without leaves and events. -/
theorem idle_empty : Idle (fun _ => none) {} (fun _ => false) {} :=
  ⟨rfl, rfl, rfl, fun _ _ found => by cases found⟩

end LeafTable

/-- A journal whose calls have a number of attempts. -/
def Journal.withAttempts (maxAttempts : UInt32) : Journal where
  config := { retry := .immediate maxAttempts }
  nameTries := 1

end EventJournal

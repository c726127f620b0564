import EventJournal.Proofs.Catalog.Table

/-!
# A catalog that others write to

A `SharedCatalog` executes the statements of the catalog on entries that others insert as
well. Their entries are committed between the statements, any number at a time, and a
transaction may come to see them at any statement, or not at all (`Surroundings`). The unique
indexes compare a new entry with all others, whether a transaction sees them or not, and no
entry is ever taken away.

Nothing is said of tables. How a statement about them is answered is left to the outer world,
as is which statements fail.

## Main results

* `SharedCatalog.GrownFrom.answer` — whatever is sent, the committed entries only grow, and no
  two are those of one leaf.
* `SharedCatalog.GrownFrom.subset_committed` — what a transaction has seen or inserted is
  committed once it has ended with a commit.
-/

namespace EventJournal

/-- What the outer world does, of which others that write to the catalog are a part. -/
structure Surroundings extends Circumstances where
  /-- The entries that others commit before the statement. -/
  others : Nat → List Partition
  /-- From this statement on an open transaction sees what has been committed by then. -/
  renews : Nat → Bool
  /-- The identifier of an entry that the statement inserts. -/
  number : Nat → Int64

/-- An open transaction. -/
structure CatalogSession where
  /-- The entries it sees besides its own. -/
  seen : List Partition
  /-- The entries it has inserted. -/
  own : List Partition := []

structure SharedCatalog where
  committed : List Partition := []
  session : Option CatalogSession := none
  /-- The number of statements so far. -/
  clock : Nat := 0

namespace SharedCatalog

section

variable (t : SharedCatalog)

/-- The entries that an open transaction has inserted. -/
def own : List Partition :=
  match t.session with
  | some session => session.own
  | none => []

/-- The entries that a statement sees. -/
def visible : List Partition :=
  match t.session with
  | some session => session.seen ++ session.own
  | none => t.committed

/-- The entries that the unique indexes know of. -/
def entries : List Partition := t.committed ++ t.own

/-- A unique index keeps an entry out. -/
def keepsOut (key : PartitionKey) (table : String) : Bool := t.entries.any (·.clashes key table)

/-- Another's entry is committed, if the unique indexes let it in. -/
def receive (entry : Partition) : SharedCatalog :=
  if t.keepsOut entry.key entry.tableName then t
  else { t with committed := t.committed ++ [entry] }

/-- An open transaction sees what is committed. -/
def renew : SharedCatalog :=
  { t with session := t.session.map fun session => { session with seen := t.committed } }

/-- What others have done by the time of the next statement. -/
def proceed (w : Surroundings) : SharedCatalog :=
  let t' := (w.others t.clock).foldl receive { t with clock := t.clock + 1 }
  if w.renews t.clock then t'.renew else t'

/-- An entry of one's own. Outside of a transaction it is committed at once. -/
def add (entry : Partition) : SharedCatalog :=
  match t.session with
  | some session => { t with session := some { session with own := session.own ++ [entry] } }
  | none => { t with committed := t.committed ++ [entry] }

/-- Inserts an entry, unless a unique index keeps it out. -/
def register (w : Surroundings) (now : Nat) (key : PartitionKey) (table : String) :
    Except DbError (List Partition) × SharedCatalog :=
  if t.keepsOut key table then (.error CatalogTable.duplicateKey, t)
  else
    let entry : Partition := ⟨w.number now, key.context, key.streamName, key.eventType, table⟩
    (.ok [entry], t.add entry)

def begin : SharedCatalog := { t with session := some { seen := t.committed } }

def commit : SharedCatalog := { t with committed := t.entries, session := none }

def rollback : SharedCatalog := { t with session := none }

/-- What a statement means where it does not fail. -/
def perform (w : Surroundings) (now : Nat) :
    (s : Statement) → Except DbError s.Answer × SharedCatalog
  | .begin => (.ok (), t.begin)
  | .commit => (.ok (), t.commit)
  | .rollback => (.ok (), t.rollback)
  | .findPartition key => (.ok (t.visible.filter (·.key = key)), t)
  | .registerPartition key table => t.register w now key table
  | s => (.ok (w.reading now [] s), t)

/-- What a statement leaves behind that is answered with an error. A transaction that could
not be committed is over, and so is one that could not be rolled back. -/
def afterFault (w : Surroundings) (now : Nat) (e : DbError) : Statement → SharedCatalog
  | .commit => if e.isConnectionLoss && w.landed now then t.commit else t.rollback
  | .rollback => t.rollback
  | _ => t

end

/-- The database. -/
def database (w : Surroundings) : Database SharedCatalog where
  answer s t :=
    match w.fault t.clock with
    | none => (t.proceed w).perform w t.clock s
    | some e => (.error e, (t.proceed w).afterFault w t.clock e s)

/-! ## One entry for a leaf -/

/-- No two entries are those of one leaf. -/
def OnePerLeaf (entries : List Partition) : Prop :=
  ∀ key : LeafKey, entries.countP (·.key = key.toPartitionKey) ≤ 1

section

variable {entries : List Partition} {entry : Partition}

/-- An entry that no unique index keeps out is the first of its leaf, wherever it is put. -/
theorem OnePerLeaf.insert {entries' : List Partition} (h : OnePerLeaf entries)
    (fresh : entries.any (·.clashes entry.key entry.tableName) = false)
    (perm : entries'.Perm (entry :: entries)) : OnePerLeaf entries' := by
  intro key
  rw [perm.countP_eq, List.countP_cons]
  by_cases same : entry.key = key.toPartitionKey
  · have first : entries.countP (·.key = key.toPartitionKey) = 0 := by
      refine List.countP_eq_zero.2 fun other there => ?_
      have apart := List.any_eq_false.1 fresh other there
      rw [Partition.clashes, same] at apart
      rw [decide_eq_true_iff]
      rintro there
      exact apart (by simp [there, LeafKey.toPartitionKey, PartitionKey.leaf])
    simp [first, same]
  · simpa [same] using h key

theorem OnePerLeaf.sublist {entries' : List Partition} (h : OnePerLeaf entries)
    (fewer : entries'.Sublist entries) : OnePerLeaf entries' :=
  fun key => Nat.le_trans fewer.countP_le (h key)

end

/-- The committed entry with the key of a leaf, of which there is one. -/
def Has (t : SharedCatalog) (key : LeafKey) (leaf : Partition) : Prop :=
  t.committed.filter (·.key = key.toPartitionKey) = [leaf]

theorem Has.mem {t : SharedCatalog} {key : LeafKey} {leaf : Partition} (h : t.Has key leaf) :
    leaf ∈ t.committed ∧ leaf.key = key.toPartitionKey := by
  have there : leaf ∈ t.committed.filter (·.key = key.toPartitionKey) := by
    rw [h]
    exact List.mem_singleton_self leaf
  exact ⟨(List.mem_filter.1 there).1, of_decide_eq_true (List.mem_filter.1 there).2⟩

theorem Has.unique {t : SharedCatalog} {key : LeafKey} {leaf other : Partition}
    (h : t.Has key leaf) (h' : t.Has key other) : leaf = other :=
  List.singleton_inj.1 (h.symm.trans h')

/-! ## What is in force -/

/-- No two entries are those of one leaf, and what a transaction sees of others is there.
What was committed once is committed still. -/
structure GrownFrom (base : List Partition) (t : SharedCatalog) : Prop where
  grown : base <+: t.committed
  onePerLeaf : OnePerLeaf t.entries
  seen : ∀ session, t.session = some session → session.seen ⊆ t.committed

variable {base : List Partition} {t : SharedCatalog}

/-- Before anyone has written to it, all is well. -/
theorem GrownFrom.empty : GrownFrom [] {} where
  grown := List.nil_prefix
  onePerLeaf _ := Nat.zero_le 1
  seen _ absent := nomatch absent

theorem GrownFrom.sound (h : t.GrownFrom base) : t.GrownFrom [] :=
  ⟨List.nil_prefix, h.onePerLeaf, h.seen⟩

/-- What is committed now stays as well. -/
theorem GrownFrom.rebase (h : t.GrownFrom base) : t.GrownFrom t.committed :=
  ⟨List.prefix_refl _, h.onePerLeaf, h.seen⟩

/-- A transaction sees nothing that is not there. -/
theorem GrownFrom.visible_subset (h : t.GrownFrom base) : t.visible ⊆ t.entries := by
  unfold visible entries own
  cases session : t.session with
  | none => exact List.subset_append_left _ _
  | some session =>
      refine List.append_subset.2 ⟨?_, List.subset_append_right _ _⟩
      exact List.Subset.trans (h.seen _ session) (List.subset_append_left _ _)

theorem GrownFrom.has (h : t.GrownFrom base) {key : LeafKey} {leaf : Partition}
    (there : leaf ∈ t.committed) (same : leaf.key = key.toPartitionKey) : t.Has key leaf := by
  have one : (t.committed.filter (·.key = key.toPartitionKey)).length ≤ 1 := by
    rw [← List.countP_eq_length_filter]
    exact h.onePerLeaf.sublist (List.sublist_append_left _ _) key
  have found : leaf ∈ t.committed.filter (·.key = key.toPartitionKey) :=
    List.mem_filter.2 ⟨there, decide_eq_true same⟩
  obtain ⟨only, is⟩ := List.length_eq_one_iff.1
    (Nat.le_antisymm one (List.length_pos_of_mem found))
  rw [is] at found
  rw [Has, is, List.mem_singleton.1 found]

/-- Entries stay. -/
theorem GrownFrom.keeps {t' : SharedCatalog} (h : t'.GrownFrom t.committed) {key : LeafKey}
    {leaf : Partition} (has : t.Has key leaf) : t'.Has key leaf :=
  h.has (h.grown.subset has.mem.1) has.mem.2

/-! ## What others do -/

section

variable (w : Surroundings) (entry : Partition)

@[simp] theorem session_receive : (t.receive entry).session = t.session := by
  unfold receive
  split <;> rfl

theorem session_foldl_receive (entries : List Partition) :
    (entries.foldl receive t).session = t.session := by
  induction entries generalizing t with
  | nil => rfl
  | cons entry rest ih => exact ih.trans (session_receive entry)

theorem own_renew : t.renew.own = t.own := by
  unfold own renew
  cases t.session <;> rfl

theorem own_proceed : (t.proceed w).own = t.own := by
  have joined : ((w.others t.clock).foldl receive { t with clock := t.clock + 1 }).own = t.own := by
    unfold own
    rw [session_foldl_receive]
  unfold proceed
  dsimp only
  split
  · exact own_renew.trans joined
  · exact joined

theorem session_proceed (idle : t.session = none) : (t.proceed w).session = none := by
  unfold proceed
  dsimp only
  split <;> simp [renew, session_foldl_receive, idle]

theorem GrownFrom.receive (h : t.GrownFrom base) : (t.receive entry).GrownFrom base := by
  unfold SharedCatalog.receive
  split
  · exact h
  · rename_i fresh
    have grown : t.committed <+: t.committed ++ [entry] := List.prefix_append _ _
    constructor
    · exact h.grown.trans grown
    · refine h.onePerLeaf.insert (Bool.eq_false_iff.2 fresh) ?_
      show (t.committed ++ [entry] ++ t.own).Perm (entry :: (t.committed ++ t.own))
      rw [List.append_assoc]
      exact List.perm_middle
    · exact fun session there => List.Subset.trans (h.seen session there) grown.subset

theorem GrownFrom.foldl_receive (h : t.GrownFrom base) (entries : List Partition) :
    (entries.foldl SharedCatalog.receive t).GrownFrom base := by
  induction entries generalizing t with
  | nil => exact h
  | cons entry rest ih => exact ih (h.receive entry)

theorem GrownFrom.renew (h : t.GrownFrom base) : t.renew.GrownFrom base := by
  refine ⟨h.grown, ?_, ?_⟩
  · show OnePerLeaf (t.committed ++ t.renew.own)
    rw [own_renew]
    exact h.onePerLeaf
  · intro session there
    obtain ⟨before, -, rfl⟩ := Option.map_eq_some_iff.1 there
    exact List.Subset.refl _

theorem GrownFrom.proceed (h : t.GrownFrom base) : (t.proceed w).GrownFrom base := by
  have ticked : GrownFrom base { t with clock := t.clock + 1 } :=
    ⟨h.grown, h.onePerLeaf, h.seen⟩
  have joined := ticked.foldl_receive (w.others t.clock)
  unfold SharedCatalog.proceed
  dsimp only
  split
  · exact joined.renew
  · exact joined

end

/-! ## What statements do -/

theorem GrownFrom.begin (h : t.GrownFrom base) : t.begin.GrownFrom base where
  grown := h.grown
  onePerLeaf := h.onePerLeaf.sublist (List.append_sublist_append_left _ |>.2 (List.nil_sublist _))
  seen session there := by
    cases there
    exact List.Subset.refl _

theorem GrownFrom.commit (h : t.GrownFrom base) : t.commit.GrownFrom base where
  grown := h.grown.trans (List.prefix_append _ _)
  onePerLeaf := by
    show OnePerLeaf (t.entries ++ [])
    rw [List.append_nil]
    exact h.onePerLeaf
  seen _ absent := nomatch absent

theorem GrownFrom.rollback (h : t.GrownFrom base) : t.rollback.GrownFrom base where
  grown := h.grown
  onePerLeaf := h.onePerLeaf.sublist (List.append_sublist_append_left _ |>.2 (List.nil_sublist _))
  seen _ absent := nomatch absent

theorem GrownFrom.add (h : t.GrownFrom base) {entry : Partition}
    (fresh : t.keepsOut entry.key entry.tableName = false) : (t.add entry).GrownFrom base := by
  unfold SharedCatalog.add
  cases there : t.session with
  | none =>
      have admitted := h.receive entry
      rwa [SharedCatalog.receive, if_neg (Bool.eq_false_iff.1 fresh), there] at admitted
  | some session =>
      refine ⟨h.grown, h.onePerLeaf.insert fresh ?_, ?_⟩
      · show (t.committed ++ (session.own ++ [entry])).Perm (entry :: (t.committed ++ t.own))
        rw [own, there, ← List.append_assoc]
        exact List.perm_append_singleton _ _
      · intro later same
        cases same
        exact h.seen session there

theorem mem_entries_add (entry : Partition) : entry ∈ (t.add entry).entries := by
  unfold add entries own
  cases t.session <;> simp

variable {w : Surroundings} {s : Statement}

theorem GrownFrom.perform (h : t.GrownFrom base) (now : Nat) :
    (t.perform w now s).2.GrownFrom base := by
  cases s with
  | begin => exact h.begin
  | commit => exact h.commit
  | rollback => exact h.rollback
  | registerPartition key table =>
      simp only [SharedCatalog.perform, register]
      split
      · exact h
      · rename_i fresh
        exact h.add (Bool.eq_false_iff.2 fresh)
  | _ => exact h

theorem GrownFrom.afterFault (h : t.GrownFrom base) (now : Nat) (e : DbError) :
    (t.afterFault w now e s).GrownFrom base := by
  unfold SharedCatalog.afterFault
  split
  · split
    · exact h.commit
    · exact h.rollback
  · exact h.rollback
  · exact h

/-- A statement does what it means, or fails. -/
theorem answer_cases (w : Surroundings) (s : Statement) (t : SharedCatalog) :
    (w.fault t.clock = none ∧
        (database w).answer s t = (t.proceed w).perform w t.clock s) ∨
      ∃ e, w.fault t.clock = some e ∧
        (database w).answer s t = (.error e, (t.proceed w).afterFault w t.clock e s) := by
  unfold database
  dsimp only
  split
  · rename_i calm
    exact .inl ⟨calm, rfl⟩
  · rename_i e fault
    exact .inr ⟨e, fault, rfl⟩

/-- Whatever is sent, the committed entries only grow, and no two are those of one leaf. -/
theorem GrownFrom.answer (h : t.GrownFrom base) (w : Surroundings) (s : Statement) :
    ((database w).answer s t).2.GrownFrom base := by
  rcases answer_cases w s t with ⟨-, done⟩ | ⟨e, -, failed⟩
  · rw [done]
    exact (h.proceed w).perform t.clock
  · rw [failed]
    exact (h.proceed w).afterFault t.clock e

/-- What is there for a transaction before a statement is there when it is executed. -/
theorem GrownFrom.entries_subset_proceed (h : t.GrownFrom base) (w : Surroundings) :
    t.entries ⊆ (t.proceed w).entries := by
  unfold entries
  rw [own_proceed]
  refine List.append_subset.2 ⟨?_, List.subset_append_right _ _⟩
  exact List.Subset.trans (h.rebase.proceed w).grown.subset (List.subset_append_left _ _)

/-- A partition is found by its key, among the entries that the statement sees. -/
theorem answer_findPartition (w : Surroundings) (key : PartitionKey) (t : SharedCatalog) :
    (w.fault t.clock = none ∧ (database w).answer (.findPartition key) t =
        (.ok ((t.proceed w).visible.filter (·.key = key)), t.proceed w)) ∨
      ∃ e, w.fault t.clock = some e ∧
        (database w).answer (.findPartition key) t = (.error e, t.proceed w) :=
  answer_cases w (.findPartition key) t

/-- An entry is inserted, or the statement fails. -/
theorem answer_registerPartition (w : Surroundings) (key : PartitionKey) (table : String)
    (t : SharedCatalog) :
    (∃ entry u, entry.key = key ∧ entry ∈ u.entries ∧
        (database w).answer (.registerPartition key table) t = (.ok [entry], u)) ∨
      ∃ e u, (database w).answer (.registerPartition key table) t = (.error e, u) := by
  rcases answer_cases w (.registerPartition key table) t with ⟨-, done⟩ | ⟨e, -, failed⟩
  · rw [done]
    unfold perform register
    dsimp only
    split
    · exact .inr ⟨_, _, rfl⟩
    · refine .inl ⟨_, _, ?_, mem_entries_add _, rfl⟩
      rfl
  · exact .inr ⟨e, _, failed⟩

/-- A transaction that could not be begun is not open. -/
theorem session_of_begin_error {e : DbError} {u : SharedCatalog} (idle : t.session = none)
    (answered : (database w).answer .begin t = (.error e, u)) : u.session = none := by
  rcases answer_cases w .begin t with ⟨-, done⟩ | ⟨e, -, failed⟩
  · cases answered.symm.trans done
  · obtain rfl := (Prod.ext_iff.1 (answered.symm.trans failed)).2
    exact session_proceed w idle

/-- A commit is the end of the transaction, however it is answered. -/
theorem session_answer_commit (w : Surroundings) (t : SharedCatalog) :
    ((database w).answer .commit t).2.session = none := by
  rcases answer_cases w .commit t with ⟨-, done⟩ | ⟨e, -, failed⟩
  · rw [done]
    rfl
  · rw [failed]
    unfold afterFault
    dsimp only
    split <;> rfl

/-- So is a rollback. -/
theorem session_answer_rollback (w : Surroundings) (t : SharedCatalog) :
    ((database w).answer .rollback t).2.session = none := by
  rcases answer_cases w .rollback t with ⟨-, done⟩ | ⟨e, -, failed⟩
  · rw [done]
    rfl
  · rw [failed]
    rfl

/-- After a commit that succeeds, what was there for the transaction is committed. -/
theorem GrownFrom.subset_committed (h : t.GrownFrom base) {u : SharedCatalog}
    (answered : (database w).answer .commit t = (.ok (), u)) : t.entries ⊆ u.committed := by
  rcases answer_cases w .commit t with ⟨-, done⟩ | ⟨e, -, failed⟩
  · obtain rfl := (Prod.ext_iff.1 (answered.symm.trans done)).2
    exact h.entries_subset_proceed w
  · cases answered.symm.trans failed

end SharedCatalog

end EventJournal

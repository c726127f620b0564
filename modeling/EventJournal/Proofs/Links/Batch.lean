import EventJournal.Proofs.Reads
import EventJournal.Read.Links

/-!
# Links that are resolved for a list

A database `Resolves` links if, besides reads, it answers the two statements that fetch what
the link events of a list refer to. What is fetched are the rows of the partitions that the
links name, of the identifiers that these links have (`Read.runOn_resolveLinks`).

## Main results

* `Read.runOn_resolveLinks` — what the link events of a list are replaced by.
-/

namespace EventJournal

namespace Partition

/-- The row lies in the partition or in one below it. -/
def holds (p : Partition) (row : StoredEvent) : Bool :=
  row.context = p.context && p.streamName.all (row.streamName = ·) &&
    p.eventType.all (row.type = ·)

end Partition

/-- The rows that a branch asks for: those of its table, by their identifiers. -/
def LinkBranch.selects (catalog : List Partition) (branch : LinkBranch) (row : StoredEvent) :
    Bool :=
  row.id ∈ branch.ids && catalog.any fun p => p.tableName = branch.table && p.holds row

/-- The database answers reads and the resolution of links from a table of events, which it
leaves as it is, and a catalog of partitions. -/
structure Database.Resolves {δ : Type} (db : Database δ) (table : δ → List StoredEvent)
    (catalog : List Partition) : Prop extends db.Reads table where
  partitionsById (ids : List Int64) (d : δ) : ∃ answer d',
    db.answer (.partitionsById ids) d = (.ok answer, d') ∧
      answer.Perm (catalog.filter (·.id ∈ ids)) ∧ table d' = table d
  readTargets (first : LinkBranch) (rest : List LinkBranch) (d : δ) : ∃ answer d',
    db.answer (.readTargets first rest) d = (.ok answer, d') ∧
      answer.Perm ((first :: rest).flatMap fun branch =>
        (table d).filter (branch.selects catalog)) ∧ table d' = table d

/-- The tables of a catalog have names of their own, without a question mark. -/
structure Catalog.Named (catalog : List Partition) : Prop where
  distinct : ∀ p ∈ catalog, ∀ q ∈ catalog, p.tableName = q.tableName → p = q
  plain : ∀ p ∈ catalog, '?' ∉ p.tableName.toList

namespace LinkTarget

theorem mem_partitions {targets : List LinkTarget} {partition : Int64} :
    partition ∈ partitions targets ↔ ∃ id, (partition, id) ∈ targets := by
  rw [partitions, List.mem_eraseDups, List.mem_map]
  constructor
  · rintro ⟨⟨_, id⟩, there, rfl⟩
    exact ⟨id, there⟩
  · exact fun ⟨id, there⟩ => ⟨(partition, id), there, rfl⟩

theorem mem_idsIn {targets : List LinkTarget} {partition : Int64} {id : Uuid} :
    id ∈ idsIn targets partition ↔ (partition, id) ∈ targets := by
  rw [idsIn, List.mem_filterMap]
  constructor
  · rintro ⟨⟨other, id'⟩, there, chosen⟩
    split at chosen
    · rename_i same
      cases chosen
      exact same ▸ there
    · cases chosen
  · exact fun there => ⟨(partition, id), there, if_pos rfl⟩

/-- What the links of a list ask for. -/
theorem mem_ofEvents {events : List Event} {partition : Int64} {id : Uuid} :
    (partition, id) ∈ ofEvents events ↔
      ∃ link ∈ events, link.isLink = true ∧ link.linkId = some id ∧
        link.linkPartitionId = some partition := by
  rw [ofEvents, List.mem_filterMap]
  constructor
  · rintro ⟨link, there, made⟩
    split at made
    · rename_i links
      split at made
      · rename_i named refers
        cases made
        exact ⟨link, there, links, refers, named⟩
      · cases made
    · cases made
  · rintro ⟨link, there, links, refers, named⟩
    refine ⟨link, there, ?_⟩
    rw [if_pos links, named, refers]

end LinkTarget

namespace Read

open EventJournal.Action

variable {δ σ : Type} {db : Database δ} {table : δ → List StoredEvent}
  {catalog : List Partition}

/-- Tables without a question mark in their names have branches. -/
theorem exists_build? {tables : List (String × List Uuid)}
    (plain : ∀ table ∈ tables, '?' ∉ table.1.toList) :
    ∃ branches, tables.mapM (fun (table, ids) => LinkBranch.build? table ids) = some branches ∧
      branches.map (fun branch => (branch.table, branch.ids)) = tables := by
  induction tables with
  | nil => exact ⟨[], rfl, rfl⟩
  | cons first rest ih =>
      obtain ⟨table, ids⟩ := first
      obtain ⟨plain, others⟩ := List.forall_mem_cons.1 plain
      obtain ⟨branches, built, same⟩ := ih others
      have one : LinkBranch.build? table ids = some ⟨table, ids, plain⟩ := dif_pos plain
      refine ⟨⟨table, ids, plain⟩ :: branches, ?_, congrArg _ same⟩
      rw [List.mapM_cons]
      dsimp only
      rw [one, built]
      rfl

/-- The tables to ask, one for each partition that links name, with what they refer to in it. -/
def tables (targets : List LinkTarget) (partitions : List Partition) :
    List (String × List Uuid) :=
  partitions.filterMap fun partition =>
    match LinkTarget.idsIn targets partition.id with
    | [] => none
    | ids => some (partition.tableName, ids)

theorem branches?_eq (targets : List LinkTarget) (partitions : List Partition) :
    branches? targets partitions =
      (tables targets partitions).mapM fun (table, ids) => LinkBranch.build? table ids := rfl

theorem mem_tables {targets : List LinkTarget} {partitions : List Partition} {table : String}
    {ids : List Uuid} :
    (table, ids) ∈ tables targets partitions ↔
      ids ≠ [] ∧ ∃ p ∈ partitions, p.tableName = table ∧ LinkTarget.idsIn targets p.id = ids := by
  rw [tables, List.mem_filterMap]
  constructor
  · rintro ⟨p, there, made⟩
    split at made
    · cases made
    · rename_i some_
      cases made
      exact ⟨some_, p, there, rfl, rfl⟩
  · rintro ⟨some_, p, there, rfl, rfl⟩
    refine ⟨p, there, ?_⟩
    split
    · exact absurd ‹_› some_
    · rfl

/-- The branches select the rows of partitions that links name, by their identifiers. -/
theorem exists_branches? (named : Catalog.Named catalog) {targets : List LinkTarget}
    {partitions : List Partition}
    (found : ∀ p, p ∈ partitions ↔ p ∈ catalog ∧ p.id ∈ LinkTarget.partitions targets) :
    ∃ branches, branches? targets partitions = some branches ∧
      ∀ row, (∃ branch ∈ branches, branch.selects catalog row = true) ↔
        ∃ p ∈ catalog, p.holds row = true ∧ (p.id, row.id) ∈ targets := by
  have plain : ∀ table ∈ tables targets partitions, '?' ∉ table.1.toList := by
    intro table there
    obtain ⟨-, p, among, same, -⟩ := mem_tables.1 there
    exact same ▸ named.plain p ((found p).1 among).1
  obtain ⟨branches, built, same⟩ := exists_build? plain
  have mem {table : String} {ids : List Uuid} :
      (∃ branch ∈ branches, branch.table = table ∧ branch.ids = ids) ↔
        ids ≠ [] ∧ ∃ p ∈ partitions, p.tableName = table ∧
          LinkTarget.idsIn targets p.id = ids := by
    rw [← mem_tables, ← same, List.mem_map]
    simp only [Prod.mk.injEq]
  refine ⟨branches, (branches?_eq _ _).trans built, fun row => ?_⟩
  simp only [LinkBranch.selects, Bool.and_eq_true, decide_eq_true_eq, List.any_eq_true]
  constructor
  · rintro ⟨branch, there, listed, p, member, table, holds⟩
    obtain ⟨-, q, among, table', ids⟩ := mem.1 ⟨branch, there, rfl, rfl⟩
    obtain rfl := named.distinct p member q ((found q).1 among).1 (table.trans table'.symm)
    exact ⟨p, member, holds, LinkTarget.mem_idsIn.1 (ids ▸ listed)⟩
  · rintro ⟨p, member, holds, target⟩
    have listed := LinkTarget.mem_idsIn.2 target
    have among := (found p).2 ⟨member, LinkTarget.mem_partitions.2 ⟨_, target⟩⟩
    obtain ⟨branch, there, table, ids⟩ := mem.2 ⟨List.ne_nil_of_mem listed, p, among, rfl, rfl⟩
    exact ⟨branch, there, ids ▸ listed, p, member, table.symm, holds⟩

theorem runOn_findByIds (resolves : db.Resolves table catalog) (ids : List Int64) (s : σ) (d : δ) :
    ∃ partitions d', (∀ p, p ∈ partitions ↔ p ∈ catalog ∧ p.id ∈ ids) ∧ table d' = table d ∧
      (Catalog.findByIds ids).runOn db s d = ((.ok partitions, s), d') := by
  unfold Catalog.findByIds
  split
  · exact ⟨[], d, fun p => by simp, rfl, rfl⟩
  · obtain ⟨partitions, d', answered, those, same⟩ := resolves.partitionsById ids d
    refine ⟨partitions, d', fun p => ?_, same, ?_⟩
    · rw [those.mem_iff, List.mem_filter, decide_eq_true_eq]
    · rw [runOn_ask, answered]
      rfl

/-- The link events of a list are replaced by what is fetched: rows of the partitions that
they name, by their identifiers. -/
theorem runOn_resolveLinks (resolves : db.Resolves table catalog) (named : Catalog.Named catalog)
    (events : List Event) (s : σ) (d : δ) :
    ∃ fetched d', table d' = table d ∧
      (resolveLinks events).runOn db s d = ((.ok (events.map (merge fetched)), s), d') ∧
      ∀ row, row ∈ fetched ↔ row ∈ table d ∧
        ∃ p ∈ catalog, p.holds row = true ∧ (p.id, row.id) ∈ LinkTarget.ofEvents events := by
  obtain ⟨partitions, d₁, found, same, ends⟩ :=
    runOn_findByIds resolves (LinkTarget.partitions (LinkTarget.ofEvents events)) s d
  obtain ⟨branches, built, asked⟩ := exists_branches? named found
  unfold resolveLinks
  rw [runOn_bind, ends]
  dsimp only
  rw [built]
  cases branches with
  | nil =>
      refine ⟨[], d₁, same, ?_, fun row => iff_of_false List.not_mem_nil fun there => ?_⟩
      · rw [map_merge_nil]
        rfl
      · obtain ⟨_, none, _⟩ := (asked row).2 there.2
        cases none
  | cons first rest =>
      obtain ⟨fetched, d₂, answered, those, same'⟩ := resolves.readTargets first rest d₁
      refine ⟨fetched, d₂, same'.trans same, ?_, fun row => ?_⟩
      · dsimp only
        rw [runOn_bind, runOn_ask, answered]
        rfl
      · rw [those.mem_iff, List.mem_flatMap, ← asked, same]
        simp only [List.mem_filter]
        exact ⟨fun ⟨branch, there, stored, selects⟩ => ⟨stored, branch, there, selects⟩,
          fun ⟨stored, branch, there, selects⟩ => ⟨branch, there, stored, selects⟩⟩

end Read

end EventJournal

import EventJournal.Proofs.Links
import EventJournal.Proofs.Query.Leaves
import EventJournal.Proofs.Query.Probes

/-!
# Grouped reads return the first event of each group

A grouped read asks the catalog for leaves, and then each leaf, by a probe of its table, for its
first row, or for the first row of each stream of it that is named. A database `Groups` a table
if it answers these two statements as their texts say, from a catalog whose leaves have tables of
their own.

Descriptions overlap, so one row can be the answer to several probes. The union is ordered by
position, and of the rows at one position, which come in one run, the first is kept
(`Read.dropRepeated_sorted`). So the rows of a grouped read stand for the first rows of all groups,
and where positions tell rows apart they are those rows.

## Main results

* `Read.runOn_heads_standFor` — the rows of a grouped read, by the leaves and what is asked of each.
* `Read.runOn_heads` — the same where positions tell rows apart.
* `Journal.readGrouped_heads` — the same by the descriptions, where these have no empty parts.
-/

namespace EventJournal

/-! ## Catalogs -/

namespace Catalog

/-- The tables of a catalog have names of their own, which can be written in a statement. -/
structure Written (catalog : List Partition) : Prop where
  distinct : ∀ p ∈ catalog, ∀ q ∈ catalog, p.tableName = q.tableName → p = q
  names : ∀ p ∈ catalog, Sql.IsName p.tableName

/-- The table of partitions, where a statement finds it. -/
def entries (catalog : List Partition) (table : String) : List Partition :=
  if table = "partitions" then catalog else []

/-- The rows of a table that the catalog names: those that its partition holds. -/
def rowsOf (catalog : List Partition) (rows : List StoredEvent) (table : String) :
    List StoredEvent :=
  rows.filter fun row => catalog.any fun p => p.tableName = table && p.holds row

variable {catalog : List Partition} {rows : List StoredEvent} {leaf : Partition}

theorem rowsOf_tableName (written : Written catalog) (there : leaf ∈ catalog) :
    rowsOf catalog rows leaf.tableName = rows.filter leaf.holds := by
  refine List.filter_congr fun row _ => ?_
  rw [Bool.eq_iff_iff, List.any_eq_true]
  constructor
  · rintro ⟨p, among, named⟩
    obtain ⟨same, holds⟩ := Bool.and_eq_true_iff.1 named
    exact written.distinct p among leaf there (of_decide_eq_true same) ▸ holds
  · exact fun holds => ⟨leaf, there, Bool.and_eq_true_iff.2 ⟨decide_eq_true rfl, holds⟩⟩

end Catalog

/-- The database answers the statements of a grouped read from a table of events, which it leaves
as it is, and a catalog of partitions. -/
structure Database.Groups {δ : Type} (db : Database δ) (table : δ → List StoredEvent)
    (catalog : List Partition) : Prop where
  findLeaves (q : LeafQuery) (d : δ) : ∃ answer d',
    db.answer (.findLeaves q) d = (.ok answer, d') ∧
      q.select.Lists (Catalog.entries catalog) answer ∧ table d' = table d
  readHeads (direction : Direction) (first : HeadProbe) (rest : List HeadProbe) (d : δ)
    (known : ∀ probe ∈ first :: rest, ∃ p ∈ catalog, p.tableName = probe.table) : ∃ answer d',
    db.answer (.readHeads direction first rest) d = (.ok answer, d') ∧
      (HeadProbe.selectAll direction first rest).Unites (Catalog.rowsOf catalog (table d)) answer ∧
      table d' = table d

namespace LeafQuery

/-- The entries of a catalog with which a query is answered; those of the same id stay in its
order. -/
def respond (q : LeafQuery) (catalog : List Partition) : List Partition :=
  (catalog.filter q.selects).mergeSort fun a b => a.id.toInt ≤ b.id.toInt

theorem lists_respond (q : LeafQuery) (catalog : List Partition) :
    q.select.Lists (Catalog.entries catalog) (q.respond catalog) := by
  have sorted : (q.respond catalog).Pairwise
      fun a b => decide (a.id.toInt ≤ b.id.toInt) = true := by
    refine List.pairwise_mergeSort ?_ ?_ _
    · simp only [decide_eq_true_eq]
      omega
    · simp only [Bool.or_eq_true, decide_eq_true_eq]
      omega
  simp only [decide_eq_true_eq] at sorted
  exact lists_iff.2 ⟨List.mergeSort_perm _ _, sorted⟩

end LeafQuery

namespace HeadProbe

/-- The row with which a probe of some tables is answered, if there is one. -/
def respond (direction : Direction) (tables : String → List StoredEvent) (probe : HeadProbe) :
    List StoredEvent :=
  (EventQuery.sort .position direction
    ((tables probe.table).filter (probe.selects direction))).take 1

theorem lists_respond {direction : Direction} {probe : HeadProbe}
    (name : Sql.IsName probe.table) (tables : String → List StoredEvent) :
    (probe.select direction).Lists tables (probe.respond direction tables) :=
  (lists_iff name).2 ⟨_, List.mergeSort_perm _ _,
    EventQuery.pairwise_sort_reaches .position direction _, rfl⟩

/-- The rows with which a union of probes is answered. -/
def respondAll (direction : Direction) (tables : String → List StoredEvent)
    (probes : List HeadProbe) : List StoredEvent :=
  EventQuery.sort .position direction (probes.flatMap (respond direction tables))

theorem unites_respondAll {direction : Direction} {first : HeadProbe} {rest : List HeadProbe}
    (names : ∀ probe ∈ first :: rest, Sql.IsName probe.table)
    (tables : String → List StoredEvent) :
    (selectAll direction first rest).Unites tables
      (respondAll direction tables (first :: rest)) := by
  refine ⟨_, _, _, _, rfl, ordering?_combined, (first :: rest).map (respond direction tables),
    ?_, ?_, EventQuery.pairwise_sort_reaches .position direction _⟩
  · rw [← List.map_cons, List.forall₂_map_left_iff, List.forall₂_map_right_iff, List.forall₂_same]
    exact fun probe there => lists_respond (names probe there) tables
  · rw [← List.flatMap_def]
    exact List.mergeSort_perm _ _

end HeadProbe

/-- A table and a catalog that do not change, and nothing besides. -/
def Database.ofLeaves (catalog : List Partition) : Database (List StoredEvent) where
  answer
    | .findLeaves q, rows => (.ok (q.respond catalog), rows)
    | .readHeads direction first rest, rows =>
        (.ok (HeadProbe.respondAll direction (Catalog.rowsOf catalog rows) (first :: rest)), rows)
    | s, rows => Database.ofRows.answer s rows

theorem Database.groups_ofLeaves {catalog : List Partition} (written : Catalog.Written catalog) :
    (Database.ofLeaves catalog).Groups id catalog where
  findLeaves q rows := ⟨_, rows, rfl, q.lists_respond catalog, rfl⟩
  readHeads direction first rest rows known := by
    refine ⟨_, rows, rfl, HeadProbe.unites_respondAll (fun probe there => ?_) _, rfl⟩
    obtain ⟨p, member, named⟩ := known probe there
    exact named ▸ written.names p member

theorem Database.reads_ofLeaves (catalog : List Partition) :
    (Database.ofLeaves catalog).Reads id where
  readEvents _ rows counts := ⟨_, rows, rfl, EventQuery.answers_respond counts rows, rfl⟩
  streamExists _ rows := ⟨rows, rfl, rfl⟩

theorem Read.written_leaves : Catalog.Written Read.leaves := ⟨by decide, by decide⟩

/-! ## Rows that come twice -/

namespace Read

/-- Rows of a list that come in the direction of a read. -/
def InOrder (direction : Direction) (rows : List StoredEvent) : Prop :=
  rows.Pairwise fun a b =>
    direction.reaches b.globalPosition.toInt a.globalPosition.toInt = true

/-- Rows of a list that come strictly one after the other. -/
def Strict (direction : Direction) (rows : List StoredEvent) : Prop :=
  rows.Pairwise fun a b => direction.Before a.globalPosition.toInt b.globalPosition.toInt

variable {direction : Direction} {rows others : List StoredEvent}

/-- Rows can come strictly one after the other in one way only. -/
theorem Strict.eq_of_mem_iff (strict : Strict direction rows) (strict' : Strict direction others)
    (same : ∀ row, row ∈ rows ↔ row ∈ others) : rows = others := by
  have nodup {list : List StoredEvent} (h : Strict direction list) : list.Nodup := by
    refine h.imp fun before => ?_
    rintro rfl
    exact before.asymm before
  have perm := (List.perm_ext_iff_of_nodup (nodup strict) (nodup strict')).2 same
  exact perm.eq_of_pairwise (fun _ _ _ _ ab ba => (Direction.Before.asymm ab ba).elim) strict
    strict'

theorem dropRepeatedAfter_sorted {first : StoredEvent}
    (sorted : InOrder direction (first :: rows)) :
    Strict direction (first :: dropRepeatedAfter first.globalPosition rows) ∧
      StoredEvent.StandFor (first :: dropRepeatedAfter first.globalPosition rows)
        (· ∈ first :: rows) := by
  induction rows generalizing first with
  | nil => exact ⟨List.pairwise_singleton _ _, fun _ => id, fun row there => ⟨row, there, rfl⟩⟩
  | cons next rest ih =>
      obtain ⟨least, later⟩ := List.pairwise_cons.1 sorted
      unfold dropRepeatedAfter
      split
      · -- the next row is at the position of the first one, which stands for it
        rename_i again
        obtain ⟨strict, stand⟩ := ih (List.pairwise_cons.2
          ⟨fun row there => least row (.tail _ there), later.tail⟩)
        refine ⟨strict, fun row there => ?_, fun row there => ?_⟩
        · exact List.mem_cons.2 ((List.mem_cons.1 (stand.only row there)).imp_right (.tail _))
        · rcases List.mem_cons.1 there with rfl | there
          · exact ⟨row, .head _, rfl⟩
          · rcases List.mem_cons.1 there with rfl | there
            · exact ⟨first, .head _, again.symm⟩
            · exact stand.every row (.tail _ there)
      · rename_i other
        obtain ⟨strict, stand⟩ := ih later
        refine ⟨List.pairwise_cons.2 ⟨fun row there => ?_, strict⟩, fun row there => ?_,
          fun row there => ?_⟩
        · have before : direction.Before first.globalPosition.toInt next.globalPosition.toInt :=
            Direction.before_of_reaches (least next (.head _))
              fun same => other (Int64.toInt_inj.1 same).symm
          rcases List.mem_cons.1 (stand.only row there) with rfl | behind
          · exact before
          · exact before.trans_reaches (List.rel_of_pairwise_cons later behind)
        · exact List.mem_cons.2 ((List.mem_cons.1 there).imp_right (stand.only row))
        · rcases List.mem_cons.1 there with rfl | there
          · exact ⟨row, .head _, rfl⟩
          · obtain ⟨kept, member, same⟩ := stand.every row there
            exact ⟨kept, .tail _ member, same⟩

/-- Of rows in order one is kept for each position. -/
theorem dropRepeated_sorted (sorted : InOrder direction rows) :
    Strict direction (dropRepeated rows) ∧
      StoredEvent.StandFor (dropRepeated rows) (· ∈ rows) := by
  cases rows with
  | nil => exact ⟨.nil, nofun, nofun⟩
  | cons first rest => exact dropRepeatedAfter_sorted sorted

end Read

/-! ## Leaves and their rows -/

/-- The rows of a leaf, or of one stream in it, from the position on at which a read begins. -/
def ReadOptions.group (options : ReadOptions) (leaf : Partition) (streamId : Option String)
    (rows : List StoredEvent) : List StoredEvent :=
  rows.filter fun row => leaf.holds row && streamId.all (row.streamId = ·) &&
    options.fromPosition.all fun position =>
      options.direction.reaches row.globalPosition.toInt position.toInt

namespace Read

open EventJournal.Action

variable {δ σ : Type} {db : Database δ} {table : δ → List StoredEvent} {catalog : List Partition}
  {options : ReadOptions}

/-- Tables without a question mark in their names have probes. -/
theorem exists_built {asked : List (String × Option String)}
    (plain : ∀ pair ∈ asked, '?' ∉ pair.1.toList) (fromPosition : Option Int64) :
    ∃ probes, (asked.mapM fun (table, streamId) =>
        HeadProbe.build? table streamId fromPosition) = some probes ∧
      probes.map (fun probe => (probe.table, probe.streamId)) = asked ∧
      ∀ probe ∈ probes, probe.fromPosition = fromPosition := by
  induction asked with
  | nil => exact ⟨[], rfl, rfl, nofun⟩
  | cons first rest ih =>
      obtain ⟨table, streamId⟩ := first
      obtain ⟨plain, others⟩ := List.forall_mem_cons.1 plain
      obtain ⟨probes, built, same, bound⟩ := ih others
      have one : HeadProbe.build? table streamId fromPosition =
          some ⟨table, streamId, fromPosition, .inl plain⟩ := dif_pos (.inl plain)
      refine ⟨⟨table, streamId, fromPosition, .inl plain⟩ :: probes, ?_, congrArg _ same,
        List.forall_mem_cons.2 ⟨rfl, bound⟩⟩
      rw [List.mapM_cons]
      dsimp only
      rw [one, built]
      rfl

/-- The probes of a read ask each leaf for what is wanted of it. -/
theorem exists_probes? {leaves : List Partition}
    (names : ∀ leaf ∈ leaves, Sql.IsName leaf.tableName) :
    ∃ probes, probes? options leaves = some probes ∧
      (∀ probe ∈ probes, probe.fromPosition = options.fromPosition) ∧
      ∀ tableName streamId,
        (∃ probe ∈ probes, probe.table = tableName ∧ probe.streamId = streamId) ↔
          ∃ leaf ∈ leaves, leaf.tableName = tableName ∧
            streamId ∈ wanted options.filter.streams leaf := by
  have mem {pair : String × Option String} :
      (pair ∈ leaves.flatMap fun leaf =>
        (wanted options.filter.streams leaf).map fun streamId => (leaf.tableName, streamId)) ↔
        ∃ leaf ∈ leaves, leaf.tableName = pair.1 ∧
          pair.2 ∈ wanted options.filter.streams leaf := by
    simp only [List.mem_flatMap, List.mem_map, Prod.ext_iff]
    refine exists_congr fun leaf => and_congr_right fun _ => ?_
    constructor
    · rintro ⟨streamId, asked, table, rfl⟩
      exact ⟨table, asked⟩
    · rintro ⟨table, asked⟩
      exact ⟨pair.2, asked, table, rfl⟩
  have plain : ∀ pair ∈ leaves.flatMap fun leaf =>
      (wanted options.filter.streams leaf).map fun streamId => (leaf.tableName, streamId),
      '?' ∉ pair.1.toList := by
    intro pair there
    obtain ⟨leaf, among, same, -⟩ := mem.1 there
    exact same ▸ (names leaf among).not_mem (by decide)
  obtain ⟨probes, built, same, bound⟩ := exists_built plain options.fromPosition
  refine ⟨probes, built, bound, fun tableName streamId => ?_⟩
  rw [← @mem (tableName, streamId), ← same, List.mem_map]
  simp only [Prod.mk.injEq]

/-- What a probe asks of the table of a leaf is the group of the leaf. -/
theorem filter_rowsOf (written : Catalog.Written catalog) {rows : List StoredEvent}
    {leaf : Partition} (there : leaf ∈ catalog) {probe : HeadProbe}
    (table : probe.table = leaf.tableName) (bound : probe.fromPosition = options.fromPosition) :
    (Catalog.rowsOf catalog rows probe.table).filter (probe.selects options.direction) =
      options.group leaf probe.streamId rows := by
  rw [table, Catalog.rowsOf_tableName written there, List.filter_filter, ReadOptions.group]
  refine List.filter_congr fun row _ => ?_
  rw [Bool.eq_iff_iff, Bool.and_eq_true, HeadProbe.selects_iff, bound]
  cases probe.streamId <;> cases options.fromPosition <;>
    simp [and_comm, and_left_comm, and_assoc]

/-- The row is the first of a group that is wanted: of a leaf or of a stream in it. -/
def IsHead (catalog : List Partition) (options : ReadOptions) (rows : List StoredEvent)
    (row : StoredEvent) : Prop :=
  ∃ leaf ∈ catalog, (LeafQuery.mk options.filter).Wants leaf ∧
    ∃ streamId ∈ wanted options.filter.streams leaf,
      row.IsFirst options.direction (options.group leaf streamId rows)

/-- The probes of a read ask tables of the catalog, and their first rows are those of the groups
that are wanted. -/
theorem exists_probes?_isHead (written : Catalog.Written catalog) {leaves : List Partition}
    (among : ∀ leaf, leaf ∈ leaves ↔ leaf ∈ catalog ∧ (LeafQuery.mk options.filter).Wants leaf) :
    ∃ probes, probes? options leaves = some probes ∧
      (∀ probe ∈ probes, ∃ leaf ∈ catalog, leaf.tableName = probe.table) ∧
      ∀ rows row, (∃ probe ∈ probes, row.IsFirst options.direction
        ((Catalog.rowsOf catalog rows probe.table).filter (probe.selects options.direction))) ↔
          IsHead catalog options rows row := by
  obtain ⟨probes, built, bound, asked⟩ := @exists_probes? options leaves
    fun leaf there => written.names leaf ((among leaf).1 there).1
  have of_probe {probe : HeadProbe} (there : probe ∈ probes) :
      ∃ leaf ∈ catalog, (LeafQuery.mk options.filter).Wants leaf ∧
        leaf.tableName = probe.table ∧ probe.streamId ∈ wanted options.filter.streams leaf := by
    obtain ⟨leaf, listed, named, wants⟩ :=
      (asked probe.table probe.streamId).1 ⟨probe, there, rfl, rfl⟩
    obtain ⟨member, chosen⟩ := (among leaf).1 listed
    exact ⟨leaf, member, chosen, named, wants⟩
  refine ⟨probes, built, fun probe there => ?_, fun rows row => ⟨?_, ?_⟩⟩
  · obtain ⟨leaf, member, -, named, -⟩ := of_probe there
    exact ⟨leaf, member, named⟩
  · rintro ⟨probe, there, first⟩
    obtain ⟨leaf, member, chosen, named, wants⟩ := of_probe there
    rw [filter_rowsOf written member named.symm (bound probe there)] at first
    exact ⟨leaf, member, chosen, _, wants, first⟩
  · rintro ⟨leaf, member, chosen, streamId, wants, first⟩
    obtain ⟨probe, there, named, rfl⟩ := (asked leaf.tableName streamId).2
      ⟨leaf, (among leaf).2 ⟨member, chosen⟩, rfl, wants⟩
    refine ⟨probe, there, ?_⟩
    rwa [filter_rowsOf written member named (bound probe there)]

/-- A grouped read without the resolution of links has rows that stand for the first ones of the
groups that are wanted, strictly one after the other. -/
theorem runOn_heads_standFor (groups : db.Groups table catalog)
    (written : Catalog.Written catalog) (plain : options.resolveLinks = false)
    (chain : MiddlewareChain) (s : σ) (d : δ) :
    ∃ found d', table d' = table d ∧ Strict options.direction found ∧
      StoredEvent.StandFor found (IsHead catalog options (table d)) ∧
      (heads chain options).runOn db s d =
        (((display chain found).mapError .error, s), d') := by
  obtain ⟨leaves, d₁, answered, listed, same⟩ := groups.findLeaves ⟨options.filter⟩ d
  have among (leaf : Partition) :
      leaf ∈ leaves ↔ leaf ∈ catalog ∧ (LeafQuery.mk options.filter).Wants leaf := by
    rw [(LeafQuery.lists_iff.1 listed).1.mem_iff, List.mem_filter, LeafQuery.selects_iff_wants]
    rfl
  obtain ⟨probes, built, known, heads_iff⟩ := exists_probes?_isHead written among
  unfold heads Catalog.findLeaves
  rw [runOn_bind, runOn_ask, answered]
  dsimp only [Except.mapError]
  rw [built]
  cases probes with
  | nil =>
      refine ⟨[], d₁, same, .nil, ⟨nofun, fun row head => ?_⟩, rfl⟩
      obtain ⟨_, none, -⟩ := (heads_iff _ row).2 head
      exact absurd none List.not_mem_nil
  | cons first rest =>
      obtain ⟨answer, d₂, answered', unites, same'⟩ :=
        groups.readHeads options.direction first rest d₁ known
      rw [same] at unites
      have names : ∀ probe ∈ first :: rest, Sql.IsName probe.table := by
        intro probe there
        obtain ⟨p, member, named⟩ := known probe there
        exact named ▸ written.names p member
      obtain ⟨stand, sorted⟩ := HeadProbe.standFor_of_unites names unites
      simp only [heads_iff] at stand
      obtain ⟨strict, kept⟩ := dropRepeated_sorted sorted
      refine ⟨dropRepeated answer, d₂, same'.trans same, strict, stand.trans kept, ?_⟩
      dsimp only
      rw [runOn_bind, runOn_ask, answered', plain]
      exact runOn_check db s d₂ _

theorem IsHead.mem {rows : List StoredEvent} {row : StoredEvent}
    (head : IsHead catalog options rows row) : row ∈ rows := by
  obtain ⟨leaf, -, -, streamId, -, first, -⟩ := head
  exact List.mem_of_mem_filter first

theorem IsHead.eq_of_position {rows : List StoredEvent} {a b : StoredEvent}
    (apart : EventQuery.Distinct .position rows) (head : IsHead catalog options rows a)
    (head' : IsHead catalog options rows b) (same : a.globalPosition = b.globalPosition) : a = b :=
  apart.eq_of_place head.mem head'.mem (congrArg Int64.toInt same)

/-- Where positions tell rows apart, a grouped read has the first rows of the groups that are
wanted. -/
theorem runOn_heads (groups : db.Groups table catalog) (written : Catalog.Written catalog)
    (plain : options.resolveLinks = false) (chain : MiddlewareChain) (s : σ) (d : δ)
    (apart : EventQuery.Distinct .position (table d)) :
    ∃ found d', table d' = table d ∧ Strict options.direction found ∧
      (∀ row, row ∈ found ↔ IsHead catalog options (table d) row) ∧
      (heads chain options).runOn db s d =
        (((display chain found).mapError .error, s), d') := by
  obtain ⟨found, d', same, strict, stand, run⟩ :=
    runOn_heads_standFor groups written plain chain s d
  exact ⟨found, d', same, strict,
    fun row => stand.mem_iff fun _ _ => IsHead.eq_of_position apart, run⟩

end Read

/-! ## Descriptions -/

/-- The stream that a scope is restricted to. -/
def StreamScope.streamId? : StreamScope → Option String
  | .context _ | .streamName _ _ => none
  | .stream _ _ id => some id

namespace Read

variable {leaf : Partition} {filters : List StreamFilter} {streamId : Option String}

theorem wantsWhole_iff :
    wantsWhole filters leaf = true ↔ filters = [] ∨ ∃ f ∈ filters, covers leaf f = true ∧
      ∃ scope, f.scope? = some scope ∧ scope.streamId? = none := by
  rw [wantsWhole, Bool.or_eq_true, List.isEmpty_iff, List.any_eq_true]
  refine or_congr_right (exists_congr fun f => and_congr_right fun _ => ?_)
  rw [Bool.and_eq_true]
  refine and_congr_right fun _ => ?_
  cases f.scope? with
  | none => simp
  | some scope => cases scope <;> simp [StreamScope.streamId?]

theorem mem_wantedStreams_iff {id : String} :
    id ∈ wantedStreams filters leaf ↔ ∃ f ∈ filters, covers leaf f = true ∧
      ∃ scope, f.scope? = some scope ∧ scope.streamId? = some id := by
  rw [wantedStreams, List.mem_filterMap]
  refine exists_congr fun f => and_congr_right fun _ => ?_
  cases covers leaf f with
  | false => simp
  | true =>
      cases f.scope? with
      | none => simp
      | some scope => cases scope <;> simp [StreamScope.streamId?]

/-- What is asked of a leaf: all of it, where nothing is described, and what the descriptions that
cover it have in it. -/
theorem mem_wanted_iff :
    streamId ∈ wanted filters leaf ↔ (filters = [] ∧ streamId = none) ∨
      ∃ f ∈ filters, covers leaf f = true ∧
        ∃ scope, f.scope? = some scope ∧ scope.streamId? = streamId := by
  have whole : streamId ∈ (if wantsWhole filters leaf = true then [none] else []) ↔
      wantsWhole filters leaf = true ∧ streamId = none := by
    split <;> simp [*]
  rw [wanted, List.mem_append, whole, wantsWhole_iff, List.mem_map]
  simp only [mem_wantedStreams_iff]
  cases streamId with
  | none => simp
  | some id => simp

end Read

/-- A part of the description is given or it is not, but it is not empty. -/
structure StreamFilter.Whole (f : StreamFilter) : Prop where
  context : f.context ≠ some ""
  streamName : f.streamName ≠ some ""
  streamId : f.streamId ≠ some ""

/-- What a filter asks of a leaf, as its descriptions are written: the leaf as a whole, or a stream
in it. -/
inductive ReadFilter.Asks (filter : ReadFilter) (leaf : Partition) : Option String → Prop
  | all : filter.streams = [] → Asks filter leaf none
  | context : ⟨some leaf.context, none, none⟩ ∈ filter.streams → Asks filter leaf none
  | streamName (name : String) : leaf.streamName = some name →
      ⟨some leaf.context, some name, none⟩ ∈ filter.streams → Asks filter leaf none
  | stream (name streamId : String) : leaf.streamName = some name →
      ⟨some leaf.context, some name, some streamId⟩ ∈ filter.streams →
        Asks filter leaf (some streamId)

namespace Read

variable {filter : ReadFilter} {leaf : Partition} {streamId : Option String}

/-- A description that covers a leaf selects it, if it has a meaning. -/
theorem admitsLeaf_of_covers {f : StreamFilter} {scope : StreamScope}
    (covered : covers leaf f = true) (means : f.scope? = some scope) :
    scope.admitsLeaf leaf = true := by
  obtain ⟨context, name⟩ := Bool.and_eq_true_iff.1 covered
  rw [decide_eq_true_eq] at context
  rw [Bool.or_eq_true, decide_eq_true_eq] at name
  have given {part : Option String} {text : String} (h : StreamFilter.present part = some text) :
      part = some text := (StreamFilter.present_eq_some_iff.1 h).1
  have named {n : String} (h : StreamFilter.present f.streamName = some n) :
      leaf.streamName = some n := by
    rcases name with absent | same
    · rw [given h] at absent
      cases absent
    · exact same.symm.trans (given h)
  unfold StreamFilter.scope? at means
  split at means
  · rename_i c n _ hc hn _
    cases means
    have same : leaf.context = c := Option.some.inj (context.symm.trans (given hc))
    simp [StreamScope.admitsLeaf, same, named hn]
  · rename_i c n hc hn _
    cases means
    have same : leaf.context = c := Option.some.inj (context.symm.trans (given hc))
    simp [StreamScope.admitsLeaf, same, named hn]
  · rename_i c hc _ _
    cases means
    exact decide_eq_true (Option.some.inj (context.symm.trans (given hc)))
  · cases means

/-- A description without empty parts covers a leaf as it is written. -/
theorem covers_and_scope?_iff {f : StreamFilter} (whole : f.Whole) :
    (covers leaf f = true ∧ ∃ scope, f.scope? = some scope ∧ scope.streamId? = streamId) ↔
      (f = ⟨some leaf.context, none, none⟩ ∧ streamId = none) ∨
        ∃ name, leaf.streamName = some name ∧ f = ⟨some leaf.context, some name, streamId⟩ := by
  have given {part : Option String} (h : part ≠ some "") : StreamFilter.present part = part := by
    cases part with
    | none => rfl
    | some text =>
        exact StreamFilter.present_eq_some_iff.2 ⟨rfl, fun empty => h (congrArg some empty)⟩
  rw [StreamFilter.scope?, given whole.context, given whole.streamName, given whole.streamId,
    covers]
  obtain ⟨context, name, id⟩ := f
  cases context <;> cases name <;> cases id <;>
    simp [StreamScope.streamId?, @eq_comm _ streamId, @eq_comm _ leaf.streamName, and_assoc,
      and_left_comm]

/-- Where no part of a description is empty, what is wanted of a leaf is what is asked of it. -/
theorem mem_wanted_iff_asks (whole : ∀ f ∈ filter.streams, f.Whole) :
    streamId ∈ wanted filter.streams leaf ↔ filter.Asks leaf streamId := by
  have written : (∃ f ∈ filter.streams, covers leaf f = true ∧
      ∃ scope, f.scope? = some scope ∧ scope.streamId? = streamId) ↔
        ∃ f ∈ filter.streams, (f = ⟨some leaf.context, none, none⟩ ∧ streamId = none) ∨
          ∃ name, leaf.streamName = some name ∧ f = ⟨some leaf.context, some name, streamId⟩ :=
    exists_congr fun f => and_congr_right fun there => covers_and_scope?_iff (whole f there)
  rw [mem_wanted_iff, written]
  constructor
  · rintro (⟨none, rfl⟩ | ⟨_, there, ⟨rfl, rfl⟩ | ⟨name, named, rfl⟩⟩)
    · exact .all none
    · exact .context there
    · cases streamId with
      | none => exact .streamName name named there
      | some id => exact .stream name id named there
  · rintro (none | there | ⟨name, named, there⟩ | ⟨name, id, named, there⟩)
    · exact .inl ⟨none, rfl⟩
    · exact .inr ⟨_, there, .inl ⟨rfl, rfl⟩⟩
    · exact .inr ⟨_, there, .inr ⟨name, named, rfl⟩⟩
    · exact .inr ⟨_, there, .inr ⟨name, named, rfl⟩⟩

/-- A leaf of which something is wanted is one that is selected, if it has a type that is. -/
theorem wants_of_mem_wanted (leaf' : leaf.eventType.isSome = true)
    (ofType : filter.eventTypes = [] ∨ leaf.hasType filter.eventTypes = true)
    (wants : streamId ∈ wanted filter.streams leaf) : (LeafQuery.mk filter).Wants leaf where
  leaf := leaf'
  ofType := ofType
  ofStreams := by
    rcases mem_wanted_iff.1 wants with ⟨none, -⟩ | ⟨f, there, covered, scope, means, -⟩
    · exact .inl none
    · exact .inr ⟨f, there, scope, means, admitsLeaf_of_covers covered means⟩

end Read

namespace Journal

variable {δ : Type} {db : Database δ} {table : δ → List StoredEvent} {catalog : List Partition}

/-- A grouped read has no use for a limit. -/
theorem readGrouped_eq (j : Journal) (options : ReadOptions) :
    j.readGrouped options = Read.heads j.chain options := by
  unfold readGrouped withLimit
  split <;> rfl

/-- How a grouped read ends, where no part of a description is empty: it shows, strictly in its
direction, the first row from its position on of each leaf of the types listed that is described as
a whole, and of each stream that is described in such a leaf. A limit does not matter. -/
theorem readGrouped_heads (groups : db.Groups table catalog) (written : Catalog.Written catalog)
    (j : Journal) {options : ReadOptions} (plain : options.resolveLinks = false)
    (whole : ∀ f ∈ options.filter.streams, f.Whole) (cache : LeafCache) (d : δ)
    (apart : EventQuery.Distinct .position (table d)) :
    ∃ heads d', table d' = table d ∧ Read.Strict options.direction heads ∧
      (∀ row, row ∈ heads ↔ ∃ leaf ∈ catalog, leaf.eventType.isSome = true ∧
        (options.filter.eventTypes = [] ∨ leaf.hasType options.filter.eventTypes = true) ∧
        ∃ streamId, options.filter.Asks leaf streamId ∧
          row.IsFirst options.direction (options.group leaf streamId (table d))) ∧
      (j.readGrouped options).runOn db cache d =
        (((Read.display j.chain heads).mapError .error, cache), d') ∧
      ∀ count, j.readGrouped { options with maxCount := count } = j.readGrouped options := by
  obtain ⟨heads, d', same, strict, those, ends⟩ :=
    Read.runOn_heads groups written plain j.chain cache d apart
  refine ⟨heads, d', same, strict, fun row => ?_, j.readGrouped_eq options ▸ ends, fun count => ?_⟩
  · rw [those]
    refine exists_congr fun leaf => and_congr_right fun _ => ?_
    constructor
    · rintro ⟨wants, streamId, wanted, first⟩
      exact ⟨wants.leaf, wants.ofType, streamId, (Read.mem_wanted_iff_asks whole).1 wanted, first⟩
    · rintro ⟨isLeaf, ofType, streamId, asks, first⟩
      have wanted := (Read.mem_wanted_iff_asks whole).2 asks
      exact ⟨Read.wants_of_mem_wanted isLeaf ofType wanted, streamId, wanted, first⟩
  · rw [readGrouped_eq, readGrouped_eq]
    rfl

/-- Two orders and an event of a report. -/
def shopRows : List StoredEvent := [
  orderRow 0 1,
  { orderRow 0 2 with streamId := "2" },
  { orderRow 0 3 with streamName := "report", type := "noted" }]

theorem distinct_shopRows : EventQuery.Distinct .position shopRows := by
  unfold EventQuery.Distinct
  decide

/-- All leaves of a context are asked for their first events, and one stream besides: so there are
two orders in the result. -/
theorem readGrouped_heads_shop :
    let options : ReadOptions := {
      filter.streams := [⟨some "sales", none, none⟩, ⟨some "sales", some "order", some "2"⟩] }
    (Database.ofLeaves Read.leaves).Groups id Read.leaves ∧ Catalog.Written Read.leaves ∧
      (∀ f ∈ options.filter.streams, f.Whole) ∧ EventQuery.Distinct .position shopRows ∧
      ((readGrouped { nameTries := 0 } options).runOn (.ofLeaves Read.leaves) {} shopRows).1.1 =
        .ok (shopRows.map StoredEvent.toEvent) := by
  intro options
  have groups := Database.groups_ofLeaves Read.written_leaves
  have whole : ∀ f ∈ options.filter.streams, f.Whole := by
    intro f there
    rcases List.mem_pair.1 there with rfl | rfl
    · exact ⟨by decide, by decide, by decide⟩
    · exact ⟨by decide, by decide, by decide⟩
  obtain ⟨heads, d', -, strict, those, ends, -⟩ :=
    @readGrouped_heads _ _ _ _ groups Read.written_leaves { nameTries := 0 } options rfl whole {}
      shopRows distinct_shopRows
  have all : heads = shopRows := by
    have strict' : Read.Strict .forward shopRows := by
      simp [Read.Strict, Direction.Before, shopRows, orderRow]
    refine strict.eq_of_mem_iff strict' fun row => ⟨fun there => ?_, fun there => ?_⟩
    · obtain ⟨leaf, -, -, -, streamId, -, first, -⟩ := (those row).1 there
      exact List.mem_of_mem_filter first
    · have first {leaf : Partition} {streamId : Option String} {row : StoredEvent}
          {rest : List StoredEvent} (rows : options.group leaf streamId shopRows = row :: rest) :
          row.IsFirst options.direction (options.group leaf streamId shopRows) := by
        have sorted : Read.InOrder .forward (options.group leaf streamId shopRows) :=
          (strict'.imp fun before => before.reaches).sublist List.filter_sublist
        rw [rows] at sorted ⊢
        exact StoredEvent.isFirst_cons sorted
      simp only [shopRows, List.mem_cons, List.not_mem_nil, or_false] at there
      refine (those row).2 ?_
      rcases there with rfl | rfl | rfl
      · exact ⟨_, .head _, rfl, .inl rfl, none, .context (.head _), first rfl⟩
      · exact ⟨_, .head _, rfl, .inl rfl, some "2", .stream "order" "2" rfl (.tail _ (.head _)),
          first rfl⟩
      · exact ⟨_, .tail _ (.head _), rfl, .inl rfl, none, .context (.head _), first rfl⟩
  refine ⟨groups, Read.written_leaves, whole, distinct_shopRows, ?_⟩
  rw [ends, all]
  rfl

end Journal

end EventJournal

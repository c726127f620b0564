import EventJournal.Proofs.Groups

/-!
# Leaves with an event in a grouped read

The read of all streams and the grouped read take the same filter. The first turns each description
into a condition on rows; the second selects leaves by the descriptions, and then compares the
descriptions with each leaf once more, part by part. A description whose stream name is given but
empty stands for a whole context in the conditions, and is compared with the stream name of a leaf
all the same: only a leaf of that empty name passes.

So each row of a grouped read is one that the read of all streams shows, and a leaf has a row in it
if and only if it has a row that is shown and that some description covers whose stream name is not
given as empty, or is that of the row (`ReadFilter.Reaches`).

## Main results

* `Read.exists_wanted_iff` — the rows of a leaf that are in some group that is wanted.
* `Journal.readGrouped_leaves` — the leaves with an event in a grouped read, and those that the
  read of all streams shows events of.
-/

namespace EventJournal

/-- The partition is a leaf: one context, stream name and type. -/
structure Partition.IsLeaf (p : Partition) : Prop where
  streamName : p.streamName.isSome = true
  eventType : p.eventType.isSome = true

namespace Partition

/-- Some of the rows lie in the partition. -/
def HasIn (p : Partition) (rows : List StoredEvent) : Prop := ∃ row ∈ rows, p.holds row = true

variable {p : Partition} {row : StoredEvent}

theorem holds_iff : p.holds row = true ↔ row.context = p.context ∧
    (∀ name ∈ p.streamName, row.streamName = name) ∧ ∀ type ∈ p.eventType, row.type = type := by
  unfold holds
  cases p.streamName <;> cases p.eventType <;> simp [and_assoc]

theorem IsLeaf.holds_iff (leaf : p.IsLeaf) : p.holds row = true ↔ row.context = p.context ∧
    p.streamName = some row.streamName ∧ p.eventType = some row.type := by
  obtain ⟨name, named⟩ := Option.isSome_iff_exists.1 leaf.streamName
  obtain ⟨type, typed⟩ := Option.isSome_iff_exists.1 leaf.eventType
  rw [Partition.holds_iff, named, typed]
  simp [@eq_comm _ name, @eq_comm _ type]

end Partition

theorem ReadOptions.mem_group {options : ReadOptions} {leaf : Partition} {streamId : Option String}
    {rows : List StoredEvent} {row : StoredEvent} :
    row ∈ options.group leaf streamId rows ↔ row ∈ rows ∧ leaf.holds row = true ∧
      streamId.all (row.streamId = ·) = true ∧ options.fromPosition.all (fun position =>
        options.direction.reaches row.globalPosition.toInt position.toInt) = true := by
  rw [group, List.mem_filter, Bool.and_eq_true, Bool.and_eq_true, and_assoc]

/-- No streams are described, or the row is of one that is, by a description that does not give an
empty stream name unless it is that of the row. -/
def ReadFilter.Reaches (filter : ReadFilter) (row : StoredEvent) : Prop :=
  filter.streams = [] ∨
    ∃ f ∈ filter.streams, f.Describes row ∧ (f.streamName = some "" → row.streamName = "")

namespace Read

variable {filter : ReadFilter} {leaf : Partition} {row : StoredEvent}

/-- A scope that selects the leaf of a row admits the row, if this is of the stream that the scope
is restricted to. -/
theorem admits_of_admitsLeaf {scope : StreamScope} (holds : leaf.holds row = true)
    (selects : scope.admitsLeaf leaf = true) (ofStream : scope.streamId?.all (row.streamId = ·)) :
    scope.admits row = true := by
  obtain ⟨context, name, -⟩ := Partition.holds_iff.1 holds
  cases scope with
  | context c => exact decide_eq_true (context.trans (of_decide_eq_true selects))
  | streamName c n =>
      obtain ⟨c', n'⟩ := Bool.and_eq_true_iff.1 selects
      exact Bool.and_eq_true_iff.2 ⟨decide_eq_true (context.trans (of_decide_eq_true c')),
        decide_eq_true (name n (of_decide_eq_true n'))⟩
  | stream c n i =>
      obtain ⟨c', n'⟩ := Bool.and_eq_true_iff.1 selects
      exact StoredEvent.liesIn_iff.2 ⟨context.trans (of_decide_eq_true c'),
        name n (of_decide_eq_true n'), of_decide_eq_true ofStream⟩

/-- A row in a group that is wanted is reached. -/
theorem reaches_of_wanted {streamId : Option String} (holds : leaf.holds row = true)
    (wants : streamId ∈ wanted filter.streams leaf) (ofStream : streamId.all (row.streamId = ·)) :
    filter.Reaches row := by
  rcases mem_wanted_iff.1 wants with ⟨none, -⟩ | ⟨f, there, covered, scope, means, rfl⟩
  · exact .inl none
  · refine .inr ⟨f, there, StreamFilter.describes_iff.2 ⟨scope, means, ?_⟩, fun empty => ?_⟩
    · exact admits_of_admitsLeaf holds (admitsLeaf_of_covers covered means) ofStream
    · obtain ⟨-, name, -⟩ := Partition.holds_iff.1 holds
      obtain ⟨-, same⟩ := Bool.and_eq_true_iff.1 covered
      rw [empty] at same
      exact name "" (of_decide_eq_true same).symm

/-- The rows of a leaf that are in some group that is wanted. -/
theorem exists_wanted_iff (isLeaf : leaf.IsLeaf) (holds : leaf.holds row = true) :
    (∃ streamId ∈ wanted filter.streams leaf, streamId.all (row.streamId = ·)) ↔
      filter.Reaches row := by
  constructor
  · rintro ⟨streamId, wants, ofStream⟩
    exact reaches_of_wanted holds wants ofStream
  · rintro (undescribed | ⟨f, there, describes, empty⟩)
    · exact ⟨none, mem_wanted_iff.2 (.inl ⟨undescribed, rfl⟩), rfl⟩
    · obtain ⟨context, name, -⟩ := isLeaf.holds_iff.1 holds
      obtain ⟨scope, means, admits⟩ := StreamFilter.describes_iff.1 describes
      refine ⟨scope.streamId?, mem_wanted_iff.2 (.inr ⟨f, there, ?_, scope, means, rfl⟩), ?_⟩
      · obtain ⟨⟨given, -⟩, names, -⟩ := describes
        refine Bool.and_eq_true_iff.2 ⟨decide_eq_true (given.trans (congrArg some context)), ?_⟩
        rw [Bool.or_eq_true, decide_eq_true_eq, name]
        cases written : f.streamName with
        | none => exact .inl rfl
        | some n =>
            refine .inr (congrArg some ?_)
            by_cases absent : n = ""
            · rw [absent, empty (written.trans (congrArg some absent))]
            · exact (names n written absent).symm
      · cases scope with
        | context | streamName => rfl
        | stream c n i => exact decide_eq_true (StoredEvent.liesIn_iff.1 admits).2.2

variable {catalog : List Partition} {options : ReadOptions} {rows : List StoredEvent}

/-- The rows of a grouped read are shown by the read of all streams, and they are reached. -/
theorem IsHead.wants (head : IsHead catalog options rows row) :
    row ∈ rows ∧ options.Wants .all row ∧ options.filter.Reaches row := by
  obtain ⟨leaf, -, chosen, streamId, wants, first, -⟩ := head
  obtain ⟨stored, holds, ofStream, bound⟩ := ReadOptions.mem_group.1 first
  have reaches := reaches_of_wanted holds wants ofStream
  have covers : options.filter.Covers row :=
    reaches.imp_right fun ⟨f, there, describes, _⟩ => ⟨f, there, describes⟩
  have lists : options.filter.Lists row := by
    refine chosen.ofType.imp_right fun ofType => ?_
    obtain ⟨-, -, type⟩ := Partition.holds_iff.1 holds
    obtain ⟨t, typed, listed⟩ := (Option.any_eq_true _ _).1 ofType
    rw [type t typed]
    exact of_decide_eq_true listed
  exact ⟨stored, ⟨lists, nofun, nofun, fun _ => covers, fun _ => bound, nofun⟩, reaches⟩

/-- A leaf has an event in a grouped read if and only if it has a row that the read of all streams
shows and that is reached. -/
theorem exists_isHead_iff (there : leaf ∈ catalog) (isLeaf : leaf.IsLeaf) :
    (∃ row, IsHead catalog options rows row ∧ leaf.holds row = true) ↔
      ∃ row ∈ rows, options.Wants .all row ∧ leaf.holds row = true ∧
        options.filter.Reaches row := by
  constructor
  · rintro ⟨row, head, holds⟩
    obtain ⟨stored, wants, reaches⟩ := head.wants
    exact ⟨row, stored, wants, holds, reaches⟩
  · rintro ⟨row, stored, wants, holds, reaches⟩
    obtain ⟨context, name, type⟩ := isLeaf.holds_iff.1 holds
    have chosen : (LeafQuery.mk options.filter).Wants leaf :=
      .of_keeps context name type (wants.ofStreams rfl) wants.ofType
    obtain ⟨streamId, wanted, ofStream⟩ := (exists_wanted_iff isLeaf holds).2 reaches
    have member : row ∈ options.group leaf streamId rows :=
      ReadOptions.mem_group.2 ⟨stored, holds, ofStream, wants.fromPosition rfl⟩
    obtain ⟨first, isFirst⟩ := StoredEvent.exists_isFirst options.direction member
    exact ⟨first, ⟨leaf, there, chosen, streamId, wanted, isFirst⟩,
      (ReadOptions.mem_group.1 isFirst.1).2.1⟩

end Read

namespace Journal

open EventJournal.Action

variable {δ : Type} {db : Database δ} {table : δ → List StoredEvent} {catalog : List Partition}

/-- A read of all streams whose limit is not less than the number of rows shows all that it
wants. -/
theorem runOn_read_all (reads : db.Reads table) (j : Journal) {options : ReadOptions}
    (plain : options.resolveLinks = false) (positive : 0 < options.maxCount) (cache : LeafCache)
    (d : δ) (many : ((table d).length : Int) ≤ options.maxCount.toInt) :
    ∃ shown d', shown.Perm ((table d).filter (options.Wants .all ·)) ∧
      (j.read .all options).runOn db cache d =
        (((Read.display j.chain shown).mapError .error, cache), d') := by
  have limited : j.withLimit options = options := if_pos positive
  have limit : options.limit = options.maxCount := if_pos positive
  obtain ⟨query, asked⟩ := @EventQuery.ofOptions_of_known .all nofun options
  obtain ⟨shown, d', wanted, -, rows⟩ := Read.runOn_rows_plain reads plain asked cache d
  have all : shown.take options.limit.toInt.toNat = shown := by
    refine List.take_of_length_le ?_
    rw [wanted.those.length_eq, limit]
    have least := List.length_filter_le (options.Wants .all ·) (table d)
    omega
  rw [all, if_neg fun missing => Bool.noConfusion missing.1] at rows
  refine ⟨shown, d', wanted.those, ?_⟩
  unfold read
  rw [limited, runOn_bind, rows]
  exact runOn_check db cache d' _

/-- The leaves with an event in a grouped read, and those that the read of all streams without a
limit shows events of. The first are always among the second, and have an event that is reached. A
leaf with an event that is reached has one at the position of an event of the grouped read. So,
where positions tell rows apart, the leaves are the same if and only if each leaf with a row that is
shown has one that is reached, and in particular where no description gives an empty stream name. -/
theorem readGrouped_leaves (groups : db.Groups table catalog) (reads : db.Reads table)
    (written : Catalog.Written catalog) (j : Journal) {options : ReadOptions}
    (plain : options.resolveLinks = false) {count : Int64} (positive : 0 < count)
    (cache : LeafCache) (d : δ) (many : ((table d).length : Int) ≤ count.toInt) :
    ∃ heads shown d₁ d₂,
      (j.readGrouped options).runOn db cache d =
        (((Read.display j.chain heads).mapError .error, cache), d₁) ∧
      (j.read .all { options with maxCount := count }).runOn db cache d =
        (((Read.display j.chain shown).mapError .error, cache), d₂) ∧
      shown.Perm ((table d).filter (options.Wants .all ·)) ∧
      (∀ head ∈ heads, head ∈ shown ∧ options.filter.Reaches head) ∧
      (∀ leaf ∈ catalog, leaf.IsLeaf → ∀ row ∈ shown, leaf.holds row = true →
        options.filter.Reaches row → ∃ other ∈ shown, leaf.holds other = true ∧
          ∃ head ∈ heads, head.globalPosition = other.globalPosition) ∧
      (EventQuery.Distinct .position (table d) →
        (∀ leaf ∈ catalog, leaf.IsLeaf → (leaf.HasIn heads ↔
          ∃ row ∈ shown, leaf.holds row = true ∧ options.filter.Reaches row)) ∧
        ((∀ leaf ∈ catalog, leaf.IsLeaf → (leaf.HasIn heads ↔ leaf.HasIn shown)) ↔
          ∀ leaf ∈ catalog, leaf.IsLeaf → leaf.HasIn shown →
            ∃ row ∈ shown, leaf.holds row = true ∧ options.filter.Reaches row) ∧
        ((∀ f ∈ options.filter.streams, f.streamName ≠ some "") →
          ∀ leaf ∈ catalog, leaf.IsLeaf → (leaf.HasIn heads ↔ leaf.HasIn shown))) := by
  have same (row : StoredEvent) : ReadOptions.Wants { options with maxCount := count } .all row ↔
      options.Wants .all row := by
    simp only [ReadOptions.wants_iff]
  obtain ⟨heads, d₁, -, -, stand, grouped⟩ :=
    Read.runOn_heads_standFor groups written plain j.chain cache d
  obtain ⟨shown, d₂, wanted, read⟩ :=
    @runOn_read_all _ _ _ reads j { options with maxCount := count } plain positive cache d many
  simp only [same] at wanted
  have mem (row : StoredEvent) : row ∈ shown ↔ row ∈ table d ∧ options.Wants .all row := by
    rw [wanted.mem_iff, List.mem_filter, decide_eq_true_eq]
  have sub : ∀ head ∈ heads, head ∈ shown ∧ options.filter.Reaches head := by
    intro head there
    obtain ⟨stored, wants, reaches⟩ := (stand.only head there).wants
    exact ⟨(mem head).2 ⟨stored, wants⟩, reaches⟩
  have reached {leaf : Partition} (there : leaf ∈ catalog) (isLeaf : leaf.IsLeaf) :
      (∃ row, Read.IsHead catalog options (table d) row ∧ leaf.holds row = true) ↔
        ∃ row ∈ shown, leaf.holds row = true ∧ options.filter.Reaches row := by
    simp only [mem, and_assoc]
    exact Read.exists_isHead_iff there isLeaf
  refine ⟨heads, shown, d₁, d₂, j.readGrouped_eq options ▸ grouped, read, wanted, sub,
    fun leaf there isLeaf row among holds reaches => ?_, fun apart => ?_⟩
  · obtain ⟨first, head, holds⟩ := (reached there isLeaf).2 ⟨row, among, holds, reaches⟩
    obtain ⟨stored, wants, -⟩ := head.wants
    exact ⟨first, (mem first).2 ⟨stored, wants⟩, holds, stand.every first head⟩
  have those (row : StoredEvent) : row ∈ heads ↔ Read.IsHead catalog options (table d) row :=
    stand.mem_iff fun _ _ => Read.IsHead.eq_of_position apart
  have leaves : ∀ leaf ∈ catalog, leaf.IsLeaf → (leaf.HasIn heads ↔
      ∃ row ∈ shown, leaf.holds row = true ∧ options.filter.Reaches row) := by
    intro leaf there isLeaf
    simp only [Partition.HasIn, those]
    exact reached there isLeaf
  have alike : ∀ leaf ∈ catalog, leaf.IsLeaf → ((leaf.HasIn heads ↔ leaf.HasIn shown) ↔
      (leaf.HasIn shown → ∃ row ∈ shown, leaf.holds row = true ∧ options.filter.Reaches row)) := by
    intro leaf there isLeaf
    rw [leaves leaf there isLeaf]
    refine ⟨Iff.mpr, fun reached => ⟨?_, reached⟩⟩
    exact fun ⟨row, among, holds, _⟩ => ⟨row, among, holds⟩
  refine ⟨leaves, ?_, fun given leaf there isLeaf => (alike leaf there isLeaf).2 ?_⟩
  · exact forall₂_congr fun leaf there => forall_congr' fun isLeaf => alike leaf there isLeaf
  · rintro ⟨row, among, holds⟩
    refine ⟨row, among, holds, (((mem row).1 among).2.ofStreams rfl).imp_right ?_⟩
    exact fun ⟨f, member, describes⟩ =>
      ⟨f, member, describes, fun empty => absurd empty (given f member)⟩

/-- One order is described, and all that is read is of its leaf. -/
theorem readGrouped_leaves_shop :
    let options : ReadOptions := { filter.streams := [⟨some "sales", some "order", some "2"⟩] }
    (Database.ofLeaves Read.leaves).Groups id Read.leaves ∧
      (Database.ofLeaves Read.leaves).Reads id ∧ Catalog.Written Read.leaves ∧
      EventQuery.Distinct .position shopRows ∧
      ∃ heads shown,
        ((readGrouped { nameTries := 0 } options).runOn (.ofLeaves Read.leaves) {} shopRows).1.1 =
          .ok (heads.map StoredEvent.toEvent) ∧
        ((read { nameTries := 0 } .all { options with maxCount := 3 }).runOn
          (.ofLeaves Read.leaves) {} shopRows).1.1 = .ok (shown.map StoredEvent.toEvent) ∧
        (∀ leaf ∈ Read.leaves, leaf.HasIn heads ↔ leaf.HasIn shown) ∧
        Read.leaves[0].HasIn shown := by
  intro options
  have groups := Database.groups_ofLeaves Read.written_leaves
  have reads := Database.reads_ofLeaves Read.leaves
  obtain ⟨heads, shown, d₁, d₂, grouped, read, wanted, -, -, whole⟩ :=
    @readGrouped_leaves _ _ _ _ groups reads Read.written_leaves { nameTries := 0 } options rfl 3
      (by decide) {} shopRows (by decide)
  obtain ⟨-, -, alike⟩ := whole distinct_shopRows
  have isLeaf : ∀ leaf ∈ Read.leaves,
      leaf.streamName.isSome = true ∧ leaf.eventType.isSome = true := by
    decide
  have plainly (rows : List StoredEvent) :
      (Read.display [] rows).mapError Abort.error = .ok (rows.map StoredEvent.toEvent) :=
    congrArg _ (Read.display_nil rows)
  refine ⟨groups, reads, Read.written_leaves, distinct_shopRows, heads, shown,
    (congrArg (·.1.1) grouped).trans (plainly heads),
    (congrArg (·.1.1) read).trans (plainly shown), fun leaf there => ?_, ?_⟩
  · exact alike (by decide) leaf there ⟨(isLeaf leaf there).1, (isLeaf leaf there).2⟩
  · refine ⟨{ orderRow 0 2 with streamId := "2" }, wanted.mem_iff.2 ?_, by decide⟩
    exact List.mem_filter.2 ⟨.tail _ (.head _), by decide⟩

/-- Over leaves that hold all rows, a description with an empty stream name has a grouped read
return nothing at all, where the read of all streams returns every event. -/
theorem empty_name_misses_leaves :
    let options : ReadOptions := { filter.streams := [⟨some "sales", some "", none⟩] }
    (Database.ofLeaves Read.leaves).Groups id Read.leaves ∧
      (Database.ofLeaves Read.leaves).Reads id ∧ Catalog.Written Read.leaves ∧
      EventQuery.Distinct .position shopRows ∧
      (∀ row ∈ shopRows, ∃ leaf ∈ Read.leaves, leaf.holds row = true) ∧
      ((readGrouped { nameTries := 0 } options).runOn (.ofLeaves Read.leaves) {} shopRows).1.1 =
        .ok [] ∧
      ∃ shown : List StoredEvent, shown.Perm shopRows ∧
        ((read { nameTries := 0 } .all options).runOn (.ofLeaves Read.leaves) {} shopRows).1.1 =
          .ok (shown.map StoredEvent.toEvent) := by
  intro options
  have groups := Database.groups_ofLeaves Read.written_leaves
  have reads := Database.reads_ofLeaves Read.leaves
  have held : ∀ row ∈ shopRows, ∃ leaf ∈ Read.leaves, leaf.holds row = true := by
    decide
  obtain ⟨heads, d₁, -, -, stand, grouped⟩ :=
    @Read.runOn_heads_standFor _ _ _ _ _ options groups Read.written_leaves rfl [] ({} : LeafCache)
      shopRows
  obtain ⟨shown, d₂, wanted, read⟩ :=
    @runOn_read_all _ _ _ reads { nameTries := 0 } options rfl (by decide) {} shopRows (by decide)
  have none : heads = [] := by
    refine List.eq_nil_iff_forall_not_mem.2 fun row there => ?_
    obtain ⟨stored, -, undescribed | ⟨f, member, -, empty⟩⟩ := (stand.only row there).wants
    · exact absurd undescribed (by decide)
    · have named : ∀ row ∈ shopRows, row.streamName ≠ "" := by decide
      rw [List.mem_singleton.1 member] at empty
      exact named row stored (empty rfl)
  have all : shopRows.filter (options.Wants .all ·) = shopRows :=
    List.filter_eq_self.2 (by decide)
  refine ⟨groups, reads, Read.written_leaves, distinct_shopRows, held, ?_, shown, all ▸ wanted, ?_⟩
  · rw [readGrouped_eq, grouped, none]
    rfl
  · rw [read]
    exact congrArg (Except.mapError Abort.error) (Read.display_nil shown)

end Journal

end EventJournal

import EventJournal.Proofs.Links.Batch
import EventJournal.Proofs.Links.Inline

/-!
# Two ways to resolve links

The join of a read puts in the place of a row any row that it refers to. The resolution of a
list asks more: that the row is of the type of links, and that a link of the list names the
partition of the row referred to. The two agree on a row if and only if it does not refer to
another row, or meets this too (`Read.resolutions_agree_iff`); an event of another type that
is stored with a reference does not (`Read.reference_resolved_once`).

## Main results

* `Read.unlinked_merge_eq_iff` — where the two agree on one row.
* `Read.resolutions_agree_iff` — where they agree on the rows of a read.
-/

namespace EventJournal

/-- The event without the link event in whose place it was put. -/
def Event.unlinked (e : Event) : Event := { e with link := none }

theorem StoredEvent.toEvent_injective : Function.Injective toEvent := by
  rintro ⟨⟩ ⟨⟩ same
  simp only [toEvent, Event.mk.injEq, Option.some.injEq] at same
  simp only [same]

namespace Read

/-- What a row refers to is fetched for a list: the row is a link, and a link of the list
names with its identifier a partition that it lies in. -/
def Fetched (catalog : List Partition) (found : List StoredEvent) (row original : StoredEvent) :
    Prop :=
  row.toEvent.isLink = true ∧ ∃ link ∈ found, link.toEvent.isLink = true ∧
    link.linkId = some original.id ∧
      ∃ p ∈ catalog, link.linkPartitionId = some p.id ∧ p.holds original = true

/-- What a link names in the partition that it names is fetched. -/
theorem Fetched.of_link {catalog : List Partition} {found : List StoredEvent}
    {row original : StoredEvent} (shown : row ∈ found) (links : row.toEvent.isLink = true)
    (refers : row.refersTo original = true)
    (named : ∃ p ∈ catalog, row.linkPartitionId = some p.id ∧ p.holds original = true) :
    Fetched catalog found row original :=
  ⟨links, row, shown, links, of_decide_eq_true (Bool.and_eq_true_iff.1 refers).1, named⟩

theorem mem_ofEvents {found : List StoredEvent} {partition : Int64} {id : Uuid} :
    (partition, id) ∈ LinkTarget.ofEvents (found.map StoredEvent.toEvent) ↔
      ∃ link ∈ found, link.toEvent.isLink = true ∧ link.linkId = some id ∧
        link.linkPartitionId = some partition := by
  simp only [LinkTarget.mem_ofEvents, List.mem_map, exists_exists_and_eq_and]
  rfl

theorem target?_eq (fetched : List StoredEvent) (row : StoredEvent) :
    target? fetched row.toEvent =
      if row.toEvent.isLink then fetched.reverse.find? row.refersTo else none := by
  unfold target?
  split
  · have ids : row.toEvent.linkId = row.linkId := rfl
    have positions : row.toEvent.linkGlobalPosition = row.linkGlobalPosition := rfl
    rw [ids, positions]
    cases id : row.linkId with
    | none =>
        refine (List.find?_eq_none.2 fun other _ => ?_).symm
        simp [StoredEvent.refersTo, id]
    | some id' =>
        cases position : row.linkGlobalPosition with
        | none =>
            refine (List.find?_eq_none.2 fun other _ => ?_).symm
            simp [StoredEvent.refersTo, position]
        | some position' =>
            refine congrArg (List.find? · fetched.reverse) (funext fun other => ?_)
            simp [StoredEvent.refersTo, id, position, @eq_comm _ other.id,
              @eq_comm _ other.globalPosition]
  · rfl

theorem of_target?_eq_some {fetched : List StoredEvent} {row original : StoredEvent}
    (h : target? fetched row.toEvent = some original) :
    row.toEvent.isLink = true ∧ original ∈ fetched ∧ row.refersTo original = true := by
  rw [target?_eq] at h
  split at h
  · exact ⟨‹_›, List.mem_reverse.1 (List.mem_of_find?_eq_some h), List.find?_some h⟩
  · cases h

theorem not_refersTo_of_target?_eq_none {fetched : List StoredEvent} {row original : StoredEvent}
    (h : target? fetched row.toEvent = none) (links : row.toEvent.isLink = true)
    (there : original ∈ fetched) : ¬row.refersTo original = true := by
  rw [target?_eq, if_pos links] at h
  exact List.find?_eq_none.1 h original (List.mem_reverse.2 there)

theorem unlinked_merge (fetched : List StoredEvent) (row : StoredEvent) :
    (merge fetched row.toEvent).unlinked = ((target? fetched row.toEvent).getD row).toEvent := by
  unfold merge
  cases target? fetched row.toEvent with
  | none => rfl
  | some original => rfl

section

variable {rows fetched found : List StoredEvent} {catalog : List Partition}

/-- The two ways to resolve links agree on a row if what it refers to is fetched or is the row
itself. -/
theorem unlinked_merge_eq_iff (apart : EventQuery.Distinct .position rows)
    (fetches : ∀ row, row ∈ fetched ↔ row ∈ rows ∧ ∃ p ∈ catalog, p.holds row = true ∧
      (p.id, row.id) ∈ LinkTarget.ofEvents (found.map StoredEvent.toEvent))
    (row : StoredEvent) :
    (merge fetched row.toEvent).unlinked = (row.target rows).toEvent ↔
      ∀ original ∈ rows, row.refersTo original = true →
        original = row ∨ Fetched catalog found row original := by
  -- what is fetched for a link is what the definition says
  have fetched_iff {original : StoredEvent} (there : original ∈ rows)
      (refers : row.refersTo original = true) (links : row.toEvent.isLink = true) :
      original ∈ fetched ↔ Fetched catalog found row original := by
    rw [fetches, and_iff_right there]
    simp only [mem_ofEvents, Fetched, and_iff_right links]
    constructor
    · rintro ⟨p, listed, holds, link, shown, isLink, id, partition⟩
      exact ⟨link, shown, isLink, id, p, listed, partition, holds⟩
    · rintro ⟨link, shown, isLink, id, p, listed, partition, holds⟩
      exact ⟨p, listed, holds, link, shown, isLink, id, partition⟩
  rw [unlinked_merge, StoredEvent.toEvent_injective.eq_iff, StoredEvent.target]
  cases joined : rows.find? row.refersTo with
  | none =>
      have nothing := List.find?_eq_none.1 joined
      have same : target? fetched row.toEvent = none := by
        by_contra some_
        obtain ⟨other, put⟩ := Option.ne_none_iff_exists'.1 some_
        obtain ⟨-, there, refers⟩ := of_target?_eq_some put
        exact nothing other ((fetches other).1 there).1 refers
      rw [same]
      exact iff_of_true rfl fun original there refers => absurd refers (nothing original there)
  | some original =>
      have there := List.mem_of_find?_eq_some joined
      have refers : row.refersTo original = true := List.find?_some joined
      have only : (∀ other ∈ rows, row.refersTo other = true →
          other = row ∨ Fetched catalog found row other) ↔
            original = row ∨ Fetched catalog found row original := by
        refine ⟨fun all => all original there refers, fun one other among refers' => ?_⟩
        rwa [StoredEvent.eq_of_refersTo apart among there refers' refers]
      rw [only]
      cases put : target? fetched row.toEvent with
      | none =>
          refine ⟨fun same => .inl same.symm, fun either => (either.resolve_right ?_).symm⟩
          intro fetch
          exact not_refersTo_of_target?_eq_none put fetch.1
            ((fetched_iff there refers fetch.1).2 fetch) refers
      | some other =>
          obtain ⟨links, got, refers'⟩ := of_target?_eq_some put
          obtain rfl :=
            StoredEvent.eq_of_refersTo apart ((fetches other).1 got).1 there refers' refers
          exact iff_of_true rfl (.inr ((fetched_iff there refers links).1 got))

end

open EventJournal.Action

variable {δ σ : Type} {db : Database δ} {table : δ → List StoredEvent}
  {catalog : List Partition}

/-- What a stream shows after any changes, with links resolved by the read and with links
resolved for the rows of the plain read: as many events, and the same in each place, but for
the link, if and only if the row there does not refer to another row or this is fetched. Where
one of the reads fails, both fail alike. -/
theorem resolutions_agree_iff (resolves : db.Resolves table catalog)
    (named : Catalog.Named catalog) (c : Circumstances) (changes : List (Journal × Change))
    (cache : LeafCache) (s : σ) (d : δ)
    (reached : table d =
      ((Change.performAll changes).runOn (EventTable.database c.truthful) cache {}).2.stored)
    (stream : Stream) (options : ReadOptions) :
    let plain := (rows stream { options with resolveLinks := false }).runOn db s d
    let inline := (rows stream { options with resolveLinks := true }).runOn db s d
    (∃ cause, plain.1.1 = .error cause ∧ inline.1.1 = .error cause) ∨
      ∃ (found shown : List StoredEvent) (events : List Event),
        found ⊆ table d ∧ plain.1.1 = .ok found ∧ inline.1.1 = .ok shown ∧
        ((resolveLinks (found.map StoredEvent.toEvent)).runOn db s plain.2).1.1 = .ok events ∧
        shown.length = found.length ∧ events.length = found.length ∧
        ∀ (place : Nat) (row : StoredEvent), found[place]? = some row →
          (events[place]?.map Event.unlinked = shown[place]?.map StoredEvent.toEvent ↔
            ∀ original ∈ table d, row.refersTo original = true →
              original = row ∨ Fetched catalog found row original) := by
  intro plain inline
  have numbered := EventTable.numbered_performAll c changes cache
  unfold EventTable.Holds at numbered
  rw [← reached] at numbered
  cases asked : EventQuery.ofOptions stream options with
  | error cause =>
      have refused (resolve : Bool) :
          ((rows stream { options with resolveLinks := resolve }).runOn db s d).1.1 =
            .error (.error cause) := by
        unfold rows
        rw [ofOptions_resolving, asked]
        rfl
      exact .inl ⟨.error cause, refused false, refused true⟩
  | ok query =>
      obtain ⟨found, d₁, d₂, sub, same, -, plain_, inline_⟩ :=
        runOn_rows_both resolves.toReads asked s d numbered
      by_cases missing : found.isEmpty = true ∧ Missing stream (table d)
      · rw [if_pos missing] at plain_ inline_
        refine .inl ⟨.error (.streamNotFound stream), ?_, ?_⟩
        · exact congrArg (·.1.1) plain_
        · exact congrArg (·.1.1) inline_
      · rw [if_neg missing] at plain_ inline_
        obtain ⟨fetched, d₃, -, ends, fetches⟩ :=
          runOn_resolveLinks resolves named (found.map StoredEvent.toEvent) s d₁
        rw [same] at fetches
        refine .inr ⟨found, _, (found.map StoredEvent.toEvent).map (merge fetched), sub,
          congrArg (·.1.1) plain_, congrArg (·.1.1) inline_, ?_, List.length_map .., ?_, ?_⟩
        · rw [show plain.2 = d₁ from congrArg (·.2) plain_, ends]
        · rw [List.length_map, List.length_map]
        · intro place row there
          rw [List.getElem?_map, List.getElem?_map, List.getElem?_map, there]
          simp only [Option.map_some, Option.some_inj]
          exact unlinked_merge_eq_iff numbered.apart fetches row

/-! ## A link and a mere reference -/

/-- The leaves of orders and of reports. -/
def leaves : List Partition := [
  ⟨1, "sales", some "order", some "placed", "event_types_0a1b2c"⟩,
  ⟨2, "sales", some "report", some "noted", "event_types_3d4e5f"⟩,
  ⟨3, "sales", some "report", some "$>", "event_types_6a7b8c"⟩]

/-- An order, and an event of a report that is stored with a reference to it. -/
def reported (type : String) : List (Journal × Change) := [
  ({ nameTries := 0 }, .append .ok
    ⟨⟨"sales", "order", "1", .regular⟩, [{ id := some ⟨1⟩, type := "placed" }], .any⟩),
  ({ nameTries := 0 }, .append .ok
    ⟨⟨"sales", "report", "1", .regular⟩, [{
      type
      linkId := some ⟨1⟩
      linkPartitionId := some 1
      linkGlobalPosition := some 1 }], .any⟩)]

/-- The rows that are stored then. -/
def reportedRows (type : String) : List StoredEvent :=
  ((Change.performAll (reported type)).runOn
    (EventTable.database Circumstances.calmWithTypes.truthful) {} {}).2.stored

end Read

/-- A table and a catalog that do not change, and nothing besides. -/
def Database.ofTables (catalog : List Partition) : Database (List StoredEvent) where
  answer
    | .partitionsById ids, rows => (.ok (catalog.filter (·.id ∈ ids)), rows)
    | .readTargets first rest, rows =>
        (.ok ((first :: rest).flatMap fun branch => rows.filter (branch.selects catalog)), rows)
    | s, rows => Database.ofRows.answer s rows

theorem Database.resolves_ofTables (catalog : List Partition) :
    (Database.ofTables catalog).Resolves id catalog where
  readEvents _ rows counts := ⟨_, rows, rfl, EventQuery.answers_respond counts rows, rfl⟩
  streamExists _ rows := ⟨rows, rfl, rfl⟩
  partitionsById _ rows := ⟨_, rows, rfl, .refl _, rfl⟩
  readTargets _ _ rows := ⟨_, rows, rfl, .refl _, rfl⟩

namespace Read

/-- A link of a report is shown as the order that it refers to by both ways to resolve
links. -/
theorem link_resolved_twice :
    let report : Stream := ⟨"sales", "report", "1", .regular⟩
    let plain := (rows report {} : Action Unit _).runOn (.ofTables leaves) () (reportedRows "$>")
    let inline := (rows report { resolveLinks := true } : Action Unit _).runOn (.ofTables leaves) ()
      (reportedRows "$>")
    (Database.ofTables leaves).Resolves id leaves ∧ Catalog.Named leaves ∧
      ∃ found shown events, plain.1.1 = .ok found ∧ inline.1.1 = .ok shown ∧
        ((resolveLinks (found.map StoredEvent.toEvent)).runOn (.ofTables leaves) ()
          plain.2).1.1 = .ok events ∧
        shown.map (·.type) = ["placed"] ∧
        events.map Event.unlinked = shown.map StoredEvent.toEvent := by
  intro report plain inline
  have resolves := Database.resolves_ofTables leaves
  have named : Catalog.Named leaves := ⟨by decide, by decide⟩
  have types : inline.1.1.toOption.map (·.map (·.type)) = some ["placed"] := by
    decide +kernel
  have links : ∀ row ∈ reportedRows "$>", ∀ original ∈ reportedRows "$>",
      row.refersTo original = true → row.toEvent.isLink = true ∧
        ∃ p ∈ leaves, row.linkPartitionId = some p.id ∧ p.holds original = true := by
    decide +kernel
  refine ⟨resolves, named, ?_⟩
  rcases resolutions_agree_iff resolves named Circumstances.calmWithTypes (reported "$>") {} ()
    (reportedRows "$>") rfl report {} with ⟨cause, -, failed⟩ | agree
  · rw [show inline.1.1 = .error cause from failed] at types
    cases types
  · obtain ⟨found, shown, events, sub, isPlain, isInline, isBatch, lengths, lengths', same⟩ := agree
    refine ⟨found, shown, events, isPlain, isInline, isBatch, ?_, ?_⟩
    · rw [show inline.1.1 = .ok shown from isInline] at types
      exact Option.some.inj types
    · refine List.ext_getElem?' fun place below => ?_
      rw [List.length_map, List.length_map, lengths, lengths', Nat.max_self] at below
      have shows := List.getElem_mem below
      rw [List.getElem?_map, List.getElem?_map]
      refine (same place _ (List.getElem?_eq_getElem below)).2 fun original stored refers => .inr ?_
      obtain ⟨isLink, names⟩ := links _ (sub shows) original stored refers
      exact .of_link shows isLink refers names

/-- An event of a report is shown as the order that it refers to by one of the two ways to
resolve links, and as itself by the other. -/
theorem reference_resolved_once :
    let report : Stream := ⟨"sales", "report", "1", .regular⟩
    let plain := (rows report {} : Action Unit _).runOn (.ofTables leaves) () (reportedRows "noted")
    let inline := (rows report { resolveLinks := true } : Action Unit _).runOn (.ofTables leaves) ()
      (reportedRows "noted")
    let batch := (do resolveLinks ((← rows report {}).map StoredEvent.toEvent) :
      Action Unit _).runOn (.ofTables leaves) () (reportedRows "noted")
    plain.1.1.toOption.map (·.map (·.type)) = some ["noted"] ∧
      inline.1.1.toOption.map (·.map (·.type)) = some ["placed"] ∧
      batch.1.1.toOption.map (·.map (·.type)) = some ["noted"] := by
  decide +kernel

end Read

end EventJournal

import Mathlib.Data.List.Forall2
import EventJournal.Proofs.Sql.Skeleton

/-!
# Statements that differ in their values only

What a caller asks has a shape and values. The shape of a read is the kind of its stream,
its direction and limit, whether it begins at a revision or a position, whether links are
resolved, which kind of streams each description selects, if any, and whether types are
listed. Everything else is a value: contexts, names, identifiers, types, revisions and
positions. Requests of one shape are sent as statements that are alike, so no quote,
question mark, dollar sign or keyword in a value reaches the text of a statement.

A description of streams without meaning has a shape too, the absent one: it is left out
of the text, and whether any is left matters.
-/

namespace EventJournal

/-! ## Shapes -/

/-- The kind of streams that the description selects, if it has a meaning. -/
def StreamFilter.shape? (f : StreamFilter) : Option String := f.scope?.map StreamScope.label

structure ReadFilter.SameShape (a b : ReadFilter) : Prop where
  streams : a.streams.map StreamFilter.shape? = b.streams.map StreamFilter.shape?
  eventTypes : a.eventTypes.isEmpty = b.eventTypes.isEmpty

structure ReadOptions.SameShape (a b : ReadOptions) : Prop where
  direction : a.direction = b.direction
  resolveLinks : a.resolveLinks = b.resolveLinks
  limit : a.limit = b.limit
  fromRevision : a.fromRevision.isSome = b.fromRevision.isSome
  fromPosition : a.fromPosition.isSome = b.fromPosition.isSome
  filter : a.filter.SameShape b.filter

/-- Both are regular, both the stream of all events, or both the system stream of first
events. -/
def Stream.SameKind (a b : Stream) : Prop :=
  a.kind = b.kind ∧
    (a.isSystem → a.streamName = streams.streamName ∧ b.streamName = streams.streamName)

structure HeadProbe.SameShape (a b : HeadProbe) : Prop where
  table : a.table = b.table
  streamId : a.streamId.isSome = b.streamId.isSome
  fromPosition : a.fromPosition.isSome = b.fromPosition.isSome

/-- The key names an event type but no stream name. No partition has such a key. -/
def PartitionKey.HasGap (key : PartitionKey) : Prop :=
  key.streamName = none ∧ key.eventType.isSome

/-! ## Conditions -/

/-- Lists that agree in one respect agree in every respect that depends on it. -/
theorem map_eq_map_of_imp {α β γ : Type} {f : α → β} {g : α → γ}
    (h : ∀ a b, f a = f b → g a = g b) :
    ∀ {as bs : List α}, as.map f = bs.map f → as.map g = bs.map g
  | [], [], _ => rfl
  | [], _ :: _, hEq => by simp at hEq
  | _ :: _, [], hEq => by simp at hEq
  | a :: as, b :: bs, hEq => by
      simp only [List.map_cons, List.cons.injEq] at hEq
      rw [List.map_cons, List.map_cons, h a b hEq.1, map_eq_map_of_imp h hEq.2]

namespace StreamScope

theorem skeleton_eventFragment (a b : StreamScope) (h : a.label = b.label) :
    a.eventFragment.skeleton = b.eventFragment.skeleton := by
  cases a <;> cases b <;> simp_all [label, eventFragment, Fragment.skeleton, SqlValue.blank]

theorem skeleton_leafFragment (a b : StreamScope) (h : a.label = b.label) :
    a.leafFragment.skeleton = b.leafFragment.skeleton := by
  cases a <;> cases b <;> simp_all [label, leafFragment, Fragment.skeleton, SqlValue.blank]

end StreamScope

namespace ReadFilter.SameShape

variable {a b : ReadFilter}

theorem scopes (h : a.SameShape b) :
    a.scopes.map StreamScope.label = b.scopes.map StreamScope.label := by
  have hShapes (f : ReadFilter) :
      f.scopes.map StreamScope.label = (f.streams.map StreamFilter.shape?).filterMap id := by
    simp [ReadFilter.scopes, StreamFilter.shape?, List.map_filterMap, List.filterMap_map,
      Function.comp_def]
  rw [hShapes a, hShapes b, h.streams]

/-- Whether descriptions are given of which none has a meaning. -/
theorem selectsNothing (h : a.SameShape b) :
    (a.scopes.isEmpty && !a.streams.isEmpty) = (b.scopes.isEmpty && !b.streams.isEmpty) := by
  have hScopes := congrArg List.isEmpty h.scopes
  have hStreams := congrArg List.isEmpty h.streams
  simp only [List.isEmpty_map] at hScopes hStreams
  rw [hScopes, hStreams]

end ReadFilter.SameShape

/-! ## Reads of events -/

namespace EventQuery

theorem skeleton_types {a b : List String} (h : a.isEmpty = b.isEmpty) :
    (typeConditions a).map (Fragment.skeleton ∘ EventCondition.fragment) =
      (typeConditions b).map (Fragment.skeleton ∘ EventCondition.fragment) := by
  cases a with
  | nil => cases b with
    | nil => rfl
    | cons => simp at h
  | cons => cases b with
    | nil => simp at h
    | cons => rfl

/-- Queries that differ in their values only. -/
structure SameShape (a b : EventQuery) : Prop where
  resolveLinks : a.resolveLinks = b.resolveLinks
  anyOf : a.anyOf.map StreamScope.label = b.anyOf.map StreamScope.label
  allOf : a.allOf.map (Fragment.skeleton ∘ EventCondition.fragment) =
    b.allOf.map (Fragment.skeleton ∘ EventCondition.fragment)
  order : a.order = b.order
  direction : a.direction = b.direction
  limit : a.limit = b.limit

theorem SameShape.skeleton_select {a b : EventQuery} (h : a.SameShape b) :
    a.select.skeleton = b.select.skeleton := by
  have hAny := map_eq_map_of_imp StreamScope.skeleton_eventFragment h.anyOf
  have hAll := h.allOf
  simp only [select, Select.skeleton, Select.sourceSkeleton, List.map_map, h.resolveLinks, h.order,
    h.direction, h.limit, hAll]
  exact congrArg (fun anyOf => Select.mk _ _ _ anyOf _ _ _ _) hAny

/-- Bounds of one kind and direction, absent on both sides or on neither. -/
theorem skeleton_bound {α : Type} (bound : α → EventCondition) {a b : Option α}
    (h : a.isSome = b.isSome)
    (hBound : ∀ x y, (bound x).fragment.skeleton = (bound y).fragment.skeleton) :
    (a.toList.map bound).map (Fragment.skeleton ∘ EventCondition.fragment) =
      (b.toList.map bound).map (Fragment.skeleton ∘ EventCondition.fragment) := by
  cases a with
  | none => cases b with
    | none => rfl
    | some => simp at h
  | some x => cases b with
    | none => simp at h
    | some y => simp [hBound x y]

theorem sameShape_ofStream (s t : Stream) {a b : ReadOptions} (h : a.SameShape b) :
    (ofStream s a).SameShape (ofStream t b) where
  resolveLinks := h.resolveLinks
  anyOf := rfl
  allOf := by
    have hBound := skeleton_bound (.revisionFrom b.direction) h.fromRevision
      fun _ _ => rfl
    have hTypes := skeleton_types h.filter.eventTypes
    simp only [ofStream, List.map_cons, List.map_append, h.direction, hBound, hTypes]
    rfl
  order := rfl
  direction := h.direction
  limit := h.limit

theorem sameShape_ofFilter (extra : List EventCondition) {a b : ReadOptions}
    (h : a.SameShape b) : (ofFilter extra a).SameShape (ofFilter extra b) where
  resolveLinks := h.resolveLinks
  anyOf := h.filter.scopes
  allOf := by
    have hNone : noScope a.filter = noScope b.filter := by
      rw [noScope, noScope, h.filter.selectsNothing]
    have hBound := skeleton_bound (.positionFrom b.direction) h.fromPosition
      fun _ _ => rfl
    have hTypes := skeleton_types h.filter.eventTypes
    simp only [ofFilter, List.map_append, h.direction, hNone, hBound, hTypes]
  order := rfl
  direction := h.direction
  limit := h.limit

/-- Reads of one shape have queries of one shape. -/
theorem exists_ofOptions {s t : Stream} {a b : ReadOptions} (hKind : s.SameKind t)
    (h : a.SameShape b) :
    ∃ p q, ofOptions s a = .ok p ∧ ofOptions t b = .ok q ∧ p.SameShape q := by
  obtain ⟨hSame, hSystem⟩ := hKind
  cases hs : s.kind with
  | regular =>
      have ht : t.kind = .regular := by rw [← hSame, hs]
      exact ⟨_, _, by simp [ofOptions, hs], by simp [ofOptions, ht], sameShape_ofStream s t h⟩
  | all =>
      have ht : t.kind = .all := by rw [← hSame, hs]
      exact ⟨_, _, by simp [ofOptions, hs], by simp [ofOptions, ht], sameShape_ofFilter [] h⟩
  | system =>
      have ht : t.kind = .system := by rw [← hSame, hs]
      have hNames := hSystem (by simp [Stream.isSystem, hs])
      exact ⟨_, _, by simp [ofOptions, hs, hNames.1], by simp [ofOptions, ht, hNames.2],
        sameShape_ofFilter [.firstOfStream] h⟩

end EventQuery

/-! ## Lookups in the catalog -/

theorem LeafQuery.skeleton_select {a b : ReadFilter} (h : a.SameShape b) :
    (LeafQuery.mk a).select.skeleton = (LeafQuery.mk b).select.skeleton := by
  have hAny := map_eq_map_of_imp StreamScope.skeleton_leafFragment h.scopes
  have hNone : scopeFragments a = scopeFragments b := by
    rw [scopeFragments, scopeFragments, h.selectsNothing]
  have hTypes : (typeFragments a.eventTypes).map Fragment.skeleton =
      (typeFragments b.eventTypes).map Fragment.skeleton := by
    have hEmpty := h.eventTypes
    cases hA : a.eventTypes <;> cases hB : b.eventTypes <;>
      simp_all [typeFragments, Fragment.skeleton, SqlValue.blank]
  simp only [select, Select.skeleton, Select.sourceSkeleton, List.map_map, List.map_cons,
    List.map_append, hNone, hTypes]
  exact congrArg (fun anyOf => Select.mk _ _ _ anyOf _ _ _ _) hAny

theorem PartitionKey.skeleton_select {a b : PartitionKey} (hLevel : a.level = b.level)
    (hGap : a.HasGap ↔ b.HasGap) : a.select.skeleton = b.select.skeleton := by
  obtain ⟨_, name, type⟩ := a
  obtain ⟨_, name', type'⟩ := b
  cases name <;> cases type <;> cases name' <;> cases type' <;>
    simp_all [level, HasGap, select, Select.skeleton, Select.sourceSkeleton, Fragment.skeleton,
      SqlValue.blank]

/-! ## Grouped reads -/

namespace HeadProbe

theorem skeleton_select (direction : Direction) (a b : HeadProbe) (h : a.SameShape b) :
    (a.select direction).skeleton = (b.select direction).skeleton := by
  obtain ⟨table, streamId, fromPosition, _⟩ := a
  obtain ⟨table', streamId', fromPosition', _⟩ := b
  obtain ⟨hTable, hId, hPosition⟩ := h
  obtain rfl : table = table' := hTable
  by_cases hPlain : '?' ∈ table.toList
  · simp [select, Select.skeleton, Select.sourceSkeleton, hPlain]
  · cases streamId <;> cases streamId' <;> cases fromPosition <;> cases fromPosition' <;>
      simp_all [select, conditions, Select.skeleton, Select.sourceSkeleton, Fragment.skeleton,
        Fragment.onTable, SqlValue.blank]

theorem isSome_build?_iff (table : String) (id : Option String) (position : Option Int64) :
    (build? table id position).isSome ↔
      '?' ∉ table.toList ∨ id.isSome = false ∧ position.isSome = false := by
  by_cases hBuilt : '?' ∉ table.toList ∨ id = none ∧ position = none <;> simp_all [build?]

theorem skeleton_selectAll (direction : Direction) {a b : HeadProbe} {as bs : List HeadProbe}
    (h : a.SameShape b) (hs : List.Forall₂ SameShape as bs) :
    (selectAll direction a as).skeleton = (selectAll direction b bs).skeleton := by
  have hRest : (as.map (select direction)).map Select.skeleton =
      (bs.map (select direction)).map Select.skeleton := by
    induction hs with
    | nil => rfl
    | cons h _ ih => simp only [List.map_cons, skeleton_select direction _ _ h, ih]
  simp only [selectAll, Select.skeleton, Select.sourceSkeleton, Select.memberSkeletons_eq,
    skeleton_select direction a b h, hRest]

end HeadProbe

/-! ## The main statement -/

/-- **Requests of one shape are sent as statements that are alike.** This holds of reads, of
the lookup of leaves, of each probe of a grouped read and of all of them at once, and of the
lookup of a partition. -/
theorem alike_of_shape :
    (∀ (s t : Stream) (a b : ReadOptions), s.SameKind t → a.SameShape b →
      ∃ p q, EventQuery.ofOptions s a = .ok p ∧ EventQuery.ofOptions t b = .ok q ∧
        Statement.Alike (.readEvents p) (.readEvents q)) ∧
    (∀ a b : ReadFilter, a.SameShape b → Statement.Alike (.findLeaves ⟨a⟩) (.findLeaves ⟨b⟩)) ∧
    (∀ (table : String) (id id' : Option String) (position position' : Option Int64),
      id.isSome = id'.isSome → position.isSome = position'.isSome →
      ((HeadProbe.build? table id position).isSome ↔
        (HeadProbe.build? table id' position').isSome)) ∧
    (∀ (direction : Direction) (a b : HeadProbe), a.SameShape b →
      (a.select direction).Alike (b.select direction) ∧
      ∀ as bs, List.Forall₂ HeadProbe.SameShape as bs →
        Statement.Alike (.readHeads direction a as) (.readHeads direction b bs)) ∧
    ∀ a b : PartitionKey, a.level = b.level → (a.HasGap ↔ b.HasGap) →
      Statement.Alike (.findPartition a) (.findPartition b) := by
  refine ⟨?reads, ?leaves, ?probes, ?heads, ?partitions⟩
  case reads =>
    intro s t a b hKind hShape
    obtain ⟨p, q, hp, hq, hSame⟩ := EventQuery.exists_ofOptions hKind hShape
    have hAlike := Select.Alike.of_skeleton hSame.skeleton_select
    exact ⟨p, q, hp, hq, hAlike.1, fun _ _ => hAlike.2⟩
  case leaves =>
    intro a b hShape
    have hAlike := Select.Alike.of_skeleton (LeafQuery.skeleton_select hShape)
    exact ⟨hAlike.1, fun _ _ => hAlike.2⟩
  case probes =>
    intro table id id' position position' hId hPosition
    rw [HeadProbe.isSome_build?_iff, HeadProbe.isSome_build?_iff, hId, hPosition]
  case heads =>
    intro direction a b hShape
    refine ⟨.of_skeleton (HeadProbe.skeleton_select direction a b hShape), ?_⟩
    intro as bs hShapes
    have hAlike :=
      Select.Alike.of_skeleton (HeadProbe.skeleton_selectAll direction hShape hShapes)
    exact ⟨hAlike.1, fun _ _ => hAlike.2⟩
  case partitions =>
    intro a b hLevel hGap
    have hAlike := Select.Alike.of_skeleton (PartitionKey.skeleton_select hLevel hGap)
    exact ⟨hAlike.1, fun _ _ => hAlike.2⟩

/-- What a caller might ask who knows how statements are written. -/
def askedByStranger : ReadOptions where
  fromPosition := some (-1)
  filter.streams := [
    { context := some "' OR 1=1 --", streamName := some "$1", streamId := some "?" },
    { streamId := some "); DROP TABLE events; --" }]
  filter.eventTypes := ["?", "$2", "SELECT"]

/-- What a caller might ask who does not. -/
def askedByFriend : ReadOptions where
  fromPosition := some 7
  filter.streams := [
    { context := some "Order", streamName := some "OrderCreated", streamId := some "1" },
    { context := some "Order", streamName := some "", streamId := some "1" }]
  filter.eventTypes := ["OrderCreated"]

theorem alike_of_shape_stranger :
    askedByStranger.SameShape askedByFriend ∧
    (∃ p q, EventQuery.ofOptions .streams askedByStranger = .ok p ∧
      EventQuery.ofOptions .streams askedByFriend = .ok q ∧
      Statement.Alike (.readEvents p) (.readEvents q)) ∧
    Statement.Alike (.findLeaves ⟨askedByStranger.filter⟩) (.findLeaves ⟨askedByFriend.filter⟩) ∧
    Statement.Alike (.findPartition (.leaf "$1" "?" "'")) (.findPartition (.leaf "a" "b" "c")) := by
  have hFilter : askedByStranger.filter.SameShape askedByFriend.filter := ⟨by decide, by decide⟩
  have hShape : askedByStranger.SameShape askedByFriend :=
    ⟨by decide, by decide, by decide, by decide, by decide, hFilter⟩
  have hKind : Stream.streams.SameKind .streams := ⟨rfl, fun _ => ⟨rfl, rfl⟩⟩
  obtain ⟨hReads, hLeaves, -, -, hPartitions⟩ := alike_of_shape
  exact ⟨hShape, hReads _ _ _ _ hKind hShape, hLeaves _ _ hFilter,
    hPartitions _ _ rfl (by simp [PartitionKey.HasGap, PartitionKey.leaf])⟩

end EventJournal

import EventJournal.Proofs.Query.Texts
import EventJournal.Proofs.Query.Wanted
import EventJournal.Proofs.Sql.Tables

/-!
# Leaves that can hold what a read wants

A grouped read asks the catalog for leaves with a `LeafQuery`, the read of all streams asks the
events with an `EventQuery`, and each writes the descriptions of streams in its own way: a stream
id narrows the events and not the leaves. The conditions of the query for leaves are read back from
their texts (`LeafQuery.listing?_select`). Both then stand for the same descriptions: a leaf is
selected if and only if some stream in it has rows that are selected (`LeafQuery.picks_leaf_iff`).
So no leaf is left out that can hold such a row, and none is asked that cannot.

## Main results

* `LeafQuery.picks_iff`, `LeafQuery.lists_iff` — the text of a query for leaves means the query.
* `StreamScope.admitsLeaf_of_admits`, `StreamScope.exists_admits_of_admitsLeaf` — a scope selects
  the leaves in which it has a stream.
* `LeafQuery.picks_leaf_iff` — a leaf is selected as a row of one of its streams is.
-/

namespace EventJournal

open Sql

/-! ## Conditions on leaves -/

namespace StreamScope

/-- The leaf can hold events of the scope, as far as its context and stream name tell. -/
def admitsLeaf : StreamScope → Partition → Bool
  | .context c, p => p.context = c
  | .streamName c n, p | .stream c n _, p => p.context = c && p.streamName = some n

/-- Where a scope admits a row, it selects the leaf of the row. -/
theorem admitsLeaf_of_admits {scope : StreamScope} {p : Partition} {row : StoredEvent}
    (context : row.context = p.context) (name : p.streamName = some row.streamName)
    (admits : scope.admits row = true) : scope.admitsLeaf p = true := by
  have named (n : String) (same : row.streamName = n) : p.streamName = some n :=
    name.trans (congrArg some same)
  cases scope with
  | context c => exact decide_eq_true (context.symm.trans (of_decide_eq_true admits))
  | streamName c n =>
      obtain ⟨c', n'⟩ := Bool.and_eq_true_iff.1 admits
      exact Bool.and_eq_true_iff.2 ⟨decide_eq_true (context.symm.trans (of_decide_eq_true c')),
        decide_eq_true (named n (of_decide_eq_true n'))⟩
  | stream c n i =>
      obtain ⟨c', n', -⟩ := StoredEvent.liesIn_iff.1 admits
      exact Bool.and_eq_true_iff.2
        ⟨decide_eq_true (context.symm.trans c'), decide_eq_true (named n n')⟩

/-- Where a scope selects a leaf, it has a stream in the leaf: its own, or any. -/
theorem exists_admits_of_admitsLeaf {scope : StreamScope} {p : Partition} {name : String}
    (named : p.streamName = some name) (admits : scope.admitsLeaf p = true) :
    ∃ streamId, ∀ row : StoredEvent,
      row.liesIn ⟨p.context, name, streamId, .regular⟩ = true → scope.admits row = true := by
  cases scope with
  | context c =>
      refine ⟨"", fun row lies => ?_⟩
      obtain ⟨context, -, -⟩ := StoredEvent.liesIn_iff.1 lies
      exact decide_eq_true (context.trans (of_decide_eq_true admits))
  | streamName c n =>
      obtain ⟨context, streamName⟩ := Bool.and_eq_true_iff.1 admits
      rw [named, decide_eq_true_eq, Option.some_inj] at streamName
      refine ⟨"", fun row lies => ?_⟩
      obtain ⟨context', name', -⟩ := StoredEvent.liesIn_iff.1 lies
      exact Bool.and_eq_true_iff.2 ⟨decide_eq_true (context'.trans (of_decide_eq_true context)),
        decide_eq_true (name'.trans streamName)⟩
  | stream c n i =>
      obtain ⟨context, streamName⟩ := Bool.and_eq_true_iff.1 admits
      rw [named, decide_eq_true_eq, Option.some_inj] at streamName
      refine ⟨i, fun row lies => ?_⟩
      rwa [of_decide_eq_true context, streamName] at lies

end StreamScope

namespace Partition

theorem value?_eq {column : String} (there : column ∈ partitionColumns) :
    value? Partition "partitions" (qualified "partitions" column) =
      some fun p => p.datum? column := by
  have plain : ∀ column ∈ partitionColumns, '.' ∉ column.toList := by decide
  exact value?_qualified (by decide) (plain column there) there

theorem meets_context (c : String) (p : Partition) :
    Datum.meets Datum.equals (p.datum? "context") (bound (.text c)) = decide (p.context = c) := rfl

theorem meets_streamName (n : String) (p : Partition) :
    Datum.meets Datum.equals (p.datum? "stream_name") (bound (.text n)) =
      decide (p.streamName = some n) := by
  show Datum.meets Datum.equals (p.streamName.map .text) (some (.text n)) = _
  cases p.streamName with
  | none => rfl
  | some name => exact decide_eq_decide.2 Option.some_inj.symm

/-- The type of the leaf is one of a list. -/
def hasType (types : List String) (p : Partition) : Bool := p.eventType.any (· ∈ types)

theorem any_eventType (types : List String) (p : Partition) :
    ((p.datum? "event_type").any fun a => (boundList (.texts types)).any a.equals) =
      p.hasType types := by
  show ((p.eventType.map Datum.text).any fun a => (types.map Datum.text).any a.equals) =
    p.eventType.any (· ∈ types)
  cases p.eventType with
  | none => rfl
  | some type =>
      show ((types.map Datum.text).any (Datum.text type).equals) = decide (type ∈ types)
      rw [List.any_map, Bool.eq_iff_iff, List.any_eq_true, decide_eq_true_eq]
      constructor
      · rintro ⟨other, there, same⟩
        rwa [of_decide_eq_true same]
      · exact fun there => ⟨type, there, decide_eq_true rfl⟩

end Partition

open EventJournal.Partition

theorem StreamScope.predicate?_leafFragment (scope : StreamScope) :
    scope.leafFragment.predicate? Partition "partitions" = some scope.admitsLeaf := by
  have compares : operator? "=" = some (Datum.meets Datum.equals) := rfl
  cases scope with
  | context c =>
      have text : words "partitions.context = ?" =
          [qualified "partitions" "context", "=", "?"] := by
        decide
      show predicate? Partition "partitions" (words "partitions.context = ?") [.text c] = _
      rw [text]
      exact predicate?_bound (value?_eq (by decide)) compares
  | streamName c n | stream c n _ =>
      have text : words "partitions.context = ? AND partitions.stream_name = ?" =
          [qualified "partitions" "context", "=", "?", "AND",
            qualified "partitions" "stream_name", "=", "?"] := by
        decide
      show predicate? Partition "partitions"
        (words "partitions.context = ? AND partitions.stream_name = ?") [.text c, .text n] = _
      rw [text]
      refine (predicate?_bound_and (value?_eq (by decide)) compares
        (predicate?_bound (value?_eq (by decide)) compares)).trans ?_
      refine congrArg some (funext fun p => ?_)
      rw [meets_context, meets_streamName]
      rfl

namespace LeafQuery

/-- What a query for leaves asks of an entry of the catalog. -/
structure Wants (q : LeafQuery) (p : Partition) : Prop where
  leaf : p.eventType.isSome = true
  ofStreams : q.filter.streams = [] ∨
    ∃ f ∈ q.filter.streams, ∃ scope, f.scope? = some scope ∧ scope.admitsLeaf p = true
  ofType : q.filter.eventTypes = [] ∨ p.hasType q.filter.eventTypes = true

variable {q : LeafQuery} {p : Partition}

/-- The conditions that a leaf has to meet. -/
def requirements (q : LeafQuery) : List (Partition → Bool) :=
  (fun p => p.eventType.isSome) ::
    ((if q.filter.scopes.isEmpty && !q.filter.streams.isEmpty then [fun _ => false] else []) ++
      if q.filter.eventTypes.isEmpty then [] else [hasType q.filter.eventTypes])

theorem mapM_requirements (q : LeafQuery) :
    q.select.allOf.mapM (Fragment.predicate? Partition "partitions") = some q.requirements := by
  have isLeaf : Fragment.predicate? Partition "partitions"
      { text := "partitions.event_type IS NOT NULL" } = some fun p => p.eventType.isSome := by
    have text : words "partitions.event_type IS NOT NULL" =
        [qualified "partitions" "event_type", "IS", "NOT", "NULL"] := by
      decide
    show predicate? Partition "partitions" (words "partitions.event_type IS NOT NULL") [] = _
    rw [text, predicate?_notNull (value?_eq (by decide))]
    refine congrArg some (funext fun p => ?_)
    exact Option.isSome_map
  have ofType (types : List String) : Fragment.predicate? Partition "partitions"
      { text := "partitions.event_type = ANY(?)", values := [.texts types] } =
        some (hasType types) := by
    have text : words "partitions.event_type = ANY(?)" =
        [qualified "partitions" "event_type", "=", "ANY(?)"] := by
      decide
    show predicate? Partition "partitions" (words "partitions.event_type = ANY(?)")
      [.texts types] = _
    rw [text, predicate?_anyOf (value?_eq (by decide))]
    exact congrArg some (funext (any_eventType types))
  have scopes : (scopeFragments q.filter).mapM (Fragment.predicate? Partition "partitions") =
      some (if q.filter.scopes.isEmpty && !q.filter.streams.isEmpty then [fun _ => false]
        else []) := by
    have never : Fragment.never.predicate? Partition "partitions" = some fun _ => false := by
      have text : words "FALSE" = ["FALSE"] := by decide
      show predicate? Partition "partitions" (words "FALSE") [] = _
      rw [text]
      rfl
    unfold scopeFragments
    split
    · rw [List.mapM_cons, never]
      rfl
    · rfl
  have types : (typeFragments q.filter.eventTypes).mapM
      (Fragment.predicate? Partition "partitions") =
        some (if q.filter.eventTypes.isEmpty then [] else [hasType q.filter.eventTypes]) := by
    cases q.filter.eventTypes with
    | nil => rfl
    | cons type rest =>
        unfold typeFragments
        rw [List.mapM_cons, ofType]
        rfl
  unfold select requirements
  rw [List.mapM_cons, isLeaf, List.mapM_append, scopes, types]
  rfl

/-- The entry meets one of the descriptions, if there are any, and all that is required. -/
def selects (q : LeafQuery) (p : Partition) : Bool :=
  (q.filter.scopes.isEmpty || q.filter.scopes.any (·.admitsLeaf p)) &&
    q.requirements.all (· p)

/-- The entries that are selected are those that the query wants. -/
theorem selects_iff_wants : q.selects p = true ↔ q.Wants p := by
  have scopes : q.filter.scopes.any (·.admitsLeaf p) = true ↔
      ∃ f ∈ q.filter.streams, ∃ scope, f.scope? = some scope ∧ scope.admitsLeaf p = true := by
    simp only [ReadFilter.scopes, List.any_eq_true, List.mem_filterMap]
    constructor
    · rintro ⟨scope, ⟨f, there, means⟩, admits⟩
      exact ⟨f, there, scope, means, admits⟩
    · rintro ⟨f, there, scope, means, admits⟩
      exact ⟨scope, ⟨f, there, means⟩, admits⟩
  have empty : q.filter.streams = [] → q.filter.scopes = [] := by
    intro none
    rw [ReadFilter.scopes, none]
    rfl
  simp only [selects, requirements, List.all_cons, List.all_append, Bool.and_eq_true]
  constructor
  · rintro ⟨any, leaf, some, types⟩
    refine ⟨leaf, ?_, ?_⟩
    · rw [← scopes]
      cases means : q.filter.scopes with
      | nil =>
          rw [means] at some
          cases there : q.filter.streams <;> simp_all
      | cons scope rest =>
          rw [means] at any
          exact .inr any
    · cases there : q.filter.eventTypes <;> simp_all
  · rintro ⟨leaf, ofStreams, ofType⟩
    rw [← scopes] at ofStreams
    refine ⟨?_, leaf, ?_, ?_⟩
    · rcases ofStreams with none | some
      · rw [empty none]
        rfl
      · rw [some, Bool.or_true]
    · rcases ofStreams with none | some
      · rw [none]
        simp
      · cases means : q.filter.scopes <;> simp_all
    · cases there : q.filter.eventTypes <;> simp_all

/-- What the text of a query for leaves asks for. -/
theorem listing?_select (q : LeafQuery) :
    q.select.listing? Partition = some ("partitions", {
      selects := q.selects
      before := fun a b => a.id.toInt ≤ b.id.toInt
      columns := partitionColumns
      limit := none }) := by
  have readAny := Fragment.mapM_predicate? StreamScope.predicate?_leafFragment q.filter.scopes
  have readAll := mapM_requirements q
  have columns : ((partitionColumns.map (qualified "partitions")).flatMap items).mapM
      (field? "partitions" (Record.columns Partition)) = some partitionColumns := by
    show ((partitionColumns.map (qualified "partitions")).flatMap items).mapM
      (field? "partitions" partitionColumns) = _
    decide +kernel
  have order : ordering? Partition "partitions" "partitions.id ASC" =
      some fun a b => decide (a.id.toInt ≤ b.id.toInt) := by
    have text : words "partitions.id ASC" = [qualified "partitions" "id", "ASC"] := by decide
    unfold ordering?
    rw [text]
    simp only [value?_eq (show "id" ∈ partitionColumns by decide), Option.map_some]
    rfl
  unfold Select.listing?
  simp only [select] at readAll ⊢
  rw [readAny, readAll, order, columns]
  simp only [Option.bind_eq_bind, Option.bind_some, Select.count?, List.isEmpty_map, List.any_map,
    Function.comp_def]
  rfl

/-- The entries that the text of the query is about are those that it wants. -/
theorem picks_iff : q.select.Picks p ↔ q.Wants p := by
  rw [Select.picks_iff (listing?_select q), selects_iff_wants]

/-- What the text of the query is answered with: the entries that it selects, by their ids. -/
theorem lists_iff {tables : String → List Partition} {answer : List Partition} :
    q.select.Lists tables answer ↔ answer.Perm ((tables "partitions").filter q.selects) ∧
      answer.Pairwise fun a b => a.id.toInt ≤ b.id.toInt := by
  rw [Select.lists_iff (listing?_select q), Listing.answers_iff fun _ there => there]
  simp only [decide_eq_true_eq]
  constructor
  · rintro ⟨all, those, sorted, rfl⟩
    exact ⟨those, sorted⟩
  · rintro ⟨those, sorted⟩
    exact ⟨answer, those, sorted, rfl⟩

end LeafQuery

/-! ## Leaves and events -/

/-- The row is one of those that the selection from the events is about, whatever its limit and
whatever is put beside the row. -/
def Select.Selects (s : Select) (row : StoredEvent) : Prop :=
  ∃ m, s.meaning? = some m ∧ ∀ original, m.selects ⟨row, original⟩ = true

theorem EventQuery.selects_select_iff {q : EventQuery} (counts : 0 ≤ q.limit)
    {row : StoredEvent} : q.select.Selects row ↔ q.selects row = true := by
  obtain ⟨m, reads, -, -, selects, -⟩ := q.exists_meaning counts
  constructor
  · rintro ⟨m', reads', all⟩
    cases reads.symm.trans reads'
    exact (selects ⟨row, none⟩).symm.trans (all none)
  · exact fun selected => ⟨m, reads, fun original => (selects ⟨row, original⟩).trans selected⟩

/-- The read of all streams selects what it wants. -/
theorem EventQuery.selects_all_iff {options : ReadOptions} {query : EventQuery}
    (asked : ofOptions .all options = .ok query) {row : StoredEvent} :
    query.select.Selects row ↔ options.Wants .all row := by
  have limit : query.limit = options.limit := by
    cases asked
    unfold ofFilter
    rfl
  rw [selects_select_iff (limit ▸ options.limit_nonneg), ofOptions_selects_iff asked]

/-- There can be events of any type in any stream. -/
theorem StoredEvent.exists_liesIn (stream : Stream) (type : String) :
    ∃ row : StoredEvent, row.liesIn stream = true ∧ row.type = type := by
  refine ⟨{
    id := ⟨0⟩, type, globalPosition := 0
    context := stream.context, streamName := stream.streamName, streamId := stream.streamId
    streamRevision := 0, data := .null, metadata := .null
    linkId := none, linkPartitionId := none, linkGlobalPosition := none
    createdAt := ⟨⟨2024, 1, 1⟩, 0, 0, 0, 0⟩ }, ?_, rfl⟩
  exact StoredEvent.liesIn_iff.2 ⟨rfl, rfl, rfl⟩

namespace LeafQuery

variable {filter : ReadFilter}

/-- A leaf is wanted for each row of it that the filter keeps. -/
theorem Wants.of_keeps {row : StoredEvent} (context : row.context = p.context)
    (name : p.streamName = some row.streamName) (type : p.eventType = some row.type)
    (covers : filter.Covers row) (lists : filter.Lists row) : (LeafQuery.mk filter).Wants p where
  leaf := by
    rw [type]
    rfl
  ofStreams := covers.imp_right fun ⟨f, there, describes⟩ => by
    obtain ⟨scope, means, admits⟩ := StreamFilter.describes_iff.1 describes
    exact ⟨f, there, scope, means, scope.admitsLeaf_of_admits context name admits⟩
  ofType := lists.imp_right fun listed => by
    rw [Partition.hasType, type]
    exact decide_eq_true listed

/-- In a leaf that is wanted there is a stream whose rows the filter keeps. -/
theorem Wants.exists_keeps {name type : String} (wants : (LeafQuery.mk filter).Wants p)
    (named : p.streamName = some name) (typed : p.eventType = some type) :
    ∃ streamId, ∀ row : StoredEvent, row.liesIn ⟨p.context, name, streamId, .regular⟩ = true →
      row.type = type → filter.Covers row ∧ filter.Lists row := by
  have lists (row : StoredEvent) (same : row.type = type) : filter.Lists row := by
    refine wants.ofType.imp_right fun listed => ?_
    rw [Partition.hasType, typed, ← same] at listed
    exact of_decide_eq_true listed
  rcases wants.ofStreams with any | ⟨f, there, scope, means, admits⟩
  · exact ⟨"", fun row _ same => ⟨.inl any, lists row same⟩⟩
  · obtain ⟨streamId, all⟩ := scope.exists_admits_of_admitsLeaf named admits
    refine ⟨streamId, fun row lies same => ⟨.inr ⟨f, there, ?_⟩, lists row same⟩⟩
    exact StreamFilter.describes_iff.2 ⟨scope, means, all row lies⟩

/-- A leaf is selected if and only if it has a stream whose rows the read of all streams selects,
and if and only if there can be such a row in it at all. So the leaves that a catalog answers with
are those of it that can hold such a row. -/
theorem picks_leaf_iff (options : ReadOptions) (id : Int64) (context name type table : String) :
    ∃ query, EventQuery.ofOptions .all { options with fromPosition := none } = .ok query ∧
      ((LeafQuery.mk options.filter).select.Picks
          (⟨id, context, some name, some type, table⟩ : Partition) ↔
        ∃ streamId, ∀ row : StoredEvent, row.liesIn ⟨context, name, streamId, .regular⟩ = true →
          row.type = type → query.select.Selects row) ∧
      ((LeafQuery.mk options.filter).select.Picks
          (⟨id, context, some name, some type, table⟩ : Partition) ↔
        ∃ row : StoredEvent, row.context = context ∧ row.streamName = name ∧ row.type = type ∧
          query.select.Selects row) ∧
      ∀ tables answer, (LeafQuery.mk options.filter).select.Lists tables answer →
        ((⟨id, context, some name, some type, table⟩ : Partition) ∈ answer ↔
          ⟨id, context, some name, some type, table⟩ ∈ tables "partitions" ∧
            ∃ row : StoredEvent, row.context = context ∧ row.streamName = name ∧ row.type = type ∧
              query.select.Selects row) := by
  obtain ⟨query, asked⟩ := @EventQuery.ofOptions_of_known .all nofun
    { options with fromPosition := none }
  have selects {row : StoredEvent} : query.select.Selects row ↔
      options.filter.Covers row ∧ options.filter.Lists row := by
    rw [EventQuery.selects_all_iff asked]
    constructor
    · exact fun wants => ⟨wants.ofStreams rfl, wants.ofType⟩
    · rintro ⟨covers, lists⟩
      exact ⟨lists, nofun, nofun, fun _ => covers, fun _ => rfl, nofun⟩
  have stream : (LeafQuery.mk options.filter).select.Picks
      (⟨id, context, some name, some type, table⟩ : Partition) →
        ∃ streamId, ∀ row : StoredEvent, row.liesIn ⟨context, name, streamId, .regular⟩ = true →
          row.type = type → query.select.Selects row := by
    intro picked
    obtain ⟨streamId, all⟩ := (picks_iff.1 picked).exists_keeps rfl rfl
    exact ⟨streamId, fun row lies same => selects.2 (all row lies same)⟩
  have some_of_all : (∃ streamId, ∀ row : StoredEvent,
      row.liesIn ⟨context, name, streamId, .regular⟩ = true → row.type = type →
        query.select.Selects row) →
      ∃ row : StoredEvent, row.context = context ∧ row.streamName = name ∧ row.type = type ∧
        query.select.Selects row := by
    rintro ⟨streamId, all⟩
    obtain ⟨row, lies, same⟩ :=
      StoredEvent.exists_liesIn ⟨context, name, streamId, .regular⟩ type
    obtain ⟨context, name, -⟩ := StoredEvent.liesIn_iff.1 lies
    exact ⟨row, context, name, same, all row lies same⟩
  have picked : (∃ row : StoredEvent, row.context = context ∧ row.streamName = name ∧
      row.type = type ∧ query.select.Selects row) →
      (LeafQuery.mk options.filter).select.Picks
        (⟨id, context, some name, some type, table⟩ : Partition) := by
    rintro ⟨row, rfl, rfl, rfl, selected⟩
    obtain ⟨covers, lists⟩ := selects.1 selected
    exact picks_iff.2 (.of_keeps rfl rfl rfl covers lists)
  have rows := Iff.intro (some_of_all ∘ stream) picked
  refine ⟨query, asked, ⟨stream, picked ∘ some_of_all⟩, rows, fun tables answer lists => ?_⟩
  rw [(lists_iff.1 lists).1.mem_iff, List.mem_filter, selects_iff_wants, ← picks_iff, rows]

end LeafQuery

end EventJournal

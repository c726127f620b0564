import EventJournal.Proofs.Query.Meaning
import EventJournal.Proofs.Sql.Tables
import EventJournal.Query.Tables

/-!
# What the probes of a grouped read ask for

A probe asks one table for its first row, or for the first row of a stream, from a position on.
The name of the table stands in the text of a probe, so the text can be read where the name is
one. What comes of it is a first one of the rows that the probe is about, if there are any, and of a
union of probes a first row of each of them, in the order of the read. Of several rows at the first
position any may come, so the rows of an answer stand for the first rows (`StoredEvent.StandFor`),
and are those where positions tell rows apart (`StoredEvent.StandFor.mem_iff`).

## Main results

* `HeadProbe.lists_iff` — the text of a probe means the probe.
* `HeadProbe.standFor_of_unites` — the rows that a union of probes is answered with.
-/

namespace EventJournal

open Sql

namespace HeadProbe

variable {direction : Direction} {probe : HeadProbe}

/-- The conditions on the rows that a probe is about. -/
def requirements (direction : Direction) (probe : HeadProbe) : List (StoredEvent → Bool) :=
  probe.streamId.toList.map (fun id (row : StoredEvent) => decide (row.streamId = id)) ++
    probe.fromPosition.toList.map fun position (row : StoredEvent) =>
      direction.reaches row.globalPosition.toInt position.toInt

/-- The probe is about the row, if it is of its table. -/
def selects (direction : Direction) (probe : HeadProbe) (row : StoredEvent) : Bool :=
  (probe.requirements direction).all (· row)

theorem selects_iff {row : StoredEvent} :
    probe.selects direction row = true ↔ (∀ id ∈ probe.streamId, row.streamId = id) ∧
      ∀ position ∈ probe.fromPosition,
        direction.reaches row.globalPosition.toInt position.toInt = true := by
  unfold selects requirements
  cases probe.streamId <;> cases probe.fromPosition <;> simp

theorem operator?_boundOperator (direction : Direction) :
    operator? direction.boundOperator = some fun a b =>
      match direction with
      | .forward => Datum.meets Datum.atMost b a
      | .backward => Datum.meets Datum.atMost a b := by
  cases direction
  · rw [Direction.boundOperator, operator?]
  · rw [Direction.boundOperator, operator?]

section

variable {table : String} (name : IsName table)
include name

theorem value?_column {column : String} (there : column ∈ eventColumns) :
    value? StoredEvent table (qualified table column) = some fun row => row.datum? column := by
  have plain : ∀ column ∈ eventColumns, '.' ∉ column.toList := by decide
  exact value?_qualified name (plain column there) there

theorem predicate?_streamId (plain : '?' ∉ table.toList) (id : String) :
    (Fragment.onTable table ".stream_id = ?" [.text id] plain rfl).predicate? StoredEvent table =
      some fun row => decide (row.streamId = id) := by
  have text : words (table ++ ".stream_id = ?") = [qualified table "stream_id", "=", "?"] :=
    words_qualified name (by decide) (by decide)
  show predicate? StoredEvent table (words (table ++ ".stream_id = ?")) [.text id] = _
  have column := value?_column name (show "stream_id" ∈ eventColumns by decide)
  have compares : operator? "=" = some (Datum.meets Datum.equals) := rfl
  rw [text, predicate?_bound column compares]
  rfl

theorem predicate?_position (plain : '?' ∉ table.toList) (position : Int64)
    (fits : (".global_position " ++ direction.boundOperator ++ " ?").toList.count '?' = 1) :
    (Fragment.onTable table (".global_position " ++ direction.boundOperator ++ " ?")
      [.bigint position] plain fits).predicate? StoredEvent table =
        some fun row => direction.reaches row.globalPosition.toInt position.toInt := by
  have text : words (table ++ (".global_position " ++ direction.boundOperator ++ " ?")) =
      [qualified table "global_position", direction.boundOperator, "?"] := by
    cases direction
    · exact words_qualified name (by decide) (by decide)
    · exact words_qualified name (by decide) (by decide)
  show predicate? StoredEvent table
    (words (table ++ (".global_position " ++ direction.boundOperator ++ " ?")))
      [.bigint position] = _
  have column := value?_column name (show "global_position" ∈ eventColumns by decide)
  rw [text, predicate?_bound column (operator?_boundOperator direction)]
  cases direction <;> rfl

theorem mapM_conditions (plain : '?' ∉ table.toList) :
    (conditions table plain direction probe.streamId probe.fromPosition).mapM
        (Fragment.predicate? StoredEvent table) = some (probe.requirements direction) := by
  unfold conditions
  rw [List.mapM_append, Fragment.mapM_predicate? (predicate?_streamId name plain),
    Fragment.mapM_predicate? fun position => predicate?_position name plain position _]
  rfl

theorem ordering?_position :
    ordering? StoredEvent table (table ++ ".global_position " ++ direction.orderKeyword) =
      some fun a b => direction.reaches b.globalPosition.toInt a.globalPosition.toInt := by
  have text : words (table ++ ".global_position " ++ direction.orderKeyword) =
      [qualified table "global_position", direction.orderKeyword] := by
    rw [String.append_assoc]
    cases direction
    · exact words_qualified name (by decide) (by decide)
    · exact words_qualified name (by decide) (by decide)
  have column := value?_column name (show "global_position" ∈ eventColumns by decide)
  unfold ordering?
  rw [text]
  cases direction
  · simp only [Direction.orderKeyword, column]
    rfl
  · simp only [Direction.orderKeyword, column]
    rfl

theorem items_qualifiedColumns :
    items (qualifiedColumns table) = eventColumns.map (qualified table) := by
  have plain : ∀ column ∈ eventColumns, ',' ∉ column.toList := by decide
  have spaces : ∀ column ∈ eventColumns, ' ' ∉ column.toList := by decide
  unfold qualifiedColumns
  refine items_intercalate (List.cons_ne_nil _ _) ?_
  refine List.forall_mem_map.2 fun column there => ⟨fun space => ?_, ?_⟩
  · exact not_mem_qualified (name.not_mem (by decide)) (by decide) (spaces column there)
      (List.mem_of_mem_head? space)
  · exact not_mem_qualified (name.not_mem (by decide)) (by decide) (plain column there)

end

end HeadProbe

namespace StoredEvent

/-- The row is the first of some rows, by position. -/
def IsFirst (row : StoredEvent) (direction : Direction) (rows : List StoredEvent) : Prop :=
  row ∈ rows ∧ ∀ other ∈ rows,
    direction.reaches other.globalPosition.toInt row.globalPosition.toInt = true

/-- The rows stand for all rows with a property: they have it, and whatever has it has one of them
at its position. -/
structure StandFor (rows : List StoredEvent) (P : StoredEvent → Prop) : Prop where
  only : ∀ row ∈ rows, P row
  every : ∀ row, P row → ∃ other ∈ rows, other.globalPosition = row.globalPosition

section

variable {row : StoredEvent} {rows others : List StoredEvent} {P Q : StoredEvent → Prop}

theorem StandFor.mem_iff (stand : StandFor rows P)
    (apart : ∀ a b, P a → P b → a.globalPosition = b.globalPosition → a = b) :
    row ∈ rows ↔ P row := by
  refine ⟨stand.only row, fun has => ?_⟩
  obtain ⟨other, there, same⟩ := stand.every row has
  exact apart other row (stand.only other there) has same ▸ there

theorem StandFor.trans (stand : StandFor rows P) (stand' : StandFor others (· ∈ rows)) :
    StandFor others P where
  only row there := stand.only row (stand'.only row there)
  every row has := by
    obtain ⟨between, there, same⟩ := stand.every row has
    obtain ⟨other, there', same'⟩ := stand'.every between there
    exact ⟨other, there', same'.trans same⟩

theorem StandFor.append (stand : StandFor rows P) (stand' : StandFor others Q) :
    StandFor (rows ++ others) fun row => P row ∨ Q row where
  only row there := (List.mem_append.1 there).imp (stand.only row) (stand'.only row)
  every row has := by
    rcases has with has | has
    · obtain ⟨other, there, same⟩ := stand.every row has
      exact ⟨other, List.mem_append_left _ there, same⟩
    · obtain ⟨other, there, same⟩ := stand'.every row has
      exact ⟨other, List.mem_append_right _ there, same⟩

theorem StandFor.perm (stand : StandFor rows P) (those : others.Perm rows) : StandFor others P where
  only row there := stand.only row (those.mem_iff.1 there)
  every row has := by
    obtain ⟨other, there, same⟩ := stand.every row has
    exact ⟨other, those.mem_iff.2 there, same⟩

end

variable {row : StoredEvent} {direction : Direction} {rows all rest : List StoredEvent}

theorem isFirst_cons (sorted : (row :: rest).Pairwise fun a b =>
    direction.reaches b.globalPosition.toInt a.globalPosition.toInt = true) :
    row.IsFirst direction (row :: rest) := by
  refine ⟨.head _, fun other there => ?_⟩
  rcases List.mem_cons.1 there with rfl | later
  · exact (Bool.or_self _).symm.trans (direction.reaches_total _ _)
  · exact List.rel_of_pairwise_cons sorted later

/-- First rows are at one position. -/
theorem IsFirst.position_eq {other : StoredEvent} (first : row.IsFirst direction rows)
    (first' : other.IsFirst direction rows) : row.globalPosition = other.globalPosition := by
  by_contra ne
  have place : row.globalPosition.toInt ≠ other.globalPosition.toInt :=
    fun same => ne (Int64.toInt_inj.1 same)
  exact (Direction.before_of_reaches (first.2 other first'.1) place).asymm
    (Direction.before_of_reaches (first'.2 row first.1) place.symm)

/-- What comes first in the order of some rows stands for the first of them. -/
theorem standFor_take_one (those : all.Perm rows) (sorted : all.Pairwise fun a b =>
    direction.reaches b.globalPosition.toInt a.globalPosition.toInt = true) :
    StandFor (all.take 1) (·.IsFirst direction rows) := by
  cases all with
  | nil =>
      rw [List.nil_perm.1 those]
      exact ⟨fun _ none => absurd none List.not_mem_nil,
        fun _ first => absurd first.1 List.not_mem_nil⟩
  | cons first rest =>
      obtain ⟨there, least⟩ := isFirst_cons sorted
      simp only [those.mem_iff] at there least
      have isFirst : first.IsFirst direction rows := ⟨there, least⟩
      rw [List.take_succ_cons, List.take_zero]
      refine ⟨fun row member => ?_, fun row isFirst' => ⟨first, .head _, ?_⟩⟩
      · exact List.mem_singleton.1 member ▸ isFirst
      · exact isFirst.position_eq isFirst'

/-- Of some rows one is the first. -/
theorem exists_isFirst (direction : Direction) (there : row ∈ rows) :
    ∃ first : StoredEvent, first.IsFirst direction rows := by
  have sorted := EventQuery.pairwise_sort_reaches .position direction rows
  cases same : EventQuery.sort .position direction rows with
  | nil =>
      rw [← EventQuery.mem_sort, same] at there
      exact absurd there List.not_mem_nil
  | cons first rest =>
      rw [same] at sorted
      obtain ⟨stored, least⟩ := isFirst_cons sorted
      simp only [← same, EventQuery.mem_sort] at stored least
      exact ⟨first, stored, least⟩

end StoredEvent

namespace HeadProbe

variable {direction : Direction} {probe first : HeadProbe} {rest : List HeadProbe}
  {tables : String → List StoredEvent} {part answer : List StoredEvent} {row : StoredEvent}

/-- What the text of a probe asks for. -/
theorem listing?_select (name : IsName probe.table) :
    (probe.select direction).listing? StoredEvent = some (probe.table, {
      selects := probe.selects direction
      before := fun a b => direction.reaches b.globalPosition.toInt a.globalPosition.toInt
      columns := eventColumns
      limit := some 1 }) := by
  have plain : '?' ∉ probe.table.toList := name.not_mem (by decide)
  have readAll := @mapM_conditions direction probe probe.table name plain
  have columns : ([qualifiedColumns probe.table].flatMap items).mapM
      (field? probe.table (Record.columns StoredEvent)) = some eventColumns := by
    have plain : ∀ column ∈ eventColumns, '.' ∉ column.toList ∧ column ∈ eventColumns := by decide
    rw [List.flatMap_singleton, items_qualifiedColumns name]
    exact mapM_field?_qualified name plain
  unfold Select.listing?
  simp only [select, dif_pos plain]
  rw [readAll, ordering?_position name, columns]
  rfl

/-- What the text of a probe is answered with: the first of the rows that it is about. -/
theorem lists_iff (name : IsName probe.table) :
    (probe.select direction).Lists tables part ↔
      ∃ all : List StoredEvent, all.Perm ((tables probe.table).filter (probe.selects direction)) ∧
        all.Pairwise (fun a b =>
          direction.reaches b.globalPosition.toInt a.globalPosition.toInt = true) ∧
        part = all.take 1 := by
  have whole : ∀ column ∈ StoredEvent.columns, column ∈ eventColumns := by decide
  rw [Select.lists_iff (listing?_select name), Listing.answers_iff whole]
  rfl

theorem standFor_of_lists (name : IsName probe.table)
    (lists : (probe.select direction).Lists tables part) :
    StoredEvent.StandFor part
      (·.IsFirst direction ((tables probe.table).filter (probe.selects direction))) := by
  obtain ⟨all, those, sorted, rfl⟩ := (lists_iff name).1 lists
  exact StoredEvent.standFor_take_one those sorted

theorem ordering?_combined :
    ordering? StoredEvent "combined" ("global_position " ++ direction.orderKeyword) =
      some fun a b => direction.reaches b.globalPosition.toInt a.globalPosition.toInt := by
  have text : words ("global_position " ++ direction.orderKeyword) =
      ["global_position", direction.orderKeyword] := by
    cases direction <;> decide
  have column : value? StoredEvent "combined" "global_position" =
      some fun row => row.datum? "global_position" := value?_plain (by decide) (by decide)
  unfold ordering?
  rw [text]
  cases direction
  · simp only [Direction.orderKeyword, column]
    rfl
  · simp only [Direction.orderKeyword, column]
    rfl

/-- The answers to some probes stand for the first rows of each. -/
theorem standFor_flatten {probes : List HeadProbe} {parts : List (List StoredEvent)}
    (names : ∀ probe ∈ probes, IsName probe.table)
    (lists : List.Forall₂ (fun probe part => (select direction probe).Lists tables part)
      probes parts) :
    StoredEvent.StandFor parts.flatten fun row => ∃ probe ∈ probes,
      row.IsFirst direction ((tables probe.table).filter (probe.selects direction)) := by
  induction lists with
  | nil => exact ⟨nofun, nofun⟩
  | cons part _ ih =>
      obtain ⟨name, names⟩ := List.forall_mem_cons.1 names
      simp only [List.flatten_cons, List.exists_mem_cons_iff]
      exact (standFor_of_lists name part).append (ih names)

/-- The rows that a union of probes is answered with: the first rows of each, by position. -/
theorem standFor_of_unites (names : ∀ probe ∈ first :: rest, IsName probe.table)
    (unites : (selectAll direction first rest).Unites tables answer) :
    (StoredEvent.StandFor answer fun row => ∃ probe ∈ first :: rest,
      row.IsFirst direction ((tables probe.table).filter (probe.selects direction))) ∧
      answer.Pairwise fun a b =>
        direction.reaches b.globalPosition.toInt a.globalPosition.toInt = true := by
  obtain ⟨first', rest', order, before, same, reads, parts, lists, those, sorted⟩ := unites
  injection same with _ source _ _ _ orders
  injection source with firsts rests
  injection orders with order
  subst firsts rests order
  rw [ordering?_combined, Option.some_inj] at reads
  subst reads
  rw [← List.map_cons, List.forall₂_map_left_iff] at lists
  exact ⟨(standFor_flatten names lists).perm those, sorted⟩

end HeadProbe

end EventJournal

import Mathlib.Data.List.Forall2
import EventJournal.Query.Events

/-!
# What a selection from the table of events means

The pieces of a selection are read word by word, as the database reads them: conditions are
comparisons joined by `AND`, each of a column with a bound value, a number or another column;
a join puts beside a row the rows that meet its condition, or none; an order is a column with
a direction; and what is selected is a list of columns, or of columns chosen by whether a row
was found beside. A comparison with a null is not true.

`Select.Answers` says what a selection may be answered with. Rows that are equal in the order
may come in any order, so there can be more than one answer.

## Main results

* `StoredEvent.eq_of_datum?` — a row is known by its columns.
* `Sql.words_intercalate`, `Sql.items_intercalate` — the words and the items of a text that is
  put together from them.
-/

namespace EventJournal

/-! ## Values -/

/-- A value of the database. Where there may be a null, it is optional. -/
inductive Datum where
  | text (value : String)
  | int (value : Int)
  | uuid (value : Uuid)
  | json (value : Json)
  | time (value : Instant)

namespace Datum

def equals : Datum → Datum → Bool
  | .text a, .text b => a = b
  | .int a, .int b => a = b
  | .uuid a, .uuid b => a = b
  | _, _ => false

def atMost : Datum → Datum → Bool
  | .int a, .int b => a ≤ b
  | _, _ => false

/-- A comparison with a null is not true. -/
def meets (test : Datum → Datum → Bool) : Option Datum → Option Datum → Bool
  | some a, some b => test a b
  | _, _ => false

end Datum

namespace StoredEvent

/-- The columns that a row is made of. -/
def columns : List String := [
  "id", "context", "stream_name", "stream_id", "global_position", "stream_revision", "type",
  "data", "metadata", "link_id", "link_partition_id", "link_global_position", "created_at"]

/-- The value in a column. -/
def datum? (row : StoredEvent) : (column : String) → Option Datum
  | "id" => some (.uuid row.id)
  | "context" => some (.text row.context)
  | "stream_name" => some (.text row.streamName)
  | "stream_id" => some (.text row.streamId)
  | "global_position" => some (.int row.globalPosition.toInt)
  | "stream_revision" => some (.int row.streamRevision.toInt)
  | "type" => some (.text row.type)
  | "data" => some (.json row.data)
  | "metadata" => some (.json row.metadata)
  | "link_id" => row.linkId.map .uuid
  | "link_partition_id" => row.linkPartitionId.map fun id => .int id.toInt
  | "link_global_position" => row.linkGlobalPosition.map fun position => .int position.toInt
  | "created_at" => some (.time row.createdAt)
  | _ => none

/-- A row is known by its columns. -/
theorem eq_of_datum? {row other : StoredEvent}
    (same : ∀ column ∈ columns, row.datum? column = other.datum? column) : row = other := by
  have ids : Function.Injective Datum.uuid := fun _ _ => Datum.uuid.inj
  have numbers : Function.Injective fun n : Int64 => Datum.int n.toInt :=
    fun _ _ equal => Int64.toInt_inj.1 (Datum.int.inj equal)
  cases row
  cases other
  simp only [columns, List.forall_mem_cons, datum?, Option.some.injEq, Datum.uuid.injEq,
    Datum.text.injEq, Datum.int.injEq, Datum.json.injEq, Datum.time.injEq, Int64.toInt_inj,
    Int32.toInt_inj, (Option.map_injective ids).eq_iff, (Option.map_injective numbers).eq_iff]
    at same
  obtain ⟨rfl, rfl, rfl, rfl, rfl, rfl, rfl, rfl, rfl, rfl, rfl, rfl, rfl, -⟩ := same
  rfl

end StoredEvent

/-- A row, with another one beside it where a join has found one. -/
structure JoinedRow where
  row : StoredEvent
  original : Option StoredEvent := none

/-! ## Words -/

namespace Sql

def words (text : String) : List String := (text.toList.splitOn ' ').map String.ofList

/-- The items of a list in a text, without the spaces before them. -/
def items (text : String) : List String :=
  (text.toList.splitOn ',').map fun item => String.ofList (item.dropWhile (· = ' '))

theorem map_ofList_toList (texts : List String) :
    (texts.map String.toList).map String.ofList = texts := by
  rw [List.map_map]
  exact (List.map_congr_left fun text _ => String.ofList_toList).trans (List.map_id texts)

/-- The words that a text is put together from. -/
theorem words_intercalate {list : List String} (ne : list ≠ [])
    (whole : ∀ word ∈ list, ' ' ∉ word.toList) : words (" ".intercalate list) = list := by
  have split : (" ".intercalate list).toList.splitOn ' ' = list.map String.toList := by
    rw [String.toList_intercalate]
    exact List.splitOn_intercalate ' ' (List.forall_mem_map.2 whole) (List.map_eq_nil_iff.not.2 ne)
  rw [words, split, map_ofList_toList]

/-- The text does not begin with a space, and there is no comma in it. -/
def IsItem (text : String) : Prop := text.toList.head? ≠ some ' ' ∧ ',' ∉ text.toList

theorem IsItem.dropWhile_space {text : String} (h : IsItem text) :
    text.toList.dropWhile (· = ' ') = text.toList := by
  obtain ⟨first, -⟩ := h
  cases same : text.toList with
  | nil => rfl
  | cons c rest =>
      rw [same] at first
      exact List.dropWhile_cons_of_neg fun space => first (congrArg some (of_decide_eq_true space))

theorem items_space (text : String) : items (" " ++ text) = items text := by
  have split : (" " ++ text).toList.splitOn ',' =
      (text.toList.splitOn ',').modifyHead (List.cons ' ') := by
    rw [String.toList_append]
    exact List.splitOnP_cons_eq_if_modifyHead ' ' text.toList
  unfold items
  rw [split]
  cases text.toList.splitOn ',' with
  | nil => rfl
  | cons first rest => rfl

theorem items_single {item : String} (h : IsItem item) : items item = [item] := by
  rw [items, List.splitOn_eq_singleton h.2, List.map_singleton, h.dropWhile_space,
    String.ofList_toList]

theorem items_append {item : String} (h : IsItem item) (rest : String) :
    items (item ++ ", " ++ rest) = item :: items rest := by
  have split : (item ++ ", " ++ rest).toList.splitOn ',' =
      item.toList :: (" " ++ rest).toList.splitOn ',' := by
    have comma : (item ++ ", " ++ rest).toList = item.toList ++ ',' :: (" " ++ rest).toList := by
      simp only [String.toList_append, List.append_assoc]
      rfl
    rw [comma]
    refine (List.splitOnP_append_cons _ _ (p := (· == ',')) (beq_self_eq_true ',')).trans ?_
    exact congrArg (· ++ _) (List.splitOn_eq_singleton h.2)
  rw [← items_space rest, items, split, List.map_cons, h.dropWhile_space, String.ofList_toList]
  rfl

theorem not_mem_intercalate {c : Char} {separator : String} (hs : c ∉ separator.toList)
    {list : List String} (h : ∀ text ∈ list, c ∉ text.toList) :
    c ∉ (separator.intercalate list).toList := by
  induction list with
  | nil => exact List.not_mem_nil
  | cons text rest ih =>
      obtain ⟨first, others⟩ := List.forall_mem_cons.1 h
      cases rest with
      | nil => exact first
      | cons next rest =>
          rw [String.intercalate_cons_cons, String.toList_append, String.toList_append,
            List.mem_append, List.mem_append, not_or, not_or]
          exact ⟨⟨first, hs⟩, ih others⟩

theorem not_mem_qualified {c : Char} {table column : String} (ht : c ∉ table.toList)
    (dot : c ≠ '.') (hc : c ∉ column.toList) : c ∉ (qualified table column).toList := by
  rw [qualified, String.toList_append, String.toList_append, List.mem_append, List.mem_append]
  rintro ((there | there) | there)
  · exact ht there
  · exact dot (List.mem_singleton.1 there)
  · exact hc there

/-- The items that a text is put together from. -/
theorem items_intercalate {list : List String} (ne : list ≠ [])
    (whole : ∀ item ∈ list, IsItem item) :
    items (", ".intercalate list) = list := by
  induction list with
  | nil => exact absurd rfl ne
  | cons item rest ih =>
      obtain ⟨first, others⟩ := List.forall_mem_cons.1 whole
      cases rest with
      | nil => exact items_single first
      | cons next rest =>
          rw [String.intercalate_cons_cons, items_append first, ih (List.cons_ne_nil _ _) others]

/-! ## Terms and conditions -/

/-- What has a value for each joined row. -/
abbrev Term : Type := JoinedRow → Option Datum

/-- A column, by the name of its table and its own. -/
def column? (word : String) : Option (String × Term) :=
  match (word.toList.splitOn '.').map String.ofList with
  | ["events", column] =>
      if column ∈ eventColumns then some (column, fun joined => joined.row.datum? column) else none
  | ["original", column] =>
      if column ∈ eventColumns then
        some (column, fun joined => joined.original.bind (·.datum? column))
      else none
  | _ => none

theorem column?_events {column : String} (h : column ∈ eventColumns) :
    column? (qualified "events" column) =
      some (column, fun joined => joined.row.datum? column) := by
  have parts : ∀ column ∈ eventColumns,
      ((qualified "events" column).toList.splitOn '.').map String.ofList = ["events", column] := by
    decide
  unfold column?
  rw [parts column h]
  exact if_pos h

theorem column?_original {column : String} (h : column ∈ eventColumns) :
    column? (qualified "original" column) =
      some (column, fun joined => joined.original.bind (·.datum? column)) := by
  have parts : ∀ column ∈ eventColumns,
      ((qualified "original" column).toList.splitOn '.').map String.ofList =
        ["original", column] := by
    decide
  unfold column?
  rw [parts column h]
  exact if_pos h

def term? (word : String) : Option Term := (column? word).map (·.2)

theorem term?_events {column : String} (h : column ∈ eventColumns) :
    term? (qualified "events" column) = some fun joined => joined.row.datum? column := by
  rw [term?, column?_events h, Option.map_some]

theorem term?_original {column : String} (h : column ∈ eventColumns) :
    term? (qualified "original" column) =
      some fun joined => joined.original.bind (·.datum? column) := by
  rw [term?, column?_original h, Option.map_some]

/-- What a column is compared with. -/
inductive Operand where
  | term (term : Term)
  /-- One of some values. -/
  | anyOf (values : List Datum)

/-- A bound value in the place of a question mark. -/
def bound : SqlValue → Option Datum
  | .text value => value.map .text
  | .int value => some (.int value.toInt)
  | .bigint value => value.map fun n => .int n.toInt
  | .uuid value => value.map .uuid
  | .json value => some (.json value)
  | .texts _ | .uuids _ | .bigints _ => none

/-- The values of a list that is bound. -/
def boundList : SqlValue → List Datum
  | .texts values => values.map .text
  | .uuids values => values.map .uuid
  | .bigints values => values.map fun n => .int n.toInt
  | _ => []

/-- An operand, with the values that are left after it. -/
def operand? : String → List SqlValue → Option (Operand × List SqlValue)
  | "?", value :: values => some (.term fun _ => bound value, values)
  | "ANY(?)", value :: values => some (.anyOf (boundList value), values)
  | "0", values => some (.term fun _ => some (.int 0), values)
  | word, values => (term? word).map fun term => (.term term, values)

def operator? : String → Option (Option Datum → Option Datum → Bool)
  | "=" => some (Datum.meets Datum.equals)
  | ">=" => some fun a b => Datum.meets Datum.atMost b a
  | "<=" => some (Datum.meets Datum.atMost)
  | _ => none

def comparison? (left : Term) (operator : String) : Operand → Option (JoinedRow → Bool)
  | .term right => (operator? operator).map fun test joined => test (left joined) (right joined)
  | .anyOf values =>
      if operator = "=" then some fun joined => (left joined).any fun a => values.any a.equals
      else none

/-- A condition, by its words and the values that are bound to it. -/
def condition? : List String → List SqlValue → Option (JoinedRow → Bool)
  | ["FALSE"], [] => some fun _ => false
  | left :: operator :: right :: rest, values => do
      let left ← term? left
      let (right, values) ← operand? right values
      let test ← comparison? left operator right
      match rest with
      | [] => if values.isEmpty then some test else none
      | "AND" :: rest =>
          let others ← condition? rest values
          some fun joined => test joined && others joined
      | _ => none
  | _, _ => none

section

variable {left operator right : String} {rest : List String} {values others : List SqlValue}
  {column : Term} {operand : Operand} {test test' : JoinedRow → Bool}

/-- One comparison. -/
theorem condition?_single (hl : term? left = some column)
    (hr : operand? right values = some (operand, []))
    (compares : comparison? column operator operand = some test) :
    condition? [left, operator, right] values = some test := by
  simp [condition?, hl, hr, compares]

/-- A comparison and more. -/
theorem condition?_and (hl : term? left = some column)
    (hr : operand? right values = some (operand, others))
    (compares : comparison? column operator operand = some test)
    (more : condition? rest others = some test') :
    condition? (left :: operator :: right :: "AND" :: rest) values =
      some fun joined => test joined && test' joined := by
  simp [condition?, hl, hr, compares, more]

end

/-- Which of two rows may come before the other. -/
def order? (clause : String) : Option (JoinedRow → JoinedRow → Bool) :=
  match words clause with
  | [column, "ASC"] =>
      (term? column).map fun place a b => Datum.meets Datum.atMost (place a) (place b)
  | [column, "DESC"] =>
      (term? column).map fun place a b => Datum.meets Datum.atMost (place b) (place a)
  | _ => none

/-- A value that is selected, with the name of its column. -/
def selected? (item : String) : Option (String × Term) :=
  match words item with
  | [column] => column? column
  | ["CASE", "WHEN", tested, "IS", "NULL", "THEN", absent, "ELSE", present, "END", "AS", name] => do
      let tested ← term? tested
      let absent ← term? absent
      let present ← term? present
      some (name, fun joined => if (tested joined).isNone then absent joined else present joined)
  | _ => none

theorem selected?_case {item tested absent present name : String} {test no yes : Term}
    (text : words item =
      ["CASE", "WHEN", tested, "IS", "NULL", "THEN", absent, "ELSE", present, "END", "AS", name])
    (ht : term? tested = some test) (ha : term? absent = some no) (hp : term? present = some yes) :
    selected? item =
      some (name, fun joined => if (test joined).isNone then no joined else yes joined) := by
  unfold selected?
  simp only [text, ht, ha, hp, Option.bind_eq_bind, Option.bind_some]

/-- A row with each row beside it that meets a condition, or alone where there is none. -/
def beside (on : JoinedRow → Bool) (rows : List StoredEvent) (row : StoredEvent) :
    List JoinedRow :=
  match rows.filter fun other => on ⟨row, some other⟩ with
  | [] => [⟨row, none⟩]
  | found => found.map fun other => ⟨row, some other⟩

/-- The rows, each with what a condition puts beside it. -/
def leftJoin (on : JoinedRow → Bool) (rows : List StoredEvent) : List JoinedRow :=
  rows.flatMap (beside on rows)

/-- The rows of the table, after the joins. -/
def joined? : List Fragment → Option (List StoredEvent → List JoinedRow)
  | [] => some fun rows => rows.map fun row => ⟨row, none⟩
  | [clause] =>
      match words clause.text with
      | "LEFT" :: "JOIN" :: "events" :: "original" :: "ON" :: condition =>
          (condition? condition clause.values).map leftJoin
      | _ => none
  | _ => none

theorem joined?_single {clause : Fragment} {condition : List String}
    (text : words clause.text = "LEFT" :: "JOIN" :: "events" :: "original" :: "ON" :: condition) :
    joined? [clause] = (condition? condition clause.values).map leftJoin := by
  unfold joined?
  simp only [text]

end Sql

namespace Fragment

/-- The condition that a fragment is. -/
def condition? (f : Fragment) : Option (JoinedRow → Bool) :=
  Sql.condition? (Sql.words f.text) f.values

end Fragment

/-! ## Selections -/

/-- What a selection from the table of events asks for. -/
structure Selection where
  joined : List StoredEvent → List JoinedRow
  anyOf : List (JoinedRow → Bool)
  allOf : List (JoinedRow → Bool)
  order : JoinedRow → JoinedRow → Bool
  values : List (String × Sql.Term)
  limit : Nat

namespace Selection

/-- The row is selected. -/
def selects (m : Selection) (joined : JoinedRow) : Bool :=
  (m.anyOf.isEmpty || m.anyOf.any (· joined)) && m.allOf.all (· joined)

/-- The row that is returned has the values that are selected. -/
def Shows (m : Selection) (joined : JoinedRow) (row : StoredEvent) : Prop :=
  ∀ column ∈ StoredEvent.columns,
    ∃ term, m.values.lookup column = some term ∧ row.datum? column = term joined

/-- The rows may be the answer, over the rows of the table: those that are selected, in an
order that is asked for, and of these the first ones. -/
def Answers (m : Selection) (rows answer : List StoredEvent) : Prop :=
  ∃ all : List JoinedRow, all.Perm ((m.joined rows).filter m.selects) ∧
    all.Pairwise (fun a b => m.order a b = true) ∧
    List.Forall₂ m.Shows (all.take m.limit) answer

end Selection

namespace Select

/-- What a selection from the table of events asks for, if it can be read. -/
def meaning? (s : Select) : Option Selection :=
  match s.source, s.order, s.limit, s.offset with
  | .table "events", [order], some limit, none => do
      if limit < 0 then none
      let joined ← Sql.joined? s.joins
      let anyOf ← s.anyOf.mapM Fragment.condition?
      let allOf ← s.allOf.mapM Fragment.condition?
      let order ← Sql.order? order
      let values ← (s.columns.flatMap Sql.items).mapM Sql.selected?
      some ⟨joined, anyOf, allOf, order, values, limit.toInt.toNat⟩
  | _, _, _, _ => none

/-- The rows may be the answer to a selection, over the rows of the table of events. -/
def Answers (s : Select) (rows answer : List StoredEvent) : Prop :=
  ∃ m, s.meaning? = some m ∧ m.Answers rows answer

end Select

end EventJournal

import EventJournal.Proofs.Sql.Meaning
import EventJournal.Query.Leaves

/-!
# What a selection from one table means

Besides the table of events, statements select from the catalog of partitions and from the
tables of leaves, one by one or many at once. They are read here as the selections from the
events are, word by word: a condition is a comparison of a column with a bound value, or
several of them, or the question whether a column is null; a column is written with the name
of its table or without.

What the columns of a row are is told by `Sql.Record`, so that one reading serves the rows of
all these tables. `Select.Lists` says what a selection from one table may be answered with,
`Select.Unites` the same of a union of such selections.

## Main results

* `Sql.field?_qualified` — a column that is written with the name of its table.
* `Sql.predicate?_bound`, `Sql.predicate?_bound_and`, `Sql.predicate?_anyOf` — the conditions.
* `Sql.Listing.shows_iff` — where all columns are selected, a row is shown as it is.
-/

namespace EventJournal

namespace Sql

/-- Rows of a table, seen through their columns. -/
class Record (ρ : Type) where
  /-- The columns that the table has. -/
  columns : List String
  /-- The columns that a row is made of. -/
  fields : List String
  /-- The value in a column; none for a null. -/
  datum? : ρ → (column : String) → Option Datum
  /-- A row is known by its columns. -/
  eq_of_datum? {row other : ρ}
    (same : ∀ column ∈ fields, datum? row column = datum? other column) : row = other

/-- The name can be written as that of a table: it is made of letters, digits and underscores. -/
def IsName (name : String) : Prop :=
  name ≠ "" ∧ ∀ c ∈ name.toList, c.isAlphanum = true ∨ c = '_'

-- by the characters of the name, not by all characters that there are
instance (name : String) : Decidable (IsName name) :=
  decidable_of_iff (name ≠ "" ∧ name.toList.all fun c => c.isAlphanum || decide (c = '_')) (by
    simp [IsName])

theorem IsName.not_mem {name : String} (h : IsName name) {c : Char}
    (other : c.isAlphanum = false ∧ c ≠ '_') : c ∉ name.toList := fun there =>
  (h.2 c there).elim (fun same => Bool.noConfusion (other.1.symm.trans same)) other.2

/-! ## Columns -/

/-- The column that a word names, with the name of its table or without. -/
def field? (table : String) (columns : List String) (word : String) : Option String :=
  match (word.toList.splitOn '.').map String.ofList with
  | [column] => if column ∈ columns then some column else none
  | [qualifier, column] =>
      if qualifier = table ∧ column ∈ columns then some column else none
  | _ => none

theorem splitOn_qualified {table column : String} (ht : '.' ∉ table.toList)
    (hc : '.' ∉ column.toList) :
    (qualified table column).toList.splitOn '.' = [table.toList, column.toList] := by
  have dot : (qualified table column).toList = table.toList ++ '.' :: column.toList := by
    simp only [qualified, String.toList_append, List.append_assoc]
    rfl
  rw [dot]
  refine (List.splitOnP_append_cons _ _ (p := (· == '.')) (beq_self_eq_true '.')).trans ?_
  exact congrArg₂ (· ++ ·) (List.splitOn_eq_singleton ht) (List.splitOn_eq_singleton hc)

theorem field?_qualified {table column : String} {columns : List String} (name : IsName table)
    (plain : '.' ∉ column.toList) (there : column ∈ columns) :
    field? table columns (qualified table column) = some column := by
  unfold field?
  rw [splitOn_qualified (name.not_mem (by decide)) plain]
  simp only [List.map_cons, List.map_nil, String.ofList_toList, true_and]
  exact if_pos there

theorem field?_plain {table column : String} {columns : List String}
    (plain : '.' ∉ column.toList) (there : column ∈ columns) :
    field? table columns column = some column := by
  unfold field?
  rw [List.splitOn_eq_singleton plain]
  simp only [List.map_cons, List.map_nil, String.ofList_toList]
  exact if_pos there

/-- Columns that are written with the name of their table, one by one. -/
theorem mapM_field?_qualified {table : String} {columns names : List String} (name : IsName table)
    (those : ∀ column ∈ names, '.' ∉ column.toList ∧ column ∈ columns) :
    (names.map (qualified table)).mapM (field? table columns) = some names := by
  induction names with
  | nil => rfl
  | cons column rest ih =>
      obtain ⟨⟨plain, there⟩, others⟩ := List.forall_mem_cons.1 those
      rw [List.map_cons, List.mapM_cons, field?_qualified name plain there, ih others]
      rfl

variable {ρ : Type} [Record ρ]

/-- The value of a column that a word names. -/
def value? (ρ : Type) [Record ρ] (table word : String) : Option (ρ → Option Datum) :=
  (field? table (Record.columns ρ) word).map fun column row => Record.datum? row column

theorem value?_qualified {table column : String} (name : IsName table)
    (plain : '.' ∉ column.toList) (there : column ∈ Record.columns ρ) :
    value? ρ table (qualified table column) = some fun row => Record.datum? row column := by
  rw [value?, field?_qualified name plain there, Option.map_some]

theorem value?_plain {table column : String} (plain : '.' ∉ column.toList)
    (there : column ∈ Record.columns ρ) :
    value? ρ table column = some fun row => Record.datum? row column := by
  rw [value?, field?_plain plain there, Option.map_some]

/-- The words of a text that begins with a column, written with the name of its table. -/
theorem words_qualified {table column text : String} {rest : List String} (name : IsName table)
    (same : text = "." ++ " ".intercalate (column :: rest))
    (whole : ∀ word ∈ column :: rest, ' ' ∉ word.toList) :
    words (table ++ text) = qualified table column :: rest := by
  obtain ⟨first, others⟩ := List.forall_mem_cons.1 whole
  have joined : table ++ text = " ".intercalate (qualified table column :: rest) := by
    rw [same]
    cases rest with
    | nil => exact (String.append_assoc ..).symm
    | cons next rest =>
        simp only [String.intercalate_cons_cons, qualified, String.append_assoc]
  rw [joined]
  refine words_intercalate (List.cons_ne_nil _ _) (List.forall_mem_cons.2 ⟨?_, others⟩)
  exact not_mem_qualified (name.not_mem (by decide)) (by decide) first

/-! ## Conditions and orders -/

/-- A condition on the rows of a table, by its words and the values that are bound to it. -/
def predicate? (ρ : Type) [Record ρ] (table : String) :
    List String → List SqlValue → Option (ρ → Bool)
  | ["FALSE"], [] => some fun _ => false
  | [left, "IS", "NOT", "NULL"], [] =>
      (value? ρ table left).map fun value row => (value row).isSome
  | [left, "=", "ANY(?)"], [list] =>
      (value? ρ table left).map fun value row =>
        (value row).any fun a => (boundList list).any a.equals
  | left :: operator :: "?" :: rest, first :: values => do
      let value ← value? ρ table left
      let test ← operator? operator
      match rest with
      | [] => if values.isEmpty then some fun row => test (value row) (bound first) else none
      | "AND" :: rest =>
          let others ← predicate? ρ table rest values
          some fun row => test (value row) (bound first) && others row
      | _ => none
  | _, _ => none

section

variable {table left operator : String} {rest : List String} {first : SqlValue}
  {values : List SqlValue} {column : ρ → Option Datum} {others : ρ → Bool}
  {test : Option Datum → Option Datum → Bool}

/-- A column is compared with a bound value. -/
theorem predicate?_bound (hl : value? ρ table left = some column)
    (compares : operator? operator = some test) :
    predicate? ρ table [left, operator, "?"] [first] =
      some fun row => test (column row) (bound first) := by
  simp [predicate?, hl, compares]

/-- A column is compared with a bound value, and there is more. -/
theorem predicate?_bound_and (hl : value? ρ table left = some column)
    (compares : operator? operator = some test)
    (more : predicate? ρ table rest values = some others) :
    predicate? ρ table (left :: operator :: "?" :: "AND" :: rest) (first :: values) =
      some fun row => test (column row) (bound first) && others row := by
  simp [predicate?, hl, compares, more]

/-- A column is compared with the values of a list. -/
theorem predicate?_anyOf (hl : value? ρ table left = some column) :
    predicate? ρ table [left, "=", "ANY(?)"] [first] =
      some fun row => (column row).any fun a => (boundList first).any a.equals := by
  simp [predicate?, hl]

/-- A column is asked for being there. -/
theorem predicate?_notNull (hl : value? ρ table left = some column) :
    predicate? ρ table [left, "IS", "NOT", "NULL"] [] =
      some fun row => (column row).isSome := by
  simp [predicate?, hl]

end

/-- Which of two rows of a table may come before the other. -/
def ordering? (ρ : Type) [Record ρ] (table clause : String) : Option (ρ → ρ → Bool) :=
  match words clause with
  | [column, "ASC"] =>
      (value? ρ table column).map fun place a b => Datum.meets Datum.atMost (place a) (place b)
  | [column, "DESC"] =>
      (value? ρ table column).map fun place a b => Datum.meets Datum.atMost (place b) (place a)
  | _ => none

/-! ## Listings -/

/-- What a selection from one table asks for. -/
structure Listing (ρ : Type) where
  selects : ρ → Bool
  before : ρ → ρ → Bool
  columns : List String
  limit : Option Nat

namespace Listing

/-- The rows that a limit leaves. -/
def limited (m : Listing ρ) (rows : List ρ) : List ρ :=
  match m.limit with
  | some count => rows.take count
  | none => rows

/-- The row that is returned has the columns that are selected. -/
def Shows (m : Listing ρ) (row shown : ρ) : Prop :=
  ∀ column ∈ Record.fields ρ,
    column ∈ m.columns ∧ Record.datum? shown column = Record.datum? row column

/-- The rows may be the answer, over the rows of the table: those that are selected, in an
order that is asked for, and of these the first ones. -/
def Answers (m : Listing ρ) (rows answer : List ρ) : Prop :=
  ∃ all : List ρ, all.Perm (rows.filter m.selects) ∧
    all.Pairwise (fun a b => m.before a b = true) ∧
    List.Forall₂ m.Shows (m.limited all) answer

variable {m : Listing ρ}

/-- Where all columns are selected, a row is shown as it is. -/
theorem shows_iff (whole : ∀ column ∈ Record.fields ρ, column ∈ m.columns) {row shown : ρ} :
    m.Shows row shown ↔ row = shown := by
  constructor
  · exact fun shows => Record.eq_of_datum? fun column there => (shows column there).2.symm
  · rintro rfl column there
    exact ⟨whole column there, rfl⟩

theorem answers_iff (whole : ∀ column ∈ Record.fields ρ, column ∈ m.columns)
    {rows answer : List ρ} :
    m.Answers rows answer ↔ ∃ all : List ρ, all.Perm (rows.filter m.selects) ∧
      all.Pairwise (fun a b => m.before a b = true) ∧ answer = m.limited all := by
  have same : m.Shows = Eq := funext fun row => funext fun shown => propext (shows_iff whole)
  simp only [Answers, same, List.forall₂_eq_eq_eq, @eq_comm _ answer]

end Listing

end Sql

open Sql

/-- The condition on rows of a table that a fragment is. -/
def Fragment.predicate? (ρ : Type) [Record ρ] (table : String) (f : Fragment) :
    Option (ρ → Bool) :=
  Sql.predicate? ρ table (words f.text) f.values

/-- Conditions that are read one by one. -/
theorem Fragment.mapM_predicate? {ρ ι : Type} [Record ρ] {table : String}
    {fragment : ι → Fragment} {admits : ι → ρ → Bool}
    (means : ∀ item, (fragment item).predicate? ρ table = some (admits item)) (items : List ι) :
    (items.map fragment).mapM (Fragment.predicate? ρ table) = some (items.map admits) := by
  induction items with
  | nil => rfl
  | cons item rest ih =>
      rw [List.map_cons, List.mapM_cons, means, ih]
      rfl

namespace Select

/-- The number of rows that a selection is limited to, if it is. -/
def count? : Option Int64 → Option (Option Nat)
  | none => some none
  | some limit => if limit < 0 then none else some (some limit.toInt.toNat)

/-- What a selection from one table asks for, with the name of the table, if it can be read. -/
def listing? (ρ : Type) [Record ρ] (s : Select) : Option (String × Listing ρ) :=
  match s.source, s.joins, s.order, s.offset with
  | .table table, [], [order], none => do
      let anyOf ← s.anyOf.mapM (Fragment.predicate? ρ table)
      let allOf ← s.allOf.mapM (Fragment.predicate? ρ table)
      let before ← ordering? ρ table order
      let columns ← (s.columns.flatMap items).mapM (field? table (Record.columns ρ))
      let limit ← count? s.limit
      some (table, {
        selects := fun row => (anyOf.isEmpty || anyOf.any (· row)) && allOf.all (· row)
        before, columns, limit })
  | _, _, _, _ => none

/-- The row is one of those that the selection is about, whatever its limit. -/
def Picks {ρ : Type} [Record ρ] (s : Select) (row : ρ) : Prop :=
  ∃ table m, s.listing? ρ = some (table, m) ∧ m.selects row = true

/-- The rows may be the answer to a selection from one of the tables. -/
def Lists {ρ : Type} [Record ρ] (s : Select) (tables : String → List ρ) (answer : List ρ) : Prop :=
  ∃ table m, s.listing? ρ = some (table, m) ∧ m.Answers (tables table) answer

/-- The rows may be the answer to a union: the rows of all its members, in an order that is
asked for. -/
def Unites {ρ : Type} [Record ρ] (s : Select) (tables : String → List ρ) (answer : List ρ) :
    Prop :=
  ∃ first rest order before, s = { source := .union first rest, order := [order] } ∧
    ordering? ρ "combined" order = some before ∧
    ∃ parts : List (List ρ),
      List.Forall₂ (fun member part => member.Lists tables part) (first :: rest) parts ∧
      answer.Perm parts.flatten ∧ answer.Pairwise fun a b => before a b = true

variable {ρ : Type} [Record ρ] {s : Select} {table order : String} {m : Listing ρ}

theorem lists_iff (reads : s.listing? ρ = some (table, m)) {tables : String → List ρ}
    {answer : List ρ} : s.Lists tables answer ↔ m.Answers (tables table) answer := by
  constructor
  · rintro ⟨table', m', reads', answers⟩
    obtain ⟨rfl, rfl⟩ := Prod.mk.inj (Option.some.inj (reads.symm.trans reads'))
    exact answers
  · exact fun answers => ⟨table, m, reads, answers⟩

theorem picks_iff (reads : s.listing? ρ = some (table, m)) {row : ρ} :
    s.Picks row ↔ m.selects row = true := by
  constructor
  · rintro ⟨table', m', reads', selects⟩
    obtain ⟨rfl, rfl⟩ := Prod.mk.inj (Option.some.inj (reads.symm.trans reads'))
    exact selects
  · exact fun selects => ⟨table, m, reads, selects⟩

end Select

/-! ## Events and partitions -/

instance : Record StoredEvent where
  columns := eventColumns
  fields := StoredEvent.columns
  datum? := StoredEvent.datum?
  eq_of_datum? := StoredEvent.eq_of_datum?

namespace Partition

/-- The value in a column of the catalog. -/
def datum? (p : Partition) : (column : String) → Option Datum
  | "id" => some (.int p.id.toInt)
  | "context" => some (.text p.context)
  | "stream_name" => p.streamName.map .text
  | "event_type" => p.eventType.map .text
  | "table_name" => some (.text p.tableName)
  | _ => none

/-- An entry of the catalog is known by its columns. -/
theorem eq_of_datum? {p other : Partition}
    (same : ∀ column ∈ partitionColumns, p.datum? column = other.datum? column) : p = other := by
  have texts : Function.Injective Datum.text := fun _ _ => Datum.text.inj
  cases p
  cases other
  simp only [partitionColumns, List.forall_mem_cons, datum?, Option.some.injEq, Datum.text.injEq,
    Datum.int.injEq, Int64.toInt_inj, (Option.map_injective texts).eq_iff] at same
  obtain ⟨rfl, rfl, rfl, rfl, rfl, -⟩ := same
  rfl

end Partition

instance : Record Partition where
  columns := partitionColumns
  fields := partitionColumns
  datum? := Partition.datum?
  eq_of_datum? := Partition.eq_of_datum?

end EventJournal

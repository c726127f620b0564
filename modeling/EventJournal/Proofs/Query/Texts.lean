import EventJournal.Proofs.Query.Meaning
import EventJournal.Proofs.Sql.Meaning

/-!
# The text of a query for events means what the query says

The conditions, the order and the columns of a query are read back from their texts, one by
one: a condition admits the rows that it names, the join puts beside a row what the row
refers to, and the columns that are selected are those of one row. No text is longer than a
line, so that the words of each are found by evaluation.

## Main results

* `EventQuery.answers_select_iff` — what the text of a query is answered with.
* `EventQuery.exists_of_answers` — the same for a query that does not resolve links.
-/

namespace EventJournal

open Sql

/-! ## Conditions -/

namespace Sql

/-- The words, with the values that are bound to them, are a condition on rows. -/
def Denotes (words : List String) (values : List SqlValue) (admits : StoredEvent → Bool) : Prop :=
  ∃ test, condition? words values = some test ∧ ∀ joined, test joined = admits joined.row

variable {column operator : String} {value : SqlValue} {rest : List String}
  {values : List SqlValue} {admits other : StoredEvent → Bool}
  {test : Option Datum → Option Datum → Bool}

theorem Denotes.congr (h : Denotes rest values admits) (same : ∀ row, admits row = other row) :
    Denotes rest values other := by
  obtain ⟨test, reads, means⟩ := h
  exact ⟨test, reads, fun joined => (means joined).trans (same joined.row)⟩

theorem Denotes.never : Denotes ["FALSE"] [] fun _ => false := ⟨_, rfl, fun _ => rfl⟩

theorem operand?_events (there : column ∈ eventColumns) :
    operand? (qualified "events" column) values =
      some (.term fun joined => joined.row.datum? column, values) := by
  have other : ∀ column ∈ eventColumns,
      qualified "events" column ≠ "?" ∧ qualified "events" column ≠ "ANY(?)" ∧
        qualified "events" column ≠ "0" := by
    decide
  obtain ⟨single, list, zero⟩ := other column there
  unfold operand?
  split
  · exact absurd ‹_› single
  · exact absurd ‹_› list
  · exact absurd ‹_› zero
  · rw [term?_events there]
    rfl

theorem comparison?_bound (compares : operator? operator = some test) (left : Term) :
    comparison? left operator (.term fun _ => Sql.bound value) =
      some fun joined => test (left joined) (Sql.bound value) := by
  rw [comparison?, compares]
  rfl

/-- A column is compared with a bound value. -/
theorem Denotes.bound (there : column ∈ eventColumns) (compares : operator? operator = some test) :
    Denotes [qualified "events" column, operator, "?"] [value]
      fun row => test (row.datum? column) (Sql.bound value) :=
  ⟨_, condition?_single (term?_events there) rfl (comparison?_bound compares _), fun _ => rfl⟩

theorem Denotes.bound_and (there : column ∈ eventColumns)
    (compares : operator? operator = some test) (more : Denotes rest values admits) :
    Denotes (qualified "events" column :: operator :: "?" :: "AND" :: rest) (value :: values)
      fun row => test (row.datum? column) (Sql.bound value) && admits row := by
  obtain ⟨test', reads, means⟩ := more
  refine ⟨_, condition?_and (term?_events there) rfl (comparison?_bound compares _) reads,
    fun joined => ?_⟩
  rw [means]

/-- A column is compared with the number zero. -/
theorem Denotes.zero (there : column ∈ eventColumns) :
    Denotes [qualified "events" column, "=", "0"] []
      fun row => Datum.meets Datum.equals (row.datum? column) (some (.int 0)) :=
  ⟨_, condition?_single (term?_events there) rfl rfl, fun _ => rfl⟩

/-- A column is compared with the values of a list. -/
theorem Denotes.anyOf (there : column ∈ eventColumns) :
    Denotes [qualified "events" column, "=", "ANY(?)"] [value]
      fun row => (row.datum? column).any fun a => (boundList value).any a.equals :=
  ⟨_, condition?_single (term?_events there) rfl rfl, fun _ => rfl⟩

end Sql

/-- The fragment is a condition on rows. -/
def Fragment.Means (f : Fragment) (admits : StoredEvent → Bool) : Prop :=
  Denotes (words f.text) f.values admits

theorem Fragment.Means.of_words {f : Fragment} {admits : StoredEvent → Bool} {text : List String}
    (same : words f.text = text) (denotes : Denotes text f.values admits) : f.Means admits := by
  unfold Means
  rw [same]
  exact denotes

namespace StreamScope

theorem means_eventFragment (scope : StreamScope) : scope.eventFragment.Means scope.admits := by
  cases scope with
  | context c =>
      have text : words "events.context = ?" = [qualified "events" "context", "=", "?"] := by
        decide
      refine .of_words text ((Denotes.bound (by decide) rfl).congr fun row => ?_)
      rfl
  | streamName c n =>
      have text : words "events.context = ? AND events.stream_name = ?" =
          [qualified "events" "context", "=", "?", "AND", qualified "events" "stream_name", "=",
            "?"] := by
        decide
      refine .of_words text
        ((Denotes.bound_and (by decide) rfl (Denotes.bound (by decide) rfl)).congr fun row => ?_)
      rfl
  | stream c n i =>
      have text : words "events.context = ? AND events.stream_name = ? AND events.stream_id = ?" =
          [qualified "events" "context", "=", "?", "AND", qualified "events" "stream_name", "=",
            "?", "AND", qualified "events" "stream_id", "=", "?"] := by
        decide
      refine .of_words text ((Denotes.bound_and (by decide) rfl
        (Denotes.bound_and (by decide) rfl (Denotes.bound (by decide) rfl))).congr fun row => ?_)
      exact (Bool.and_assoc _ _ _).symm

end StreamScope

namespace EventCondition

theorem means_fragment (condition : EventCondition) :
    condition.fragment.Means condition.admits := by
  cases condition with
  | inScope scope => exact scope.means_eventFragment
  | firstOfStream =>
      have text : words "events.stream_revision = 0" =
          [qualified "events" "stream_revision", "=", "0"] := by
        decide
      refine .of_words text ((Denotes.zero (by decide)).congr fun row => ?_)
      exact decide_eq_decide.2 (Int32.toInt_inj (y := 0))
  | never => exact .of_words (by decide) .never
  | revisionFrom direction revision =>
      have text : words ("events.stream_revision " ++ direction.boundOperator ++ " ?") =
          [qualified "events" "stream_revision", direction.boundOperator, "?"] := by
        cases direction <;> decide
      refine .of_words text ?_
      cases direction
      · exact (Denotes.bound (by decide) rfl).congr fun _ => rfl
      · exact (Denotes.bound (by decide) rfl).congr fun _ => rfl
  | positionFrom direction position =>
      have text : words ("events.global_position " ++ direction.boundOperator ++ " ?") =
          [qualified "events" "global_position", direction.boundOperator, "?"] := by
        cases direction <;> decide
      refine .of_words text ?_
      cases direction
      · exact (Denotes.bound (by decide) rfl).congr fun _ => rfl
      · exact (Denotes.bound (by decide) rfl).congr fun _ => rfl
  | typeAmong types =>
      have text : words "events.type = ANY(?)" = [qualified "events" "type", "=", "ANY(?)"] := by
        decide
      refine .of_words text ((Denotes.anyOf (by decide)).congr fun row => ?_)
      show ((types.map Datum.text).any (Datum.text row.type).equals) = decide (row.type ∈ types)
      rw [List.any_map, Bool.eq_iff_iff, List.any_eq_true, decide_eq_true_eq]
      constructor
      · rintro ⟨type, there, same⟩
        rwa [of_decide_eq_true same]
      · exact fun there => ⟨row.type, there, decide_eq_true rfl⟩

end EventCondition

/-! ## Selections -/

/-- A row refers to another one, as far as the join looks. -/
def StoredEvent.refersTo (row other : StoredEvent) : Bool :=
  row.linkId = some other.id && row.linkGlobalPosition = some other.globalPosition

/-- Conditions that are read one by one. -/
theorem exists_tests {ι : Type} {fragment : ι → Fragment} {admits : ι → StoredEvent → Bool}
    (means : ∀ item, (fragment item).Means (admits item)) (items : List ι) :
    ∃ tests, (items.map fragment).mapM Fragment.condition? = some tests ∧
      tests.isEmpty = items.isEmpty ∧
      ∀ joined, tests.any (· joined) = items.any (admits · joined.row) ∧
        tests.all (· joined) = items.all (admits · joined.row) := by
  induction items with
  | nil => exact ⟨[], rfl, rfl, fun _ => ⟨rfl, rfl⟩⟩
  | cons item rest ih =>
      obtain ⟨tests, reads, -, same⟩ := ih
      obtain ⟨test, read, mean⟩ := means item
      refine ⟨test :: tests, ?_, rfl, fun joined => ?_⟩
      · have first : (fragment item).condition? = some test := read
        rw [List.map_cons, List.mapM_cons, first, reads]
        rfl
      · obtain ⟨any, all⟩ := same joined
        rw [List.any_cons, List.all_cons, List.any_cons, List.all_cons, mean, any, all]
        exact ⟨rfl, rfl⟩

namespace EventQuery

theorem exists_order (q : EventQuery) :
    ∃ before, order? (q.order.column ++ " " ++ q.direction.orderKeyword) = some before ∧
      ∀ a b, before a b = q.direction.reaches (q.order.place b.row) (q.order.place a.row) := by
  have text : ∀ (order : EventOrder) (direction : Direction),
      words (order.column ++ " " ++ direction.orderKeyword) =
        [order.column, direction.orderKeyword] := by
    intro order direction
    cases order <;> cases direction <;> decide
  have column : ∀ order : EventOrder, term? order.column =
      some fun joined => some (.int (order.place joined.row)) := by
    intro order
    cases order
    · exact @term?_events "stream_revision" (by decide)
    · exact @term?_events "global_position" (by decide)
  unfold order?
  rw [text]
  cases q.direction
  · simp only [Direction.orderKeyword, column]
    exact ⟨_, rfl, fun _ _ => rfl⟩
  · simp only [Direction.orderKeyword, column]
    exact ⟨_, rfl, fun _ _ => rfl⟩

/-! ### Joins -/

/-- The rows that are read, each with the one beside it that it refers to, if links are
resolved. -/
def joined (q : EventQuery) (rows : List StoredEvent) : List JoinedRow :=
  if q.resolveLinks then leftJoin (fun pair => pair.original.any pair.row.refersTo) rows
  else rows.map fun row => ⟨row, none⟩

/-- The row that is shown. -/
def shown (q : EventQuery) (pair : JoinedRow) : StoredEvent :=
  if q.resolveLinks then pair.original.getD pair.row else pair.row

theorem meets_link_id (row other : StoredEvent) :
    Datum.meets Datum.equals (other.datum? "id") (row.datum? "link_id") =
      decide (row.linkId = some other.id) := by
  show Datum.meets Datum.equals (some (.uuid other.id)) (row.linkId.map .uuid) = _
  cases row.linkId with
  | none => rfl
  | some id => exact decide_eq_decide.2 (eq_comm.trans (Option.some_inj.symm))

theorem meets_link_global_position (row other : StoredEvent) :
    Datum.meets Datum.equals (other.datum? "global_position") (row.datum? "link_global_position") =
      decide (row.linkGlobalPosition = some other.globalPosition) := by
  show Datum.meets Datum.equals (some (.int other.globalPosition.toInt))
    (row.linkGlobalPosition.map fun position => .int position.toInt) = _
  cases row.linkGlobalPosition with
  | none => rfl
  | some position =>
      exact decide_eq_decide.2
        (Int64.toInt_inj.trans (eq_comm.trans Option.some_inj.symm))

/-- The join finds what a row refers to. -/
theorem joined?_joinTargets :
    joined? [joinTargets] =
      some (leftJoin fun pair => pair.original.any pair.row.refersTo) := by
  have text : words joinTargets.text =
      ["LEFT", "JOIN", "events", "original", "ON", qualified "original" "id", "=",
        qualified "events" "link_id", "AND", qualified "original" "global_position", "=",
        qualified "events" "link_global_position"] := by
    decide +kernel
  rw [joined?_single text, show joinTargets.values = [] from rfl,
    condition?_and (@term?_original "id" (by decide))
      (@operand?_events "link_id" _ (by decide)) rfl
      (condition?_single (@term?_original "global_position" (by decide))
        (@operand?_events "link_global_position" _ (by decide)) rfl)]
  refine congrArg some (congrArg leftJoin ?_)
  funext ⟨row, original⟩
  cases original with
  | none => rfl
  | some other =>
      exact congrArg₂ and (meets_link_id row other) (meets_link_global_position row other)

/-! ### Columns -/

/-- Columns that are read one by one. -/
theorem mapM_selected? {item : String → String} {term : String → Term} {names : List String}
    (reads : ∀ name ∈ names, selected? (item name) = some (name, term name)) :
    (names.map item).mapM selected? = some (names.map fun name => (name, term name)) := by
  induction names with
  | nil => rfl
  | cons name rest ih =>
      obtain ⟨first, others⟩ := List.forall_mem_cons.1 reads
      rw [List.map_cons, List.mapM_cons, first, ih others]
      rfl

/-- The words of a column that is chosen by what the join has found. -/
def resolvedWords (name : String) : List String := [
  "CASE", "WHEN", qualified "original" "id", "IS", "NULL", "THEN", qualified "events" name, "ELSE",
  qualified "original" name, "END", "AS", name]

theorem resolvedColumn_eq {name : String} (h : name ∈ eventColumns) :
    resolvedColumn name = " ".intercalate (resolvedWords name) := by
  have all : ∀ name ∈ eventColumns,
      resolvedColumn name = " ".intercalate (resolvedWords name) := by
    decide +kernel
  exact all name h

/-- No separator stands in a name, and none in the words around it. -/
theorem not_mem_of_separates {name : String} {c : Char} (h : name ∈ eventColumns)
    (separates : c = ' ' ∨ c = ',') :
    c ∉ (qualified "events" name).toList ∧ ∀ word ∈ resolvedWords name, c ∉ word.toList := by
  have names : ∀ name ∈ eventColumns, ' ' ∉ name.toList ∧ ',' ∉ name.toList := by
    decide
  have others : ∀ word ∈ ["CASE", "WHEN", "IS", "NULL", "THEN", "ELSE", "END", "AS", "events",
      "original", "id"], ' ' ∉ word.toList ∧ ',' ∉ word.toList := by
    decide
  have free {text : String} (both : ' ' ∉ text.toList ∧ ',' ∉ text.toList) : c ∉ text.toList := by
    rcases separates with rfl | rfl
    · exact both.1
    · exact both.2
  have dot : c ≠ '.' := by
    rcases separates with rfl | rfl <;> decide
  have column := free (names name h)
  have word := fun word there => free (others word there)
  have one := not_mem_qualified (word "events" (by decide)) dot column
  have other {column : String} (free : c ∉ column.toList) :=
    not_mem_qualified (word "original" (by decide)) dot free
  refine ⟨one, ?_⟩
  simp only [resolvedWords, List.forall_mem_cons]
  exact ⟨word _ (by decide), word _ (by decide), other (word _ (by decide)), word _ (by decide),
    word _ (by decide), word _ (by decide), one, word _ (by decide), other column,
    word _ (by decide), word _ (by decide), column, List.forall_mem_nil _⟩

theorem selected?_qualified {name : String} (h : name ∈ eventColumns) :
    selected? (qualified "events" name) = some (name, fun joined => joined.row.datum? name) := by
  have text : words (qualified "events" name) = [qualified "events" name] := by
    refine words_intercalate (List.cons_ne_nil _ _) (List.forall_mem_singleton.2 ?_)
    exact (not_mem_of_separates h (.inl rfl)).1
  unfold selected?
  rw [text]
  exact column?_events h

theorem selected?_resolvedColumn {name : String} (h : name ∈ eventColumns) :
    selected? (resolvedColumn name) =
      some (name, fun joined =>
        if (joined.original.bind (·.datum? "id")).isNone then joined.row.datum? name
        else joined.original.bind (·.datum? name)) := by
  have text : words (resolvedColumn name) = resolvedWords name := by
    rw [resolvedColumn_eq h]
    exact words_intercalate (List.cons_ne_nil _ _) (not_mem_of_separates h (.inl rfl)).2
  exact selected?_case text (term?_original (by decide)) (term?_events h) (term?_original h)

theorem head?_append {text : String} {c : Char} (first : text.toList.head? = some c)
    (rest : String) : (text ++ rest).toList.head? = some c := by
  rw [String.toList_append, List.head?_append, first, Option.some_or]

theorem items_qualifiedColumns :
    items (qualifiedColumns "events") = eventColumns.map (qualified "events") := by
  refine items_intercalate (List.cons_ne_nil _ _) (List.forall_mem_map.2 fun name h => ⟨?_, ?_⟩)
  · have first : (qualified "events" name).toList.head? = some 'e' :=
      head?_append (head?_append (by decide) _) _
    rw [first]
    decide
  · exact (not_mem_of_separates h (.inr rfl)).1

theorem items_resolvedColumn {name : String} (h : name ∈ eventColumns) :
    items (resolvedColumn name) = [resolvedColumn name] := by
  refine items_single ⟨?_, ?_⟩
  · have first : (resolvedColumn name).toList.head? = some 'C' :=
      head?_append (head?_append (head?_append (head?_append (head?_append (by decide) _) _) _) _) _
    rw [first]
    decide
  · rw [resolvedColumn_eq h]
    exact not_mem_intercalate (by decide) (not_mem_of_separates h (.inr rfl)).2

/-! ### What is shown -/

/-- The columns that are selected are those of the row that is shown. -/
theorem exists_values (q : EventQuery) :
    ∃ values, (q.select.columns.flatMap items).mapM selected? = some values ∧
      ∀ pair row, (∀ column ∈ StoredEvent.columns,
        ∃ term, values.lookup column = some term ∧ row.datum? column = term pair) ↔
          row = q.shown pair := by
  obtain ⟨term, reads, tells⟩ : ∃ term : String → Term,
      (q.select.columns.flatMap items).mapM selected? =
        some (eventColumns.map fun name => (name, term name)) ∧
      ∀ pair name, term name pair = (q.shown pair).datum? name := by
    unfold select shown
    cases q.resolveLinks with
    | false =>
        refine ⟨fun name pair => pair.row.datum? name, ?_, fun _ _ => rfl⟩
        rw [if_neg Bool.false_ne_true, List.flatMap_singleton, items_qualifiedColumns]
        exact mapM_selected? fun name => selected?_qualified
    | true =>
        refine ⟨fun name pair => if (pair.original.bind (·.datum? "id")).isNone
          then pair.row.datum? name else pair.original.bind (·.datum? name), ?_, ?_⟩
        · rw [if_pos rfl, List.flatMap_map,
            List.flatMap_congr fun name there => items_resolvedColumn there, ← List.map_eq_flatMap]
          exact mapM_selected? fun name => selected?_resolvedColumn
        · rintro ⟨row, _ | other⟩ name
          · rfl
          · rfl
  have known : ∀ column ∈ StoredEvent.columns, column ∈ eventColumns := by
    decide
  refine ⟨_, reads, fun pair row => ⟨fun same => ?_, ?_⟩⟩
  · refine StoredEvent.eq_of_datum? fun column there => ?_
    obtain ⟨term', found, same⟩ := same column there
    rw [List.lookup_graph term (known column there), Option.some_inj] at found
    rw [same, ← found, tells]
  · rintro rfl column there
    refine ⟨term column, ?_, (tells pair column).symm⟩
    exact List.lookup_graph term (known column there)

theorem joined?_joins (q : EventQuery) : joined? q.select.joins = some q.joined := by
  unfold select joined
  cases q.resolveLinks
  · rfl
  · exact joined?_joinTargets

/-- What the text of a query asks for. -/
theorem exists_meaning (q : EventQuery) (counts : 0 ≤ q.limit) :
    ∃ m, q.select.meaning? = some m ∧ m.joined = q.joined ∧ m.limit = q.limit.toInt.toNat ∧
      (∀ pair, m.selects pair = q.selects pair.row) ∧
      (∀ a b, m.order a b = q.direction.reaches (q.order.place b.row) (q.order.place a.row)) ∧
      ∀ pair row, m.Shows pair row ↔ row = q.shown pair := by
  obtain ⟨anyOf, readAny, empty, any⟩ := exists_tests StreamScope.means_eventFragment q.anyOf
  obtain ⟨allOf, readAll, -, all⟩ := exists_tests EventCondition.means_fragment q.allOf
  obtain ⟨order, readOrder, orders⟩ := exists_order q
  obtain ⟨values, readValues, shows⟩ := exists_values q
  refine ⟨⟨q.joined, anyOf, allOf, order, values, q.limit.toInt.toNat⟩, ?_, rfl, rfl, ?_, orders,
    shows⟩
  · have readJoins := joined?_joins q
    unfold Select.meaning?
    simp only [select] at readJoins readValues ⊢
    rw [if_neg (Int64.not_lt.2 counts), readJoins, readAny, readAll, readOrder, readValues]
    rfl
  · intro pair
    unfold Selection.selects
    dsimp only
    rw [empty, (any pair).1, (all pair).2]
    rfl

theorem meaning?_of_neg {q : EventQuery} (neg : q.limit < 0) : q.select.meaning? = none := by
  unfold Select.meaning?
  exact if_pos neg

/-- What the text of a query is answered with. -/
theorem answers_select_iff (q : EventQuery) (rows answer : List StoredEvent) :
    q.select.Answers rows answer ↔ 0 ≤ q.limit ∧
      ∃ all : List JoinedRow, all.Perm ((q.joined rows).filter fun pair => q.selects pair.row) ∧
        all.Pairwise (fun a b =>
          q.direction.reaches (q.order.place b.row) (q.order.place a.row) = true) ∧
        answer = (all.take q.limit.toInt.toNat).map q.shown := by
  by_cases counts : 0 ≤ q.limit
  · obtain ⟨m, reads, joined, limit, selects, orders, shows⟩ := exists_meaning q counts
    have same : q.select.Answers rows answer ↔ m.Answers rows answer := by
      unfold Select.Answers
      rw [reads]
      constructor
      · rintro ⟨_, same, answers⟩
        exact Option.some.inj same ▸ answers
      · exact fun answers => ⟨m, rfl, answers⟩
    rw [same, Selection.Answers, joined, limit]
    have chosen : m.selects = fun pair => q.selects pair.row := funext selects
    have pairs : m.Shows = fun pair row => q.shown pair = row :=
      funext fun pair => funext fun row => propext ((shows pair row).trans eq_comm)
    have shown : ∀ chosen : List JoinedRow,
        List.Forall₂ m.Shows chosen answer ↔ answer = chosen.map q.shown := by
      intro chosen
      rw [eq_comm, ← List.forall₂_eq_eq_eq, List.forall₂_map_left_iff, pairs]
    simp only [chosen, orders, shown, and_iff_right counts]
  · refine iff_of_false ?_ fun both => counts both.1
    rintro ⟨m, reads, -⟩
    rw [meaning?_of_neg (Int64.not_le.1 counts)] at reads
    cases reads

/-- Where at most one row is put beside each, the answer is what the first of the rows that
are selected are shown as. -/
theorem exists_of_answers_of_joined {q : EventQuery} {rows answer : List StoredEvent}
    {original : StoredEvent → Option StoredEvent}
    (joined : q.joined rows = rows.map fun row => ⟨row, original row⟩)
    (answers : q.select.Answers rows answer) :
    ∃ all : List StoredEvent, all.Perm (rows.filter q.selects) ∧
      all.Pairwise (fun a b => q.direction.reaches (q.order.place b) (q.order.place a) = true) ∧
      answer = (all.take q.limit.toInt.toNat).map fun row => q.shown ⟨row, original row⟩ := by
  obtain ⟨-, pairs, perm, sorted, rfl⟩ := (answers_select_iff q rows answer).1 answers
  have selected : (q.joined rows).filter (fun pair => q.selects pair.row) =
      (rows.filter q.selects).map fun row => ⟨row, original row⟩ := by
    rw [joined, List.filter_map]
    rfl
  rw [selected] at perm
  have paired : ∀ pair ∈ pairs, (⟨pair.row, original pair.row⟩ : JoinedRow) = pair := by
    intro pair there
    obtain ⟨row, -, rfl⟩ := List.mem_map.1 (perm.mem_iff.1 there)
    rfl
  refine ⟨pairs.map (·.row), ?_, List.pairwise_map.2 sorted, ?_⟩
  · have rows := perm.map (·.row)
    rwa [List.map_map, show JoinedRow.row ∘ (fun row => ⟨row, original row⟩) = id from rfl,
      List.map_id] at rows
  · rw [← List.map_take, List.map_map]
    refine List.map_congr_left fun pair there => ?_
    exact congrArg q.shown (paired pair (List.mem_of_mem_take there)).symm

/-- Where links are not resolved, the answer is the first of the rows that are selected. -/
theorem exists_of_answers {q : EventQuery} {rows answer : List StoredEvent}
    (plain : q.resolveLinks = false) (answers : q.select.Answers rows answer) :
    ∃ all : List StoredEvent, all.Perm (rows.filter q.selects) ∧
      all.Pairwise (fun a b => q.direction.reaches (q.order.place b) (q.order.place a) = true) ∧
      answer = all.take q.limit.toInt.toNat := by
  have joined : q.joined rows = rows.map fun row => ⟨row, none⟩ := by
    rw [EventQuery.joined, plain, if_neg Bool.false_ne_true]
  obtain ⟨all, those, sorted, first⟩ := exists_of_answers_of_joined joined answers
  refine ⟨all, those, sorted, first.trans ?_⟩
  have shown (row : StoredEvent) : q.shown ⟨row, none⟩ = row := by
    rw [EventQuery.shown, plain, if_neg Bool.false_ne_true]
  exact (List.map_congr_left fun row _ => shown row).trans (List.map_id _)

end EventQuery

end EventJournal

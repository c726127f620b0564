import EventJournal.Proofs.Reads
import EventJournal.Proofs.Revisions

/-!
# Links that a read resolves

Positions tell rows apart, so the join of a read puts at most one row beside each. A read
that resolves links then has the rows of the read that does not, each with the row it refers
to in its place, and in the same order: places tell the rows of a stream apart as well.

## Main results

* `EventQuery.answers_eq` — numbered rows leave a query one answer.
* `Read.runOn_rows_both` — a read with and without the resolution of links.
-/

namespace EventJournal

namespace StoredEvent

/-- The row that a row refers to; the row itself where there is none. -/
def target (rows : List StoredEvent) (row : StoredEvent) : StoredEvent :=
  (rows.find? row.refersTo).getD row

theorem place_of_refersTo {row a b : StoredEvent} (refersA : row.refersTo a = true)
    (refersB : row.refersTo b = true) :
    EventOrder.position.place a = EventOrder.position.place b := by
  have positionA := of_decide_eq_true (Bool.and_eq_true_iff.1 refersA).2
  have positionB := of_decide_eq_true (Bool.and_eq_true_iff.1 refersB).2
  exact congrArg Int64.toInt (Option.some.inj (positionA.symm.trans positionB))

/-- A row refers to one row at most. -/
theorem eq_of_refersTo {rows : List StoredEvent} (apart : EventQuery.Distinct .position rows)
    {row a b : StoredEvent} (ha : a ∈ rows) (hb : b ∈ rows) (refersA : row.refersTo a = true)
    (refersB : row.refersTo b = true) : a = b :=
  apart.eq_of_place ha hb (place_of_refersTo refersA refersB)

end StoredEvent

namespace EventQuery

variable {q : EventQuery} {rows : List StoredEvent}

theorem beside_refersTo (apart : Distinct .position rows) (row : StoredEvent) :
    Sql.beside (fun pair => pair.original.any pair.row.refersTo) rows row =
      [⟨row, rows.find? row.refersTo⟩] := by
  have some_ : (fun other => Option.any row.refersTo (some other)) = row.refersTo := rfl
  rw [Sql.beside, some_, ← List.head?_filter]
  cases found : rows.filter row.refersTo with
  | nil => rfl
  | cons a rest =>
      cases rest with
      | nil => rfl
      | cons b rest =>
          have refers : ∀ other ∈ rows.filter row.refersTo, row.refersTo other = true :=
            fun other there => (List.mem_filter.1 there).2
          have distinct := apart.filter row.refersTo
          rw [found] at refers distinct
          have same := StoredEvent.place_of_refersTo (refers a List.mem_cons_self)
            (refers b (List.mem_cons_of_mem _ List.mem_cons_self))
          exact absurd same ((List.pairwise_cons.1 distinct).1 b List.mem_cons_self)

/-- The join puts at most one row beside each. -/
theorem joined_of_distinct (resolves : q.resolveLinks = true) (apart : Distinct .position rows) :
    q.joined rows = rows.map fun row => ⟨row, rows.find? row.refersTo⟩ := by
  rw [joined, resolves, if_pos rfl, Sql.leftJoin, List.map_eq_flatMap]
  exact List.flatMap_congr fun row _ => beside_refersTo apart row

/-- Rows of distinct places can be put into one order only. -/
theorem eq_sort {order : EventOrder} {direction : Direction} {all : List StoredEvent}
    (distinct : Distinct order rows) (those : all.Perm rows)
    (sorted : all.Pairwise fun a b =>
      direction.reaches (order.place b) (order.place a) = true) :
    all = sort order direction rows := by
  have apart : Distinct order all := those.symm.pairwise distinct fun ne => ne.symm
  have strict := (sorted.and apart).imp fun both => Direction.before_of_reaches both.1 both.2
  refine List.Perm.eq_of_pairwise ?_ strict (pairwise_sort direction distinct)
    (those.trans (List.mergeSort_perm rows _).symm)
  exact fun a b _ _ ab ba => (ab.asymm ba).elim

/-- Rows of distinct places leave a query one answer. -/
theorem answers_eq {answer : List StoredEvent} (apart : Distinct .position rows)
    (distinct : Distinct q.order (rows.filter q.selects))
    (answers : q.select.Answers rows answer) :
    answer = if q.resolveLinks then (q.answer rows).map (StoredEvent.target rows)
      else q.answer rows := by
  cases resolves : q.resolveLinks with
  | false =>
      obtain ⟨all, those, sorted, rfl⟩ := exists_of_answers resolves answers
      rw [eq_sort distinct those sorted]
      rfl
  | true =>
      obtain ⟨all, those, sorted, rfl⟩ :=
        exists_of_answers_of_joined (joined_of_distinct resolves apart) answers
      rw [eq_sort distinct those sorted, if_pos rfl]
      refine List.map_congr_left fun row _ => ?_
      rw [shown, resolves, if_pos rfl]
      rfl

end EventQuery

namespace EventTable

open EventQuery

variable {rows : List StoredEvent} {lastDrawn : Nat} {stream : Stream} {options : ReadOptions}
  {query : EventQuery}

/-- Any changes leave numbered rows. -/
theorem numbered_performAll (c : Circumstances) (changes : List (Journal × Change))
    (cache : LeafCache) :
    Holds Numbered ((Change.performAll changes).runOn (database c.truthful) cache {}).2 :=
  (ends_performAll_holds establishes_append establishes_delete establishes_deleteStream changes
    cache {} (Numbered.nil 0)).database

/-- Places tell the rows of a read apart. -/
theorem Numbered.distinct (h : Numbered rows lastDrawn)
    (asked : ofOptions stream options = .ok query) :
    Distinct query.order (rows.filter query.selects) := by
  rw [(Read.ofOptions_eq_ok asked).1, Read.orderOf]
  split
  · rename_i regular
    have mine : rows.filter query.selects = (ofStream stream rows).filter query.selects := by
      unfold ofStream
      rw [List.filter_filter]
      refine List.filter_congr fun row _ => ?_
      cases selected : query.selects row with
      | false => rfl
      | true => rw [((ofOptions_selects_iff asked row).1 selected).ofStream regular, Bool.and_self]
    have counted := List.pairwise_map.1 (h.counted stream).pairwise
    have distinct : Distinct .revision (ofStream stream rows) :=
      counted.imp fun less => Int.ne_of_lt (Int32.lt_iff_toInt_lt.1 less)
    rw [mine]
    exact distinct.filter _
  · exact h.apart.filter _

end EventTable

namespace Read

open EventJournal.Action EventTable

variable {δ σ : Type} {db : Database δ} {table : δ → List StoredEvent} {stream : Stream}
  {options : ReadOptions} {query : EventQuery} {lastDrawn : Nat}

/-- Whether links are resolved changes nothing else of a query, nor whether there is one. -/
theorem ofOptions_resolving (stream : Stream) (options : ReadOptions) (resolve : Bool) :
    EventQuery.ofOptions stream { options with resolveLinks := resolve } =
      (EventQuery.ofOptions stream options).map fun query =>
        { query with resolveLinks := resolve } := by
  unfold EventQuery.ofOptions
  split
  · rfl
  · rfl
  · split
    · rfl
    · rfl

/-- A read that resolves links has the row that each row of the plain read refers to. Where
one of the two finds no stream, the other does not either. -/
theorem runOn_rows_both (reads : db.Reads table)
    (asked : EventQuery.ofOptions stream options = .ok query) (s : σ) (d : δ)
    (numbered : Numbered (table d) lastDrawn) :
    ∃ found d₁ d₂, found ⊆ table d ∧ table d₁ = table d ∧ table d₂ = table d ∧
      (rows stream { options with resolveLinks := false }).runOn db s d =
        ((if found.isEmpty = true ∧ Missing stream (table d) then
            .error (.error (.streamNotFound stream)) else .ok found, s), d₁) ∧
      (rows stream { options with resolveLinks := true }).runOn db s d =
        ((if found.isEmpty = true ∧ Missing stream (table d) then
            .error (.error (.streamNotFound stream))
          else .ok (found.map (StoredEvent.target (table d))), s), d₂) := by
  have answers_ (resolve : Bool) : ∃ d', table d' = table d ∧
      (rows stream { options with resolveLinks := resolve }).runOn db s d =
        ((if (query.answer (table d)).isEmpty = true ∧ Missing stream (table d) then
            .error (.error (.streamNotFound stream))
          else .ok (if resolve then (query.answer (table d)).map (StoredEvent.target (table d))
            else query.answer (table d)), s), d') := by
    have asked' : EventQuery.ofOptions stream { options with resolveLinks := resolve } =
        .ok { query with resolveLinks := resolve } := by
      rw [ofOptions_resolving, asked]
      rfl
    obtain ⟨answer, d', answers, same, ends⟩ := runOn_rows reads asked' s d
    refine ⟨d', same, ?_⟩
    have only : answer =
        if resolve then (query.answer (table d)).map (StoredEvent.target (table d))
        else query.answer (table d) :=
      EventQuery.answers_eq numbered.apart (numbered.distinct asked') answers
    have empty : answer.isEmpty = (query.answer (table d)).isEmpty := by
      rw [only]
      cases resolve
      · rfl
      · exact List.isEmpty_map
    rw [ends, empty, only]
  obtain ⟨d₁, same₁, plain⟩ := answers_ false
  obtain ⟨d₂, same₂, inline⟩ := answers_ true
  refine ⟨query.answer (table d), d₁, d₂, ?_, same₁, same₂, plain, inline⟩
  intro row there
  exact (List.mem_filter.1 (EventQuery.mem_sort.1 (List.mem_of_mem_take there))).1

end Read

end EventJournal

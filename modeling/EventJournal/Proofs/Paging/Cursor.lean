import EventJournal.Proofs.Query.Meaning
import EventJournal.Read.Pages

/-!
# Where a page begins

A long read asks for the same rows again and again, from a cursor on. What it selects
wherever it begins is `Read.selects`, and `Read.matching` are these rows in the order of
the read; a page that begins at a place holds the first of those that lie there or beyond
(`Read.Pageable.answer_page`).

After a page the cursor stands at the rows that are left: they are the rows beyond the
last one of the page, because places ascend strictly in the direction of the read
(`Direction.filter_reaches_eq_drop`), and one step beyond a place there is no other place
in between.

## Main results

* `Read.Pageable.stands_after` — the cursor after a page stands at the rows that are left.
* `Read.Paged.exists`, `Read.Paged.exists_cons` — rows have pages, one after the other.
-/

namespace EventJournal

/-! ## Places beyond a place -/

namespace Direction

/-- The next place. -/
def next (direction : Direction) (place : Int) : Int :=
  match direction with
  | .forward => place + 1
  | .backward => place - 1

theorem reaches_next_iff {direction : Direction} {place last : Int} :
    direction.reaches place (direction.next last) = true ↔ direction.Before last place := by
  cases direction
  · exact decide_eq_true_iff.trans Int.add_one_le_iff
  · exact decide_eq_true_iff.trans Int.le_sub_one_iff

variable {α : Type} {direction : Direction} {f : α → Int}

/-- Beyond the last of the first items are the items after them. -/
theorem filter_reaches_eq_drop {items : List α}
    (sorted : items.Pairwise fun a b => direction.Before (f a) (f b)) {size : Nat} {last : α}
    (there : (items.take size).getLast? = some last) :
    (items.filter fun item => direction.reaches (f item) (direction.next (f last))) =
      items.drop size := by
  obtain ⟨before, split⟩ := List.getLast?_eq_some_iff.1 there
  have parts : items = before ++ (last :: items.drop size) := by
    rw [List.append_cons, ← split, List.take_append_drop]
  have sorted' := parts ▸ sorted
  obtain ⟨-, after, across⟩ := List.pairwise_append.1 sorted'
  obtain ⟨beyond, -⟩ := List.pairwise_cons.1 after
  have none : before.filter (fun item => direction.reaches (f item) (direction.next (f last))) =
      [] := by
    rw [List.filter_eq_nil_iff]
    intro item early
    rw [reaches_next_iff]
    exact fun late => late.asymm (across item early last List.mem_cons_self)
  have all : (items.drop size).filter
      (fun item => direction.reaches (f item) (direction.next (f last))) = items.drop size := by
    rw [List.filter_eq_self]
    exact fun item late => reaches_next_iff.2 (beyond item late)
  have self : [last].filter (fun item => direction.reaches (f item) (direction.next (f last))) =
      [] := by
    rw [List.filter_eq_nil_iff]
    intro item same
    rw [List.mem_singleton.1 same, reaches_next_iff]
    exact fun before => before.asymm before
  calc items.filter (fun item => direction.reaches (f item) (direction.next (f last)))
      = (before ++ [last] ++ items.drop size).filter
          (fun item => direction.reaches (f item) (direction.next (f last))) := by
        rw [← List.append_cons, ← parts]
    _ = items.drop size := by
        rw [List.filter_append, List.filter_append, none, self, all, List.nil_append,
          List.nil_append]

end Direction

/-! ## Pages -/

namespace Read

/-- The pages of rows: none is empty or too large, and all but the last are full. -/
structure Paged (size : Nat) (rows : List StoredEvent) (chunks : List (List StoredEvent)) :
    Prop where
  flatten : chunks.flatten = rows
  nonempty : ∀ chunk ∈ chunks, chunk ≠ []
  bounded : ∀ chunk ∈ chunks, chunk.length ≤ size
  full : ∀ chunk ∈ chunks.dropLast, chunk.length = size

theorem Paged.nil (size : Nat) : Paged size [] [] :=
  ⟨rfl, fun _ there => (nomatch there), fun _ there => (nomatch there),
    fun _ there => (nomatch there)⟩

/-- A page before the pages of the rows that are left. -/
theorem Paged.cons {size : Nat} {rows : List StoredEvent} {chunks : List (List StoredEvent)}
    (positive : 0 < size) (some : rows ≠ []) (h : Paged size (rows.drop size) chunks) :
    Paged size rows (rows.take size :: chunks) where
  flatten := by rw [List.flatten_cons, h.flatten, List.take_append_drop]
  nonempty chunk there := by
    rcases List.mem_cons.1 there with rfl | there
    · rw [Ne, List.take_eq_nil_iff]
      intro got
      rcases got with zero | empty
      · omega
      · exact some empty
    · exact h.nonempty chunk there
  bounded chunk there := by
    rcases List.mem_cons.1 there with rfl | there
    · exact List.length_take_le size rows
    · exact h.bounded chunk there
  full chunk there := by
    cases chunks with
    | nil => cases there
    | cons first rest =>
        rcases List.mem_cons.1 there with rfl | there
        · -- rows are left after this page
          have left : rows.drop size ≠ [] := by
            rw [← h.flatten, List.flatten_cons]
            intro empty
            exact h.nonempty first List.mem_cons_self (List.append_eq_nil_iff.1 empty).1
          rw [List.length_take]
          have := List.length_pos_iff.2 left
          rw [List.length_drop] at this
          omega
        · exact h.full chunk there

theorem Paged.exists {size : Nat} (positive : 0 < size) (rows : List StoredEvent) :
    ∃ chunks, Paged size rows chunks := by
  induction h : rows.length using Nat.strongRecOn generalizing rows with
  | _ n ih =>
      cases rows with
      | nil => exact ⟨[], .nil size⟩
      | cons row rest =>
          have less : ((row :: rest).drop size).length < n := by
            rw [List.length_drop, h]
            have : 0 < n := by rw [← h]; exact Nat.succ_pos _
            omega
          obtain ⟨chunks, paged⟩ := ih _ less _ rfl
          exact ⟨_, paged.cons positive (List.cons_ne_nil row rest)⟩

/-- Without rows there is no page. -/
theorem Paged.eq_nil {size : Nat} {chunks : List (List StoredEvent)} (h : Paged size [] chunks) :
    chunks = [] := by
  cases chunks with
  | nil => rfl
  | cons first rest =>
      have empty := h.flatten
      rw [List.flatten_cons, List.append_eq_nil_iff] at empty
      exact absurd empty.1 (h.nonempty first List.mem_cons_self)

/-- The first page holds the first rows, and the others are the pages of the rows that are
left. -/
theorem Paged.exists_cons {size : Nat} {rows : List StoredEvent}
    {chunks : List (List StoredEvent)} (h : Paged size rows chunks) (more : rows ≠ []) :
    ∃ rest, chunks = rows.take size :: rest ∧ Paged size (rows.drop size) rest := by
  cases chunks with
  | nil => exact absurd h.flatten.symm more
  | cons first rest =>
      have split : rows = first ++ rest.flatten := h.flatten.symm
      have parts : rows.take size = first ∧ rows.drop size = rest.flatten := by
        rw [split]
        cases rest with
        | nil =>
            have bound := h.bounded first List.mem_cons_self
            rw [List.flatten_nil, List.append_nil]
            exact ⟨List.take_of_length_le bound, List.drop_eq_nil_of_le bound⟩
        | cons second others =>
            have full : first.length = size := h.full first List.mem_cons_self
            exact ⟨List.take_left' full, List.drop_left' full⟩
      refine ⟨rest, by rw [parts.1], ?_, ?_, ?_, ?_⟩
      · exact parts.2.symm
      · exact fun chunk there => h.nonempty chunk (List.mem_cons_of_mem _ there)
      · exact fun chunk there => h.bounded chunk (List.mem_cons_of_mem _ there)
      · intro chunk there
        cases rest with
        | nil => cases there
        | cons second others => exact h.full chunk (List.mem_cons_of_mem _ there)

/-! ## What a read selects -/

/-- What a stream is ordered by. -/
def orderOf (stream : Stream) : EventOrder := if stream.isRegular then .revision else .position

theorem toInt_placeOf (stream : Stream) (row : StoredEvent) :
    (placeOf stream row).toInt = (orderOf stream).place row := by
  unfold placeOf orderOf
  split
  · exact Int32.toInt_toInt64 _
  · rfl

/-- The row is one of those a read selects, wherever it begins. -/
def selects (stream : Stream) (filter : ReadFilter) (row : StoredEvent) : Bool :=
  match EventQuery.ofOptions stream { filter } with
  | .ok query => query.selects row
  | .error _ => false

/-- The row lies at the start of a read or beyond. -/
def begun (stream : Stream) (options : ReadOptions) (row : StoredEvent) : Bool :=
  (explicitStart stream options).all fun place =>
    options.direction.reaches ((orderOf stream).place row) place.toInt

theorem selects_ofStream (stream : Stream) (options : ReadOptions) (row : StoredEvent) :
    (EventQuery.ofStream stream options).selects row =
      ((EventQuery.ofStream stream { filter := options.filter }).selects row &&
        options.fromRevision.all fun revision =>
          options.direction.reaches row.streamRevision.toInt revision.toInt) := by
  cases bound : options.fromRevision <;>
    simp [EventQuery.selects, EventQuery.ofStream, bound, Bool.and_comm, Bool.and_left_comm]

theorem selects_ofFilter (extra : List EventCondition) (options : ReadOptions)
    (row : StoredEvent) :
    (EventQuery.ofFilter extra options).selects row =
      ((EventQuery.ofFilter extra { filter := options.filter }).selects row &&
        options.fromPosition.all fun position =>
          options.direction.reaches row.globalPosition.toInt position.toInt) := by
  cases bound : options.fromPosition <;>
    simp [EventQuery.selects, EventQuery.ofFilter, bound, Bool.and_assoc, Bool.and_comm,
      Bool.and_left_comm]

/-- A query of a read orders and bounds as its options say, and selects what the read
selects and has begun with. -/
theorem ofOptions_eq_ok {stream : Stream} {options : ReadOptions} {query : EventQuery}
    (h : EventQuery.ofOptions stream options = .ok query) :
    query.order = orderOf stream ∧ query.direction = options.direction ∧
      query.limit = options.limit ∧
        query.selects = fun row =>
          selects stream options.filter row && begun stream options row := by
  obtain ⟨context, name, id, kind⟩ := stream
  cases kind with
  | regular =>
      cases h
      refine ⟨rfl, rfl, rfl, funext fun row => ?_⟩
      rw [selects_ofStream, begun, explicitStart]
      cases options.fromRevision with
      | none => rfl
      | some revision =>
          simp [selects, EventQuery.ofOptions, orderOf, Stream.isRegular, EventOrder.place]
  | all =>
      cases h
      refine ⟨rfl, rfl, rfl, funext fun row => ?_⟩
      exact selects_ofFilter [] options row
  | system =>
      unfold EventQuery.ofOptions at h
      dsimp only at h
      split at h
      · rename_i known
        cases h
        refine ⟨rfl, rfl, rfl, funext fun row => ?_⟩
        rw [selects_ofFilter, selects, EventQuery.ofOptions]
        dsimp only
        rw [if_pos known]
        rfl
      · cases h

theorem resolveLinks_of_ofOptions {stream : Stream} {options : ReadOptions} {query : EventQuery}
    (h : EventQuery.ofOptions stream options = .ok query) :
    query.resolveLinks = options.resolveLinks := by
  unfold EventQuery.ofOptions at h
  split at h
  · cases h
    rfl
  · cases h
    rfl
  · split at h
    · cases h
      rfl
    · cases h

/-- A stream that can be read can be read with any options. -/
theorem exists_ofOptions {stream : Stream} {options : ReadOptions} {query : EventQuery}
    (h : EventQuery.ofOptions stream options = .ok query) (other : ReadOptions) :
    ∃ query, EventQuery.ofOptions stream other = .ok query := by
  unfold EventQuery.ofOptions at h ⊢
  split at h
  · exact ⟨_, rfl⟩
  · exact ⟨_, rfl⟩
  · split at h
    · rename_i known
      exact ⟨_, if_pos known⟩
    · cases h

/-! ## The rows of a read -/

/-- A row that a read of the stream may select. -/
def belongs (stream : Stream) (row : StoredEvent) : Bool := !stream.isRegular || row.liesIn stream

theorem belongs_of_selects {stream : Stream} {filter : ReadFilter} {row : StoredEvent}
    (h : selects stream filter row = true) : belongs stream row = true := by
  obtain ⟨context, name, id, kind⟩ := stream
  cases kind with
  | regular =>
      simp only [selects, EventQuery.ofOptions, EventQuery.selects, EventQuery.ofStream,
        List.all_cons, Bool.and_eq_true] at h
      exact h.2.1
  | all => rfl
  | system => rfl

/-- A place above those of all rows. -/
def topPlace (stream : Stream) : Int :=
  if stream.isRegular then Int32.maxValue.toInt else Int64.maxValue.toInt

/-- Rows that can be read page by page: the places of those that belong to the stream are
distinct, not negative and below the greatest one there is. -/
structure Pageable (stream : Stream) (rows : List StoredEvent) : Prop where
  distinct : EventQuery.Distinct (orderOf stream) (rows.filter (belongs stream))
  nonneg : ∀ row ∈ rows, belongs stream row = true → 0 ≤ (orderOf stream).place row
  below : ∀ row ∈ rows, belongs stream row = true → (orderOf stream).place row < topPlace stream

/-- The rows that a read selects, wherever it begins, in its order. -/
def matching (stream : Stream) (options : ReadOptions) (rows : List StoredEvent) :
    List StoredEvent :=
  EventQuery.sort (orderOf stream) options.direction (rows.filter (selects stream options.filter))

/-- The rows of a read at a place or beyond. -/
def rowsFrom (stream : Stream) (options : ReadOptions) (rows : List StoredEvent)
    (place : Int) : List StoredEvent :=
  (matching stream options rows).filter fun row =>
    options.direction.reaches ((orderOf stream).place row) place

section

variable {stream : Stream} {options : ReadOptions} {rows : List StoredEvent}

theorem Pageable.distinct_selected (h : Pageable stream rows) (filter : ReadFilter) :
    EventQuery.Distinct (orderOf stream) (rows.filter (selects stream filter)) := by
  have stronger : rows.filter (selects stream filter) =
      (rows.filter (belongs stream)).filter (selects stream filter) := by
    rw [List.filter_filter]
    refine List.filter_congr fun row _ => ?_
    cases selected : selects stream filter row with
    | false => rfl
    | true => rw [belongs_of_selects selected, Bool.and_self]
  rw [stronger]
  exact h.distinct.filter _

theorem Pageable.bounds (h : Pageable stream rows) {row : StoredEvent}
    (there : row ∈ matching stream options rows) :
    0 ≤ (orderOf stream).place row ∧ (orderOf stream).place row < topPlace stream := by
  obtain ⟨there, selected⟩ := List.mem_filter.1 (EventQuery.mem_sort.1 there)
  exact ⟨h.nonneg row there (belongs_of_selects selected),
    h.below row there (belongs_of_selects selected)⟩

theorem Pageable.sorted (h : Pageable stream rows) (options : ReadOptions) :
    (matching stream options rows).Pairwise fun a b =>
      options.direction.Before ((orderOf stream).place a) ((orderOf stream).place b) :=
  EventQuery.pairwise_sort _ (h.distinct_selected _)

/-- All rows of a query of a read. -/
theorem Pageable.ordered_eq (h : Pageable stream rows) {query : EventQuery}
    (there : EventQuery.ofOptions stream options = .ok query) :
    query.ordered rows = (matching stream options rows).filter (begun stream options) := by
  obtain ⟨order, direction, -, selected⟩ := ofOptions_eq_ok there
  unfold EventQuery.ordered matching
  rw [← EventQuery.sort_filter _ (h.distinct_selected _), List.filter_filter, order, direction,
    selected]
  simp only [Bool.and_comm]

theorem matching_congr {other : ReadOptions} (filter : other.filter = options.filter)
    (direction : other.direction = options.direction) :
    matching stream other rows = matching stream options rows := by
  unfold matching
  rw [filter, direction]

theorem rowsFrom_sorted (h : Pageable stream rows) (place : Int) :
    (rowsFrom stream options rows place).Pairwise fun a b =>
      options.direction.Before ((orderOf stream).place a) ((orderOf stream).place b) :=
  (h.sorted options).sublist List.filter_sublist

/-! ## Queries of a long read -/

/-- A revision can be asked for that fits into one. -/
def Fits (stream : Stream) (place : Int64) : Prop :=
  stream.isRegular = true →
    Int32.minValue.toInt ≤ place.toInt ∧ place.toInt ≤ Int32.maxValue.toInt

theorem pageOptions_eq_ok {place : Int64} (fits : Fits stream place) :
    ∃ page start, pageOptions stream options place = .ok page ∧ page.filter = options.filter ∧
      page.direction = options.direction ∧ page.limit = options.limit ∧
        page.resolveLinks = false ∧ explicitStart stream page = some start ∧
          start.toInt = place.toInt := by
  unfold pageOptions explicitStart
  cases regular : stream.isRegular with
  | false => exact ⟨_, place, rfl, rfl, rfl, rfl, rfl, rfl, rfl⟩
  | true =>
      have range := fits regular
      refine ⟨_, place.toInt32.toInt64, if_pos range, rfl, rfl, rfl, rfl, rfl, ?_⟩
      have low : Int32.minValue.toInt = -2 ^ 31 := rfl
      have high : Int32.maxValue.toInt = 2 ^ 31 - 1 := rfl
      rw [Int32.toInt_toInt64, Int64.toInt_toInt32]
      exact Int.bmod_eq_of_le (by omega) (by omega)

/-- The page that begins at a place holds the first rows there or beyond. -/
theorem Pageable.answer_page (h : Pageable stream rows) {known : EventQuery}
    (readable : EventQuery.ofOptions stream options = .ok known) {place : Int64}
    (fits : Fits stream place) :
    ∃ page query, pageOptions stream options place = .ok page ∧
      EventQuery.ofOptions stream page = .ok query ∧ query.resolveLinks = false ∧
        query.answer rows =
          (rowsFrom stream options rows place.toInt).take options.limit.toInt.toNat := by
  obtain ⟨page, start, there, filter, direction, limit, plain, begins, same⟩ :=
    pageOptions_eq_ok fits
  obtain ⟨query, asked⟩ := exists_ofOptions readable page
  refine ⟨page, query, there, asked, (resolveLinks_of_ofOptions asked).trans plain, ?_⟩
  have bound : begun stream page = fun row =>
      options.direction.reaches ((orderOf stream).place row) place.toInt := by
    funext row
    rw [begun, begins, Option.all_some, direction, same]
  rw [EventQuery.answer, h.ordered_eq asked, (ofOptions_eq_ok asked).2.2.1, limit, bound,
    matching_congr filter direction]
  rfl

/-- Without a start the first row of a read is asked for. -/
theorem Pageable.answer_probe (h : Pageable stream rows) {query : EventQuery}
    (asked : EventQuery.ofOptions stream { options with maxCount := 1, resolveLinks := false } =
      .ok query)
    (unbound : explicitStart stream options = none) :
    query.answer rows = (matching stream options rows).take 1 := by
  have bound : begun stream { options with maxCount := 1, resolveLinks := false } =
      fun _ => true := by
    funext row
    show (explicitStart stream options).all _ = true
    rw [unbound]
    rfl
  rw [EventQuery.answer, h.ordered_eq asked, (ofOptions_eq_ok asked).2.2.1, bound,
    List.filter_eq_self.2 fun _ _ => rfl]
  rfl

/-! ## Cursors -/

/-- A stream is read that has no rows. -/
def Missing (stream : Stream) (rows : List StoredEvent) : Prop :=
  stream.isRegular = true ∧ rows.any (·.liesIn stream) = false

theorem not_missing {row : StoredEvent} (there : row ∈ matching stream options rows) :
    ¬Missing stream rows := by
  intro got
  obtain ⟨regular, none⟩ := got
  obtain ⟨there, selected⟩ := List.mem_filter.1 (EventQuery.mem_sort.1 there)
  have lies := belongs_of_selects selected
  rw [belongs, regular, Bool.not_true, Bool.false_or] at lies
  rw [List.any_eq_true.2 ⟨row, there, lies⟩] at none
  cases none

/-- The cursor stands at the rows that are left of a read. -/
def Stands (stream : Stream) (options : ReadOptions) (rows left : List StoredEvent) :
    PageCursor → Prop
  | .start => left = (matching stream options rows).filter (begun stream options)
  | .at place => Fits stream place ∧ left = rowsFrom stream options rows place.toInt
  | .done => left = [] ∧ ¬Missing stream rows

/-- What lies one place further than a row of a read lies within the read. -/
theorem rowsFrom_next {place : Int} {last : StoredEvent}
    (there : last ∈ rowsFrom stream options rows place) :
    rowsFrom stream options rows (options.direction.next ((orderOf stream).place last)) =
      (rowsFrom stream options rows place).filter fun row =>
        options.direction.reaches ((orderOf stream).place row)
          (options.direction.next ((orderOf stream).place last)) := by
  unfold rowsFrom
  rw [List.filter_filter]
  refine List.filter_congr fun row _ => ?_
  cases beyond : options.direction.reaches ((orderOf stream).place row)
      (options.direction.next ((orderOf stream).place last)) with
  | false => rfl
  | true =>
      have after := (Direction.reaches_next_iff.1 beyond).reaches
      rw [Direction.reaches_trans (List.mem_filter.1 there).2 after, Bool.and_self]

/-- No row lies below zero, where a backward read ends. -/
theorem Pageable.rowsFrom_of_neg (h : Pageable stream rows)
    (backward : options.direction = .backward) {place : Int} (below : place < 0) :
    rowsFrom stream options rows place = [] := by
  unfold rowsFrom
  rw [List.filter_eq_nil_iff]
  intro row there
  have bound := (h.bounds there).1
  rw [backward]
  simp only [Direction.reaches, decide_eq_true_eq]
  omega

/-- A place of a row has a neighbour. -/
theorem step?_of_bounds (direction : Direction) {place : Int64} (nonneg : 0 ≤ place.toInt)
    (below : place.toInt < Int64.maxValue.toInt) :
    ∃ next, step? direction place = some next ∧ next.toInt = direction.next place.toInt := by
  have top : Int64.maxValue.toInt = 2 ^ 63 - 1 := rfl
  have bottom : Int64.minValue.toInt = -2 ^ 63 := rfl
  cases direction with
  | forward =>
      refine ⟨place + 1, if_neg ?_, ?_⟩
      · rintro rfl
        omega
      · rw [Int64.toInt_add, Int64.toInt_one]
        exact Int.bmod_eq_of_le (by omega) (by omega)
  | backward =>
      refine ⟨place - 1, if_neg ?_, ?_⟩
      · rintro rfl
        omega
      · rw [Int64.toInt_sub, Int64.toInt_one]
        exact Int.bmod_eq_of_le (by omega) (by omega)

/-- After a full page the cursor moves one place further, or the read ends below zero. -/
theorem cursorAfter?_of_full (direction : Direction) {size : Nat} {limit last : Int64}
    (full : limit.toInt ≤ size) (nonneg : 0 ≤ last.toInt)
    (below : last.toInt < Int64.maxValue.toInt) :
    (∃ next, cursorAfter? direction size limit last = some (.at next) ∧
      next.toInt = direction.next last.toInt ∧ 0 ≤ next.toInt) ∨
    (cursorAfter? direction size limit last = some .done ∧ direction = .backward ∧
      direction.next last.toInt < 0) := by
  obtain ⟨next, step, same⟩ := step?_of_bounds direction nonneg below
  unfold cursorAfter?
  rw [if_neg (by omega), step, Option.map_some]
  by_cases low : next < 0
  · rw [if_pos low]
    rw [Int64.lt_iff_toInt_lt, Int64.toInt_zero, same] at low
    refine .inr ⟨rfl, ?_, low⟩
    cases direction with
    | forward =>
        simp only [Direction.next] at low
        omega
    | backward => rfl
  · rw [if_neg low]
    rw [Int64.lt_iff_toInt_lt, Int64.toInt_zero] at low
    exact .inl ⟨next, rfl, same, by omega⟩

/-- The cursor after a page stands at the rows that are left. -/
theorem Pageable.stands_after (h : Pageable stream rows) (positive : 0 < options.limit.toInt)
    {place : Int} {last : StoredEvent}
    (there : ((rowsFrom stream options rows place).take options.limit.toInt.toNat).getLast? =
      some last) :
    ∃ next, cursorAfter? options.direction
        ((rowsFrom stream options rows place).take options.limit.toInt.toNat).length options.limit
          (placeOf stream last) = some next ∧
      Stands stream options rows
        ((rowsFrom stream options rows place).drop options.limit.toInt.toNat) next := by
  have member : last ∈ rowsFrom stream options rows place :=
    List.mem_of_mem_take (List.mem_of_getLast? there)
  have found := not_missing (List.mem_filter.1 member).1
  by_cases short : (rowsFrom stream options rows place).length < options.limit.toInt.toNat
  · refine ⟨.done, if_pos ?_, List.drop_eq_nil_of_le (by omega), found⟩
    rw [List.length_take]
    omega
  · obtain ⟨nonneg, below⟩ := h.bounds (List.mem_filter.1 member).1
    have left : (rowsFrom stream options rows place).drop options.limit.toInt.toNat =
        rowsFrom stream options rows (options.direction.next ((orderOf stream).place last)) := by
      rw [rowsFrom_next member]
      exact (Direction.filter_reaches_eq_drop (rowsFrom_sorted h place) there).symm
    have top : Int32.maxValue.toInt = 2 ^ 31 - 1 := rfl
    have top' : Int64.maxValue.toInt = 2 ^ 63 - 1 := rfl
    have bottom : Int32.minValue.toInt = -2 ^ 31 := rfl
    have inside : topPlace stream ≤ Int64.maxValue.toInt := by
      unfold topPlace
      split <;> omega
    rw [← toInt_placeOf] at nonneg below left
    have full : options.limit.toInt ≤
        ((rowsFrom stream options rows place).take options.limit.toInt.toNat).length := by
      rw [List.length_take]
      omega
    rcases cursorAfter?_of_full options.direction full nonneg (by omega) with
      ⟨next, moved, same, nonneg'⟩ | ⟨ended, backward, low⟩
    · refine ⟨.at next, moved, fun regular => ?_, by rw [left, same]⟩
      rw [topPlace, if_pos regular] at below
      rw [same] at nonneg' ⊢
      cases options.direction <;> simp only [Direction.next] at nonneg' ⊢ <;> omega
    · exact ⟨.done, ended, left.trans (h.rowsFrom_of_neg backward low), found⟩

theorem fits_of_explicitStart {place : Int64} (told : explicitStart stream options = some place) :
    Fits stream place := by
  intro regular
  unfold explicitStart at told
  rw [if_pos regular] at told
  obtain ⟨revision, -, rfl⟩ := Option.map_eq_some_iff.1 told
  rw [Int32.toInt_toInt64]
  exact ⟨revision.minValue_le_toInt, revision.toInt_le⟩

/-- What a read begins with, if it is told where. -/
theorem start_of_explicit {place : Int64} (told : explicitStart stream options = some place) :
    (matching stream options rows).filter (begun stream options) =
      rowsFrom stream options rows place.toInt := by
  unfold rowsFrom begun
  simp only [told, Option.all_some]

/-- Without a start a read begins with all its rows. -/
theorem start_of_none (unbound : explicitStart stream options = none) :
    (matching stream options rows).filter (begun stream options) =
      matching stream options rows := by
  refine List.filter_eq_self.2 fun row _ => ?_
  rw [begun, unbound]
  rfl

/-- A forward read of all rows begins at zero. -/
theorem Pageable.rowsFrom_zero (h : Pageable stream rows) (forward : options.direction = .forward) :
    rowsFrom stream options rows 0 = matching stream options rows := by
  refine List.filter_eq_self.2 fun row there => ?_
  rw [forward]
  exact decide_eq_true (h.bounds there).1

/-- A read of all rows begins at the first of them. -/
theorem Pageable.rowsFrom_first (h : Pageable stream rows) {first : StoredEvent}
    {others : List StoredEvent} (order : matching stream options rows = first :: others) :
    rowsFrom stream options rows ((orderOf stream).place first) = matching stream options rows := by
  refine List.filter_eq_self.2 fun row there => ?_
  have sorted := h.sorted options
  rw [order] at there sorted
  rcases List.mem_cons.1 there with rfl | later
  · cases options.direction <;> exact decide_eq_true (Int.le_refl _)
  · exact ((List.pairwise_cons.1 sorted).1 row later).reaches

theorem Pageable.fits_of_mem (h : Pageable stream rows) {row : StoredEvent}
    (there : row ∈ matching stream options rows) : Fits stream (placeOf stream row) := by
  intro regular
  obtain ⟨nonneg, below⟩ := h.bounds there
  rw [topPlace, if_pos regular] at below
  have bottom : Int32.minValue.toInt = -2 ^ 31 := rfl
  rw [toInt_placeOf]
  omega

end

end Read

end EventJournal

import EventJournal.Query.Events
import Mathlib.Data.List.Nodup

/-!
# What a query for events means

The meaning of an `EventQuery` over rows: the conditions as their texts read, the order by
revision or by position in the direction of the read, and the limit. `EventQuery.ordered`
are all rows that a query selects, `EventQuery.answer` those it is answered with.

Rows of distinct places can be put into one order only, so a stronger condition selects
from the same order.

## Main results

* `EventQuery.pairwise_sort` — distinct places come strictly one after the other.
* `EventQuery.sort_filter` — a stronger condition selects from the same order.
-/

namespace EventJournal

/-! ## Conditions -/

/-- A place lies at a bound or beyond it. -/
def Direction.reaches (direction : Direction) (place bound : Int) : Bool :=
  match direction with
  | .forward => bound ≤ place
  | .backward => place ≤ bound

namespace StoredEvent

/-- The row lies in a stream. -/
def liesIn (stream : Stream) (row : StoredEvent) : Bool :=
  row.context = stream.context && row.streamName = stream.streamName &&
    row.streamId = stream.streamId

theorem liesIn_iff {stream : Stream} {row : StoredEvent} :
    row.liesIn stream = true ↔ row.context = stream.context ∧
      row.streamName = stream.streamName ∧ row.streamId = stream.streamId := by
  simp [liesIn, and_assoc]

end StoredEvent

namespace StreamScope

def admits : StreamScope → StoredEvent → Bool
  | .context c, row => row.context = c
  | .streamName c n, row => row.context = c && row.streamName = n
  | .stream c n i, row => row.liesIn ⟨c, n, i, .regular⟩

end StreamScope

namespace EventCondition

def admits : EventCondition → StoredEvent → Bool
  | .inScope scope, row => scope.admits row
  | .firstOfStream, row => row.streamRevision = 0
  | .never, _ => false
  | .revisionFrom direction revision, row =>
      direction.reaches row.streamRevision.toInt revision.toInt
  | .positionFrom direction position, row =>
      direction.reaches row.globalPosition.toInt position.toInt
  | .typeAmong types, row => row.type ∈ types

@[simp] theorem admits_revisionFrom (direction : Direction) (revision : Int32)
    (row : StoredEvent) :
    (revisionFrom direction revision).admits row =
      direction.reaches row.streamRevision.toInt revision.toInt := rfl

@[simp] theorem admits_positionFrom (direction : Direction) (position : Int64)
    (row : StoredEvent) :
    (positionFrom direction position).admits row =
      direction.reaches row.globalPosition.toInt position.toInt := rfl

end EventCondition

namespace EventOrder

/-- The place of a row in the order. -/
def place : EventOrder → StoredEvent → Int
  | .revision, row => row.streamRevision.toInt
  | .position, row => row.globalPosition.toInt

end EventOrder

namespace EventQuery

/-- The row meets one condition of the first group, if it has any, and all of the
second. -/
def selects (q : EventQuery) (row : StoredEvent) : Bool :=
  (q.anyOf.isEmpty || q.anyOf.any (·.admits row)) && q.allOf.all (·.admits row)

/-- Rows in the order of a read. -/
def sort (order : EventOrder) (direction : Direction) (rows : List StoredEvent) :
    List StoredEvent :=
  rows.mergeSort fun a b => direction.reaches (order.place b) (order.place a)

/-- All rows that the query selects, in its order. -/
def ordered (q : EventQuery) (rows : List StoredEvent) : List StoredEvent :=
  sort q.order q.direction (rows.filter q.selects)

/-- The rows that the query is answered with. -/
def answer (q : EventQuery) (rows : List StoredEvent) : List StoredEvent :=
  (q.ordered rows).take q.limit.toInt.toNat

end EventQuery

/-! ## Order -/

namespace Direction

/-- A place comes strictly before another. -/
def Before (direction : Direction) (a b : Int) : Prop :=
  match direction with
  | .forward => a < b
  | .backward => b < a

variable {direction : Direction} {a b c : Int}

theorem reaches_trans (ab : direction.reaches b a = true) (bc : direction.reaches c b = true) :
    direction.reaches c a = true := by
  cases direction <;> simp only [reaches, decide_eq_true_eq] at * <;> omega

theorem reaches_total (direction : Direction) (a b : Int) :
    (direction.reaches b a || direction.reaches a b) = true := by
  cases direction <;> simp only [reaches, Bool.or_eq_true, decide_eq_true_eq] <;> omega

theorem before_of_reaches (h : direction.reaches b a = true) (ne : a ≠ b) :
    direction.Before a b := by
  cases direction <;> simp only [reaches, Before, decide_eq_true_eq] at * <;> omega

theorem Before.reaches (h : direction.Before a b) : direction.reaches b a = true := by
  cases direction <;> simp only [Direction.reaches, Before, decide_eq_true_eq] at * <;> omega

theorem Before.asymm (h : direction.Before a b) (h' : direction.Before b a) : False := by
  cases direction <;> simp only [Before] at * <;> omega

theorem Before.trans_reaches (ab : direction.Before a b) (bc : direction.reaches c b = true) :
    direction.Before a c := by
  cases direction <;> simp only [Direction.reaches, Before, decide_eq_true_eq] at * <;> omega

end Direction

namespace EventQuery

variable {order : EventOrder} {direction : Direction} {rows : List StoredEvent}

/-- Rows of distinct places. -/
def Distinct (order : EventOrder) (rows : List StoredEvent) : Prop :=
  rows.Pairwise fun a b => order.place a ≠ order.place b

theorem Distinct.filter (h : Distinct order rows) (p : StoredEvent → Bool) :
    Distinct order (rows.filter p) :=
  h.sublist List.filter_sublist

/-- A place tells which row it is. -/
theorem Distinct.eq_of_place {a b : StoredEvent} (h : Distinct order rows) (ha : a ∈ rows)
    (hb : b ∈ rows) (same : order.place a = order.place b) : a = b :=
  List.inj_on_of_nodup_map (List.pairwise_map.2 h) ha hb same

theorem mem_sort {row : StoredEvent} : row ∈ sort order direction rows ↔ row ∈ rows :=
  (List.mergeSort_perm rows _).mem_iff

/-- Places come one after the other. -/
theorem pairwise_sort_reaches (order : EventOrder) (direction : Direction)
    (rows : List StoredEvent) :
    (sort order direction rows).Pairwise
      fun a b => direction.reaches (order.place b) (order.place a) = true := by
  unfold sort
  refine List.pairwise_mergeSort ?_ ?_ rows
  · exact fun a b c ab bc => Direction.reaches_trans ab bc
  · exact fun a b => Direction.reaches_total direction (order.place a) (order.place b)

/-- Distinct places come strictly one after the other. -/
theorem pairwise_sort (direction : Direction) (h : Distinct order rows) :
    (sort order direction rows).Pairwise
      fun a b => direction.Before (order.place a) (order.place b) := by
  have distinct : Distinct order (sort order direction rows) :=
    (List.mergeSort_perm rows _).symm.pairwise h fun ne => ne.symm
  exact ((pairwise_sort_reaches order direction rows).and distinct).imp fun both =>
    Direction.before_of_reaches both.1 both.2

/-- A stronger condition selects from the same order. -/
theorem sort_filter (direction : Direction) (h : Distinct order rows) (p : StoredEvent → Bool) :
    sort order direction (rows.filter p) = (sort order direction rows).filter p := by
  refine List.Perm.eq_of_pairwise ?_ (pairwise_sort direction (h.filter p))
    ((pairwise_sort direction h).sublist List.filter_sublist) ?_
  · exact fun a b _ _ ab ba => (Direction.Before.asymm ab ba).elim
  · exact (List.mergeSort_perm _ _).trans ((List.mergeSort_perm rows _).symm.filter p)

end EventQuery

end EventJournal

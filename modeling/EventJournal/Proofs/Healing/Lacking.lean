import EventJournal.Proofs.Middlewares
import EventJournal.Proofs.Transaction.Budget
import Mathlib.Logic.Function.Basic

/-!
# What a list of batches lacks

A batch lacks a leaf if there is none for one of the types that its events are stored under.
Batches that are appended in one transaction are healed one at a time, and what is created
for one may serve those after it. `lacking` goes through the batches once and takes those
that lack a leaf even with the leaves of the batches taken before; `lacking_of_find?` says
that to heal the first of them and start over comes to the same.

Beside the leaves an append needs revisions that follow the last one of its stream, but only
for the events that it comes to: it stops at the first that has no leaf. `Fit` says that
there are enough of them. With fewer leaves an append comes to no more events, so what fits
at the last attempt of a call fits at those before it.

## Main results

* `lacking_of_find?_none`, `lacking_of_find?_some` — the batches to be healed, by what the
  next attempt finds.
* `leavesAtLast_of_lacking` — the leaves that the last attempt of a call finds, from any
  attempt of it.
* `Batch.Fit.of_grow` — what fits with more leaves fits.
-/

namespace EventJournal

/-! ## Leaves -/

/-- The leaves that exist. -/
abbrev Leaves : Type := LeafKey → Bool

namespace Leaves

/-- The leaves with some created. -/
def grow (leaves : Leaves) (keys : List LeafKey) : Leaves :=
  fun key => leaves key || decide (key ∈ keys)

variable {leaves : Leaves} {keys more : List LeafKey} {key : LeafKey}

@[simp] theorem grow_nil (leaves : Leaves) : leaves.grow [] = leaves := by
  funext key
  simp [grow]

@[simp] theorem grow_grow (leaves : Leaves) (keys more : List LeafKey) :
    (leaves.grow keys).grow more = leaves.grow (keys ++ more) := by
  funext key
  simp [grow, Bool.or_assoc]

theorem grow_of_mem (there : key ∈ keys) : leaves.grow keys key = true := by
  simp [grow, there]

theorem grow_of_leaf (there : leaves key = true) : leaves.grow keys key = true := by
  simp [grow, there]

/-- What is there already need not be created. -/
theorem grow_of_forall (there : ∀ key ∈ keys, leaves key = true) : leaves.grow keys = leaves := by
  funext key
  by_cases among : key ∈ keys
  · rw [grow_of_mem among, there key among]
  · simp [grow, among]

theorem grow_singleton (there : leaves key = true) : leaves.grow [key] = leaves :=
  grow_of_forall (List.forall_mem_singleton.2 there)

end Leaves

/-- The leaf that an event of a type in the stream belongs to. -/
def Stream.leaf (stream : Stream) (type : String) : LeafKey :=
  ⟨stream.context, stream.streamName, type⟩

/-- The leaf that a new row belongs to. -/
def EventDraft.leaf (draft : EventDraft) : LeafKey := draft.stream.leaf draft.type

namespace Batch

theorem mem_distinctTypes {events : List Event} {type : String} :
    type ∈ distinctTypes events ↔ ∃ event ∈ events, event.type = type := by
  simp [distinctTypes]

/-- There is a leaf for each event of a stream. -/
def Covered (leaves : Leaves) (stream : Stream) (events : List Event) : Prop :=
  ∀ event ∈ events, leaves (stream.leaf event.type) = true

/-- The events of a batch as a chain writes them. -/
def writtenEvents (chain : MiddlewareChain) (batch : Batch) : List Event :=
  batch.events.map chain.written

/-- The types that the events of a batch are stored under, each once. -/
def types (chain : MiddlewareChain) (batch : Batch) : List String :=
  distinctTypes (batch.writtenEvents chain)

/-- The leaves for the types of a batch. -/
def leaves (chain : MiddlewareChain) (batch : Batch) : List LeafKey :=
  Round.leaves batch.stream (batch.types chain)

/-- There is no leaf for some type of the batch. -/
def lacks (chain : MiddlewareChain) (existing : Leaves) (batch : Batch) : Bool :=
  (batch.leaves chain).any fun key => !existing key

/-- The failure of a batch that lacks a leaf: it names all types of the batch. -/
def lack (chain : MiddlewareChain) (batch : Batch) : JournalError :=
  .missingPartitions batch.stream (batch.types chain)

variable {chain : MiddlewareChain} {existing : Leaves} {batch : Batch} {keys : List LeafKey}

theorem lacks_eq_false_iff :
    batch.lacks chain existing = false ↔ ∀ key ∈ batch.leaves chain, existing key = true := by
  simp [lacks]

/-- A batch lacks nothing if each of its events has a leaf. -/
theorem lacks_eq_false_iff_covered :
    batch.lacks chain existing = false ↔
      Covered existing batch.stream (batch.writtenEvents chain) := by
  rw [lacks_eq_false_iff]
  constructor
  · intro there event among
    exact there _ (List.mem_map_of_mem (mem_distinctTypes.2 ⟨event, among, rfl⟩))
  · intro covered key among
    obtain ⟨type, distinct, rfl⟩ := List.mem_map.1 among
    obtain ⟨event, member, rfl⟩ := mem_distinctTypes.1 distinct
    exact covered event member

theorem lacks_grow (covered : batch.lacks chain existing = false) :
    batch.lacks chain (existing.grow keys) = false := by
  rw [lacks_eq_false_iff] at covered ⊢
  exact fun key among => Leaves.grow_of_leaf (covered key among)

theorem lacks_grow_leaves : batch.lacks chain (existing.grow (batch.leaves chain)) = false :=
  lacks_eq_false_iff.2 fun _ among => Leaves.grow_of_mem among

end Batch

/-- The batches to be healed, in order: those that lack a leaf which is not one of a batch
taken before. -/
def lacking (chain : MiddlewareChain) : Leaves → List Batch → List Batch
  | _, [] => []
  | existing, batch :: rest =>
      if batch.lacks chain existing then
        batch :: lacking chain (existing.grow (batch.leaves chain)) rest
      else lacking chain existing rest

section

variable {chain : MiddlewareChain} {existing : Leaves} {batch : Batch} {batches : List Batch}

theorem lacking_cons_of_covered (covered : batch.lacks chain existing = false) :
    lacking chain existing (batch :: batches) = lacking chain existing batches := by
  rw [lacking, covered]
  rfl

/-- Where no batch lacks a leaf, none is to be healed. -/
theorem lacking_of_find?_none (none : batches.find? (·.lacks chain existing) = none) :
    lacking chain existing batches = [] := by
  induction batches with
  | nil => rfl
  | cons batch rest ih =>
      cases lacks : batch.lacks chain existing with
      | true => simp [lacks] at none
      | false =>
          rw [lacking_cons_of_covered lacks]
          exact ih (by simpa [lacks] using none)

/-- The first batch that lacks a leaf is to be healed, and then what all batches lack with
its leaves there: those before it lack nothing, then as now. -/
theorem lacking_of_find?_some (found : batches.find? (·.lacks chain existing) = some batch) :
    lacking chain existing batches =
      batch :: lacking chain (existing.grow (batch.leaves chain)) batches := by
  induction batches with
  | nil => cases found
  | cons other rest ih =>
      cases lacks : other.lacks chain existing with
      | true =>
          obtain rfl : other = batch := by simpa [lacks] using found
          rw [lacking_cons_of_covered Batch.lacks_grow_leaves, lacking, lacks]
          rfl
      | false =>
          rw [lacking_cons_of_covered lacks, lacking_cons_of_covered (Batch.lacks_grow lacks)]
          exact ih (by simpa [lacks] using found)

/-- Of batches, no more than all are to be healed. -/
theorem length_lacking_le (chain : MiddlewareChain) (existing : Leaves) (batches : List Batch) :
    (lacking chain existing batches).length ≤ batches.length := by
  induction batches generalizing existing with
  | nil => exact Nat.le_refl 0
  | cons batch rest ih =>
      unfold lacking
      split
      · exact Nat.succ_le_succ (ih _)
      · exact Nat.le_succ_of_le (ih existing)

end

/-! ## Revisions -/

namespace Revision

/-- The number of a last revision; that of none is one before the first. -/
def number : Option Int32 → Int
  | none => -1
  | some revision => revision.toInt

/-- The last revision of a stream with a number of events more. -/
def after : Option Int32 → Nat → Option Int32
  | last, 0 => last
  | last, count + 1 => after (next? last) count

variable {revision later : Int32} {steps : Nat}

theorem exists_advance? (revision : Int32) (steps : Nat)
    (fits : revision.toInt + steps ≤ Int32.maxValue.toInt) :
    ∃ later, advance? revision steps = some later := ⟨_, if_pos fits⟩

theorem advance?_eq_none_iff :
    advance? revision steps = none ↔ Int32.maxValue.toInt < revision.toInt + steps := by
  unfold advance?
  split <;> simp_all

theorem le_of_advance? (h : advance? revision steps = some later) :
    revision.toInt + steps ≤ Int32.maxValue.toInt := by
  rw [← toInt_of_advance? h]
  exact later.toInt_le

theorem advance?_zero (revision : Int32) : advance? revision 0 = some revision := by
  have top := revision.toInt_le
  unfold advance?
  rw [if_pos (by simpa using top)]
  simp

/-- A step more. -/
theorem advance?_succ (h : advance? revision steps = some later) :
    advance? later 1 = advance? revision (steps + 1) := by
  have moved := toInt_of_advance? h
  unfold advance? at h ⊢
  split at h
  · cases h
    rw [moved, Int32.ofNat_add, ← Int32.add_assoc, Int.natCast_add, ← Int.add_assoc]
  · cases h

theorem toInt_of_next? {last : Option Int32} (h : next? last = some revision) :
    revision.toInt = number last + 1 := by
  cases last with
  | none =>
      cases h
      rfl
  | some before => exact toInt_of_advance? h

theorem exists_next? (last : Option Int32) (fits : number last + 1 ≤ Int32.maxValue.toInt) :
    ∃ first, next? last = some first ∧ first.toInt = number last + 1 := by
  cases last with
  | none => exact ⟨0, rfl, rfl⟩
  | some revision =>
      obtain ⟨first, next⟩ := exists_advance? revision 1 fits
      exact ⟨first, next, toInt_of_advance? next⟩

theorem lt_of_next?_eq_none {last : Option Int32} (h : next? last = none) :
    Int32.maxValue.toInt < number last + 1 := by
  cases last with
  | none => cases h
  | some revision => exact advance?_eq_none_iff.1 h

end Revision

/-! ## Room for revisions -/

/-- The last revisions of streams. -/
abbrev LastRevisions : Type := Stream → Option Int32

namespace Batch

/-- The last revisions with those of a batch. -/
def after (last : LastRevisions) (batch : Batch) : LastRevisions :=
  Function.update last batch.stream (Revision.after (last batch.stream) batch.events.length)

/-- How many of the events an insertion comes to, the one it stops at included. -/
def reach (leaves : Leaves) (stream : Stream) : List Event → Nat
  | [] => 0
  | event :: rest => if leaves (stream.leaf event.type) then reach leaves stream rest + 1 else 1

/-- There are revisions for the events that an insertion comes to. A batch without events
needs one as well. -/
def RoomWithin (leaves : Leaves) (stream : Stream) (last : Option Int32) (events : List Event) :
    Prop :=
  Revision.number last + max 1 (reach leaves stream events) ≤ Int32.maxValue.toInt

instance (leaves : Leaves) (stream : Stream) (last : Option Int32) (events : List Event) :
    Decidable (RoomWithin leaves stream last events) :=
  inferInstanceAs (Decidable (_ ≤ Int32.maxValue.toInt))

/-- There are revisions for all that an append of the batches comes to, one batch after the
other and no further than the first that lacks a leaf. -/
def Fit (chain : MiddlewareChain) (leaves : Leaves) : LastRevisions → List Batch → Prop
  | _, [] => True
  | last, batch :: rest =>
      RoomWithin leaves batch.stream (last batch.stream) (batch.writtenEvents chain) ∧
        (batch.lacks chain leaves = false → Fit chain leaves (batch.after last) rest)

instance decidableFit (chain : MiddlewareChain) (leaves : Leaves) :
    ∀ (last : LastRevisions) (batches : List Batch), Decidable (Fit chain leaves last batches)
  | _, [] => instDecidableTrue
  | last, batch :: rest =>
      let _ := decidableFit chain leaves (batch.after last) rest
      inferInstanceAs (Decidable (_ ∧ (_ → _)))

section

variable {chain : MiddlewareChain} {leaves : Leaves} {keys : List LeafKey} {stream : Stream}
  {events : List Event} {event : Event} {number : Option Int32} {batch : Batch}

theorem reach_cons_of_leaf (there : leaves (stream.leaf event.type) = true) :
    reach leaves stream (event :: events) = reach leaves stream events + 1 := by
  rw [reach, if_pos there]

theorem reach_cons_of_none (absent : leaves (stream.leaf event.type) = false) :
    reach leaves stream (event :: events) = 1 := by
  rw [reach, absent]
  rfl

theorem reach_le_length (leaves : Leaves) (stream : Stream) (events : List Event) :
    reach leaves stream events ≤ events.length := by
  induction events with
  | nil => exact Nat.le_refl 0
  | cons event rest ih =>
      rw [List.length_cons]
      cases there : leaves (stream.leaf event.type) with
      | true =>
          rw [reach_cons_of_leaf there]
          exact Nat.succ_le_succ ih
      | false =>
          rw [reach_cons_of_none there]
          exact Nat.succ_le_succ (Nat.zero_le _)

theorem reach_cons_pos (leaves : Leaves) (stream : Stream) (event : Event) (events : List Event) :
    0 < reach leaves stream (event :: events) := by
  unfold reach
  split
  · exact Nat.succ_pos _
  · exact Nat.one_pos

/-- An insertion that finds all leaves comes to all events. -/
theorem reach_of_covered (covered : Covered leaves stream events) :
    reach leaves stream events = events.length := by
  induction events with
  | nil => rfl
  | cons event rest ih =>
      obtain ⟨there, others⟩ := List.forall_mem_cons.1 covered
      rw [reach_cons_of_leaf there, ih others, List.length_cons]

/-- With more leaves an insertion comes to no fewer events. -/
theorem reach_le_grow (leaves : Leaves) (keys : List LeafKey) (stream : Stream)
    (events : List Event) :
    reach leaves stream events ≤ reach (leaves.grow keys) stream events := by
  induction events with
  | nil => exact Nat.le_refl 0
  | cons event rest ih =>
      cases there : leaves (stream.leaf event.type) with
      | true =>
          rw [reach_cons_of_leaf there, reach_cons_of_leaf (Leaves.grow_of_leaf there)]
          exact Nat.succ_le_succ ih
      | false =>
          rw [reach_cons_of_none there, reach]
          split
          · exact Nat.succ_le_succ (Nat.zero_le _)
          · exact Nat.le_refl 1

/-- Where there are revisions for all events there are for those that are come to. -/
theorem roomWithin_of_length (fits : Revision.number number + max 1 events.length ≤
    Int32.maxValue.toInt) : RoomWithin leaves stream number events := by
  have less := reach_le_length leaves stream events
  unfold RoomWithin
  omega

theorem RoomWithin.of_grow (h : RoomWithin (leaves.grow keys) stream number events) :
    RoomWithin leaves stream number events := by
  have less := reach_le_grow leaves keys stream events
  unfold RoomWithin at h ⊢
  omega

/-- What fits with more leaves fits. -/
theorem Fit.of_grow {batches : List Batch} :
    ∀ {last : LastRevisions}, Fit chain (leaves.grow keys) last batches →
      Fit chain leaves last batches := by
  induction batches with
  | nil => exact fun _ => trivial
  | cons batch rest ih =>
      exact fun fit => ⟨fit.1.of_grow, fun covered => ih (fit.2 (lacks_grow covered))⟩

@[simp] theorem fit_singleton {last : LastRevisions} :
    Fit chain leaves last [batch] ↔
      RoomWithin leaves batch.stream (last batch.stream) (batch.writtenEvents chain) :=
  and_iff_left fun _ => trivial

end

end Batch

/-! ## The last attempt -/

section

variable {chain : MiddlewareChain} {policy : RetryPolicy} {leaves : Leaves}
  {healed batches rest : List Batch}

/-- The leaves that the last attempt of a call finds: those of the batches to be healed are
there, as far as there are attempts to follow. -/
def leavesAtLast (chain : MiddlewareChain) (policy : RetryPolicy) (leaves : Leaves)
    (batches : List Batch) : Leaves :=
  leaves.grow (((lacking chain leaves batches).take (policy.attempts - 1)).flatMap
    (·.leaves chain))

/-- They are those found by any attempt, with the leaves of batches that are still to be
healed. -/
theorem leavesAtLast_of_lacking (short : lacking chain leaves batches = healed ++ rest)
    (left : healed.length ≤ policy.attempts - 1) :
    leavesAtLast chain policy leaves batches =
      (leaves.grow (healed.flatMap (·.leaves chain))).grow
        ((rest.take (policy.attempts - 1 - healed.length)).flatMap (·.leaves chain)) := by
  unfold leavesAtLast
  rw [short, List.take_append, List.take_of_length_le left, List.flatMap_append, Leaves.grow_grow]

end

end EventJournal

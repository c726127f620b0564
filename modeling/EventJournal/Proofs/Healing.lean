import EventJournal.Proofs.Healing.LeafTable
import EventJournal.Proofs.Transaction.Budget
import Mathlib.Data.List.Forall2

/-!
# How many attempts it takes to heal

Over a database that fails only for want of a leaf, every attempt of an append but the last
is followed by the creation of leaves, and the attempts can be counted beforehand: one for
each batch that is to be healed (`lacking`), and one more. They draw on the budget for
conflicts. A call whose batches are within it returns; any other ends with the failure of
the batch at which nothing is left, and the leaves of the batches before it stay.

This takes revisions for the events that the last attempt comes to. Without them the call
ends where the revisions do, whatever is healed before.

One batch is healed once, so an append by itself makes two attempts at most.

## Main results

* `Database.Healthy.ends_appendAll` — plain batches in an open transaction.
* `Database.Healthy.transact_healed` — a call whose unit does as batches do.
* `Journal.attempts_of_leaves` — appends of many batches, and of one.
-/

namespace EventJournal

open EventJournal.Action

/-- A round that failed for want of a leaf of the batch, after which the leaves of the batch
were asked for, each once and in order, and obtained. -/
structure Round.Heals {α : Type} (chain : MiddlewareChain) (round : Round α) (batch : Batch) :
    Prop where
  failed : round.outcome = .error (.error (batch.lack chain))
  asked : round.healing.map (·.1) = batch.leaves chain
  obtained : ∀ request ∈ round.healing, ∃ leaf, request.2 = .ok leaf

/-- A call told by its rounds, over a database that fails only for want of a leaf. The
batches are those that are to be healed. -/
structure HealedCall {σ α δ : Type} (db : Database δ) (policy : RetryPolicy)
    (ensure : LeafKey → Action σ Partition) (unit : Action σ α) (chain : MiddlewareChain)
    (short : List Batch) (p : σ × δ) (before : List (Round α)) (last : Round α)
    (outcome : Except Abort α) (q : σ × δ) : Prop where
  course : Course db (some ensure) unit p (before ++ [last]) q
  rests : last.healing = []
  /-- Within the budget all are healed, and the call returns. -/
  returns : short = [] ∨ short.length < policy.maxAttempts.toNat →
    (before ++ [last]).length = short.length + 1 ∧ List.Forall₂ (Round.Heals chain) before short ∧
      ∃ value, last.outcome = .ok value ∧ outcome = .ok value
  /-- Beyond it the call makes all its attempts, and the next batch fails it. -/
  givesUp : short ≠ [] → policy.maxAttempts.toNat ≤ short.length →
    (before ++ [last]).length = policy.attempts ∧
      ∃ healed batch others, short = healed ++ batch :: others ∧
        List.Forall₂ (Round.Heals chain) before healed ∧
        last.outcome = .error (.error (batch.lack chain)) ∧
        outcome = .error (.error (.retriesExhausted policy.attempts (batch.lack chain)))

/-- A call told by its rounds, whether or not there are revisions for what its last attempt
comes to. -/
structure HealingCall {σ α δ : Type} (db : Database δ) (begins : LastRevisions → Prop)
    (policy : RetryPolicy) (ensure : LeafKey → Action σ Partition) (unit : Action σ α)
    (chain : MiddlewareChain) (leaves : Leaves) (batches : List Batch) (p : σ × δ)
    (before : List (Round α)) (last : Round α) (outcome : Except Abort α) (q : σ × δ) :
    Prop where
  course : Course db (some ensure) unit p (before ++ [last]) q
  few : before.length ≤ (lacking chain leaves batches).length
  /-- With revisions for it, the batches are healed as far as the budget goes. -/
  fits : (∀ revisions, begins revisions →
      Batch.Fit chain (leavesAtLast chain policy leaves batches) revisions batches) →
    HealedCall db policy ensure unit chain (lacking chain leaves batches) p before last outcome q
  /-- Without, the last attempt ends where the revisions do. -/
  overflows : (∀ revisions, begins revisions →
      ¬Batch.Fit chain (leavesAtLast chain policy leaves batches) revisions batches) →
    last.outcome = .error .overflow ∧ outcome = .error .overflow

/-- The batch is for a regular stream that is complete, and expects nothing of it. -/
structure Batch.Plain (batch : Batch) : Prop where
  regular : batch.stream.isRegular = true
  valid : batch.stream.isValid = true
  any : batch.expected = .any

instance (batch : Batch) : Decidable batch.Plain :=
  decidable_of_iff
    (batch.stream.isRegular = true ∧ batch.stream.isValid = true ∧ batch.expected = .any)
    ⟨fun ⟨regular, valid, any⟩ => ⟨regular, valid, any⟩,
      fun ⟨regular, valid, any⟩ => ⟨regular, valid, any⟩⟩

/-- Whatever the last revision, an append of a plain batch comes to its first one if the
middlewares refuse nothing. -/
theorem Batch.Plain.cleared {chain : MiddlewareChain} {batch : Batch} {last : Option Int32}
    (plain : batch.Plain) (total : chain.Total) :
    Database.Service.Cleared chain .ok batch last (batch.writtenEvents chain) where
  allowed := by
    unfold checkStream
    rw [plain.regular, plain.valid]
    rfl
  admitted := by
    rw [plain.any]
    rfl
  prepared := total.prepare batch.events

/-- A unit that in an open transaction does as the batches do: it succeeds if none of them
lacks a leaf, and otherwise fails with the first that does, unless the revisions end before. -/
def Database.Runs {σ α δ : Type} (db : Database δ) (begins : LastRevisions → Prop)
    (idle : σ → Leaves → δ → Prop) (inside : σ → Leaves → LastRevisions → δ → Prop)
    (chain : MiddlewareChain) (unit : Action σ α) (batches : List Batch) : Prop :=
  ∀ leaves s last d, begins last → inside s leaves last d →
    Ends db unit s d
      (fun _ s d => (batches.find? (·.lacks chain leaves) = none ∧
        Batch.Fit chain leaves last batches) ∧ ∃ last, inside s leaves last d)
      fun cause s d =>
        (∃ batch, batches.find? (·.lacks chain leaves) = some batch ∧
          Batch.Fit chain leaves last batches ∧ cause = .error (batch.lack chain) ∧
          idle s leaves (db.answer .rollback d).2) ∨
        (¬Batch.Fit chain leaves last batches ∧ cause = .overflow)

namespace Database.Healthy

variable {σ α δ : Type} {db : Database δ} {ensure : LeafKey → Action σ Partition}
  {begins : LastRevisions → Prop} {idle : σ → Leaves → δ → Prop}
  {inside : σ → Leaves → LastRevisions → δ → Prop} {s : σ} {leaves : Leaves}
  {last : LastRevisions} {d : δ} {chain : MiddlewareChain} {policy : RetryPolicy}
  {unit : Action σ α} {batches : List Batch}

/-! ## Plain batches -/

/-- Of a plain batch and a chain that refuses nothing, only a leaf or a revision can be
wanting. -/
theorem ends_append (h : db.Healthy ensure begins idle inside) (total : chain.Total)
    {batch : Batch} (plain : batch.Plain) (is : inside s leaves last d) :
    Ends db (batch.append chain .ok) s d
      (fun _ s d => batch.lacks chain leaves = false ∧
        Batch.RoomWithin leaves batch.stream (last batch.stream) (batch.writtenEvents chain) ∧
        inside s leaves (batch.after last) d)
      (fun cause s d =>
        (batch.lacks chain leaves = true ∧
          Batch.RoomWithin leaves batch.stream (last batch.stream) (batch.writtenEvents chain) ∧
          cause = .error (batch.lack chain) ∧ idle s leaves (db.answer .rollback d).2) ∨
        (¬Batch.RoomWithin leaves batch.stream (last batch.stream) (batch.writtenEvents chain) ∧
          cause = .overflow)) := by
  refine (h.serves.ends_append_of_cleared (plain.cleared total) is).mono ?_ ?_
  · intro result s d got
    obtain ⟨covered, room, -, is⟩ := got
    rw [Batch.writtenEvents, List.length_map] at is
    exact ⟨Batch.lacks_eq_false_iff_covered.2 covered, room, is⟩
  · rintro cause s d (⟨room, uncovered, failed⟩ | full | ⟨rows, refusal, -, refused⟩)
    · refine .inl ⟨eq_true_of_ne_false fun covered => ?_, room, failed⟩
      exact uncovered (Batch.lacks_eq_false_iff_covered.1 covered)
    · exact .inr full
    · rw [total.deserializeAll] at refused
      cases refused

/-- An append of a plain batch does as a list of it alone. -/
theorem runs_append (h : db.Healthy ensure begins idle inside) (total : chain.Total)
    {batch : Batch} (plain : batch.Plain) :
    db.Runs begins idle inside chain (batch.append chain .ok) [batch] := by
  intro leaves s last d _ is
  rw [Batch.fit_singleton]
  refine (h.ends_append total plain is).mono ?_ ?_
  · intro _ s d got
    exact ⟨⟨by rw [List.find?_cons, got.1]; rfl, got.2.1⟩, _, got.2.2⟩
  · rintro cause s d (⟨lacks, failed⟩ | full)
    · exact .inl ⟨batch, by rw [List.find?_cons, lacks], failed⟩
    · exact .inr full

/-- Plain batches are appended one after the other unless one of them lacks a leaf; then the
first that does fails them. -/
theorem runs_appendAll (h : db.Healthy ensure begins idle inside) (total : chain.Total)
    (plain : ∀ batch ∈ batches, batch.Plain) :
    db.Runs begins idle inside chain (Batch.appendAll chain .ok batches) batches := by
  unfold Batch.appendAll
  intro leaves s last d begun is
  clear begun
  induction batches generalizing s last d with
  | nil =>
      rw [ends_mapM_nil]
      exact ⟨⟨rfl, trivial⟩, last, is⟩
  | cons batch rest ih =>
      obtain ⟨first, others⟩ := List.forall_mem_cons.1 plain
      rw [ends_mapM_cons]
      refine (h.ends_append total first is).mono ?_ ?_
      · intro _ s d got
        obtain ⟨covered, room, is⟩ := got
        have fit : Batch.Fit chain leaves last (batch :: rest) ↔
            Batch.Fit chain leaves (batch.after last) rest :=
          ⟨fun fit => fit.2 covered, fun fit => ⟨room, fun _ => fit⟩⟩
        rw [List.find?_cons, covered, fit]
        exact ih others s _ d is
      · rintro cause s d (⟨lacks, room, failed⟩ | ⟨full, ended⟩)
        · rw [List.find?_cons, lacks]
          refine .inl ⟨batch, rfl, ⟨room, fun covered => ?_⟩, failed⟩
          exact absurd (lacks.symm.trans covered) Bool.noConfusion
        · exact .inr ⟨fun fit => full fit.1, ended⟩

/-- A transaction of a unit that does as batches do is committed unless a batch lacks a leaf
or the revisions end. -/
theorem ends_attempt (h : db.Healthy ensure begins idle inside)
    (runs : db.Runs begins idle inside chain unit batches) (is : idle s leaves d) :
    Ends db (inTransaction .serializable unit) s d
      (fun _ _ _ => ∃ last, begins last ∧ batches.find? (·.lacks chain leaves) = none ∧
        Batch.Fit chain leaves last batches)
      fun cause s d => ∃ last, begins last ∧
        ((∃ batch, batches.find? (·.lacks chain leaves) = some batch ∧
          Batch.Fit chain leaves last batches ∧ cause = .error (batch.lack chain) ∧
          idle s leaves d) ∨
        (¬Batch.Fit chain leaves last batches ∧ cause = .overflow)) := by
  refine h.serves.ends_inTransaction (fun last d begun is => ?_) is
  refine (runs leaves s last d begun is).mono ?_ ?_
  · exact fun _ _ _ got => ⟨⟨last, begun, got.1⟩, got.2⟩
  · exact fun _ _ _ failed => ⟨last, begun, failed⟩

/-! ## The loop -/

/-- A call that has healed some of the batches, and may have others to heal. -/
structure Healing (db : Database δ) (policy : RetryPolicy)
    (ensure : LeafKey → Action σ Partition) (idle : σ → Leaves → δ → Prop) (unit : Action σ α)
    (chain : MiddlewareChain) (batches : List Batch) (start : Leaves) (p : σ × δ)
    (healed : List Batch) (before : List (Round α)) (leaves : Leaves) (attempt : Nat)
    (q : σ × δ) : Prop where
  course : Course db (some ensure) unit p before q
  number : attempt = before.length + 1
  left : before = [] ∨ before.length < policy.maxAttempts.toNat
  healings : List.Forall₂ (Round.Heals chain) before healed
  idle : idle q.1 leaves q.2
  grown : leaves = start.grow (healed.flatMap (·.leaves chain))
  short : lacking chain start batches = healed ++ lacking chain leaves batches

variable {start : Leaves} {p : σ × δ} {healed : List Batch} {before : List (Round α)}
  {attempt : Nat}

/-- One batch is healed with each attempt that is followed by another. -/
theorem Healing.length_le
    (u : Healing db policy ensure idle unit chain batches start p healed before leaves attempt
      (s, d)) :
    healed.length ≤ policy.attempts - 1 := by
  have same := u.healings.length_eq
  unfold RetryPolicy.attempts
  rcases u.left with rfl | left
  · rw [← same]
    exact Nat.zero_le _
  · omega

/-- What the last attempt finds is found by one that is followed by no healing. -/
theorem Healing.leavesAtLast_eq
    (u : Healing db policy ensure idle unit chain batches start p healed before leaves attempt
      (s, d))
    (done : lacking chain leaves batches = [] ∨ policy.maxAttempts.toNat ≤ attempt) :
    leavesAtLast chain policy start batches = leaves := by
  have rest : (lacking chain leaves batches).take (policy.attempts - 1 - healed.length) = [] := by
    rcases done with none | spent
    · rw [none, List.take_nil]
    · have same := u.healings.length_eq
      have number := u.number
      have none : policy.attempts - 1 - healed.length = 0 := by
        unfold RetryPolicy.attempts
        omega
      rw [none, List.take_zero]
  rw [leavesAtLast_of_lacking u.short u.length_le, rest, ← u.grown]
  exact Leaves.grow_nil leaves

/-- What fits at the last attempt fits at all. -/
theorem Healing.fit
    (u : Healing db policy ensure idle unit chain batches start p healed before leaves attempt
      (s, d))
    (fit : Batch.Fit chain (leavesAtLast chain policy start batches) last batches) :
    Batch.Fit chain leaves last batches := by
  rw [leavesAtLast_of_lacking u.short u.length_le, ← u.grown] at fit
  exact fit.of_grow

section

variable {s' : σ} {d' : δ} {outcome : Except Abort α} {batch : Batch}

/-- The rounds with that of an attempt that is the last one. -/
theorem Healing.course_append
    (u : Healing db policy ensure idle unit chain batches start p healed before leaves attempt
      (s, d))
    (run : (inTransaction .serializable unit).runOn db s d = ((outcome, s'), d')) :
    Course db (some ensure) unit p (before ++ [⟨outcome, []⟩]) (s', d') :=
  u.course.append (.more run (.none _) (.none _))

/-- There are no more healings than batches to be healed. -/
theorem Healing.few
    (u : Healing db policy ensure idle unit chain batches start p healed before leaves attempt
      (s, d)) :
    before.length ≤ (lacking chain start batches).length := by
  rw [u.short, List.length_append, u.healings.length_eq]
  exact Nat.le_add_right _ _

/-- An attempt that finds all leaves ends the call. -/
theorem Healing.returns {value : α}
    (u : Healing db policy ensure idle unit chain batches start p healed before leaves attempt
      (s, d))
    (run : (inTransaction .serializable unit).runOn db s d = ((.ok value, s'), d'))
    (none : lacking chain leaves batches = []) :
    HealedCall db policy ensure unit chain (lacking chain start batches) p before
      ⟨.ok value, []⟩ (.ok value) (s', d') := by
  have short := u.short
  rw [none, List.append_nil] at short
  rw [short]
  refine ⟨u.course_append run, rfl, fun _ => ⟨?_, u.healings, value, rfl, rfl⟩, ?_⟩
  · rw [List.length_append, u.healings.length_eq]
    rfl
  · intro some spent
    rcases u.left with rfl | left
    · cases u.healings
      exact absurd rfl some
    · have same := u.healings.length_eq
      omega

/-- An attempt that lacks a leaf when nothing is left ends the call as well. -/
theorem Healing.givesUp
    (u : Healing db policy ensure idle unit chain batches start p healed before leaves attempt
      (s, d))
    (run : (inTransaction .serializable unit).runOn db s d =
      ((.error (.error (batch.lack chain)), s'), d'))
    (found : batches.find? (·.lacks chain leaves) = some batch)
    (spent : policy.maxAttempts.toNat ≤ attempt) :
    HealedCall db policy ensure unit chain (lacking chain start batches) p before
      ⟨.error (.error (batch.lack chain)), []⟩
      (.error (.error (.retriesExhausted attempt (batch.lack chain)))) (s', d') := by
  have same := u.healings.length_eq
  have all : attempt = policy.attempts := by
    have number := u.number
    unfold RetryPolicy.attempts
    rcases u.left with rfl | left
    · simp only [List.length_nil] at number
      omega
    · omega
  rw [u.short, lacking_of_find?_some found]
  refine ⟨u.course_append run, rfl, ?_, ?_⟩
  · rintro (none | fits)
    · exact absurd none (by simp)
    · rw [List.length_append, List.length_cons, ← same] at fits
      have number := u.number
      omega
  · intro _ _
    rw [← all]
    refine ⟨?_, healed, batch, _, rfl, u.healings, rfl, rfl⟩
    rw [List.length_append, u.number]
    rfl

/-- An attempt that lacks a leaf when attempts are left is followed by another one. -/
theorem Healing.next (h : db.Healthy ensure begins idle inside)
    (u : Healing db policy ensure idle unit chain batches start p healed before leaves attempt
      (s, d))
    (run : (inTransaction .serializable unit).runOn db s d =
      ((.error (.error (batch.lack chain)), s'), d'))
    (found : batches.find? (·.lacks chain leaves) = some batch)
    (is : idle s' leaves d') (left : attempt < policy.maxAttempts.toNat) :
    Ends db (Catalog.healWith ensure batch.stream (batch.types chain)) s' d'
      (fun _ s d => ∃ before, Healing db policy ensure idle unit chain batches start p
        (healed ++ [batch]) before (leaves.grow (batch.leaves chain)) (attempt + 1) (s, d))
      fun _ _ _ => False := by
  have number := u.number
  refine ((ends_healWith batch.stream (batch.types chain) s' d').and
    (h.ends_healWith_idle _ _ s' leaves d' is)).mono ?_ fun _ _ _ never => never.2
  intro _ s d got
  obtain ⟨⟨healing, requests, keys, obtained⟩, is⟩ := got
  refine ⟨before ++ [⟨.error (.error (batch.lack chain)), healing⟩],
    u.course.append (.more run requests (.none _)), by simp [number], .inr ?_, ?_, is, ?_, ?_⟩
  · rw [List.length_append, List.length_singleton]
    omega
  · exact List.rel_append u.healings (.cons ⟨rfl, keys, obtained⟩ .nil)
  · rw [List.flatMap_append, List.flatMap_singleton, ← Leaves.grow_grow, ← u.grown]
  · rw [List.append_assoc, u.short, lacking_of_find?_some found]
    rfl

end

/-- A call whose unit does as batches do heals those that are to be healed, one in each
round but the last, as far as the budget goes and the revisions do. -/
theorem transact_healed (h : db.Healthy ensure begins idle inside)
    (runs : db.Runs begins idle inside chain unit batches) (policy : RetryPolicy)
    (is : idle s leaves d) :
    ∃ before last outcome s' d',
      (Action.transact policy (some (Catalog.healWith ensure)) unit).runOn db s d =
        ((outcome, s'), d') ∧
      HealingCall db begins policy ensure unit chain leaves batches (s, d) before last outcome
        (s', d') := by
  let I (attempt : Nat) (_ : Bool) (s' : σ) (d' : δ) : Prop := ∃ healed before leaves',
    Healing db policy ensure idle unit chain batches leaves (s, d) healed before leaves' attempt
      (s', d')
  let Over (outcome : Except Abort α) (s' : σ) (d' : δ) : Prop := ∃ before last,
    HealingCall db begins policy ensure unit chain leaves batches (s, d) before last outcome
      (s', d')
  have ends : Ends db (Action.attempts policy (some (Catalog.healWith ensure)) unit 1 false) s d
      (fun value s d => Over (.ok value) s d) (fun cause s d => Over (.error cause) s d) := by
    refine Ends.attempts I ?_ 1 false s d
      ⟨[], [], leaves, .none _, rfl, .inl rfl, .nil, is, leaves.grow_nil.symm, rfl⟩
    intro attempt reconnected s₁ d₁ got
    obtain ⟨healed, before, leaves', u⟩ := got
    have attempted := h.ends_attempt runs u.idle
    refine Ends.of_forall ?_ ?_
    · intro value s' d' run
      obtain ⟨revisions, begun, none, fit⟩ := (ends_of_runOn_ok run).1 attempted
      have none := lacking_of_find?_none none
      rw [← u.leavesAtLast_eq (.inl none)] at fit
      exact ⟨before, _, u.course_append run, u.few, fun _ => u.returns run none,
        fun full => absurd fit (full revisions begun)⟩
    · intro cause s' d' run
      obtain ⟨revisions, begun, ⟨batch, found, fit, rfl, is⟩ | ⟨full, rfl⟩⟩ :=
        (ends_of_runOn_error run).1 attempted
      · by_cases left : attempt < policy.maxAttempts.toNat
        · refine Owed.of_missing left ?_
          refine (Healing.next h u run found is left).mono ?_ fun _ _ _ never => never.elim
          intro _ s d next
          obtain ⟨before, u⟩ := next
          exact ⟨_, before, _, u⟩
        · have spent := Nat.not_lt.1 left
          rw [← u.leavesAtLast_eq (.inr spent)] at fit
          exact Owed.of_missing_spent spent ⟨before, _, u.course_append run, u.few,
            fun _ => u.givesUp run found spent, fun full => absurd fit (full revisions begun)⟩
      · exact ⟨before, _, u.course_append run, u.few,
          fun fits => absurd (u.fit (fits revisions begun)) full, fun _ => ⟨rfl, rfl⟩⟩
  rcases run : (Action.transact policy (some (Catalog.healWith ensure)) unit).runOn db s d with
    ⟨⟨outcome, s'⟩, d'⟩
  cases outcome with
  | ok value =>
      obtain ⟨before, last, told⟩ := (ends_of_runOn_ok run).1 ends
      exact ⟨before, last, _, s', d', rfl, told⟩
  | error cause =>
      obtain ⟨before, last, told⟩ := (ends_of_runOn_error run).1 ends
      exact ⟨before, last, _, s', d', rfl, told⟩

end Database.Healthy

namespace Journal

/-- Over a database that fails only for want of a leaf, an append of plain batches that the
middlewares refuse nothing of makes one attempt for each batch that is to be healed and one
more, if the policy allows as many, and returns. Otherwise it makes those that the policy
allows, and ends with the failure of the batch after those it has healed. The leaves of each
are asked for once. This takes revisions for what the last attempt comes to; without them it
ends with an overflow. An append of one batch makes two attempts at most. -/
theorem attempts_of_leaves {δ : Type} {db : Database δ} {j : Journal}
    {begins : LastRevisions → Prop} {idle : LeafCache → Leaves → δ → Prop}
    {inside : LeafCache → Leaves → LastRevisions → δ → Prop}
    (healthy : db.Healthy (Catalog.ensure j.catalogConfig) begins idle inside)
    (total : j.chain.Total) {cache : LeafCache} {leaves : Leaves} {d : δ}
    (is : idle cache leaves d) :
    (∀ batches : List Batch, (∀ batch ∈ batches, batch.Plain) →
      ∃ before last outcome cache' d',
        (j.appendMany batches).runOn db cache d = ((outcome, cache'), d') ∧
        HealingCall db begins j.config.retry (Catalog.ensure j.catalogConfig)
          (Batch.appendAll j.chain .ok batches) j.chain leaves batches (cache, d) before last
          outcome (cache', d')) ∧
    ∀ batch : Batch, batch.Plain →
      ∃ before last outcome cache' d',
        (j.append batch).runOn db cache d = ((outcome, cache'), d') ∧
        HealingCall db begins j.config.retry (Catalog.ensure j.catalogConfig)
          (batch.append j.chain .ok) j.chain leaves [batch] (cache, d) before last outcome
          (cache', d') ∧
        (before ++ [last]).length ≤ 2 := by
  constructor
  · intro batches plain
    exact healthy.transact_healed (healthy.runs_appendAll total plain) j.config.retry is
  · intro batch plain
    obtain ⟨before, last, outcome, cache', d', run, told⟩ :=
      healthy.transact_healed (healthy.runs_append total plain) j.config.retry is
    refine ⟨before, last, outcome, cache', d', run, told, ?_⟩
    rw [List.length_append]
    exact Nat.succ_le_succ (Nat.le_trans told.few (length_lacking_le j.chain leaves [batch]))

/-! ## Two batches to be healed, and a stream that is full -/

theorem withAttempts_total (maxAttempts : UInt32) : (withAttempts maxAttempts).chain.Total :=
  ⟨fun _ => rfl, fun _ => rfl⟩

/-- One event for a stream of orders or of refunds. -/
def oneEvent (streamName type : String) : Batch where
  stream := ⟨"Sales", streamName, "1", .regular⟩
  events := [{ type }]

/-- Three batches, of which the second has the type of the first. -/
def ordersAndRefund : List Batch :=
  [oneEvent "Order" "Created", oneEvent "Order" "Created", oneEvent "Refund" "Created"]

/-- A stream of orders that has all its revisions, and whose leaf is there. -/
def fullStream : LeafTable where
  stored :=
    { last stream := if stream.streamName = "Order" then some Int32.maxValue else none
      partitions := [⟨1, "Sales", some "Order", some "Created", "event_types_1"⟩] }

/-- No transaction is open on it. -/
theorem fullStream_idle :
    LeafTable.Idle fullStream.stored.last {} fullStream.stored.leaves fullStream :=
  ⟨rfl, rfl, rfl, fun _ _ found => by cases found⟩

/-- A refund and an order. -/
def refundAndOrder : List Batch := [oneEvent "Refund" "Created", oneEvent "Order" "Created"]

/-- With none of the leaves there two of the three batches are to be healed, so the call
returns with its third attempt. A call with one attempt that lacks the leaf of the refund
never comes to the order, for which there is no revision, and gives up. -/
theorem ordersAndRefund_attempts :
    (lacking [] (fun _ => false) ordersAndRefund =
        [oneEvent "Order" "Created", oneEvent "Refund" "Created"] ∧
      ∃ (before : List (Round (List (List Event)))) (last : Round (List (List Event))),
        ∃ outcome cache' t',
          ((withAttempts 3).appendMany ordersAndRefund).runOn LeafTable.database {} {} =
            ((outcome, cache'), t') ∧
          Course LeafTable.database (some (Catalog.ensure (withAttempts 3).catalogConfig))
            (Batch.appendAll [] .ok ordersAndRefund) ({}, {}) (before ++ [last]) (cache', t') ∧
          before.length + 1 = 3 ∧ ∃ value, outcome = .ok value) ∧
      ∃ cache' t',
        ((withAttempts 1).appendMany refundAndOrder).runOn LeafTable.database {} fullStream =
          ((.error (.error (.retriesExhausted 1 ((oneEvent "Refund" "Created").lack []))), cache'),
            t') := by
  constructor
  · have total := withAttempts_total 3
    have tries : (withAttempts 3).catalogConfig.nameTries ≠ 0 := by decide
    have healthy := LeafTable.healthy (fun _ => none) tries
    have plain : ∀ batch ∈ ordersAndRefund, batch.Plain := by decide
    obtain ⟨before, last, outcome, cache', t', run, told⟩ :=
      (attempts_of_leaves healthy total LeafTable.idle_empty).1 ordersAndRefund plain
    have healed := told.fits (by rintro _ rfl; decide)
    obtain ⟨number, -, value, -, good⟩ := healed.returns (.inr (by decide))
    refine ⟨rfl, before, last, outcome, cache', t', run, told.course, ?_, value, good⟩
    exact List.length_append.symm.trans number
  · have total := withAttempts_total 1
    have tries : (withAttempts 1).catalogConfig.nameTries ≠ 0 := by decide
    have healthy := LeafTable.healthy fullStream.stored.last tries
    have plain : ∀ batch ∈ refundAndOrder, batch.Plain := by decide
    obtain ⟨before, last, outcome, cache', t', run, told⟩ :=
      (attempts_of_leaves healthy total fullStream_idle).1 refundAndOrder plain
    have healed := told.fits (by rintro _ rfl; decide)
    have short : lacking [] fullStream.stored.leaves refundAndOrder =
        [oneEvent "Refund" "Created"] := rfl
    obtain ⟨-, earlier, batch, others, split, -, -, rfl⟩ :=
      healed.givesUp (short ▸ List.cons_ne_nil _ _) (by decide)
    obtain ⟨-, same⟩ | ⟨-, none⟩ := List.append_eq_singleton_iff.1 (split.symm.trans short)
    · obtain rfl := (List.cons.inj same).1
      exact ⟨cache', t', run⟩
    · exact absurd none (List.cons_ne_nil _ _)

/-- The database fails only for want of a leaf, no batch is to be healed, and the append ends
without a result all the same: there is no revision for its event. -/
theorem fullStream_overflows :
    let batches := [oneEvent "Order" "Created"]
    let call := (withAttempts 3).appendMany batches
    let outcome := (call.runOn LeafTable.database {} fullStream).1.1
    LeafTable.database.Healthy (Catalog.ensure (withAttempts 3).catalogConfig)
        (· = fullStream.stored.last) (LeafTable.Idle fullStream.stored.last)
        (LeafTable.Inside fullStream.stored.last) ∧
      LeafTable.Idle fullStream.stored.last {} fullStream.stored.leaves fullStream ∧
      (withAttempts 3).chain.Total ∧ (∀ batch ∈ batches, batch.Plain) ∧
      lacking [] fullStream.stored.leaves batches = [] ∧
      (match outcome with | .ok _ => none | .error cause => some cause) = some .overflow := by
  exact ⟨LeafTable.healthy _ (by decide), fullStream_idle, withAttempts_total 3, by decide, rfl,
    by decide +kernel⟩

end Journal

end EventJournal

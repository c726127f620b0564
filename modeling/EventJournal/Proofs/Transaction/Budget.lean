import EventJournal.Proofs.Table
import EventJournal.Proofs.Transaction.Rounds

/-!
# The attempts of a call

A policy says how many attempts a call has, the first one included. A conflict, a race and
missing partitions are followed by another attempt only within that number; the first lost
connection is followed by another whatever is left. This module counts the attempts of a
call, which are its rounds, and says when there is one too many.

## Main results

* `Round.Continues.of_spent` — of the rounds that go on, only a first lost connection does
  so where nothing is left.
* `transact_attempts` — a call makes one attempt more than it has exactly if its last
  one is the first to lose the connection.
-/

namespace EventJournal

namespace RetryPolicy

/-- The attempts that a call has: there is always a first one. -/
def attempts (policy : RetryPolicy) : Nat := max 1 policy.maxAttempts.toNat

end RetryPolicy

section

variable {σ α δ : Type} {policy : RetryPolicy}

/-- The attempt that the policy has last is made, and is the first that loses the
connection. -/
def LosesLast (policy : RetryPolicy) (rounds : List (Round α)) : Prop :=
  ∃ earlier spent after, rounds = earlier ++ spent :: after ∧
    earlier.length + 1 = policy.attempts ∧ spent.LostConnection ∧
    ∀ round ∈ earlier, ¬round.LostConnection

/-- Of the rounds that go on, only a first lost connection does so where nothing is
left. -/
theorem Round.Continues.of_spent {heals : Bool} {before : List (Round α)} {round : Round α}
    (h : round.Continues policy heals before) (spent : policy.attempts ≤ before.length + 1) :
    round.LostConnection ∧ ∀ earlier ∈ before, ¬earlier.LostConnection := by
  have most : policy.maxAttempts.toNat ≤ policy.attempts := Nat.le_max_right _ _
  cases h with
  | retry cause failed retryable left => omega
  | healed stream types failed heals left => omega
  | reconnected lost first => exact ⟨lost, first⟩

/-- A call makes one attempt more than it has exactly if it loses its connection in the
last one that it has, for the first time. -/
theorem Concluded.exceeds_iff {db : Database δ} {catalog : Option (LeafKey → Action σ Partition)}
    {unit : Action σ α} {p q : σ × δ} {before : List (Round α)} {last : Round α}
    {ending : Ending α} (h : Concluded db policy catalog unit p before last ending q) :
    policy.attempts < before.length + 1 ↔ LosesLast policy (before ++ [last]) := by
  constructor
  · intro more
    -- the first attempt is never one too many, so there is a round to go on from
    have some : before ≠ [] := by
      rintro rfl
      have one : 1 ≤ policy.attempts := Nat.le_max_left _ _
      simp only [List.length_nil] at more
      omega
    obtain ⟨earlier, spent, rfl⟩ := List.eq_nil_or_concat before |>.resolve_left some
    rw [List.concat_eq_append] at h more ⊢
    have bound : (earlier ++ [spent]).length + 1 ≤ policy.attempts + 1 := h.bound
    simp only [List.length_append, List.length_singleton] at more bound
    obtain ⟨lost, first⟩ := (h.continues earlier spent [] rfl).of_spent (by omega)
    exact ⟨earlier, spent, [last], by simp, by omega, lost, first⟩
  · rintro ⟨earlier, spent, after, same, number, lost, first⟩
    rcases Round.split_snoc same with ⟨rfl, rfl, -⟩ | ⟨rest, -, rfl⟩
    · -- a call does not end with its first lost connection
      obtain ⟨-, round, there, again⟩ := h.closes.of_lostConnection lost
      exact absurd again (first round there)
    · simp only [List.length_append, List.length_cons]
      omega

/-- A call makes as many attempts as the policy says at most, or one more: exactly if the
last attempt that it has is the first to lose its connection. The error that reports a
number of attempts reports those that were made, this one included. -/
theorem transact_attempts (db : Database δ) (policy : RetryPolicy)
    (catalog : Option (LeafKey → Action σ Partition)) (unit : Action σ α) (s : σ) (d : δ) :
    ∃ before last ending s' d',
      (Action.transact policy (catalog.map Catalog.healWith) unit).runOn db s d =
        ((Ending.outcome ending, s'), d') ∧
      Course db catalog unit (s, d) (before ++ [last]) (s', d') ∧
      before.length + 1 ≤ policy.attempts + 1 ∧
      (before.length + 1 ≤ policy.attempts ↔ ¬LosesLast policy (before ++ [last])) ∧
      (∀ attempts cause, ending = .exhausted attempts cause → attempts = before.length + 1) := by
  obtain ⟨outcome, s', d', run, before, last, ending, concluded, rfl⟩ :=
    transact_told db policy catalog unit s d
  refine ⟨before, last, ending, s', d', run, concluded.course, concluded.bound, ?_, ?_⟩
  · rw [← concluded.exceeds_iff, Nat.not_lt]
  · intro attempts cause exhausted
    exact ((concluded.closes.exhausted attempts cause).1 exhausted).1

/-! ## One attempt too many -/

/-- The connection is lost, and the attempt that follows has a conflict. -/
def lossThenConflict : List (Except JournalError Unit) :=
  [.error (.connectionLost "reset by peer"), .error (.serializationConflict "deadlock")]

/-- Of a call that has one attempt, two are made and reported. -/
theorem lossThenConflict_attempts :
    let policy := RetryPolicy.immediate 1
    let run := (Action.transact policy none (Action.rehearse lossThenConflict)).runOn
      (EventTable.database .calm) ((0, ()) : Nat × Unit) {}
    let cause := match run.1.1 with
      | .ok _ => none
      | .error cause => some cause
    policy.attempts = 1 ∧ run.1.2.1 = 2 ∧
      cause = some (.error (.retriesExhausted 2 (.serializationConflict "deadlock"))) := by
  decide +kernel

end

end EventJournal

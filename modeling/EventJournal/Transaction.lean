import EventJournal.Config
import EventJournal.Database.Program

/-!
# Transactions

A unit of work runs between `BEGIN` and `COMMIT`; if it fails, whatever the reason, the
transaction is rolled back. `transact` runs a unit in serializable transactions and
recovers from four failures:

* a conflict with another transaction, or a lost race for a partition: the unit runs
  again, as often as the policy allows;
* missing partitions: they are created and the unit runs again, within the same budget,
  provided that the caller knows how to create them;
* a lost connection: the unit runs once more, whatever the budget, but only once.

Everything else, and a conflict that has used up the budget, ends the call. Each attempt
runs the whole unit; nothing of a failed attempt is carried into the next.

What follows an attempt is decided by `Verdict.of`, a function of the failure and the
two counters alone. The wait before another attempt (`RetryPolicy.delay`) is left out: no
statement is sent in it, and nothing depends on its length.
-/

namespace EventJournal

/-- What follows a failed attempt. -/
inductive Verdict where
  /-- The call ends. -/
  | finish (cause : JournalError)
  /-- The unit runs again. -/
  | again
  /-- The unit runs again over a new connection. -/
  | reconnect
  /-- The unit runs again once partitions have been created for the types in the
  stream. -/
  | heal (stream : Stream) (types : List String)
  deriving DecidableEq

namespace Verdict

/-- What follows the failure of the given attempt. -/
def of (policy : RetryPolicy) (heals : Bool) (attempt : Nat) (reconnected : Bool)
    (cause : JournalError) : Verdict :=
  match heals, cause with
  | true, .missingPartitions stream types =>
      if policy.allowsRetryAfter attempt then .heal stream types
      else .finish (.retriesExhausted attempt cause)
  | _, _ =>
      if cause.isRetryable then
        if policy.allowsRetryAfter attempt then .again
        else .finish (.retriesExhausted attempt cause)
      else if cause.isConnectionLost && !reconnected then .reconnect
      else .finish cause

/-- How far a call may still go: the attempts the policy has left, and the one for a lost
connection. -/
def fuel (policy : RetryPolicy) (attempt : Nat) (reconnected : Bool) : Nat :=
  (policy.maxAttempts.toNat - attempt) + if reconnected then 0 else 1

theorem fuel_lt_of_heal {policy : RetryPolicy} {heals reconnected : Bool} {attempt : Nat}
    {cause : JournalError} {stream : Stream} {types : List String}
    (h : of policy heals attempt reconnected cause = .heal stream types) :
    fuel policy (attempt + 1) reconnected < fuel policy attempt reconnected := by
  unfold of at h
  split at h
  · split at h
    · rename_i retry
      have := of_decide_eq_true retry
      simp only [fuel]
      omega
    · cases h
  · repeat' split at h
    all_goals cases h

theorem fuel_lt_of_again {policy : RetryPolicy} {heals reconnected : Bool} {attempt : Nat}
    {cause : JournalError} (h : of policy heals attempt reconnected cause = .again) :
    fuel policy (attempt + 1) reconnected < fuel policy attempt reconnected := by
  unfold of at h
  split at h
  · split at h <;> cases h
  · split at h
    · split at h
      · rename_i retry
        have := of_decide_eq_true retry
        simp only [fuel]
        omega
      · cases h
    · split at h <;> cases h

theorem fuel_lt_of_reconnect {policy : RetryPolicy} {heals reconnected : Bool} {attempt : Nat}
    {cause : JournalError} (h : of policy heals attempt reconnected cause = .reconnect) :
    fuel policy (attempt + 1) true < fuel policy attempt reconnected := by
  unfold of at h
  split at h
  · split at h <;> cases h
  · split at h
    · split at h <;> cases h
    · split at h
      · rename_i lost
        cases reconnected with
        | true => simp at lost
        | false => simp only [fuel, Bool.false_eq_true, ↓reduceIte]; omega
      · cases h

end Verdict

/-- Creates the partitions of a stream for a list of types. -/
abbrev Healer (σ : Type) : Type := Stream → List String → Action σ Unit

namespace Action

variable {σ α : Type}

/-- Undoes the transaction; whether that succeeds makes no difference. -/
def rollback : Action σ Unit := do
  let _ ← attempt .rollback

/-- Runs a unit in one transaction. A failed commit ends the transaction by itself. -/
def inTransaction (isolation : Isolation) (unit : Action σ α) : Action σ α := do
  let _ ← ask .begin
  match ← outcome (do let _ ← ask (.isolate isolation); unit) with
  | .ok value =>
      let _ ← ask .commit
      pure value
  | .error cause =>
      rollback
      abort cause

/-- The attempts of a call, from the given one on. -/
def attempts (policy : RetryPolicy) (healer : Option (Healer σ)) (unit : Action σ α)
    (attempt : Nat) (reconnected : Bool) : Action σ α := do
  match ← outcome (inTransaction .serializable unit) with
  | .ok value => pure value
  | .error (.error cause) =>
      match verdict : Verdict.of policy healer.isSome attempt reconnected cause with
      | .finish cause => fail cause
      | .again => attempts policy healer unit (attempt + 1) reconnected
      | .reconnect => attempts policy healer unit (attempt + 1) true
      | .heal stream types =>
          match healer with
          | some heal => heal stream types
          | none => pure ()
          attempts policy healer unit (attempt + 1) reconnected
  | .error cause => abort cause
termination_by Verdict.fuel policy attempt reconnected
decreasing_by
  · exact Verdict.fuel_lt_of_again verdict
  · exact Verdict.fuel_lt_of_reconnect verdict
  · exact Verdict.fuel_lt_of_heal verdict

/-- Runs a unit in serializable transactions until one attempt succeeds or none is left. -/
def transact (policy : RetryPolicy) (healer : Option (Healer σ)) (unit : Action σ α) :
    Action σ α :=
  attempts policy healer unit 1 false

/-- A unit that sends nothing. Each run counts itself and has the outcome of its number;
where there are no more outcomes, the last one. -/
def rehearse {τ : Type} (outcomes : List (Except JournalError α)) : Action (Nat × τ) α := do
  let (runs, _) ← state
  modify fun (runs, rest) => (runs + 1, rest)
  match (outcomes[runs]?).or outcomes.getLast? with
  | some outcome => check outcome
  | none => abort .overflow

end Action

/-- The settings of a transaction loop as diagnostic texts show them. -/
def RetryPolicy.describeLoop (policy : RetryPolicy) (heals : Bool) : String :=
  "TransactionCoordinator \x7b retry: " ++ policy.describe ++ ", heals_partitions: " ++
    toString heals ++ ", .. \x7d"

end EventJournal

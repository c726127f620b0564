import EventJournal.Catalog
import EventJournal.Proofs.Transaction.Attempts

/-!
# The rounds of a call

A call of `Action.transact` is a finite course of rounds: each is one attempt to run the
unit in a transaction, with the leaves that were asked for after it to heal its failure.
`Course` ties the rounds to what really ran, each attempt and each request for a leaf
from where the one before it ended. `Continues` says which rounds are followed by another
and `Closes` how the last one decides the end of the call; both speak of the number of
the round and the rounds before it, not of the counter and the flag of the loop.

The catalog is any way to ask for a leaf, or there is none.

## Main results

* `ends_healWith` — the leaves asked for: all of them, or up to the first failure.
* `transact_told` — every call is told by its rounds.
-/

namespace EventJournal

/-- One round of a call: an attempt, and the leaves asked for after it with what came of
each request. -/
structure Round (α : Type) where
  outcome : Except Abort α
  healing : List (LeafKey × Except Abort Partition)

/-- How a call ends. -/
inductive Ending (α : Type) where
  /-- With the outcome of the last attempt as it is. -/
  | bare (outcome : Except Abort α)
  /-- With an error of its own, after a number of attempts. -/
  | exhausted (attempts : Nat) (last : JournalError)
  /-- With the failure to heal the last attempt. -/
  | unhealed (cause : Abort)

namespace Ending

variable {α : Type}

def outcome : Ending α → Except Abort α
  | .bare outcome => outcome
  | .exhausted attempts last => .error (.error (.retriesExhausted attempts last))
  | .unhealed cause => .error cause

end Ending

/-- Another attempt may help, or would once the leaves are there. -/
def JournalError.Recoverable (heals : Bool) (cause : JournalError) : Prop :=
  cause.isRetryable = true ∨
    heals = true ∧ ∃ stream types, cause = .missingPartitions stream types

/-- The five things that can follow a failed attempt. -/
theorem Verdict.of_cases (policy : RetryPolicy) (heals : Bool) (attempt : Nat)
    (reconnected : Bool) (cause : JournalError) :
    (cause.Recoverable heals ∧ policy.maxAttempts.toNat ≤ attempt ∧
      Verdict.of policy heals attempt reconnected cause =
        .finish (.retriesExhausted attempt cause)) ∨
    (cause.isRetryable = true ∧ attempt < policy.maxAttempts.toNat ∧
      Verdict.of policy heals attempt reconnected cause = .again) ∨
    (∃ stream types, heals = true ∧ cause = .missingPartitions stream types ∧
      attempt < policy.maxAttempts.toNat ∧
      Verdict.of policy heals attempt reconnected cause = .heal stream types) ∨
    (cause.isConnectionLost = true ∧ reconnected = false ∧
      Verdict.of policy heals attempt reconnected cause = .reconnect) ∨
    (¬cause.Recoverable heals ∧ (cause.isConnectionLost = true → reconnected = true) ∧
      Verdict.of policy heals attempt reconnected cause = .finish cause) := by
  have budget : policy.allowsRetryAfter attempt = decide (attempt < policy.maxAttempts.toNat) := rfl
  by_cases left : attempt < policy.maxAttempts.toNat
  · cases heals <;> cases reconnected <;> cases cause <;>
      simp [Verdict.of, JournalError.Recoverable, JournalError.isRetryable,
        JournalError.isConnectionLost, budget, left, Nat.not_le.2 left]
  · cases heals <;> cases reconnected <;> cases cause <;>
      simp [Verdict.of, JournalError.Recoverable, JournalError.isRetryable,
        JournalError.isConnectionLost, budget, left, Nat.not_lt.1 left]

namespace Round

variable {α : Type}

/-- The attempt lost its connection. -/
def LostConnection (round : Round α) : Prop :=
  ∃ cause, round.outcome = .error (.error cause) ∧ cause.isConnectionLost = true

/-- The leaves of types in a stream. -/
def leaves (stream : Stream) (types : List String) : List LeafKey :=
  types.map fun type => ⟨stream.context, stream.streamName, type⟩

/-- A round after which the call goes on. -/
inductive Continues (policy : RetryPolicy) (heals : Bool) (before : List (Round α))
    (round : Round α) : Prop where
  /-- A conflict or a race, and attempts are left. -/
  | retry (cause : JournalError) (failed : round.outcome = .error (.error cause))
      (retryable : cause.isRetryable = true)
      (left : before.length + 1 < policy.maxAttempts.toNat) (plain : round.healing = [])
  /-- Missing partitions, and attempts are left: the leaves of all types have been asked
  for in order and obtained. -/
  | healed (stream : Stream) (types : List String)
      (failed : round.outcome = .error (.error (.missingPartitions stream types)))
      (heals : heals = true) (left : before.length + 1 < policy.maxAttempts.toNat)
      (asked : round.healing.map (·.1) = leaves stream types)
      (obtained : ∀ request ∈ round.healing, ∃ leaf, request.2 = .ok leaf)
  /-- The first lost connection of the call, whatever is left. -/
  | reconnected (lost : round.LostConnection) (first : ∀ earlier ∈ before, ¬earlier.LostConnection)
      (plain : round.healing = [])

/-- The requests for leaves broke off with a failure, the ones before it being good. -/
def BrokeOff (stream : Stream) (types : List String) (cause : Abort)
    (healing : List (LeafKey × Except Abort Partition)) : Prop :=
  ∃ done key, healing = done ++ [(key, .error cause)] ∧
    healing.map (·.1) <+: leaves stream types ∧ ∀ request ∈ done, ∃ leaf, request.2 = .ok leaf

/-- The last round of a call decides how the call ends. -/
structure Closes (policy : RetryPolicy) (heals : Bool) (before : List (Round α))
    (round : Round α) (ending : Ending α) : Prop where
  exhausted : ∀ attempts last, ending = .exhausted attempts last ↔
    attempts = before.length + 1 ∧ policy.maxAttempts.toNat ≤ attempts ∧
      round.outcome = .error (.error last) ∧ last.Recoverable heals
  unhealed : ∀ cause, ending = .unhealed cause ↔
    heals = true ∧ before.length + 1 < policy.maxAttempts.toNat ∧
      ∃ stream types, round.outcome = .error (.error (.missingPartitions stream types)) ∧
        BrokeOff stream types cause round.healing
  bare : ∀ outcome, ending = .bare outcome ↔
    round.outcome = outcome ∧ ∀ cause, outcome = .error (.error cause) →
      ¬cause.Recoverable heals ∧
        (cause.isConnectionLost = true → ∃ earlier ∈ before, earlier.LostConnection)

end Round

section

variable {σ α δ : Type}

/-- Leaves are asked for one after the other, each from where the request before it
ended. -/
inductive Requests (db : Database δ) (catalog : Option (LeafKey → Action σ Partition)) :
    σ × δ → List (LeafKey × Except Abort Partition) → σ × δ → Prop
  | none (p : σ × δ) : Requests db catalog p [] p
  | more {s s' : σ} {d d' : δ} {ensure : LeafKey → Action σ Partition} {key : LeafKey}
      {result : Except Abort Partition} {rest : List (LeafKey × Except Abort Partition)}
      {q : σ × δ} (there : catalog = some ensure)
      (run : (ensure key).runOn db s d = ((result, s'), d'))
      (others : Requests db catalog (s', d') rest q) :
      Requests db catalog (s, d) ((key, result) :: rest) q

/-- Rounds run one after the other, each from where the one before it ended. -/
inductive Course (db : Database δ) (catalog : Option (LeafKey → Action σ Partition))
    (unit : Action σ α) : σ × δ → List (Round α) → σ × δ → Prop
  | none (p : σ × δ) : Course db catalog unit p [] p
  | more {s s' : σ} {d d' : δ} {round : Round α} {rest : List (Round α)} {p q : σ × δ}
      (run : (Action.inTransaction .serializable unit).runOn db s d =
        ((round.outcome, s'), d'))
      (healing : Requests db catalog (s', d') round.healing p)
      (others : Course db catalog unit p rest q) :
      Course db catalog unit (s, d) (round :: rest) q

variable {db : Database δ} {catalog : Option (LeafKey → Action σ Partition)} {unit : Action σ α}

theorem Course.append {p q r : σ × δ} {rounds others : List (Round α)}
    (h : Course db catalog unit p rounds q) (k : Course db catalog unit q others r) :
    Course db catalog unit p (rounds ++ others) r := by
  induction h with
  | none => exact k
  | more run healing _ ih => exact .more run healing (ih k)

/-! ## Healing -/

/-- The leaves of all types are asked for in order, or of those up to the first failure. -/
theorem ends_healWith {ensure : LeafKey → Action σ Partition} (stream : Stream)
    (types : List String) (s : σ) (d : δ) :
    Action.Ends db (Catalog.healWith ensure stream types) s d
      (fun _ s' d' => ∃ healing, Requests db (some ensure) (s, d) healing (s', d') ∧
        healing.map (·.1) = Round.leaves stream types ∧
        ∀ request ∈ healing, ∃ leaf, request.2 = .ok leaf)
      (fun cause s' d' => ∃ healing, Requests db (some ensure) (s, d) healing (s', d') ∧
        Round.BrokeOff stream types cause healing) := by
  induction types generalizing s d with
  | nil => exact (Action.ends_pure ()).2 ⟨[], .none _, rfl, fun _ h => nomatch h⟩
  | cons type rest ih =>
      show Action.Ends db (_ >>= fun _ => Catalog.healWith ensure stream rest) s d _ _
      simp only [Action.ends_bind, Action.ends_pure]
      refine Action.Ends.of_forall ?_ ?_
      · intro leaf s₁ d₁ run
        apply Action.Ends.mono (ih s₁ d₁)
        · intro _ s' d' got
          obtain ⟨healing, requests, asked, obtained⟩ := got
          refine ⟨_, .more rfl run requests, by simp [asked, Round.leaves], ?_⟩
          intro request h
          rcases List.mem_cons.1 h with rfl | h
          · exact ⟨leaf, rfl⟩
          · exact obtained request h
        · intro cause s' d' got
          obtain ⟨_, requests, done, key, rfl, asked, obtained⟩ := got
          refine ⟨_, .more rfl run requests, _ :: done, key, rfl, ?_, ?_⟩
          · simpa [Round.leaves] using asked
          · intro request h
            rcases List.mem_cons.1 h with rfl | h
            · exact ⟨leaf, rfl⟩
            · exact obtained request h
      · intro cause s' d' run
        exact ⟨_, .more rfl run (.none _), [], _, rfl, by simp [Round.leaves],
          fun _ h => nomatch h⟩

/-! ## The last round -/

namespace Round

variable {policy : RetryPolicy} {heals : Bool} {before : List (Round α)} {round : Round α}

theorem Closes.of_exhausted {cause : JournalError}
    (failed : round.outcome = .error (.error cause)) (recoverable : cause.Recoverable heals)
    (spent : policy.maxAttempts.toNat ≤ before.length + 1) :
    round.Closes policy heals before (.exhausted (before.length + 1) cause) where
  exhausted attempts last := by
    constructor
    · intro h
      cases h
      exact ⟨rfl, spent, failed, recoverable⟩
    · intro got
      obtain ⟨rfl, -, failed', -⟩ := got
      cases failed.symm.trans failed'
      rfl
  unhealed cause := by
    constructor
    · intro h
      cases h
    · intro got
      obtain ⟨-, left, -⟩ := got
      omega
  bare outcome := by
    constructor
    · intro h
      cases h
    · intro got
      obtain ⟨rfl, h⟩ := got
      exact absurd recoverable (h cause failed).1

theorem Closes.of_unhealed {stream : Stream} {types : List String} {cause : Abort}
    (failed : round.outcome = .error (.error (.missingPartitions stream types)))
    (there : heals = true) (left : before.length + 1 < policy.maxAttempts.toNat)
    (brokeOff : BrokeOff stream types cause round.healing) :
    round.Closes policy heals before (.unhealed cause) where
  exhausted attempts last := by
    constructor
    · intro h
      cases h
    · intro got
      obtain ⟨rfl, spent, -, -⟩ := got
      omega
  unhealed cause' := by
    constructor
    · intro h
      cases h
      exact ⟨there, left, stream, types, failed, brokeOff⟩
    · intro got
      obtain ⟨-, -, _, _, -, _, _, same, -, -⟩ := got
      obtain ⟨_, _, healing, -, -⟩ := brokeOff
      have last := (List.append_inj' (healing.symm.trans same) rfl).2
      cases last
      rfl
  bare outcome := by
    constructor
    · intro h
      cases h
    · intro got
      obtain ⟨rfl, h⟩ := got
      exact absurd (Or.inr ⟨there, stream, types, rfl⟩) (h _ failed).1

theorem Closes.of_bare
    (h : ∀ cause, round.outcome = .error (.error cause) → ¬cause.Recoverable heals ∧
      (cause.isConnectionLost = true → ∃ earlier ∈ before, earlier.LostConnection)) :
    round.Closes policy heals before (.bare round.outcome) where
  exhausted attempts last := by
    constructor
    · intro h
      cases h
    · intro got
      obtain ⟨-, -, failed, recoverable⟩ := got
      exact absurd recoverable (h last failed).1
  unhealed cause := by
    constructor
    · intro h
      cases h
    · intro got
      obtain ⟨there, -, stream, types, failed, -⟩ := got
      exact absurd (Or.inr ⟨there, stream, types, rfl⟩) (h _ failed).1
  bare outcome := by
    constructor
    · intro same
      cases same
      exact ⟨rfl, h⟩
    · intro got
      obtain ⟨rfl, -⟩ := got
      rfl

end Round

/-! ## The course of a call -/

/-- After each of the rounds the call goes on. -/
def AllContinue (policy : RetryPolicy) (heals : Bool) (rounds : List (Round α)) : Prop :=
  ∀ before round after, rounds = before ++ round :: after → round.Continues policy heals before

theorem AllContinue.nil (policy : RetryPolicy) (heals : Bool) :
    AllContinue policy heals ([] : List (Round α)) := by
  intro before round after h
  cases before <;> cases h

/-- A round among some and a last one is the last, or one of them. -/
theorem Round.split_snoc {rounds before after : List (Round α)} {last round : Round α}
    (same : rounds ++ [last] = before ++ round :: after) :
    (before = rounds ∧ round = last ∧ after = []) ∨
      ∃ rest, after = rest ++ [last] ∧ rounds = before ++ round :: rest := by
  rcases List.eq_nil_or_concat after with rfl | ⟨rest, final, rfl⟩
  · obtain ⟨rfl, final⟩ := List.append_inj' same rfl
    cases final
    exact .inl ⟨rfl, rfl, rfl⟩
  · rw [List.concat_eq_append, ← List.cons_append, ← List.append_assoc] at same
    obtain ⟨rfl, final⟩ := List.append_inj' same rfl
    cases final
    exact .inr ⟨rest, List.concat_eq_append, rfl⟩

theorem AllContinue.snoc {policy : RetryPolicy} {heals : Bool} {rounds : List (Round α)}
    {round : Round α} (h : AllContinue policy heals rounds)
    (last : round.Continues policy heals rounds) :
    AllContinue policy heals (rounds ++ [round]) := by
  intro before other after same
  rcases Round.split_snoc same with ⟨rfl, rfl, -⟩ | ⟨rest, -, earlier⟩
  · exact last
  · exact h before other rest earlier

/-- A call that has been through some rounds, all of which go on, and is about to make
the attempt of a number. -/
structure Underway (db : Database δ) (policy : RetryPolicy)
    (catalog : Option (LeafKey → Action σ Partition)) (unit : Action σ α) (p : σ × δ)
    (rounds : List (Round α)) (attempt : Nat) (reconnected : Bool) (q : σ × δ) : Prop where
  course : Course db catalog unit p rounds q
  continues : AllContinue policy catalog.isSome rounds
  number : attempt = rounds.length + 1
  flag : reconnected = true ↔ ∃ round ∈ rounds, round.LostConnection
  bound : attempt ≤ max 1 policy.maxAttempts.toNat + reconnected.toNat

/-- A call that has ended after some rounds and a last one. -/
structure Concluded (db : Database δ) (policy : RetryPolicy)
    (catalog : Option (LeafKey → Action σ Partition)) (unit : Action σ α) (p : σ × δ)
    (before : List (Round α)) (round : Round α) (ending : Ending α) (q : σ × δ) : Prop where
  course : Course db catalog unit p (before ++ [round]) q
  continues : AllContinue policy catalog.isSome before
  closes : round.Closes policy catalog.isSome before ending
  bound : before.length + 1 ≤ max 1 policy.maxAttempts.toNat + 1

variable {policy : RetryPolicy} {p : σ × δ} {rounds : List (Round α)} {attempt : Nat}
  {reconnected : Bool} {s : σ} {d : δ}

/-- A round after which the call goes on. -/
theorem Underway.next (h : Underway db policy catalog unit p rounds attempt reconnected (s, d))
    (round : Round α) {s₁ : σ} {d₁ : δ} {q : σ × δ} {reconnected' : Bool}
    (run : (Action.inTransaction .serializable unit).runOn db s d = ((round.outcome, s₁), d₁))
    (healing : Requests db catalog (s₁, d₁) round.healing q)
    (continues : round.Continues policy catalog.isSome rounds)
    (flag : reconnected' = true ↔ reconnected = true ∨ round.LostConnection)
    (bound : attempt + 1 ≤ max 1 policy.maxAttempts.toNat + reconnected'.toNat) :
    Underway db policy catalog unit p (rounds ++ [round]) (attempt + 1) reconnected' q where
  course := h.course.append (.more run healing (.none _))
  continues := h.continues.snoc continues
  number := by simp [h.number]
  flag := by
    rw [flag, h.flag]
    simp [or_and_right, exists_or]
  bound := bound

/-- A round that ends the call. -/
theorem Underway.conclude (h : Underway db policy catalog unit p rounds attempt reconnected (s, d))
    {round : Round α} {s₁ : σ} {d₁ : δ} {q : σ × δ} {ending : Ending α}
    (run : (Action.inTransaction .serializable unit).runOn db s d = ((round.outcome, s₁), d₁))
    (healing : Requests db catalog (s₁, d₁) round.healing q)
    (closes : round.Closes policy catalog.isSome rounds ending) :
    Concluded db policy catalog unit p rounds round ending q where
  course := h.course.append (.more run healing (.none _))
  continues := h.continues
  closes := closes
  bound := by
    have number := h.number
    have bound := h.bound
    have flag : reconnected.toNat ≤ 1 := Bool.toNat_le reconnected
    omega

/-- The end of a call, told by its rounds: the outcome is that of an ending which the last
round decides. -/
def Told (db : Database δ) (policy : RetryPolicy)
    (catalog : Option (LeafKey → Action σ Partition)) (unit : Action σ α) (p : σ × δ)
    (outcome : Except Abort α) (q : σ × δ) : Prop :=
  ∃ before round ending, Concluded db policy catalog unit p before round ending q ∧
    ending.outcome = outcome

/-- An outcome that no other attempt can better ends the call as it is. -/
theorem Underway.told_bare
    (h : Underway db policy catalog unit p rounds attempt reconnected (s, d))
    {outcome : Except Abort α} {s' : σ} {d' : δ}
    (run : (Action.inTransaction .serializable unit).runOn db s d = ((outcome, s'), d'))
    (final : ∀ cause, outcome = .error (.error cause) → ¬cause.Recoverable catalog.isSome ∧
      (cause.isConnectionLost = true → reconnected = true)) :
    Told db policy catalog unit p outcome (s', d') := by
  refine ⟨rounds, ⟨outcome, []⟩, .bare outcome, ?_, rfl⟩
  refine h.conclude run (.none _) (.of_bare fun cause failed => ?_)
  exact ⟨(final cause failed).1, fun lost => h.flag.1 ((final cause failed).2 lost)⟩

/-- A failure that has used up the budget ends the call with an error of its own. -/
theorem Underway.told_exhausted
    (h : Underway db policy catalog unit p rounds attempt reconnected (s, d))
    {cause : JournalError} {s' : σ} {d' : δ}
    (run : (Action.inTransaction .serializable unit).runOn db s d =
      ((.error (.error cause), s'), d'))
    (recoverable : cause.Recoverable catalog.isSome)
    (spent : policy.maxAttempts.toNat ≤ attempt) :
    Told db policy catalog unit p (.error (.error (.retriesExhausted attempt cause))) (s', d') := by
  obtain rfl := h.number
  refine ⟨rounds, ⟨.error (.error cause), []⟩, .exhausted (rounds.length + 1) cause, ?_, rfl⟩
  exact h.conclude run (.none _) (.of_exhausted rfl recoverable spent)

/-- A conflict within the budget is followed by another attempt. -/
theorem Underway.after_conflict
    (h : Underway db policy catalog unit p rounds attempt reconnected (s, d))
    {cause : JournalError} {s' : σ} {d' : δ}
    (run : (Action.inTransaction .serializable unit).runOn db s d =
      ((.error (.error cause), s'), d'))
    (retryable : cause.isRetryable = true) (left : attempt < policy.maxAttempts.toNat) :
    ∃ rounds, Underway db policy catalog unit p rounds (attempt + 1) reconnected (s', d') := by
  have number := h.number
  refine ⟨_, h.next ⟨.error (.error cause), []⟩ run (.none _)
    (.retry cause rfl retryable (by omega) rfl) ?_ (by omega)⟩
  constructor
  · exact Or.inl
  · intro got
    rcases got with used | ⟨_, failed, lost⟩
    · exact used
    · cases failed
      cases cause <;>
        simp [JournalError.isRetryable, JournalError.isConnectionLost] at retryable lost

/-- The first lost connection is followed by another attempt. -/
theorem Underway.after_loss
    (h : Underway db policy catalog unit p rounds attempt false (s, d))
    {cause : JournalError} {s' : σ} {d' : δ}
    (run : (Action.inTransaction .serializable unit).runOn db s d =
      ((.error (.error cause), s'), d'))
    (lost : cause.isConnectionLost = true) :
    ∃ rounds, Underway db policy catalog unit p rounds (attempt + 1) true (s', d') := by
  have bound : attempt ≤ max 1 policy.maxAttempts.toNat + 0 := h.bound
  have first : ∀ earlier ∈ rounds, ¬earlier.LostConnection := fun earlier there lost =>
    Bool.false_ne_true (h.flag.2 ⟨earlier, there, lost⟩)
  refine ⟨_, h.next ⟨.error (.error cause), []⟩ run (.none _)
    (.reconnected ⟨cause, rfl, lost⟩ first rfl) ?_ (by simpa using bound)⟩
  exact ⟨fun _ => Or.inr ⟨cause, rfl, lost⟩, fun _ => rfl⟩

/-- Missing partitions within the budget are healed before another attempt; a failure to
heal them ends the call. -/
theorem Underway.after_missing {ensure : LeafKey → Action σ Partition}
    (h : Underway db policy (some ensure) unit p rounds attempt reconnected (s, d))
    {stream : Stream} {types : List String} {s' : σ} {d' : δ}
    (run : (Action.inTransaction .serializable unit).runOn db s d =
      ((.error (.error (.missingPartitions stream types)), s'), d'))
    (left : attempt < policy.maxAttempts.toNat) :
    Action.Ends db (Catalog.healWith ensure stream types) s' d'
      (fun _ s d => ∃ rounds, Underway db policy (some ensure) unit p rounds (attempt + 1)
        reconnected (s, d))
      (fun cause s d => Told db policy (some ensure) unit p (.error cause) (s, d)) := by
  have number := h.number
  apply Action.Ends.mono (ends_healWith stream types s' d')
  · intro _ s₁ d₁ got
    obtain ⟨healing, requests, asked, obtained⟩ := got
    refine ⟨_, h.next ⟨.error (.error (.missingPartitions stream types)), healing⟩ run
      requests (.healed stream types rfl rfl (by omega) asked obtained) ?_ (by omega)⟩
    constructor
    · exact Or.inl
    · intro got
      rcases got with used | ⟨_, failed, lost⟩
      · exact used
      · cases failed
        cases lost
  · intro cause s₁ d₁ got
    obtain ⟨healing, requests, brokeOff⟩ := got
    refine ⟨rounds, ⟨.error (.error (.missingPartitions stream types)), healing⟩, .unhealed cause,
      h.conclude run requests ?_, rfl⟩
    exact .of_unhealed rfl rfl (by omega) brokeOff

/-- Every call from the given attempt on ends as its rounds tell. -/
theorem ends_attempts_told :
    ∀ attempt reconnected s d,
      (∃ rounds, Underway db policy catalog unit p rounds attempt reconnected (s, d)) →
      Action.Ends db
        (Action.attempts policy (catalog.map Catalog.healWith) unit attempt reconnected) s d
        (fun value s d => Told db policy catalog unit p (.ok value) (s, d))
        (fun cause s d => Told db policy catalog unit p (.error cause) (s, d)) := by
  refine Action.Ends.attempts
    (fun attempt reconnected s d =>
      ∃ rounds, Underway db policy catalog unit p rounds attempt reconnected (s, d)) ?_
  intro attempt reconnected s d got
  obtain ⟨rounds, h⟩ := got
  refine Action.Ends.of_forall ?_ ?_
  · intro value s' d' run
    exact h.told_bare run fun _ failed => nomatch failed
  · intro cause s' d' run
    cases cause with
    | overflow => exact h.told_bare run fun _ failed => nomatch failed
    | misfit => exact h.told_bare run fun _ failed => nomatch failed
    | outOfTries => exact h.told_bare run fun _ failed => nomatch failed
    | error cause =>
        have heals : (catalog.map Catalog.healWith).isSome = catalog.isSome := Option.isSome_map
        unfold Action.Owed
        dsimp only
        rw [heals]
        rcases Verdict.of_cases policy catalog.isSome attempt reconnected cause with
          ⟨recoverable, spent, verdict⟩ | ⟨retryable, left, verdict⟩ |
          ⟨stream, types, there, rfl, left, verdict⟩ | ⟨lost, rfl, verdict⟩ |
          ⟨final, used, verdict⟩
        · rw [verdict]
          exact h.told_exhausted run recoverable spent
        · rw [verdict]
          exact h.after_conflict run retryable left
        · rw [verdict]
          cases catalog with
          | none => cases there
          | some ensure => exact h.after_missing run left
        · rw [verdict]
          exact h.after_loss run lost
        · rw [verdict]
          refine h.told_bare run fun cause' failed => ?_
          cases failed
          exact ⟨final, used⟩

/-- A call is told by its rounds. -/
theorem transact_told (db : Database δ) (policy : RetryPolicy)
    (catalog : Option (LeafKey → Action σ Partition)) (unit : Action σ α) (s : σ) (d : δ) :
    ∃ outcome s' d',
      (Action.transact policy (catalog.map Catalog.healWith) unit).runOn db s d =
        ((outcome, s'), d') ∧ Told db policy catalog unit (s, d) outcome (s', d') := by
  have start : Underway db policy catalog unit (s, d) [] 1 false (s, d) :=
    ⟨.none _, .nil _ _, rfl, by simp, Nat.le_max_left _ _⟩
  have told := ends_attempts_told 1 false s d ⟨[], start⟩
  rcases run : (Action.transact policy (catalog.map Catalog.healWith) unit).runOn db s d with
    ⟨⟨outcome, s'⟩, d'⟩
  refine ⟨outcome, s', d', rfl, ?_⟩
  cases outcome with
  | ok value => exact (Action.ends_of_runOn_ok run).1 told
  | error cause => exact (Action.ends_of_runOn_error run).1 told

theorem AllContinue.failed {heals : Bool} (h : AllContinue policy heals rounds) :
    ∀ round ∈ rounds, ∃ cause, round.outcome = .error (.error cause) := by
  intro round there
  obtain ⟨before, after, rfl⟩ := List.append_of_mem there
  cases h before round after rfl with
  | retry cause failed => exact ⟨cause, failed⟩
  | healed stream types failed => exact ⟨_, failed⟩
  | reconnected lost =>
      obtain ⟨cause, failed, -⟩ := lost
      exact ⟨cause, failed⟩

/-- The call has a result exactly where its last attempt has one. -/
theorem Round.Closes.outcome_eq_ok_iff {heals : Bool} {before : List (Round α)} {round : Round α}
    {ending : Ending α} (h : round.Closes policy heals before ending) (value : α) :
    ending.outcome = .ok value ↔ round.outcome = .ok value := by
  constructor
  · intro good
    cases ending with
    | bare outcome =>
        cases good
        exact ((h.bare _).1 rfl).1
    | exhausted attempts last => cases good
    | unhealed cause => cases good
  · intro good
    rw [(h.bare (.ok value)).2 ⟨good, fun _ failed => nomatch failed⟩]
    rfl

/-- A lost connection that ends the call is the outcome as it is, and not the first. -/
theorem Round.Closes.of_lostConnection {heals : Bool} {before : List (Round α)}
    {round : Round α} {ending : Ending α} (h : round.Closes policy heals before ending)
    (lost : round.LostConnection) :
    ending = .bare round.outcome ∧ ∃ earlier ∈ before, earlier.LostConnection := by
  obtain ⟨cause, failed, lost⟩ := lost
  have unrecoverable : ¬cause.Recoverable heals := by
    cases cause <;>
      simp [JournalError.Recoverable, JournalError.isRetryable, JournalError.isConnectionLost]
        at lost ⊢
  cases ending with
  | bare outcome =>
      obtain ⟨rfl, final⟩ := (h.bare outcome).1 rfl
      exact ⟨rfl, (final cause failed).2 lost⟩
  | exhausted attempts last =>
      obtain ⟨-, -, failed', recoverable⟩ := (h.exhausted attempts last).1 rfl
      cases failed.symm.trans failed'
      exact absurd recoverable unrecoverable
  | unhealed other =>
      obtain ⟨there, -, stream, types, failed', -⟩ := (h.unhealed other).1 rfl
      cases failed.symm.trans failed'
      cases lost

/-- Every call is a finite course of rounds, one more than the policy allows at most. All
rounds but the last failed and were followed by another for a reason; the last decides
the end, as a result exactly if it has one. A lost connection ends the call only if there
was one before it. -/
theorem transact_is_course (db : Database δ) (policy : RetryPolicy)
    (catalog : Option (LeafKey → Action σ Partition)) (unit : Action σ α) (s : σ) (d : δ) :
    ∃ before last ending s' d',
      (Action.transact policy (catalog.map Catalog.healWith) unit).runOn db s d =
        ((Ending.outcome ending, s'), d') ∧
      Concluded db policy catalog unit (s, d) before last ending (s', d') ∧
      (∀ earlier ∈ before, ∃ cause, earlier.outcome = .error (.error cause)) ∧
      (∀ value, ending.outcome = .ok value ↔ last.outcome = .ok value) ∧
      (last.LostConnection →
        ending = .bare last.outcome ∧ ∃ earlier ∈ before, earlier.LostConnection) := by
  obtain ⟨outcome, s', d', run, before, last, ending, concluded, rfl⟩ :=
    transact_told db policy catalog unit s d
  refine ⟨before, last, ending, s', d', run, concluded, ?_, ?_, ?_⟩
  · exact concluded.continues.failed
  · exact concluded.closes.outcome_eq_ok_iff
  · exact concluded.closes.of_lostConnection

end

end EventJournal

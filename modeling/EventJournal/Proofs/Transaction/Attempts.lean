import EventJournal.Proofs.Ends
import EventJournal.Transaction

/-!
# Rules for transactions

What `Action.Ends` says of a unit in one transaction, and of the attempts of a call. The
rule for the attempts is that of a loop: its invariant `I` knows the number of the next
attempt and whether the reconnect has been used, and what an attempt that fails owes
depends on the verdict (`Owed`). No fuel appears in it; that the loop ends is part of the
rule. To map the result of a unit is to map that of its call (`transact_map`).
-/

namespace EventJournal.Verdict

variable {policy : RetryPolicy} {attempt : Nat} {reconnected : Bool} {stream : Stream}
  {types : List String}

/-- Missing partitions are created if attempts are left. -/
theorem of_missing (left : attempt < policy.maxAttempts.toNat) :
    of policy true attempt reconnected (.missingPartitions stream types) = .heal stream types :=
  if_pos (decide_eq_true left)

/-- Otherwise they end the call. -/
theorem of_missing_spent (spent : policy.maxAttempts.toNat ≤ attempt) :
    of policy true attempt reconnected (.missingPartitions stream types) =
      .finish (.retriesExhausted attempt (.missingPartitions stream types)) :=
  if_neg fun left => Nat.not_lt.2 spent (of_decide_eq_true left)

/-- The first lost connection is followed by another attempt, whatever is left, and the second
one ends the call. -/
theorem of_connectionLost (policy : RetryPolicy) (heals : Bool) (attempt : Nat)
    (reconnected : Bool) (text : String) :
    of policy heals attempt reconnected (.connectionLost text) =
      if reconnected then .finish (.connectionLost text) else .reconnect := by
  cases heals <;> cases reconnected <;> rfl

end EventJournal.Verdict

namespace EventJournal.Action

variable {σ α δ : Type} {db : Database δ} {s : σ} {d : δ}
  {ok : α → σ → δ → Prop} {bad : Abort → σ → δ → Prop}

/-- A rollback makes no difference to what follows, however it is answered. -/
@[simp] theorem ends_rollback {ok : Unit → σ → δ → Prop} :
    Ends db rollback s d ok bad ↔ ok () s (db.answer .rollback d).2 := by
  unfold rollback
  rw [ends_bind]
  exact (ends_of_runOn_ok (runOn_attempt db s d .rollback)).trans (ends_pure ())

/-- A unit in one transaction: after it comes the commit, or after a failure the
rollback, however that is answered. -/
theorem ends_inTransaction {isolation : Isolation} {unit : Action σ α} :
    Ends db (inTransaction isolation unit) s d ok bad ↔
      Ends db (ask .begin) s d
        (fun _ s d =>
          Ends db (ask (.isolate isolation)) s d
            (fun _ s d =>
              Ends db unit s d
                (fun value s d => Ends db (ask .commit) s d (fun _ s d => ok value s d) bad)
                (fun cause s d => bad cause s (db.answer .rollback d).2))
            (fun cause s d => bad cause s (db.answer .rollback d).2))
        bad := by
  unfold inTransaction
  simp only [ends_bind, ends_outcome, ends_pure, ends_rollback, ends_abort]

/-- What is owed after an attempt that failed, for `I` to hold before the next one or
`bad` at the end. -/
def Owed (db : Database δ) (policy : RetryPolicy) (healer : Option (Healer σ))
    (I : Nat → Bool → σ → δ → Prop) (bad : Abort → σ → δ → Prop) (attempt : Nat)
    (reconnected : Bool) (cause : Abort) (s : σ) (d : δ) : Prop :=
  match cause with
  | .error cause =>
      match Verdict.of policy healer.isSome attempt reconnected cause with
      | .finish cause => bad (.error cause) s d
      | .again => I (attempt + 1) reconnected s d
      | .reconnect => I (attempt + 1) true s d
      | .heal stream types =>
          Ends db (match healer with | some heal => heal stream types | none => pure ()) s d
            (fun _ s d => I (attempt + 1) reconnected s d) bad
  | cause => bad cause s d

section

variable {policy : RetryPolicy} {healer : Option (Healer σ)} {heal : Healer σ}
  {I : Nat → Bool → σ → δ → Prop} {attempt : Nat} {reconnected : Bool} {stream : Stream}
  {types : List String}

/-- While attempts are left, what is owed for missing partitions is to heal. -/
theorem Owed.of_missing (left : attempt < policy.maxAttempts.toNat)
    (heals : Ends db (heal stream types) s d (fun _ s d => I (attempt + 1) reconnected s d) bad) :
    Owed db policy (some heal) I bad attempt reconnected
      (.error (.missingPartitions stream types)) s d := by
  unfold Owed
  dsimp only [Option.isSome_some]
  rwa [Verdict.of_missing left]

/-- With none left, the call gives up. -/
theorem Owed.of_missing_spent (spent : policy.maxAttempts.toNat ≤ attempt)
    (ends : bad (.error (.retriesExhausted attempt (.missingPartitions stream types))) s d) :
    Owed db policy (some heal) I bad attempt reconnected
      (.error (.missingPartitions stream types)) s d := by
  unfold Owed
  dsimp only [Option.isSome_some]
  rwa [Verdict.of_missing_spent spent]

/-- For the first lost connection another attempt is owed. -/
theorem Owed.of_connectionLost {text : String} (again : I (attempt + 1) true s d) :
    Owed db policy healer I bad attempt false (.error (.connectionLost text)) s d := by
  unfold Owed
  dsimp only
  rwa [Verdict.of_connectionLost]

end

/-- The rule for the attempts of a call. -/
theorem Ends.attempts {policy : RetryPolicy} {healer : Option (Healer σ)} {unit : Action σ α}
    (I : Nat → Bool → σ → δ → Prop)
    (step : ∀ attempt reconnected s d, I attempt reconnected s d →
      Ends db (inTransaction .serializable unit) s d ok
        (Owed db policy healer I bad attempt reconnected)) :
    ∀ attempt reconnected s d, I attempt reconnected s d →
      Ends db (attempts policy healer unit attempt reconnected) s d ok bad := by
  intro attempt reconnected
  induction fuel : Verdict.fuel policy attempt reconnected using Nat.strongRecOn
    generalizing attempt reconnected with
  | _ n ih =>
      intro s d h
      have next : ∀ attempt' reconnected', Verdict.fuel policy attempt' reconnected' < n →
          ∀ s d, I attempt' reconnected' s d →
            Ends db (Action.attempts policy healer unit attempt' reconnected') s d ok bad :=
        fun attempt' reconnected' less => ih _ less attempt' reconnected' rfl
      rw [Action.attempts, ends_bind, ends_outcome]
      refine (step attempt reconnected s d h).mono (fun _ _ _ h => (ends_pure _).2 h) ?_
      intro cause s d owed
      cases cause with
      | error cause =>
          simp only [Owed] at owed
          dsimp only
          split
          · rename_i verdict
            rw [verdict] at owed
            exact (ends_fail _).2 owed
          · rename_i verdict
            rw [verdict] at owed
            exact next _ _ (fuel ▸ Verdict.fuel_lt_of_again verdict) _ _ owed
          · rename_i verdict
            rw [verdict] at owed
            exact next _ _ (fuel ▸ Verdict.fuel_lt_of_reconnect verdict) _ _ owed
          · rename_i stream types verdict
            rw [verdict] at owed
            have less := fuel ▸ Verdict.fuel_lt_of_heal verdict
            cases healer with
            | none => exact next _ _ less _ _ ((ends_pure ()).1 owed)
            | some heal =>
                rw [ends_bind]
                exact owed.mono (fun _ s d h => next _ _ less s d h) fun _ _ _ h => h
      | overflow => exact (ends_abort _).2 owed
      | misfit => exact (ends_abort _).2 owed
      | outOfTries => exact (ends_abort _).2 owed

/-- What each attempt and each healing keeps, the call keeps, however it ends. -/
theorem Ends.transact_keeps {policy : RetryPolicy} {healer : Option (Healer σ)}
    {unit : Action σ α} {I : δ → Prop}
    (attempt : ∀ s d, I d →
      Ends db (inTransaction .serializable unit) s d (fun _ _ d => I d) (fun _ _ d => I d))
    (heal : ∀ f, healer = some f → ∀ stream types s d, I d →
      Ends db (f stream types) s d (fun _ _ d => I d) (fun _ _ d => I d)) :
    ∀ s d, I d →
      Ends db (transact policy healer unit) s d (fun _ _ d => I d) (fun _ _ d => I d) := by
  refine Ends.attempts (fun _ _ _ d => I d) ?_ 1 false
  intro number reconnected s d h
  refine (attempt s d h).mono (fun _ _ _ h => h) ?_
  intro cause s d h
  unfold Owed
  split
  · split
    · exact h
    · exact h
    · exact h
    · cases healer with
      | none => exact (ends_pure ()).2 h
      | some f => exact heal f rfl _ _ s d h
  · exact h

/-- What holds of each attempt that returns, holds of the call if it returns. -/
theorem Ends.transact_of_attempts {policy : RetryPolicy} {healer : Option (Healer σ)}
    {unit : Action σ α}
    (attempt : ∀ s d, Ends db (inTransaction .serializable unit) s d ok fun _ _ _ => True) :
    ∀ s d, Ends db (transact policy healer unit) s d ok fun _ _ _ => True := by
  intro s d
  refine Ends.attempts (fun _ _ _ _ => True) ?_ 1 false s d trivial
  intro number reconnected s d _
  refine (attempt s d).mono (fun _ _ _ h => h) fun cause s d _ => ?_
  unfold Owed
  split
  · split
    · trivial
    · trivial
    · trivial
    · exact Ends.of_forall (fun _ _ _ _ => trivial) fun _ _ _ _ => trivial
  · trivial

/-- A call whose first attempt returns. -/
theorem Ends.transact_of_ok {policy : RetryPolicy} {healer : Option (Healer σ)}
    {unit : Action σ α}
    (h : Ends db (inTransaction .serializable unit) s d ok fun _ _ _ => False) :
    Ends db (transact policy healer unit) s d ok bad := by
  refine Ends.attempts (fun _ _ s' d' => s' = s ∧ d' = d) ?_ 1 false s d ⟨rfl, rfl⟩
  rintro number reconnected _ _ ⟨rfl, rfl⟩
  exact h.mono (fun _ _ _ h => h) fun _ _ _ never => never.elim

/-! ## Results that are mapped -/

section

variable {β : Type}

@[simp] theorem map_abort (f : α → β) (cause : Abort) :
    f <$> (abort cause : Action σ α) = abort cause := rfl

@[simp] theorem map_fail (f : α → β) (cause : JournalError) :
    f <$> (fail cause : Action σ α) = fail cause := rfl

end

end EventJournal.Action

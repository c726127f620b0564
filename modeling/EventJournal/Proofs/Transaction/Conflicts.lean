import EventJournal.Proofs.Transaction.Traces

/-!
# Attempts that end with a conflict

An attempt may end with a conflict at any of its statements: at the begin, at one of those
within the transaction, or at the commit (`Passage.Conflicted`). Whichever it is, the unit runs
again from where it began, with the state that it had. So the attempts that ended with a conflict
can be taken off the front of a trace, and what is left is the trace of a call that has made as
many attempts (`Action.leads_attempts`).

How the attempt after them is followed up depends on their number only if it fails in a way that
asks for another one. If none of its statements fails, that is so only where a hook of the caller
fails as if there were a conflict.
-/

namespace EventJournal

/-- An attempt that ended with a conflict. -/
inductive Passage.Conflicted : Passage → Prop
  | begin {e : DbError} (conflict : e.isConflict = true) : Conflicted (.alone ⟨.begin, .error e⟩)
  /-- A statement within the transaction failed. How the rollback was answered makes no
  difference. -/
  | inside {before : List Exchange} {s : Statement} {e : DbError} {answer : Except DbError Unit}
      (plain : ∀ x ∈ before ++ [⟨s, .error e⟩], x.statement.isBoundary = false)
      (conflict : e.isConflict = true) :
      Conflicted (.transaction (before ++ [⟨s, .error e⟩]) ⟨.rollback, answer⟩)
  | commit {inside : List Exchange} {e : DbError}
      (plain : ∀ x ∈ inside, x.statement.isBoundary = false) (conflict : e.isConflict = true) :
      Conflicted (.transaction inside ⟨.commit, .error e⟩)

/-- An attempt none of whose statements failed. It may have been undone all the same. -/
inductive Passage.Sound : Passage → Prop
  | committed {inside : List Exchange} (plain : ∀ x ∈ inside, x.statement.isBoundary = false)
      (sound : ∀ x ∈ inside, x.answer.isOk = true) :
      Sound (.transaction inside ⟨.commit, .ok ()⟩)
  | undone {inside : List Exchange} {answer : Except DbError Unit}
      (plain : ∀ x ∈ inside, x.statement.isBoundary = false)
      (sound : ∀ x ∈ inside, x.answer.isOk = true) :
      Sound (.transaction inside ⟨.rollback, answer⟩)

theorem DbError.isRetryable_of_isConflict {e : DbError} (conflict : e.isConflict = true) :
    e.toJournalError.isRetryable = true := by
  unfold toJournalError
  rw [if_pos conflict]
  rfl

theorem DbError.isSignal_of_isConflict {e : DbError} (conflict : e.isConflict = true) :
    e.isSignal = true := by
  unfold isSignal
  rw [conflict, Bool.true_or]

/-- While attempts are left, a conflict is followed by another attempt. -/
theorem Verdict.of_retryable {policy : RetryPolicy} {heals : Bool} {attempt : Nat}
    {reconnected : Bool} {cause : JournalError} (retryable : cause.isRetryable = true)
    (left : attempt < policy.maxAttempts.toNat) :
    of policy heals attempt reconnected cause = .again := by
  have budget : policy.allowsRetryAfter attempt = true := decide_eq_true left
  cases cause with
  | serializationConflict text => cases heals <;> simp [of, budget, JournalError.isRetryable]
  | partitionRace text => cases heals <;> simp [of, budget, JournalError.isRetryable]
  | _ => cases retryable

/-- What is no conflict ends the call, whichever attempt it is. -/
theorem Verdict.of_not_isSignal {policy : RetryPolicy} {heals : Bool} {attempt : Nat}
    {reconnected : Bool} {cause : JournalError} (quiet : cause.isSignal = false) :
    of policy heals attempt reconnected cause = .finish cause := by
  cases heals <;> cases cause <;>
    first
      | rfl
      | cases quiet

namespace Action

variable {σ α β : Type} {policy : RetryPolicy} {healer : Option (Healer σ)} {unit : Action σ α}
  {raises : JournalError → Prop} {attempt : Nat} {reconnected : Bool} {s : σ}
  {rest : List Exchange} {result : β} {next : Except Abort α × σ → Program β}

/-! ## One attempt -/

/-- A unit after the transaction has said how it is kept apart. -/
theorem Forthright.isolated (h : unit.Forthright raises) (isolation : Isolation) :
    (ask (.isolate isolation) >>= fun _ => unit : Action σ α).Forthright raises :=
  Forthright.bind (forthright_ask _) fun _ => h

/-- An attempt that ended with a conflict leaves the state as it was, and another may follow. -/
theorem leads_conflicted (forthright : unit.Forthright raises)
    (quiet : unit.Sends (·.isBoundary = false)) {p : Passage} (conflicted : p.Conflicted)
    (leads : (((inTransaction .serializable unit).start s).bind next).Leads (p.exchanges ++ rest)
      result) :
    ∃ cause, cause.isRetryable = true ∧ (next (.error (.error cause), s)).Leads rest result := by
  have body := forthright.isolated .serializable s
  cases conflicted with
  | begin conflict =>
      exact ⟨_, DbError.isRetryable_of_isConflict conflict, leads_refused leads⟩
  | @inside before statement e answer plain conflict =>
      obtain ⟨ran, ended, first, closes, -, rest⟩ := leads_transaction quiet plain rfl leads
      obtain rfl := body.leads_failure first (DbError.isSignal_of_isConflict conflict)
      refine ⟨_, DbError.isRetryable_of_isConflict conflict, ?_⟩
      cases closes with
      | send closes =>
          cases closes
          exact rest
  | @commit inside e plain conflict =>
      obtain ⟨⟨outcome, s'⟩, ended, first, closes, -, rest⟩ :=
        leads_transaction quiet plain rfl leads
      obtain rfl : s' = s := body.leads_state first
      refine ⟨_, DbError.isRetryable_of_isConflict conflict, ?_⟩
      cases outcome with
      | ok value =>
          cases closes with
          | send closes =>
              cases closes
              exact rest
      | error cause => cases closes

/-- An attempt none of whose statements failed leaves the state as it was. If it asks for another
one, then as it is raised. -/
theorem leads_sound (forthright : unit.Forthright raises)
    (quiet : unit.Sends (·.isBoundary = false)) {p : Passage} (sound : p.Sound)
    (leads : (((inTransaction .serializable unit).start s).bind next).Leads (p.exchanges ++ rest)
      result) :
    ∃ outcome, ((inTransaction .serializable unit).start s).Leads p.exchanges (outcome, s) ∧
      (∀ cause, outcome = .error (.error cause) → cause.isSignal = true → raises cause) ∧
      (next (outcome, s)).Leads rest result := by
  have body := forthright.isolated .serializable s
  cases sound with
  | @committed inside plain sound =>
      obtain ⟨⟨outcome, s'⟩, ended, first, closes, whole, rest⟩ :=
        leads_transaction quiet plain rfl leads
      obtain rfl : s' = s := body.leads_state first
      cases outcome with
      | ok value =>
          cases closes with
          | send closes =>
              cases closes
              refine ⟨.ok value, whole, fun cause ends => ?_, rest⟩
              cases ends
      | error cause => cases closes
  | @undone inside answer plain sound =>
      obtain ⟨⟨outcome, s'⟩, ended, first, closes, whole, rest⟩ :=
        leads_transaction quiet plain rfl leads
      obtain rfl : s' = s := body.leads_state first
      cases outcome with
      | ok value => cases closes
      | error cause =>
          cases closes with
          | send closes =>
              cases closes
              exact ⟨.error cause, whole, fun _ ends => body.leads_sound first sound ends, rest⟩

/-! ## All attempts -/

/-- What follows an attempt. -/
def resume (policy : RetryPolicy) (healer : Option (Healer σ)) (unit : Action σ α)
    (attempt : Nat) (reconnected : Bool) : Except Abort α → Action σ α
  | .ok value => pure value
  | .error (.error cause) =>
      match Verdict.of policy healer.isSome attempt reconnected cause with
      | .finish cause => fail cause
      | .again => attempts policy healer unit (attempt + 1) reconnected
      | .reconnect => attempts policy healer unit (attempt + 1) true
      | .heal stream types => do
          match healer with
          | some heal => heal stream types
          | none => pure ()
          attempts policy healer unit (attempt + 1) reconnected
  | .error cause => abort cause

theorem attempts_eq_resume (policy : RetryPolicy) (healer : Option (Healer σ))
    (unit : Action σ α) (attempt : Nat) (reconnected : Bool) :
    attempts policy healer unit attempt reconnected =
      outcome (inTransaction .serializable unit) >>=
        resume policy healer unit attempt reconnected := by
  rw [attempts]
  refine congrArg _ (funext fun result => ?_)
  rcases result with (cause | _ | _ | _) | value
  · unfold resume
    dsimp only
    split <;> rename_i verdict
    · rw [verdict]
    · rw [verdict]
    · rw [verdict]
    · cases healer <;> rw [verdict]
  · rfl
  · rfl
  · rfl
  · rfl

/-- The program of the attempts: one transaction, and what follows it. -/
theorem start_attempts (policy : RetryPolicy) (healer : Option (Healer σ)) (unit : Action σ α)
    (attempt : Nat) (reconnected : Bool) (s : σ) :
    (attempts policy healer unit attempt reconnected).start s =
      ((inTransaction .serializable unit).start s).bind fun ran =>
        (resume policy healer unit attempt reconnected ran.1).start ran.2 := by
  rw [attempts_eq_resume]
  exact Program.bind_assoc _ _ _

theorem resume_of_retryable {cause : JournalError} (retryable : cause.isRetryable = true)
    (left : attempt < policy.maxAttempts.toNat) :
    resume policy healer unit attempt reconnected (.error (.error cause)) =
      attempts policy healer unit (attempt + 1) reconnected := by
  unfold resume
  dsimp only
  rw [Verdict.of_retryable retryable left]

/-- What asks for no other attempt ends the call, whichever attempt it is. -/
theorem resume_of_not_isSignal {outcome : Except Abort α}
    (final : ∀ cause, outcome = .error (.error cause) → cause.isSignal = false) (s : σ) :
    (resume policy healer unit attempt reconnected outcome).start s = .done (outcome, s) := by
  rcases outcome with (cause | _ | _ | _) | value
  · unfold resume
    dsimp only
    rw [Verdict.of_not_isSignal (final cause rfl)]
    rfl
  · rfl
  · rfl
  · rfl
  · rfl

/-- The attempts that ended with a conflict are taken off the front of a trace. By induction on
them: each leaves the state as it was, and is followed by another. -/
theorem leads_attempts (forthright : unit.Forthright raises)
    (quiet : unit.Sends (·.isBoundary = false)) {post : Except Abort α × σ → Program β}
    {last : Passage} (sound : last.Sound) {more : List Exchange} (failed : List Passage)
    (conflicted : ∀ p ∈ failed, p.Conflicted) :
    ∀ attempt, attempt + failed.length ≤ policy.maxAttempts.toNat →
      (((attempts policy healer unit attempt false).start s).bind post).Leads
        (failed.flatMap Passage.exchanges ++ (last.exchanges ++ more)) result →
      ∃ outcome, ((inTransaction .serializable unit).start s).Leads last.exchanges (outcome, s) ∧
        (∀ cause, outcome = .error (.error cause) → cause.isSignal = true → raises cause) ∧
        (((resume policy healer unit (attempt + failed.length) false outcome).start s).bind
          post).Leads more result := by
  induction failed with
  | nil =>
      intro attempt left leads
      rw [start_attempts, Program.bind_assoc] at leads
      exact leads_sound forthright quiet sound leads
  | cons p failed ih =>
      intro attempt left leads
      obtain ⟨first, others⟩ := List.forall_mem_cons.1 conflicted
      rw [List.length_cons] at left
      rw [List.flatMap_cons, List.append_assoc, start_attempts, Program.bind_assoc] at leads
      obtain ⟨cause, retryable, leads⟩ := leads_conflicted forthright quiet first leads
      have leads : (((resume policy healer unit attempt false (.error (.error cause))).start s).bind
        post).Leads _ result := leads
      rw [resume_of_retryable retryable (by omega)] at leads
      have rest := ih others (attempt + 1) (by omega) leads
      rwa [show attempt + 1 + failed.length = attempt + (p :: failed).length by
        rw [List.length_cons]; omega] at rest

end Action

end EventJournal

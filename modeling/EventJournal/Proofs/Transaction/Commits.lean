import EventJournal.Proofs.Sends
import EventJournal.Proofs.Transaction.Rounds

/-!
# Committed transactions

A transaction is committed when its `COMMIT` is answered without an error. How often that
happens along a run is counted by `Action.commits`, on the answers themselves and not on
what the action makes of them. A call has transactions of its own, one for each attempt,
and its healing runs transactions of the catalog; a `Ledger` is a `Course` that counts the
former alone.

## Main results

* `commits_inTransaction` — a transaction is committed exactly if the action returns.
* `transact_ledger` — a call that returns has committed one of its attempts, and a call
  that fails has committed none.
-/

namespace EventJournal

/-- How many transactions an answer commits. -/
def Statement.commits : (s : Statement) → Except DbError s.Answer → Nat
  | .commit, .ok _ => 1
  | _, _ => 0

theorem Statement.commits_of_ne {s : Statement} (h : s ≠ .commit)
    (answer : Except DbError s.Answer) : s.commits answer = 0 := by
  unfold Statement.commits
  split
  · exact absurd rfl h
  · rfl

namespace Program

variable {α β δ : Type} (db : Database δ)

/-- How many transactions are committed in a run. -/
def commits : Program α → δ → Nat
  | .done _, _ => 0
  | .send s next, d =>
      s.commits (db.answer s d).1 + (next (db.answer s d).1).commits (db.answer s d).2

theorem commits_bind (program : Program α) (f : α → Program β) (d : δ) :
    (program.bind f).commits db d =
      program.commits db d + (f (program.run db d).1).commits db (program.run db d).2 := by
  induction program generalizing d with
  | done value => exact (Nat.zero_add _).symm
  | send s next ih =>
      have h := ih (db.answer s d).1 (db.answer s d).2
      show _ + ((next (db.answer s d).1).bind f).commits db (db.answer s d).2 = _ + _ + _
      rw [h, Nat.add_assoc]
      rfl

theorem commits_of_sends {program : Program α} (sends : program.Sends (· ≠ .commit)) (d : δ) :
    program.commits db d = 0 := by
  induction program generalizing d with
  | done value => rfl
  | send s next ih =>
      have h := ih (db.answer s d).1 (sends.2 _) (db.answer s d).2
      show s.commits (db.answer s d).1 + _ = 0
      rw [Statement.commits_of_ne sends.1, h]

end Program

namespace Action

variable {σ α β δ : Type} (db : Database δ) (s : σ) (d : δ)

/-- How many transactions an action commits from a state and a database. -/
def commits (action : Action σ α) (s : σ) (d : δ) : Nat := (action.start s).commits db d

theorem commits_bind (action : Action σ α) (f : α → Action σ β) :
    (action >>= f).commits db s d =
      action.commits db s d +
        match action.runOn db s d with
        | ((.ok value, s), d) => (f value).commits db s d
        | ((.error _, _), _) => 0 := by
  show (Program.bind (action.start s) _).commits db d = _
  rw [Program.commits_bind]
  show _ = _ + match Program.run db (action.start s) d with
    | ((.ok value, s), d) => (f value).commits db s d
    | ((.error _, _), _) => 0
  obtain ⟨⟨_ | value, s⟩, d⟩ := Program.run db (action.start s) d <;> rfl

theorem commits_outcome (action : Action σ α) :
    action.outcome.commits db s d = action.commits db s d := by
  show (Program.bind (action.start s) _).commits db d = _
  rw [Program.commits_bind]
  rfl

theorem commits_of_sends {action : Action σ α} (sends : action.Sends (· ≠ .commit)) :
    action.commits db s d = 0 :=
  Program.commits_of_sends db (sends s) d

/-- To ask for a commit is to commit, unless it fails. -/
theorem commits_ask_commit :
    (ask .commit : Action σ _).commits db s d = (db.answer .commit d).1.isOk.toNat := by
  unfold ask
  rw [commits_bind]
  have sent : (attempt .commit : Action σ _).commits db s d =
      Statement.commits .commit (db.answer .commit d).1 := rfl
  have rest : ∀ result : Except JournalError Unit, ∀ s d,
      (check result : Action σ Unit).commits db s d = 0 := by
    intro result s d
    cases result <;> rfl
  rw [sent, runOn_attempt]
  show Statement.commits .commit (db.answer .commit d).1 +
    (check _ : Action σ Unit).commits _ _ _ = _
  rw [rest]
  cases (db.answer .commit d).1 <;> rfl

variable (isolation : Isolation) {unit : Action σ α}

/-- A transaction is committed exactly if the action returns. -/
theorem commits_inTransaction (quiet : unit.Sends (· ≠ .commit)) :
    (inTransaction isolation unit).commits db s d =
      ((inTransaction isolation unit).runOn db s d).1.1.isOk.toNat := by
  have body : (do let _ ← ask (.isolate isolation); unit : Action σ α).Sends (· ≠ .commit) :=
    Sends.bind (sends_ask (by simp)) fun _ => quiet
  have begun : (ask .begin : Action σ _).commits db s d = 0 :=
    commits_of_sends db s d (sends_ask (by simp))
  unfold inTransaction
  rw [commits_bind, runOn_bind, begun, Nat.zero_add]
  rcases (ask .begin : Action σ _).runOn db s d with ⟨⟨_ | _, s₁⟩, d₁⟩
  · rfl
  · dsimp only
    rw [commits_bind, runOn_bind, commits_outcome, commits_of_sends db s₁ d₁ body, Nat.zero_add,
      runOn_outcome]
    rcases (do let _ ← ask (.isolate isolation); unit : Action σ α).runOn db s₁ d₁ with
      ⟨⟨cause | value, s₂⟩, d₂⟩
    · have undone : (rollback : Action σ Unit).Sends (· ≠ .commit) :=
        Sends.bind (sends_attempt (by simp)) fun _ => sends_pure _
      have aborted : (do rollback; abort cause : Action σ α).Sends (· ≠ .commit) :=
        Sends.bind undone fun _ => sends_abort cause
      have failed : (do rollback; abort cause : Action σ α).runOn db s₂ d₂ =
          ((.error cause, s₂), (db.answer .rollback d₂).2) := rfl
      dsimp only
      rw [commits_of_sends db s₂ d₂ aborted, failed]
      rfl
    · dsimp only
      rw [commits_bind, runOn_bind, commits_ask_commit, runOn_ask]
      cases (db.answer .commit d₂).1 <;> rfl

end Action

/-! ## The transactions of a call -/

section

variable {σ α δ : Type}

/-- Rounds run one after the other, with the number of transactions that their attempts
have committed. What healing commits is not counted. -/
inductive Ledger (db : Database δ) (catalog : Option (LeafKey → Action σ Partition))
    (unit : Action σ α) : σ × δ → List (Round α) → Nat → σ × δ → Prop
  | none (p : σ × δ) : Ledger db catalog unit p [] 0 p
  | more {s s' : σ} {d d' : δ} {round : Round α} {rest : List (Round α)} {count : Nat}
      {p q : σ × δ}
      (run : (Action.inTransaction .serializable unit).runOn db s d =
        ((round.outcome, s'), d'))
      (healing : Requests db catalog (s', d') round.healing p)
      (others : Ledger db catalog unit p rest count q) :
      Ledger db catalog unit (s, d) (round :: rest)
        ((Action.inTransaction .serializable unit).commits db s d + count) q

variable {db : Database δ} {catalog : Option (LeafKey → Action σ Partition)} {unit : Action σ α}
  {p q : σ × δ} {rounds : List (Round α)}

/-- A course with a unit that commits nothing by itself has committed the attempts that
returned. -/
theorem Course.ledger (h : Course db catalog unit p rounds q) (quiet : unit.Sends (· ≠ .commit)) :
    Ledger db catalog unit p rounds (rounds.countP (·.outcome.isOk)) q := by
  induction h with
  | none p => exact .none p
  | @more s s' d d' round rest p q run healing _ ih =>
      have committed := Action.commits_inTransaction db s d .serializable quiet
      have count : (round :: rest).countP (·.outcome.isOk) =
          (Action.inTransaction .serializable unit).commits db s d +
            rest.countP (·.outcome.isOk) := by
        rw [committed, run, List.countP_cons]
        cases round.outcome <;> simp [Except.isOk, Except.toBool, Nat.add_comm]
      rw [count]
      exact .more run healing ih

theorem AllContinue.countP_isOk {policy : RetryPolicy} {heals : Bool}
    (h : AllContinue policy heals rounds) : rounds.countP (·.outcome.isOk) = 0 := by
  rw [List.countP_eq_zero]
  intro round there
  obtain ⟨cause, failed⟩ := h.failed round there
  simp [failed, Except.isOk, Except.toBool]

/-- A call that returns has committed one of its attempts, and a call that fails has
committed none. -/
theorem transact_ledger (db : Database δ) (policy : RetryPolicy)
    (catalog : Option (LeafKey → Action σ Partition)) {unit : Action σ α}
    (quiet : unit.Sends (· ≠ .commit)) (s : σ) (d : δ) :
    ∃ outcome s' d' rounds,
      (Action.transact policy (catalog.map Catalog.healWith) unit).runOn db s d =
        ((outcome, s'), d') ∧
      Ledger db catalog unit (s, d) rounds outcome.isOk.toNat (s', d') := by
  obtain ⟨outcome, s', d', run, before, last, ending, concluded, rfl⟩ :=
    transact_told db policy catalog unit s d
  have ledger := concluded.course.ledger quiet
  have same := concluded.closes.outcome_eq_ok_iff
  have count : (before ++ [last]).countP (·.outcome.isOk) = ending.outcome.isOk.toNat := by
    rw [List.countP_append, concluded.continues.countP_isOk, Nat.zero_add, List.countP_singleton]
    cases good : last.outcome with
    | ok value =>
        rw [(same value).2 good]
        rfl
    | error cause =>
        cases bad : ending.outcome with
        | ok value =>
            rw [(same value).1 bad] at good
            cases good
        | error _ => rfl
  rw [count] at ledger
  exact ⟨_, s', d', _, run, ledger⟩

end

end EventJournal

import EventJournal.Database.Error
import EventJournal.Database.Statement

/-!
# Programs over a database

A `Program` is a tree of finite paths: it ends with a value, or it sends a statement and
goes on with the answer, whatever it is. What the database is remains open: a `Database`
is any way to answer statements, and `Program.run` runs a program against one. The same
program can run against a script, against tables in memory or, in a proof, against every
database at once.

An `Action` is a program that carries a state and may end with an `Abort`. The state
survives an abort: what has been learnt from the database before a failure is kept.
-/

namespace EventJournal

/-- A way to answer statements, from a state of its own. -/
structure Database (δ : Type) where
  answer : (s : Statement) → δ → Except DbError s.Answer × δ

inductive Program (α : Type) where
  | done (value : α)
  | send (s : Statement) (next : Except DbError s.Answer → Program α)

namespace Program

variable {α β δ : Type}

def bind : Program α → (α → Program β) → Program β
  | .done value, f => f value
  | .send s next, f => .send s fun answer => (next answer).bind f

instance : Monad Program where
  pure := .done
  bind := Program.bind

theorem bind_done (program : Program α) : program.bind .done = program := by
  induction program with
  | done value => rfl
  | send s next ih => exact congrArg (Program.send s) (funext ih)

theorem bind_assoc {γ : Type} (program : Program α) (f : α → Program β) (g : β → Program γ) :
    (program.bind f).bind g = program.bind fun value => (f value).bind g := by
  induction program with
  | done value => rfl
  | send s next ih => exact congrArg (Program.send s) (funext ih)

instance : LawfulMonad Program :=
  LawfulMonad.mk' Program bind_done (fun _ _ => rfl) (fun program f g => bind_assoc program f g)

/-- Runs a program against a database. -/
def run (db : Database δ) : Program α → δ → α × δ
  | .done value, d => (value, d)
  | .send s next, d =>
      let (answer, d) := db.answer s d
      (next answer).run db d

/-- To run a program and then another is to run the two as one. -/
theorem run_bind (db : Database δ) (program : Program α) (f : α → Program β) (d : δ) :
    (program.bind f).run db d = (f (program.run db d).1).run db (program.run db d).2 := by
  induction program generalizing d with
  | done value => rfl
  | send s next ih => exact ih (db.answer s d).1 (db.answer s d).2

end Program

/-- A program with a state that may end without a result. -/
structure Action (σ α : Type) where
  /-- The program from a state; it ends with the outcome and the state after it. -/
  start : σ → Program (Except Abort α × σ)

namespace Action

variable {σ τ α β δ : Type}

/-- Goes on after a result; an abort is the end. -/
def bind (action : Action σ α) (f : α → Action σ β) : Action σ β where
  start state := (action.start state).bind fun
    | (.ok value, state) => (f value).start state
    | (.error cause, state) => .done (.error cause, state)

instance : Monad (Action σ) where
  pure value := ⟨fun state => .done (.ok value, state)⟩
  bind := Action.bind

theorem bind_pure (action : Action σ α) : action.bind pure = action := by
  refine congrArg Action.mk (funext fun state => ?_)
  have h : (fun result : Except Abort α × σ =>
      match result with
      | (.ok value, state) => (pure value : Action σ α).start state
      | (.error cause, state) => .done (.error cause, state)) = Program.done := by
    funext ⟨result, state⟩
    cases result <;> rfl
  exact (congrArg (Program.bind (action.start state)) h).trans (Program.bind_done _)

theorem bind_assoc {γ : Type} (action : Action σ α) (f : α → Action σ β) (g : β → Action σ γ) :
    (action.bind f).bind g = action.bind fun value => (f value).bind g := by
  refine congrArg Action.mk (funext fun state => ?_)
  refine (Program.bind_assoc _ _ _).trans (congrArg _ (funext fun ⟨result, state⟩ => ?_))
  cases result <;> rfl

instance : LawfulMonad (Action σ) :=
  LawfulMonad.mk' (Action σ) bind_pure (fun _ _ => rfl) (fun action f g => bind_assoc action f g)

/-- Ends without a result. -/
def abort (cause : Abort) : Action σ α := ⟨fun state => .done (.error cause, state)⟩

/-- Ends with an error of the journal. -/
def fail (cause : JournalError) : Action σ α := abort (.error cause)

/-- Goes on with the result of a check. -/
def check (result : Except JournalError α) : Action σ α :=
  match result with
  | .ok value => pure value
  | .error cause => fail cause

/-- The state. -/
def state : Action σ σ := ⟨fun state => .done (.ok state, state)⟩

/-- Changes the state. -/
def modify (f : σ → σ) : Action σ Unit := ⟨fun state => .done (.ok (), f state)⟩

/-- How an action ends, as a value. -/
def outcome (action : Action σ α) : Action σ (Except Abort α) where
  start state := (action.start state).bind fun (result, state) => .done (.ok result, state)

/-- Sends a statement and keeps its failure as a value. -/
def attempt (s : Statement) : Action σ (Except DbError s.Answer) where
  start state := .send s fun answer => .done (.ok answer, state)

/-- Sends a statement; its failure has the common meaning. -/
def ask (s : Statement) : Action σ s.Answer := do
  let answer ← attempt s
  check (answer.mapError DbError.toJournalError)

/-- The first row of an answer that must have one. -/
def firstRow (rows : List α) : Except DbError α :=
  match rows with
  | row :: _ => .ok row
  | [] => .error .rowNotFound

/-- The first of the rows; to have none is an error of the database. -/
def one (rows : List α) : Action σ α := check ((firstRow rows).mapError DbError.toJournalError)

/-- Runs an action on a part of the state. -/
def within (get : σ → τ) (put : τ → σ → σ) (action : Action τ α) : Action σ α where
  start state :=
    (action.start (get state)).bind fun (result, part) => .done (result, put part state)

/-- Runs an action from a state against a database. -/
def runOn (db : Database δ) (action : Action σ α) (state : σ) (d : δ) :
    (Except Abort α × σ) × δ :=
  (action.start state).run db d

/-! ## What an action does to a database

One equation for each way to make an action; with them, what a longer action does follows
without a look into the monad. -/

variable (db : Database δ) (s : σ) (d : δ)

@[simp] theorem runOn_pure (value : α) :
    (pure value : Action σ α).runOn db s d = ((.ok value, s), d) := rfl

@[simp] theorem runOn_abort (cause : Abort) :
    (abort cause : Action σ α).runOn db s d = ((.error cause, s), d) := rfl

@[simp] theorem runOn_fail (cause : JournalError) :
    (fail cause : Action σ α).runOn db s d = ((.error (.error cause), s), d) := rfl

@[simp] theorem runOn_check (result : Except JournalError α) :
    (check result : Action σ α).runOn db s d = ((result.mapError .error, s), d) := by
  cases result <;> rfl

@[simp] theorem runOn_state : (state : Action σ σ).runOn db s d = ((.ok s, s), d) := rfl

@[simp] theorem runOn_modify (f : σ → σ) :
    (modify f).runOn db s d = ((.ok (), f s), d) := rfl

@[simp] theorem runOn_attempt (statement : Statement) :
    (attempt statement : Action σ _).runOn db s d =
      ((.ok (db.answer statement d).1, s), (db.answer statement d).2) := rfl

theorem runOn_bind (action : Action σ α) (f : α → Action σ β) :
    (action >>= f).runOn db s d =
      match action.runOn db s d with
      | ((.ok value, s), d) => (f value).runOn db s d
      | ((.error cause, s), d) => ((.error cause, s), d) := by
  show Program.run db (Program.bind (action.start s) _) d = _
  rw [Program.run_bind]
  show _ = match Program.run db (action.start s) d with
    | ((.ok value, s), d) => (f value).runOn db s d
    | ((.error cause, s), d) => ((.error cause, s), d)
  obtain ⟨⟨_ | value, s⟩, d⟩ := Program.run db (action.start s) d <;> rfl

theorem runOn_outcome (action : Action σ α) :
    action.outcome.runOn db s d =
      match action.runOn db s d with
      | ((result, s), d) => ((.ok result, s), d) := by
  show Program.run db (Program.bind (action.start s) _) d = _
  rw [Program.run_bind]
  rfl

theorem runOn_ask (statement : Statement) :
    (ask statement : Action σ _).runOn db s d =
      (((db.answer statement d).1.mapError fun e => .error e.toJournalError, s),
        (db.answer statement d).2) := by
  simp only [ask, runOn_bind, runOn_attempt, runOn_check]
  cases (db.answer statement d).1 <;> rfl

end Action

end EventJournal

import EventJournal.Proofs.History
import EventJournal.Proofs.Ends

/-!
# A connection that is lost once

`Database.losing` answers as a database does up to a point given beforehand. The statement
at that point is not heard: it has no effect, it is answered with an error, and a
transaction that was open is undone. After that the database answers as before. `Exposed`
is the state of the database together with the way to that point, and with the loss once
it has happened.

Where no loss is to come a program cannot tell (`Ends.of_safe`, `Ends.of_recovered`). Where
one may, the states between the statements of a call are told apart here: `Whole` and
`Recovered` ones between transactions, before and after the loss, and a `Working` one within
a transaction. A loss within a transaction leaves the database `Dropped`, which is to say as
it was. Past the first transaction of a call, a loss is no longer one of that (`Past`).

## Main results

* `Action.Ends.of_safe` — without a loss to come, an action ends as over the database.
* `Exposed.Working.rollback`, `Exposed.Dropped.rollback` — what a rollback leaves behind.
-/

namespace EventJournal

/-- Where the connection was lost. -/
structure Loss where
  /-- The statement that was not heard. -/
  statement : Statement
  /-- A transaction was open. -/
  inside : Bool
  /-- How many transactions had been ended before. -/
  ended : Nat

/-- The loss broke off the first transaction of a call. -/
structure Loss.InFirst (loss : Loss) : Prop where
  first : loss.ended = 0
  broke : loss.statement ≠ .rollback

/-- A database whose connection may yet be lost. -/
structure Exposed (δ : Type) where
  model : δ
  /-- How many statements are answered before the connection is lost. -/
  due : Option Nat
  /-- A transaction is open. -/
  inside : Bool := false
  /-- How many transactions have been ended. -/
  ended : Nat := 0
  loss : Option Loss := none

namespace Exposed

variable {δ : Type}

/-- The connection is lost instead of a statement. -/
def lose (db : Database δ) (s : Statement) (x : Exposed δ) : Exposed δ where
  model := if x.inside then (db.answer .rollback x.model).2 else x.model
  due := none
  inside := false
  ended := x.ended
  loss := some ⟨s, x.inside, x.ended⟩

/-- A transaction is open after a statement that is heard. -/
def insideAfter (db : Database δ) (x : Exposed δ) : Statement → Bool
  | .begin => (db.answer .begin x.model).1.isOk
  | .commit | .rollback => false
  | _ => x.inside

/-- How many transactions have been ended after a statement that is heard. -/
def endedAfter (x : Exposed δ) : Statement → Nat
  | .commit | .rollback => x.ended + 1
  | _ => x.ended

/-- A statement is heard. -/
def pass (db : Database δ) (s : Statement) (x : Exposed δ) : Exposed δ where
  model := (db.answer s x.model).2
  due := x.due.map (· - 1)
  inside := insideAfter db x s
  ended := endedAfter x s
  loss := x.loss

end Exposed

/-- The database as it answers a client whose connection is lost once, with the given
error. -/
def Database.losing {δ : Type} (db : Database δ) (e : DbError) : Database (Exposed δ) where
  answer s x :=
    if x.due = some 0 then (.error e, x.lose db s)
    else ((db.answer s x.model).1, x.pass db s)

section

variable {α σ δ : Type} {db : Database δ} {e : DbError} {x : Exposed δ}

theorem Database.answer_losing_of_due (due : x.due = some 0) (s : Statement) :
    (db.losing e).answer s x = (.error e, x.lose db s) := if_pos due

theorem Database.answer_losing_of_ne (due : x.due ≠ some 0) (s : Statement) :
    (db.losing e).answer s x = ((db.answer s x.model).1, x.pass db s) := if_neg due

/-- A statement that is heard is answered as by the database itself. -/
theorem Database.answer_losing {s : Statement} {result : Except DbError s.Answer} {d : δ}
    (due : x.due ≠ some 0) (answered : db.answer s x.model = (result, d)) :
    (db.losing e).answer s x = (result, x.pass db s) ∧ (x.pass db s).model = d := by
  rw [answer_losing_of_ne due, answered]
  exact ⟨rfl, congrArg Prod.snd answered⟩

theorem Database.answer_losing_of_safe (safe : x.due = none) (s : Statement) :
    (db.losing e).answer s x = ((db.answer s x.model).1, x.pass db s) := by
  refine answer_losing_of_ne ?_ s
  rw [safe]
  exact (Option.some_ne_none 0).symm

theorem Exposed.due_pass {s : Statement} (safe : x.due = none) : (x.pass db s).due = none := by
  unfold pass
  rw [safe]
  rfl

/-! ## Without a loss to come -/

/-- A program runs as over the database itself. -/
theorem Program.run_losing_of_safe (db : Database δ) (e : DbError) (program : Program α) :
    ∀ x : Exposed δ, x.due = none →
    ∃ y, program.run (db.losing e) x = ((program.run db x.model).1, y) ∧
      y.model = (program.run db x.model).2 ∧ y.due = none ∧ y.loss = x.loss := by
  induction program with
  | done value => exact fun x safe => ⟨x, rfl, rfl, safe, rfl⟩
  | send s next ih =>
      intro x safe
      have step : (send s next).run (db.losing e) x =
          (next ((db.losing e).answer s x).1).run (db.losing e) ((db.losing e).answer s x).2 := rfl
      rw [step, Database.answer_losing_of_safe safe]
      exact ih (db.answer s x.model).1 (x.pass db s) (Exposed.due_pass safe)

/-- An action ends as over the database itself. -/
theorem Action.Ends.of_safe {action : Action σ α} {s : σ} {ok : α → σ → δ → Prop}
    {bad : Abort → σ → δ → Prop} (h : Ends db action s x.model ok bad) (e : DbError)
    (safe : x.due = none) :
    Ends (db.losing e) action s x
      (fun value s y => ok value s y.model ∧ y.due = none ∧ y.loss = x.loss)
      fun cause s y => bad cause s y.model ∧ y.due = none ∧ y.loss = x.loss := by
  obtain ⟨y, run, model, rest⟩ := (action.start s).run_losing_of_safe db e x safe
  rcases plain : action.runOn db s x.model with ⟨⟨result, s'⟩, d⟩
  rw [show (action.start s).run db x.model = ((result, s'), d) from plain] at run model
  subst model
  cases result with
  | ok value => exact (ends_of_runOn_ok run).2 ⟨(ends_of_runOn_ok plain).1 h, rest⟩
  | error cause => exact (ends_of_runOn_error run).2 ⟨(ends_of_runOn_error plain).1 h, rest⟩

end

/-! ## Between statements -/

namespace Exposed

variable {δ : Type}

/-- The connection has not been lost, and no transaction is open. -/
structure Whole (x : Exposed δ) : Prop where
  closed : x.inside = false
  unlost : x.loss = none

/-- The connection has been lost, and is not lost again. -/
structure Recovered (loss : Loss) (x : Exposed δ) : Prop where
  due : x.due = none
  loss : x.loss = some loss

/-- A transaction has been ended and none is open, whether the connection has been lost or
not; if it has, not in the first transaction. -/
def Past (x : Exposed δ) : Prop :=
  (x.Whole ∧ 0 < x.ended) ∨ ∃ loss, x.Recovered loss ∧ ¬loss.InFirst

/-- A transaction is open, and the connection has not been lost. -/
structure Working (opened : δ → Prop) (ended : Nat) (x : Exposed δ) : Prop where
  inside : x.inside = true
  unlost : x.loss = none
  number : x.ended = ended
  opened : opened x.model

/-- A transaction was undone when the connection was lost, before it was to be undone
anyway. -/
def Dropped (idle : δ → Prop) (ended : Nat) (x : Exposed δ) : Prop :=
  idle x.model ∧ ∃ loss, x.Recovered loss ∧ loss.statement ≠ .rollback ∧ loss.ended = ended

end Exposed

/-- After the loss an action ends as over the database itself. -/
theorem Action.Ends.of_recovered {σ α δ : Type} {db : Database δ} {action : Action σ α} {s : σ}
    {x : Exposed δ} {loss : Loss} {ok : α → σ → δ → Prop} {bad : Abort → σ → δ → Prop}
    (h : Ends db action s x.model ok bad) (e : DbError) (recovered : x.Recovered loss) :
    Ends (db.losing e) action s x (fun value s y => ok value s y.model ∧ y.Recovered loss)
      fun cause s y => bad cause s y.model ∧ y.Recovered loss :=
  (h.of_safe e recovered.due).mono
    (fun _ _ _ got => ⟨got.1, got.2.1, got.2.2.trans recovered.loss⟩)
    fun _ _ _ got => ⟨got.1, got.2.1, got.2.2.trans recovered.loss⟩

/-- A transaction that is undone leaves no trace. One that begins in an `idle` state is
`opened`, what is allowed in it keeps it so, and a rollback leads back. -/
structure Database.Undoes {δ : Type} (db : Database δ) (allowed : Statement → Prop)
    (idle opened : δ → Prop) : Prop where
  plain {s} (h : allowed s) : s.isBoundary = false
  begin {d} (is : idle d) : ∃ d', db.answer .begin d = (.ok (), d') ∧ opened d'
  keeps {s d} (h : allowed s) (is : opened d) : opened (db.answer s d).2
  undo {d} (is : opened d) : idle (db.answer .rollback d).2
  rest {d} (is : idle d) : idle (db.answer .rollback d).2

namespace Exposed

variable {δ : Type} {db : Database δ} {e : DbError} {allowed : Statement → Prop}
  {idle opened : δ → Prop} {ended : Nat} {s : Statement} {x : Exposed δ}

/-- Statements within a transaction leave it open. -/
theorem Working.pass (h : db.Undoes allowed idle opened) (within : allowed s)
    (w : x.Working opened ended) : (x.pass db s).Working opened ended := by
  have plain := h.plain within
  have kept := h.keeps within w.opened
  cases s <;> first | exact ⟨w.inside, w.unlost, w.number, kept⟩ | cases plain

/-- A transaction whose connection is lost is undone. -/
theorem Working.lose (h : db.Undoes allowed idle opened) (other : s ≠ .rollback)
    (w : x.Working opened ended) : (x.lose db s).Dropped idle ended := by
  refine ⟨?_, _, ⟨rfl, rfl⟩, other, w.number⟩
  unfold Exposed.lose
  dsimp only
  rw [w.inside, if_pos rfl]
  exact h.undo w.opened

/-- A connection that is lost at the begin of a transaction leaves everything as it was. -/
theorem Whole.lose_begin (whole : x.Whole) (is : idle x.model) :
    (x.lose db .begin).Dropped idle x.ended := by
  refine ⟨?_, _, ⟨rfl, rfl⟩, Statement.noConfusion, rfl⟩
  unfold Exposed.lose
  dsimp only
  rwa [whole.closed, if_neg Bool.false_ne_true]

/-- A transaction is rolled back all the same if the connection is lost at the rollback. -/
theorem Working.rollback (db : Database δ) (e : DbError) (w : x.Working opened ended) :
    ((db.losing e).answer .rollback x).2.model = (db.answer .rollback x.model).2 ∧
      ((db.losing e).answer .rollback x).2.Past := by
  by_cases due : x.due = some 0
  · rw [Database.answer_losing_of_due due]
    exact ⟨if_pos w.inside, .inr ⟨_, ⟨rfl, rfl⟩, fun first => first.broke rfl⟩⟩
  · rw [Database.answer_losing_of_ne due]
    exact ⟨rfl, .inl ⟨⟨rfl, w.unlost⟩, Nat.succ_pos _⟩⟩

/-- A loss in a later transaction is not one in the first. -/
theorem Dropped.past (dropped : x.Dropped idle ended) (later : 0 < ended) :
    ∃ loss, x.Recovered loss ∧ ¬loss.InFirst := by
  obtain ⟨-, loss, recovered, -, number⟩ := dropped
  exact ⟨loss, recovered, fun first => Nat.ne_of_gt later (number.symm.trans first.first)⟩

/-- A rollback that follows the loss makes no difference. -/
theorem Dropped.rollback (h : db.Undoes allowed idle opened) (dropped : x.Dropped idle ended) :
    ((db.losing e).answer .rollback x).2.Dropped idle ended := by
  obtain ⟨is, loss, recovered, place⟩ := dropped
  rw [Database.answer_losing_of_safe recovered.due]
  exact ⟨h.rest is, loss, ⟨Exposed.due_pass recovered.due, recovered.loss⟩, place⟩

end Exposed

end EventJournal

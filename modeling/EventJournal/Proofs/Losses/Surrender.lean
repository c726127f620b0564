import EventJournal.Proofs.Losses.Exposed
import EventJournal.Proofs.Table.Calls
import EventJournal.Proofs.Transaction.Forthright

/-!
# Units of work that give up

A unit of work does not try to go on without its connection: whichever of its statements is
answered with the loss, it ends at once, and with a failure that tells of the loss
(`Surrenders`). Appends and the creation of leaves do so because they stop at any failure
(`Forthright.surrenders`).

Such a unit, in a transaction of its own, has two ways to end if a loss may come. It ends as
it would have ended, with the same value or failure and the same effect; or it ends with the
lost connection and has had none.

## Main results

* `Batch.surrenders_append`, `Catalog.surrenders_ensurePath` — the units that give up.
* `Action.ends_losing_inTransaction` — such a unit in a transaction, with a loss that may come.
-/

namespace EventJournal

/-- The failure of a call that is told of a lost connection. -/
def DbError.abort (e : DbError) : Abort := .error (.connectionLost e.message)

theorem DbError.abort_eq {e : DbError} (lost : e.isConnectionLoss = true) :
    e.abort = .error e.toJournalError :=
  congrArg Abort.error (EventTable.toJournalError_of_isConnectionLoss lost).symm

/-- Whichever statement is answered with the error, the program ends at once; and it always
ends with the state it was given. -/
def Program.Surrenders {σ α : Type} (e : DbError) (s : σ) : Program (Except Abort α × σ) → Prop
  | .done result => result.2 = s
  | .send _ next =>
      next (.error e) = .done (.error e.abort, s) ∧ ∀ answer, (next answer).Surrenders e s

namespace Program

variable {σ α β δ : Type} {e : DbError} {s : σ}

theorem Surrenders.bind {program : Program (Except Abort α × σ)}
    {f : Except Abort α × σ → Program (Except Abort β × σ)} (first : program.Surrenders e s)
    (rest : ∀ result, (f (result, s)).Surrenders e s)
    (gives : f (.error e.abort, s) = .done (.error e.abort, s)) :
    (program.bind f).Surrenders e s := by
  induction program with
  | done result =>
      obtain ⟨result, s'⟩ := result
      obtain rfl : s' = s := first
      exact rest result
  | send statement next ih =>
      refine ⟨?_, fun answer => ih answer (first.2 answer)⟩
      show Program.bind (next (.error e)) f = _
      rw [first.1]
      exact gives

theorem Forthright.surrenders {raises : JournalError → Prop}
    {program : Program (Except Abort α × σ)} (h : program.Forthright raises s)
    (lost : e.isConnectionLoss = true) : program.Surrenders e s := by
  induction program with
  | done result => exact h.1
  | send statement next ih =>
      constructor
      · obtain ⟨cause, stops, told⟩ := h.1 e
        have signal : e.isSignal = true := by simp [DbError.isSignal, lost]
        rw [stops, told signal, DbError.abort_eq lost]
      · intro answer
        cases answer with
        | ok answer => exact ih _ (h.2 answer)
        | error e' =>
            obtain ⟨cause, stops, -⟩ := h.1 e'
            rw [stops]
            rfl

theorem Surrenders.snd_run {program : Program (Except Abort α × σ)}
    (surrenders : program.Surrenders e s) (db : Database δ) (d : δ) :
    (program.run db d).1.2 = s := by
  induction program generalizing d with
  | done result => exact surrenders
  | send statement next ih => exact ih _ (surrenders.2 _) _

end Program

namespace Action

variable {σ α β δ : Type} {e : DbError}

/-- Whichever statement is answered with the error, the action ends at once with the lost
connection. It leaves its state alone. -/
def Surrenders (e : DbError) (action : Action σ α) : Prop := ∀ s, (action.start s).Surrenders e s

theorem Surrenders.bind {action : Action σ α} {f : α → Action σ β} (first : action.Surrenders e)
    (rest : ∀ value, (f value).Surrenders e) : (action >>= f).Surrenders e := by
  intro s
  refine (first s).bind (fun result => ?_) rfl
  cases result with
  | ok value => exact rest value s
  | error cause => rfl

/-- To stop at a failure is to give up when it is the loss. -/
theorem Forthright.surrenders {raises : JournalError → Prop} {action : Action σ α}
    (h : action.Forthright raises) (lost : e.isConnectionLoss = true) : action.Surrenders e :=
  fun s => (h s).surrenders lost

/-- A unit that gives up leaves its state alone. -/
theorem Surrenders.ends_state {action : Action σ α} (surrenders : action.Surrenders e)
    (db : Database δ) (s : σ) (d : δ) :
    Ends db action s d (fun _ s' _ => s' = s) fun _ s' _ => s' = s := by
  have kept : (action.runOn db s d).1.2 = s := (surrenders s).snd_run db d
  refine Ends.of_forall ?_ ?_ <;>
    · intro _ _ _ run
      rwa [run] at kept

end Action

/-! ## The units of work -/

open EventJournal.Action

section

variable {σ : Type} {e : DbError} (lost : e.isConnectionLoss = true)

include lost

theorem Batch.surrenders_append (chain : MiddlewareChain) (transform : EventTransform)
    (batch : Batch) : (batch.append chain transform : Action σ _).Surrenders e :=
  (Batch.forthright_append chain transform batch).surrenders lost

theorem Catalog.surrenders_ensurePath (config : CatalogConfig) (key : LeafKey) :
    (ensurePath config key : Action σ _).Surrenders e :=
  (Catalog.forthright_ensurePath (fun _ => False) config key).surrenders lost

end

/-! ## In a transaction -/

section

variable {σ α δ : Type} {db : Database δ} {e : DbError} {allowed : Statement → Prop}
  {idle opened : δ → Prop} {ended : Nat} {s : σ} {x : Exposed δ}

/-- In an open transaction a program that gives up runs as over the database itself, or gives
up. -/
theorem Program.run_losing (h : db.Undoes allowed idle opened)
    {program : Program (Except Abort α × σ)} (sends : program.Sends allowed)
    (surrenders : program.Surrenders e s) : ∀ x : Exposed δ, x.Working opened ended →
      (∃ y, program.run (db.losing e) x = ((program.run db x.model).1, y) ∧
        y.model = (program.run db x.model).2 ∧ y.Working opened ended) ∨
      ∃ y, program.run (db.losing e) x = ((.error e.abort, s), y) ∧ y.Dropped idle ended := by
  induction program with
  | done result => exact fun x w => .inl ⟨x, rfl, rfl, w⟩
  | send statement next ih =>
      intro x w
      have step : (Program.send statement next).run (db.losing e) x =
          (next ((db.losing e).answer statement x).1).run (db.losing e)
            ((db.losing e).answer statement x).2 := rfl
      rw [step]
      by_cases due : x.due = some 0
      · rw [Database.answer_losing_of_due due, surrenders.1]
        refine .inr ⟨_, rfl, w.lose h ?_⟩
        rintro rfl
        exact Bool.noConfusion (h.plain sends.1)
      · rw [Database.answer_losing_of_ne due]
        exact ih _ (sends.2 _) (surrenders.2 _) _ (w.pass h sends.1)

namespace Action

/-- In an open transaction a unit that gives up ends as over the database itself, or gives
up. -/
theorem ends_losing_unit (h : db.Undoes allowed idle opened) {unit : Action σ α}
    {ok : α → σ → δ → Prop} {bad : Abort → σ → δ → Prop} (sends : unit.Sends allowed)
    (surrenders : unit.Surrenders e) (model : Ends db unit s x.model ok bad)
    (w : x.Working opened ended) :
    Ends (db.losing e) unit s x
      (fun value s' y => (ok value s' y.model ∧ s' = s) ∧ y.Working opened ended)
      (fun cause s' y => (bad cause s' y.model ∧ y.Working opened ended) ∨
        cause = e.abort ∧ s' = s ∧ y.Dropped idle ended) := by
  have model := model.and (surrenders.ends_state db s x.model)
  rcases Program.run_losing h (sends s) (surrenders s) x w with
    ⟨y, run, same, w⟩ | ⟨y, run, dropped⟩
  · rcases plain : unit.runOn db s x.model with ⟨⟨result, s'⟩, d⟩
    rw [show (unit.start s).run db x.model = ((result, s'), d) from plain] at run same
    subst same
    cases result with
    | ok value => exact (ends_of_runOn_ok run).2 ⟨(ends_of_runOn_ok plain).1 model, w⟩
    | error cause =>
        exact (ends_of_runOn_error run).2 (.inl ⟨((ends_of_runOn_error plain).1 model).1, w⟩)
  · exact (ends_of_runOn_error run).2 (.inr ⟨rfl, rfl, dropped⟩)

/-- A transaction begins, or the connection is lost and nothing has happened. -/
theorem ends_losing_begin {d : δ} (lost : e.isConnectionLoss = true) (whole : x.Whole)
    (is : idle x.model) (begun : db.answer .begin x.model = (.ok (), d)) (is' : opened d) :
    Ends (db.losing e) (ask .begin) s x
      (fun _ s' y => s' = s ∧ y.model = d ∧ y.Working opened x.ended)
      (fun cause s' y => cause = e.abort ∧ s' = s ∧ y.Dropped idle x.ended) := by
  by_cases due : x.due = some 0
  · exact (ends_ask_of_error (Database.answer_losing_of_due due _)).2
      ⟨(DbError.abort_eq lost).symm, rfl, whole.lose_begin is⟩
  · obtain ⟨answer, model⟩ := Database.answer_losing (e := e) due begun
    refine (ends_ask_of_ok answer).2 ⟨rfl, model, ?_, whole.unlost, rfl, model ▸ is'⟩
    show (db.answer .begin x.model).1.isOk = true
    rw [begun]
    rfl

/-- A commit ends as over the database itself, or the connection is lost and what was done is
undone. -/
theorem ends_losing_commit {ok : Unit → σ → δ → Prop} {bad : Abort → σ → δ → Prop}
    (h : db.Undoes allowed idle opened) (lost : e.isConnectionLoss = true)
    (w : x.Working opened ended) (model : Ends db (ask .commit) s x.model ok bad) :
    Ends (db.losing e) (ask .commit) s x
      (fun value s' y => ok value s' y.model ∧ y.Whole ∧ 0 < y.ended)
      (fun cause s' y => (bad cause s' y.model ∧ y.Whole ∧ 0 < y.ended) ∨
        cause = e.abort ∧ s' = s ∧ y.Dropped idle ended) := by
  by_cases due : x.due = some 0
  · exact (ends_ask_of_error (Database.answer_losing_of_due due _)).2
      (.inr ⟨(DbError.abort_eq lost).symm, rfl, w.lose h Statement.noConfusion⟩)
  · have whole : (x.pass db .commit).Whole ∧ 0 < (x.pass db .commit).ended :=
      ⟨⟨rfl, w.unlost⟩, Nat.succ_pos x.ended⟩
    rcases committed : db.answer .commit x.model with ⟨result, d⟩
    obtain ⟨answer, rfl⟩ := Database.answer_losing (e := e) due committed
    cases result with
    | ok value => exact (ends_ask_of_ok answer).2 ⟨(ends_ask_of_ok committed).1 model, whole⟩
    | error cause =>
        exact (ends_ask_of_error answer).2 (.inl ⟨(ends_ask_of_error committed).1 model, whole⟩)

/-- A unit that gives up, in a transaction of its own: it ends as over the database itself,
although the connection may be lost at the rollback, or it ends with the lost connection, and
what it has done is undone. -/
theorem ends_losing_inTransaction (h : db.Undoes allowed idle opened)
    (lost : e.isConnectionLoss = true) {isolation : Isolation} {unit : Action σ α}
    {ok : α → σ → δ → Prop} {bad : Abort → σ → δ → Prop}
    (isolates : allowed (.isolate isolation)) (sends : unit.Sends allowed)
    (surrenders : unit.Surrenders e) (whole : x.Whole) (is : idle x.model)
    (model : Ends db (inTransaction isolation unit) s x.model ok bad) :
    Ends (db.losing e) (inTransaction isolation unit) s x
      (fun value s' y => ok value s' y.model ∧ y.Whole ∧ 0 < y.ended)
      (fun cause s' y => (bad cause s' y.model ∧ y.Past) ∨
        cause = e.abort ∧ s' = s ∧ y.Dropped idle x.ended) := by
  obtain ⟨d, begun, is'⟩ := h.begin is
  rw [ends_inTransaction, ends_ask_of_ok begun, ← ends_bind] at model
  rw [ends_inTransaction]
  refine (ends_losing_begin lost whole is begun is').mono ?_ fun _ _ _ dropped => .inr dropped
  rintro _ s' y ⟨rfl, rfl, w⟩
  rw [← ends_bind]
  have isolate : (ask (.isolate isolation) : Action σ _).Forthright fun _ => False :=
    forthright_ask _
  refine (ends_losing_unit h ((sends_ask isolates).bind fun _ => sends)
    ((isolate.surrenders lost).bind fun _ => surrenders) model w).mono ?_ ?_
  · rintro value s'' z ⟨⟨commits, rfl⟩, w⟩
    refine (ends_losing_commit h lost w commits).mono (fun _ _ _ done => done) ?_
    exact fun _ _ _ failed => failed.imp_left fun ⟨bad, whole⟩ => ⟨bad, .inl whole⟩
  · rintro cause s'' z (⟨failed, w⟩ | ⟨rfl, rfl, dropped⟩)
    · have undone := w.rollback db e
      exact .inl ⟨undone.1 ▸ failed, undone.2⟩
    · exact .inr ⟨rfl, rfl, dropped.rollback h⟩

end Action

end

end EventJournal

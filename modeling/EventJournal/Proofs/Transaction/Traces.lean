import EventJournal.Proofs.Contention.Serial
import EventJournal.Proofs.Transaction.Forthright
import EventJournal.Proofs.Transaction.Passages

/-!
# Traces, cut to pieces

A trace leads a program to its value. The trace of a program that goes on with another is cut
where the one ends and the other begins; where that is can be seen from the statements, if the
first sends none of the kind that the second begins with (`Program.Leads.of_bind`). So a trace
that begins with a transaction is cut at its end (`Action.leads_transaction`), and what has been
answered up to there decides how the transaction ends.

## Main results

* `Program.Leads.follow` — a program that is answered as in a trace goes the way of the trace.
* `Action.leads_transaction` — a trace that begins with a transaction.
* `Program.Forthright.leads_failure`, `Program.Forthright.leads_sound` — how a unit that stops
  at a failure ends.
-/

namespace EventJournal

variable {σ α β δ : Type}

/-- The database gives the answers of the trace, and is then in another state. -/
inductive Database.Answers (db : Database δ) : δ → List Exchange → δ → Prop
  | nil (d : δ) : Answers db d [] d
  | cons {s : Statement} {answer : Except DbError s.Answer} {d d' d'' : δ} {rest : List Exchange}
      (answered : db.answer s d = (answer, d')) (others : Answers db d' rest d'') :
      Answers db d (⟨s, answer⟩ :: rest) d''

theorem Database.Answers.of_append {db : Database δ} {d d'' : δ} {es others : List Exchange}
    (h : db.Answers d (es ++ others) d'') :
    ∃ d', db.Answers d es d' ∧ db.Answers d' others d'' := by
  induction es generalizing d with
  | nil => exact ⟨d, .nil d, h⟩
  | cons e es ih =>
      cases h with
      | cons answered rest =>
          obtain ⟨d', first, second⟩ := ih rest
          exact ⟨d', .cons answered first, second⟩

namespace Program

variable {db : Database δ} {d d' : δ} {es : List Exchange}

theorem exchanges_bind (db : Database δ) (program : Program α) (f : α → Program β) (d : δ) :
    (program.bind f).exchanges db d =
      program.exchanges db d ++ (f (program.run db d).1).exchanges db (program.run db d).2 := by
  induction program generalizing d with
  | done value => rfl
  | send s next ih => exact congrArg (_ :: ·) (ih (db.answer s d).1 (db.answer s d).2)

/-- The trace of a run leads to its value. -/
theorem leads_exchanges (db : Database δ) (program : Program α) (d : δ) :
    program.Leads (program.exchanges db d) (program.run db d).1 := by
  induction program generalizing d with
  | done value => exact .done value
  | send s next ih => exact .send (ih (db.answer s d).1 (db.answer s d).2)

/-- A program that is answered as in a trace goes the way of the trace. -/
theorem Leads.follow {program : Program α} {value : α} (leads : program.Leads es value)
    (answers : db.Answers d es d') :
    program.run db d = (value, d') ∧ program.exchanges db d = es := by
  induction leads generalizing d with
  | done value =>
      cases answers
      exact ⟨rfl, rfl⟩
  | send _ ih =>
      cases answers with
      | cons answered others =>
          obtain ⟨run, said⟩ := ih others
          unfold Program.run Program.exchanges
          rw [answered]
          exact ⟨run, congrArg (_ :: ·) said⟩

theorem Leads.bind {program : Program α} {f : α → Program β} {value : α} {result : β}
    {others : List Exchange} (first : program.Leads es value)
    (second : (f value).Leads others result) : (program.bind f).Leads (es ++ others) result := by
  induction first with
  | done value => exact second
  | send _ ih => exact .send (ih second)

theorem Leads.of_done {value result : α} (leads : (Program.done value).Leads es result) :
    es = [] ∧ result = value := by
  cases leads
  exact ⟨rfl, rfl⟩

/-- A trace of two programs is cut where the statements tell the one from the other. -/
theorem Leads.of_bind {inside : Statement → Prop} {program : Program α} {f : α → Program β}
    (sends : program.Sends inside) (opens : ∀ value s next, f value = .send s next → ¬inside s)
    {rest : List Exchange} (within : ∀ e ∈ es, inside e.statement)
    (outside : ∀ e after, rest = e :: after → ¬inside e.statement) {result : β}
    (leads : (program.bind f).Leads (es ++ rest) result) :
    ∃ value, program.Leads es value ∧ (f value).Leads rest result := by
  induction program generalizing es with
  | done value =>
      cases es with
      | nil => exact ⟨value, .done value, leads⟩
      | cons e es =>
          have leads : (f value).Leads (e :: (es ++ rest)) result := leads
          cases second : f value with
          | done _ =>
              rw [second] at leads
              cases leads
          | send s next =>
              rw [second] at leads
              cases leads
              exact absurd (within _ List.mem_cons_self) (opens value s next second)
  | send s next ih =>
      have leads : (Program.send s fun answer => (next answer).bind f).Leads (es ++ rest) result :=
        leads
      cases es with
      | nil =>
          rw [List.nil_append] at leads
          cases leads
          exact absurd sends.1 (outside _ _ rfl)
      | cons e es =>
          rw [List.cons_append] at leads
          cases leads with
          | send leads =>
              obtain ⟨value, first, second⟩ :=
                ih _ (sends.2 _) (List.forall_mem_cons.1 within).2 leads
              exact ⟨value, .send first, second⟩

/-! ## Units that stop at a failure -/

namespace Forthright

variable {raises : JournalError → Prop} {s : σ} {program : Program (Except Abort α × σ)}
  {result : Except Abort α × σ}

theorem leads_state (h : program.Forthright raises s) (leads : program.Leads es result) :
    result.2 = s := by
  induction program generalizing es with
  | done value =>
      cases leads
      exact h.1
  | send statement next ih =>
      cases leads with
      | @send _ _ answer _ _ leads =>
          cases answer with
          | ok answer => exact ih _ (h.2 answer) leads
          | error e =>
              obtain ⟨cause, stops, -⟩ := h.1 e
              rw [stops] at leads
              cases leads
              rfl

/-- The unit ends with the failure of its last statement. -/
theorem leads_failure (h : program.Forthright raises s) {statement : Statement} {e : DbError}
    (leads : program.Leads (es ++ [⟨statement, .error e⟩]) result) (signal : e.isSignal = true) :
    result = (.error (.error e.toJournalError), s) := by
  induction program generalizing es with
  | done value => cases es <;> cases leads
  | send statement next ih =>
      cases es with
      | nil =>
          obtain ⟨cause, stops, told⟩ := h.1 e
          cases leads with
          | send leads =>
              rw [stops, told signal] at leads
              cases leads
              rfl
      | cons first es =>
          rw [List.cons_append] at leads
          cases leads with
          | @send _ _ answer _ _ leads =>
              cases answer with
              | ok answer => exact ih _ (h.2 answer) leads
              | error e' =>
                  -- nothing follows a failure
                  obtain ⟨cause, stops, -⟩ := h.1 e'
                  rw [stops] at leads
                  cases es <;> cases leads

/-- If no statement fails, the unit speaks of a conflict only where one is raised. -/
theorem leads_sound (h : program.Forthright raises s) (leads : program.Leads es result)
    (sound : ∀ e ∈ es, e.answer.isOk = true) {cause : JournalError}
    (ends : result.1 = .error (.error cause)) (signal : cause.isSignal = true) : raises cause := by
  induction program generalizing es with
  | done value =>
      cases leads
      exact h.2 cause ends signal
  | send statement next ih =>
      cases leads with
      | @send _ _ answer _ _ leads =>
          obtain ⟨first, others⟩ := List.forall_mem_cons.1 sound
          cases answer with
          | ok answer => exact ih _ (h.2 answer) leads others
          | error e => cases first

end Forthright

end Program

/-! ## Transactions -/

namespace Action

/-- What follows the program of an action that goes on after a result. -/
def following (f : α → Action σ β) : Except Abort α × σ → Program (Except Abort β × σ)
  | (.ok value, s) => (f value).start s
  | (.error cause, s) => .done (.error cause, s)

theorem start_bind (action : Action σ α) (f : α → Action σ β) (s : σ) :
    (action >>= f).start s = (action.start s).bind (following f) := by
  refine congrArg (Program.bind (action.start s)) (funext fun ⟨result, s⟩ => ?_)
  cases result <;> rfl

/-- How a unit that has run ends its transaction. -/
def close : Except Abort α × σ → Program (Except Abort α × σ)
  | (.ok value, s) => .send .commit fun
      | .ok _ => .done (.ok value, s)
      | .error e => .done (.error (.error e.toJournalError), s)
  | (.error cause, s) => .send .rollback fun _ => .done (.error cause, s)

theorem start_inTransaction (isolation : Isolation) (unit : Action σ α) (s : σ) :
    (inTransaction isolation unit).start s = .send .begin fun
      | .ok _ => ((ask (.isolate isolation) >>= fun _ => unit).start s).bind close
      | .error e => .done (.error (.error e.toJournalError), s) := by
  refine congrArg (Program.send .begin) (funext fun answer => ?_)
  cases answer with
  | error e => rfl
  | ok _ =>
      let body : Action σ α := ask (.isolate isolation) >>= fun _ => unit
      refine (Program.bind_assoc (body.start s)
        (fun ran => .done ((.ok ran.1 : Except Abort (Except Abort α)), ran.2)) _).trans ?_
      refine congrArg _ (funext fun ⟨result, s⟩ => ?_)
      cases result with
      | ok value =>
          refine congrArg (Program.send .commit) (funext fun answer => ?_)
          cases answer <;> rfl
      | error cause => rfl

variable {isolation : Isolation} {unit : Action σ α} {s : σ} {rest : List Exchange} {result : β}
  {next : Except Abort α × σ → Program β}

/-- A transaction that could not begin. -/
theorem leads_refused {e : DbError}
    (leads : (((inTransaction isolation unit).start s).bind next).Leads
      (⟨.begin, .error e⟩ :: rest) result) :
    (next (.error (.error e.toJournalError), s)).Leads rest result := by
  rw [start_inTransaction] at leads
  cases leads with
  | send leads => exact leads

/-- One exchange ends the transaction. -/
theorem leads_close {closing : Exchange} {ran : Except Abort α × σ}
    (leads : ((close ran).bind next).Leads (closing :: rest) result) :
    ∃ ended, (close ran).Leads [closing] ended ∧ (next ended).Leads rest result := by
  obtain ⟨_ | value, s⟩ := ran
  · cases leads with
    | send leads => exact ⟨_, .send (.done _), leads⟩
  · cases leads with
    | @send _ _ answer _ _ leads =>
        cases answer with
        | ok _ => exact ⟨_, .send (.done _), leads⟩
        | error e => exact ⟨_, .send (.done _), leads⟩

/-- A trace that begins with a transaction is cut at the end of it. -/
theorem leads_transaction (quiet : unit.Sends (·.isBoundary = false)) {inside : List Exchange}
    {closing : Exchange} (plain : ∀ e ∈ inside, e.statement.isBoundary = false)
    (ends : closing.statement.isBoundary = true)
    (leads : (((inTransaction isolation unit).start s).bind next).Leads
      ((Passage.transaction inside closing).exchanges ++ rest) result) :
    ∃ ran ended, ((ask (.isolate isolation) >>= fun _ => unit : Action σ α).start s).Leads inside
        ran ∧
      (close ran).Leads [closing] ended ∧
      ((inTransaction isolation unit).start s).Leads (Passage.transaction inside closing).exchanges
        ended ∧
      (next ended).Leads rest result := by
  have body : (ask (.isolate isolation) >>= fun _ => unit : Action σ α).Sends
      (·.isBoundary = false) := Sends.bind (sends_ask rfl) fun _ => quiet
  rw [start_inTransaction, Passage.exchanges, List.cons_append, List.append_assoc] at leads
  rw [start_inTransaction]
  cases leads with
  | send leads =>
      have leads : (((Action.start _ s).bind close).bind next).Leads (inside ++ closing :: rest)
        result := leads
      rw [Program.bind_assoc] at leads
      have opens : ∀ ran statement next', (close ran).bind next = .send statement next' →
          ¬statement.isBoundary = false := by
        rintro ⟨_ | value, s⟩ statement next' same <;> cases same <;> exact Bool.false_ne_true.symm
      have outside : ∀ e after, closing :: rest = e :: after → ¬e.statement.isBoundary = false := by
        intro e after same
        rw [← (List.cons.inj same).1, ends]
        exact Bool.false_ne_true.symm
      obtain ⟨ran, first, second⟩ := leads.of_bind (body s) opens plain outside
      obtain ⟨ended, closes, rest⟩ := leads_close second
      exact ⟨ran, ended, first, closes, .send (first.bind closes), rest⟩

end Action

end EventJournal

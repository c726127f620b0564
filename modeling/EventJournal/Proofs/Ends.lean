import EventJournal.Database.Program

/-!
# How an action ends

An action ends with a value or with an abort, and leaves a state and a database behind.
`Action.Ends` speaks of both at once: from a given state and database, the action ends
with a value for which one predicate holds or with an abort for which another does. There
is one rule for each way to make an action, so that a statement about a long action is
taken apart along its text, one statement to the database at a time.

`Action.Sends` bounds what an action may send, whatever it is answered. What every such
statement leaves in force is in force after the action (`Ends.of_sends`), which settles
the parts of a call that do not touch what a proof is about.

## Main results

* `Action.ends_bind` — to go on after a result is to ask more of the result.
* `Action.ends_ask_of_ok`, `Action.ends_ask_of_error` — a statement whose answer is known.
* `Action.Ends.ask`, `Action.Ends.attempt` — a statement, by the two kinds of answers.
* `Action.Ends.of_sends` — what the statements of an action keep, the action keeps.
-/

namespace EventJournal

namespace Action

variable {σ τ α β δ : Type}

/-- From the given state and database, the action ends with a value for which `ok`
holds or with an abort for which `bad` holds, beside what it leaves behind. -/
def Ends (db : Database δ) (action : Action σ α) (s : σ) (d : δ)
    (ok : α → σ → δ → Prop) (bad : Abort → σ → δ → Prop) : Prop :=
  match action.runOn db s d with
  | ((.ok value, s), d) => ok value s d
  | ((.error cause, s), d) => bad cause s d

variable {db : Database δ} {s : σ} {d : δ} {ok : α → σ → δ → Prop} {bad : Abort → σ → δ → Prop}

/-! ## Runs and ends -/

theorem ends_of_runOn_ok {action : Action σ α} {value : α} {s' : σ} {d' : δ}
    (run : action.runOn db s d = ((.ok value, s'), d')) :
    Ends db action s d ok bad ↔ ok value s' d' := by
  unfold Ends
  rw [run]

theorem ends_of_runOn_error {action : Action σ α} {cause : Abort} {s' : σ} {d' : δ}
    (run : action.runOn db s d = ((.error cause, s'), d')) :
    Ends db action s d ok bad ↔ bad cause s' d' := by
  unfold Ends
  rw [run]

/-- An action ends as every possible end of its run says. -/
theorem Ends.of_forall {action : Action σ α}
    (hok : ∀ value s' d', action.runOn db s d = ((.ok value, s'), d') → ok value s' d')
    (hbad : ∀ cause s' d', action.runOn db s d = ((.error cause, s'), d') → bad cause s' d') :
    Ends db action s d ok bad := by
  rcases run : action.runOn db s d with ⟨⟨result, s'⟩, d'⟩
  cases result with
  | ok value => exact (ends_of_runOn_ok run).2 (hok value s' d' run)
  | error cause => exact (ends_of_runOn_error run).2 (hbad cause s' d' run)

/-- Weaker predicates hold as well. -/
theorem Ends.mono {action : Action σ α} {ok' : α → σ → δ → Prop} {bad' : Abort → σ → δ → Prop}
    (h : Ends db action s d ok bad)
    (hok : ∀ value s d, ok value s d → ok' value s d)
    (hbad : ∀ cause s d, bad cause s d → bad' cause s d) :
    Ends db action s d ok' bad' := by
  refine Ends.of_forall ?_ ?_
  · intro value s' d' run
    exact hok value s' d' ((ends_of_runOn_ok run).1 h)
  · intro cause s' d' run
    exact hbad cause s' d' ((ends_of_runOn_error run).1 h)

/-- What is known of the end of an action from two sides. -/
theorem Ends.and {action : Action σ α} {ok' : α → σ → δ → Prop} {bad' : Abort → σ → δ → Prop}
    (h : Ends db action s d ok bad) (k : Ends db action s d ok' bad') :
    Ends db action s d (fun value s d => ok value s d ∧ ok' value s d)
      (fun cause s d => bad cause s d ∧ bad' cause s d) := by
  refine Ends.of_forall ?_ ?_
  · intro value s' d' run
    exact ⟨(ends_of_runOn_ok run).1 h, (ends_of_runOn_ok run).1 k⟩
  · intro cause s' d' run
    exact ⟨(ends_of_runOn_error run).1 h, (ends_of_runOn_error run).1 k⟩

/-- What holds of the database however the action ends. -/
theorem Ends.database {action : Action σ α} {I : δ → Prop}
    (h : Ends db action s d (fun _ _ d => I d) (fun _ _ d => I d)) : I (action.runOn db s d).2 := by
  unfold Ends at h
  rcases run : action.runOn db s d with ⟨⟨_ | _, s'⟩, d'⟩ <;> rw [run] at h <;> exact h

/-! ## A rule for each action -/

@[simp] theorem ends_pure (value : α) :
    Ends db (pure value : Action σ α) s d ok bad ↔ ok value s d := Iff.rfl

@[simp] theorem ends_abort (cause : Abort) :
    Ends db (abort cause : Action σ α) s d ok bad ↔ bad cause s d := Iff.rfl

@[simp] theorem ends_fail (cause : JournalError) :
    Ends db (fail cause : Action σ α) s d ok bad ↔ bad (.error cause) s d := Iff.rfl

@[simp] theorem ends_state {ok : σ → σ → δ → Prop} :
    Ends db (state : Action σ σ) s d ok bad ↔ ok s s d := Iff.rfl

@[simp] theorem ends_modify (f : σ → σ) {ok : Unit → σ → δ → Prop} :
    Ends db (modify f) s d ok bad ↔ ok () (f s) d := Iff.rfl

/-- To go on after a result is to ask more of the result. -/
@[simp] theorem ends_bind {action : Action σ α} {f : α → Action σ β} {ok : β → σ → δ → Prop} :
    Ends db (action >>= f) s d ok bad ↔
      Ends db action s d (fun value s d => Ends db (f value) s d ok bad) bad := by
  unfold Ends
  rw [runOn_bind]
  rcases action.runOn db s d with ⟨⟨_ | value, s'⟩, d'⟩ <;> rfl

@[simp] theorem ends_map {action : Action σ α} {f : α → β} {ok : β → σ → δ → Prop} :
    Ends db (f <$> action) s d ok bad ↔
      Ends db action s d (fun value s d => ok (f value) s d) bad := by
  rw [map_eq_pure_bind, ends_bind]
  rfl

/-- The outcome of an action is a value, also where the action aborts. -/
@[simp] theorem ends_outcome {action : Action σ α} {ok : Except Abort α → σ → δ → Prop} :
    Ends db action.outcome s d ok bad ↔
      Ends db action s d (fun value s d => ok (.ok value) s d)
        (fun cause s d => ok (.error cause) s d) := by
  unfold Ends
  rw [runOn_outcome]
  rcases action.runOn db s d with ⟨⟨_ | value, s'⟩, d'⟩ <;> rfl

@[simp] theorem ends_check_ok (value : α) :
    Ends db (check (.ok value) : Action σ α) s d ok bad ↔ ok value s d := Iff.rfl

@[simp] theorem ends_check_error (cause : JournalError) :
    Ends db (check (.error cause) : Action σ α) s d ok bad ↔ bad (.error cause) s d := Iff.rfl

/-- A check ends as what it checks. -/
theorem Ends.check {result : Except JournalError α}
    (hok : ∀ value, result = .ok value → ok value s d)
    (hbad : ∀ cause, result = .error cause → bad (.error cause) s d) :
    Ends db (check result) s d ok bad := by
  cases result with
  | ok value => exact hok value rfl
  | error cause => exact hbad cause rfl

/-- A statement that is sent and whose failure is kept, with its answer. -/
theorem ends_attempt_of_answer {statement : Statement} {answer : Except DbError statement.Answer}
    {d' : δ} {ok : Except DbError statement.Answer → σ → δ → Prop}
    (answered : db.answer statement d = (answer, d')) :
    Ends db (attempt statement) s d ok bad ↔ ok answer s d' := by
  have run := runOn_attempt db s d statement
  rw [answered] at run
  exact ends_of_runOn_ok run

/-- A statement that is sent, with its answer. -/
theorem ends_ask_of_ok {statement : Statement} {answer : statement.Answer} {d' : δ}
    {ok : statement.Answer → σ → δ → Prop}
    (answered : db.answer statement d = (.ok answer, d')) :
    Ends db (ask statement) s d ok bad ↔ ok answer s d' := by
  unfold Action.ask
  rw [ends_bind, ends_attempt_of_answer answered]
  exact ends_check_ok answer

/-- A statement that is sent, with the error it is answered with. -/
theorem ends_ask_of_error {statement : Statement} {e : DbError} {d' : δ}
    {ok : statement.Answer → σ → δ → Prop}
    (answered : db.answer statement d = (.error e, d')) :
    Ends db (ask statement) s d ok bad ↔ bad (.error e.toJournalError) s d' := by
  unfold Action.ask
  rw [ends_bind, ends_attempt_of_answer answered]
  exact ends_check_error e.toJournalError

/-- A statement that is sent and whose failure is kept, by the two kinds of answers. -/
theorem Ends.attempt {statement : Statement} {ok : Except DbError statement.Answer → σ → δ → Prop}
    (hok : ∀ answer d', db.answer statement d = (.ok answer, d') → ok (.ok answer) s d')
    (hbad : ∀ e d', db.answer statement d = (.error e, d') → ok (.error e) s d') :
    Ends db (attempt statement) s d ok bad := by
  rcases answered : db.answer statement d with ⟨result, d'⟩
  rw [ends_attempt_of_answer answered]
  cases result with
  | ok answer => exact hok answer d' answered
  | error e => exact hbad e d' answered

/-- A statement that is sent, by the two kinds of answers. -/
theorem Ends.ask {statement : Statement} {ok : statement.Answer → σ → δ → Prop}
    (hok : ∀ answer d', db.answer statement d = (.ok answer, d') → ok answer s d')
    (hbad : ∀ e d', db.answer statement d = (.error e, d') →
      bad (.error e.toJournalError) s d') :
    Ends db (ask statement) s d ok bad := by
  rcases answered : db.answer statement d with ⟨_ | answer, d'⟩
  · exact (ends_ask_of_error answered).2 (hbad _ d' answered)
  · exact (ends_ask_of_ok answered).2 (hok answer d' answered)

/-- Of rows that must not be none, the first is taken. -/
theorem Ends.one {rows : List α}
    (hok : ∀ row rest, rows = row :: rest → ok row s d)
    (hbad : rows = [] → bad (.error DbError.rowNotFound.toJournalError) s d) :
    Ends db (one rows) s d ok bad := by
  cases rows with
  | nil => exact hbad rfl
  | cons row rest => exact hok row rest rfl

@[simp] theorem ends_mapM_nil {ι : Type} {f : ι → Action σ β} {ok : List β → σ → δ → Prop} :
    Ends db (([] : List ι).mapM f) s d ok bad ↔ ok [] s d := by
  rw [List.mapM_nil, ends_pure]

@[simp] theorem ends_mapM_cons {ι : Type} {f : ι → Action σ β} {item : ι} {rest : List ι}
    {ok : List β → σ → δ → Prop} :
    Ends db ((item :: rest).mapM f) s d ok bad ↔
      Ends db (f item) s d
        (fun value s d => Ends db (rest.mapM f) s d (fun values => ok (value :: values)) bad)
        bad := by
  rw [List.mapM_cons]
  simp only [ends_bind, ends_pure]

/-- One action after the other for the items of a list, with what holds before each of
them. -/
theorem Ends.forM {ι : Type} {f : ι → Action σ Unit} (I : List ι → σ → δ → Prop)
    (step : ∀ item rest s d, I (item :: rest) s d →
      Ends db (f item) s d (fun _ s d => I rest s d) bad) (items : List ι) :
    ∀ s d, I items s d → Ends db (items.forM f) s d (fun _ s d => I [] s d) bad := by
  induction items with
  | nil =>
      intro s d h
      exact h
  | cons item rest ih =>
      intro s d h
      show Ends db (f item >>= fun _ => rest.forM f) s d _ _
      rw [ends_bind]
      exact (step item rest s d h).mono (fun _ s d h => ih s d h) fun _ _ _ h => h

attribute [irreducible] Ends

end Action

/-! ## What is sent -/

/-- Every statement that the program may send, whatever it is answered, is allowed. -/
def Program.Sends {α : Type} (allowed : Statement → Prop) : Program α → Prop
  | .done _ => True
  | .send s next => allowed s ∧ ∀ answer, (next answer).Sends allowed

namespace Program

variable {α β δ : Type} {allowed : Statement → Prop}

theorem sends_bind {program : Program α} {f : α → Program β} (first : program.Sends allowed)
    (rest : ∀ value, (f value).Sends allowed) : (program.bind f).Sends allowed := by
  induction program with
  | done value => exact rest value
  | send s next ih => exact ⟨first.1, fun answer => ih answer (first.2 answer)⟩

/-- What every allowed statement keeps, the program keeps. -/
theorem keeps_of_sends {db : Database δ} {I : δ → Prop}
    (keeps : ∀ s, allowed s → ∀ d, I d → I (db.answer s d).2) {program : Program α}
    (sends : program.Sends allowed) : ∀ d, I d → I (program.run db d).2 := by
  induction program with
  | done value =>
      intro d h
      exact h
  | send s next ih =>
      intro d h
      exact ih _ (sends.2 _) _ (keeps s sends.1 d h)

end Program

namespace Action

variable {σ τ α β δ : Type} {allowed : Statement → Prop}

/-- Every statement that the action may send is allowed. -/
def Sends (allowed : Statement → Prop) (action : Action σ α) : Prop :=
  ∀ s, (action.start s).Sends allowed

theorem sends_pure (value : α) : (pure value : Action σ α).Sends allowed := fun _ => trivial

theorem sends_abort (cause : Abort) : (abort cause : Action σ α).Sends allowed := fun _ => trivial

theorem sends_state : (state : Action σ σ).Sends allowed := fun _ => trivial

theorem sends_modify (f : σ → σ) : (modify f).Sends allowed := fun _ => trivial

theorem sends_check (result : Except JournalError α) :
    (check result : Action σ α).Sends allowed := by
  cases result with
  | ok value => exact sends_pure value
  | error cause => exact sends_abort _

theorem sends_one (rows : List α) : (one rows : Action σ α).Sends allowed := sends_check _

theorem sends_attempt {statement : Statement} (h : allowed statement) :
    (attempt statement : Action σ _).Sends allowed := fun _ => ⟨h, fun _ => trivial⟩

theorem Sends.bind {action : Action σ α} {f : α → Action σ β} (first : action.Sends allowed)
    (rest : ∀ value, (f value).Sends allowed) : (action >>= f).Sends allowed := by
  intro s
  refine Program.sends_bind (first s) ?_
  intro got
  obtain ⟨result, s⟩ := got
  cases result with
  | ok value => exact rest value s
  | error cause => trivial

theorem sends_ask {statement : Statement} (h : allowed statement) :
    (ask statement : Action σ _).Sends allowed :=
  (sends_attempt h).bind fun _ => sends_check _

/-- What every allowed statement keeps, the action keeps, however it ends. -/
theorem Ends.of_sends {db : Database δ} {I : δ → Prop}
    (keeps : ∀ s, allowed s → ∀ d, I d → I (db.answer s d).2) {action : Action σ α}
    (sends : action.Sends allowed) {s : σ} {d : δ} (h : I d) :
    Ends db action s d (fun _ _ d => I d) (fun _ _ d => I d) := by
  have kept : I (action.runOn db s d).2 := Program.keeps_of_sends keeps (sends s) d h
  refine Ends.of_forall ?_ ?_ <;>
    · intro _ _ _ run
      rw [run] at kept
      exact kept

end Action

end EventJournal

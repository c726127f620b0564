import EventJournal.Proofs.Transaction.Passages

/-!
# Recorded runs

A database that records keeps, beside its own state, every statement it was sent with its
answer. A program runs over it as over the database itself, and what is recorded is the
trace of the program (`Program.run_recording`). What an action says is thereby part of how
it ends, and is told along the text of the action with the rules for `Action.Ends`.
-/

namespace EventJournal

variable {σ α δ : Type}

/-- The database with a record of what it was sent and what it answered. -/
def Database.recording (db : Database δ) : Database (δ × List Exchange) where
  answer s x :=
    ((db.answer s x.1).1, ((db.answer s x.1).2, x.2 ++ [⟨s, (db.answer s x.1).1⟩]))

theorem Database.answer_recording {db : Database δ} {s : Statement} {d d' : δ}
    {answer : Except DbError s.Answer} (answered : db.answer s d = (answer, d'))
    (said : List Exchange) :
    db.recording.answer s (d, said) = (answer, (d', said ++ [⟨s, answer⟩])) := by
  show ((db.answer s d).1, ((db.answer s d).2, said ++ [⟨s, (db.answer s d).1⟩])) = _
  rw [answered]

/-- A program runs over the record as without it, and the record is its trace. -/
theorem Program.run_recording (db : Database δ) (program : Program α) (d : δ)
    (said : List Exchange) :
    program.run db.recording (d, said) =
      ((program.run db d).1, ((program.run db d).2, said ++ program.exchanges db d)) := by
  induction program generalizing d said with
  | done value =>
      rw [exchanges, List.append_nil]
      rfl
  | send s next ih =>
      have rest := ih (db.answer s d).1 (db.answer s d).2 (said ++ [⟨s, (db.answer s d).1⟩])
      rw [List.append_assoc, List.singleton_append] at rest
      exact rest

namespace Action

variable {db : Database δ} {s : σ} {d : δ} {said : List Exchange} {statement : Statement}

/-- A statement that is sent, on record. -/
theorem Ends.ask_recording {ok : statement.Answer → σ → δ × List Exchange → Prop}
    {bad : Abort → σ → δ × List Exchange → Prop}
    (hok : ∀ answer d', ok answer s (d', said ++ [⟨statement, .ok answer⟩]))
    (hbad : ∀ e d', bad (.error e.toJournalError) s (d', said ++ [⟨statement, .error e⟩])) :
    Ends db.recording (Action.ask statement) s (d, said) ok bad := by
  refine Ends.ask ?_ ?_
  · intro answer _ answered
    obtain ⟨same, rfl⟩ := Prod.mk.inj answered
    rw [same]
    exact hok answer _
  · intro e _ answered
    obtain ⟨same, rfl⟩ := Prod.mk.inj answered
    rw [same]
    exact hbad e _

/-- A statement that is sent and whose failure is kept, on record. -/
theorem Ends.attempt_recording
    {ok : Except DbError statement.Answer → σ → δ × List Exchange → Prop}
    {bad : Abort → σ → δ × List Exchange → Prop}
    (h : ∀ answer d', ok answer s (d', said ++ [⟨statement, answer⟩])) :
    Ends db.recording (Action.attempt statement) s (d, said) ok bad :=
  (ends_attempt_of_answer rfl).2 (h _ _)

/-- An action ends on record as without it, and what is recorded is its trace. -/
theorem runOn_recording {action : Action σ α} {outcome : Except Abort α} {s' : σ} {d' : δ}
    (run : action.runOn db s d = ((outcome, s'), d')) :
    action.runOn db.recording s (d, []) =
      ((outcome, s'), (d', (action.start s).exchanges db d)) := by
  refine (Program.run_recording db (action.start s) d []).trans ?_
  rw [show (action.start s).run db d = ((outcome, s'), d') from run]
  rfl

/-- What holds of the end of an action on record holds of the run and its trace. -/
theorem Ends.of_recording {action : Action σ α} {outcome : Except Abort α} {s' : σ} {d' : δ}
    {Q : Except Abort α → List Exchange → Prop}
    (h : Ends db.recording action s (d, []) (fun value _ x => Q (.ok value) x.2)
      (fun cause _ x => Q (.error cause) x.2))
    (run : action.runOn db s d = ((outcome, s'), d')) :
    Q outcome ((action.start s).exchanges db d) := by
  have recorded := runOn_recording run
  cases outcome with
  | ok value => exact (ends_of_runOn_ok recorded).1 h
  | error cause => exact (ends_of_runOn_error recorded).1 h

/-- What an action leaves on record it leaves without it, with its trace for the record. -/
theorem Ends.exchanges {action : Action σ α} {ok : α → σ → δ × List Exchange → Prop}
    {bad : Abort → σ → δ × List Exchange → Prop} (h : Ends db.recording action s (d, []) ok bad) :
    Ends db action s d
      (fun value s' d' => ok value s' (d', (action.start s).exchanges db d))
      (fun cause s' d' => bad cause s' (d', (action.start s).exchanges db d)) :=
  Ends.of_forall (fun _ _ _ run => (ends_of_runOn_ok (runOn_recording run)).1 h)
    fun _ _ _ run => (ends_of_runOn_error (runOn_recording run)).1 h

end Action

end EventJournal

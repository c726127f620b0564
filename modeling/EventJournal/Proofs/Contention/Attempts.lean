import EventJournal.Proofs.Contention.Serial
import EventJournal.Proofs.Refusals

/-!
# What the transcript of an append says

An append that returns has committed a transaction whose exchanges lead through its unit of
work to the events returned. An append that is refused by its expectation has rolled back a
transaction in which it asked for the last revision of its stream, and reports the answer.
Both are facts about the program alone: they hold whatever it is answered, however often it
tries again, and while it creates partitions in between.

## Main results

* `Journal.ends_appendWith_transcript` — the transactions behind the two kinds of results.
-/

namespace EventJournal

open EventJournal.Action Protocol

namespace Statement

variable {s : Statement}

theorem isFrame_of_isOfAppend (h : s.isOfAppend = true) : s.isFrame = false := by
  cases s <;> first | rfl | cases h

theorem keepsEvents_of_isOfAppend (h : s.isOfAppend = true) : s.keepsEvents = true := by
  cases s <;> first | rfl | cases h

theorem keepsEvents_of_catalog (h : s.isFrame = true ∨ s.isOfCatalog = true) :
    s.keepsEvents = true := by
  rcases h with h | h <;> cases s <;> first | rfl | cases h

end Statement

namespace Transaction

/-- The first exchange of a transaction that is serializable. -/
def opening : Exchange := ⟨.isolate .serializable, .ok ()⟩

/-- The transaction has committed a run of the unit with the given value. -/
def Commits {σ α : Type} (unit : Action σ α) (value : α) (tx : Transaction) : Prop :=
  tx.committed = true ∧ ∃ es s s', tx.exchanges = opening :: (es ++ [⟨.commit, .ok ()⟩]) ∧
    (∀ e ∈ es, e.statement.isFrame = false) ∧ (unit.start s).Leads es (.ok value, s')

/-- The exchanges of an append that is refused. -/
def refusal (stream : Stream) (revisions : List Int32) : List Exchange :=
  [⟨.lockPositions .shared, .ok ()⟩, ⟨.lastRevision stream, .ok revisions⟩]

/-- The transaction has asked for the last revision of the stream of a batch and was rolled
back, because the batch expects another one. -/
def Refuses (batch : Batch) (cause : Abort) (tx : Transaction) : Prop :=
  tx.committed = false ∧ ∃ revisions error answer,
    tx.exchanges = opening :: (refusal batch.stream revisions ++ [⟨.rollback, answer⟩]) ∧
    batch.expected.validate batch.stream revisions.head? = .error error ∧ cause = .error error

end Transaction

variable {σ α : Type} {s : σ} {w : Watch Transcript} {client : Nat} {said : List Exchange}
  {ended : List Transaction}

/-- The database that answers an append whatever it likes. -/
abbrev transcripts : Database (Watch Transcript) :=
  (Transcript.protocol (·.keepsEvents = true)).database

/-! ## A unit in its transaction -/

theorem Transcript.next_of_not_isFrame {allowed : Statement → Prop} {statement : Statement}
    {answer : Except DbError statement.Answer} (h : statement.isFrame = false) :
    (Transcript.protocol allowed).next ⟨client, some said, ended⟩ statement answer =
      ⟨client, some (said ++ [⟨statement, answer⟩]), ended⟩ := by
  show Transcript.add _ _ = _
  unfold Transcript.add
  rw [Transaction.extend_some (Statement.not_isBoundary_of_not_isFrame h), List.append_nil]

/-- The transcript of a program that leaves its transaction open leads to its value. -/
theorem Program.leads_of_run {program : Program α} (sends : program.Sends (·.isOfAppend = true)) :
    ∀ {w : Watch Transcript} {said}, w.IsIn ⟨client, some said, ended⟩ →
      ∃ es, (program.run transcripts w).2.IsIn ⟨client, some (said ++ es), ended⟩ ∧
        (∀ e ∈ es, e.statement.isFrame = false) ∧
        program.Leads es (program.run transcripts w).1 := by
  induction program with
  | done value =>
      intro w said isIn
      refine ⟨[], ?_, fun _ absent => (nomatch absent), .done value⟩
      rw [List.append_nil]
      exact isIn
  | send s next ih =>
      intro w said isIn
      obtain ⟨lawful, phase⟩ := isIn
      have frame : s.isFrame = false := Statement.isFrame_of_isOfAppend sends.1
      have allowed : s.keepsEvents = true := Statement.keepsEvents_of_isOfAppend sends.1
      have after : ((transcripts.answer s w).2).IsIn
          ⟨client, some (said ++ [⟨s, w.oracle 0 s⟩]), ended⟩ := by
        refine ⟨⟨lawful, allowed⟩, ?_⟩
        show (Transcript.protocol (·.keepsEvents = true)).next w.phase s (w.oracle 0 s) = _
        rw [phase, Transcript.next_of_not_isFrame frame]
      obtain ⟨es, isIn, frames, leads⟩ := ih (w.oracle 0 s) (sends.2 _) after
      rw [List.append_assoc] at isIn
      refine ⟨_, isIn, ?_, .send leads⟩
      intro e there
      rcases List.mem_cons.1 there with rfl | there
      · exact frame
      · exact frames e there

/-- The same for an action. -/
theorem Action.ends_leads {action : Action σ α} (sends : action.Sends (·.isOfAppend = true))
    (isIn : w.IsIn ⟨client, some said, ended⟩) :
    Ends transcripts action s w
      (fun value s' w' => ∃ es, w'.IsIn ⟨client, some (said ++ es), ended⟩ ∧
        (∀ e ∈ es, e.statement.isFrame = false) ∧ (action.start s).Leads es (.ok value, s'))
      (fun _ _ w' => ∃ es, w'.IsIn ⟨client, some (said ++ es), ended⟩) := by
  obtain ⟨es, isIn, frames, leads⟩ := Program.leads_of_run (sends s) isIn
  refine Ends.of_forall ?_ ?_
  · intro value s' w' run
    have run : (action.start s).run transcripts w = ((.ok value, s'), w') := run
    rw [run] at isIn leads
    exact ⟨es, isIn, frames, leads⟩
  · intro cause s' w' run
    have run : (action.start s).run transcripts w = ((.error cause, s'), w') := run
    rw [run] at isIn
    exact ⟨es, isIn⟩

theorem Abort.not_refusal {cause : Abort} {P : Prop} (h : cause.isRefusal = false)
    (refused : cause.isRefusal = true) : P :=
  absurd (h.symm.trans refused) Bool.false_ne_true

/-- An append that is refused by its expectation has sent two statements, and neither has
failed. -/
theorem Batch.ends_append_refused {chain : MiddlewareChain} {transform : EventTransform}
    (batch : Batch) (isIn : w.IsIn ⟨client, some said, ended⟩) :
    Ends transcripts (batch.append chain transform) s w (fun _ _ _ => True)
      (fun cause _ w' => chain.Candid transform → cause.isRefusal = true → ∃ revisions error,
        w'.IsIn ⟨client, some (said ++ Transaction.refusal batch.stream revisions), ended⟩ ∧
        batch.expected.validate batch.stream revisions.head? = .error error ∧
        cause = .error error) := by
  unfold append
  simp only [ends_bind]
  refine Ends.check (fun _ _ => ?_) fun _ failed _ => Abort.not_refusal (checkStream_candid failed)
  refine ends_ask_of_allows isIn rfl (fun _ w isIn => ?_)
    fun e _ _ _ => Abort.not_refusal e.not_refusal
  rw [Transcript.next_of_not_isFrame rfl] at isIn
  refine ends_ask_of_allows isIn rfl (fun revisions w isIn => ?_)
    fun e _ _ _ => Abort.not_refusal e.not_refusal
  rw [Transcript.next_of_not_isFrame rfl, List.append_assoc] at isIn
  refine Ends.check (fun _ _ => ?_) fun error failed _ _ => ⟨revisions, error, isIn, failed, rfl⟩
  -- past the comparison, no one speaks of an expectation any more
  refine Ends.check (fun prepared _ => ?_)
    fun _ failed candid => Abort.not_refusal (candid.prepare failed)
  refine (candid_inRange _ _ _ _ _).mono (fun first s w _ => ?_)
    fun _ _ _ honest _ => Abort.not_refusal honest
  refine (candid_insertFrom _ _ _ _ _ _ _ _ _).mono (fun inserted s w _ => ?_)
    fun _ _ _ honest _ => Abort.not_refusal honest
  exact Ends.check (fun _ _ => trivial)
    fun _ failed candid => Abort.not_refusal (candid.deserializeAll failed)

/-! ## An append -/

section

variable {chain : MiddlewareChain} {transform : EventTransform}

/-- What is known of a client whose append has been refused, if it has. -/
def Transcript.KnowsRefusal (chain : MiddlewareChain) (transform : EventTransform) (batch : Batch)
    (cause : Abort) (t : Transcript) : Prop :=
  chain.Candid transform → cause.isRefusal = true → ∃ tx ∈ t.ended, tx.Refuses batch cause

theorem Batch.ends_inTransaction_transcript (batch : Batch) (lawful : w.lawful) :
    Ends transcripts (inTransaction .serializable (batch.append chain transform : Action σ _)) s w
      (fun events _ w' => w'.lawful ∧
        ∃ tx ∈ w'.phase.ended, tx.Commits (σ := σ) (batch.append chain transform) events)
      (fun cause _ w' => w'.lawful ∧ w'.phase.KnowsRefusal chain transform batch cause) := by
  have undone : ∀ {w : Watch Transcript}, w.lawful → (transcripts.answer .rollback w).2.lawful :=
    fun lawful => ⟨lawful, rfl⟩
  rw [ends_inTransaction]
  refine ends_ask_of_allows ⟨lawful, rfl⟩ rfl (fun _ w isIn => ?_)
    fun e _ isIn => ⟨isIn.1, fun _ => Abort.not_refusal e.not_refusal⟩
  refine ends_ask_of_allows isIn rfl (fun _ w isIn => ?_)
    fun e _ isIn => ⟨undone isIn.1, fun _ => Abort.not_refusal e.not_refusal⟩
  refine ((ends_leads (sends_append chain transform batch) isIn).and
    (batch.ends_append_refused isIn)).mono ?_ ?_
  · intro events s w got
    obtain ⟨⟨es, isIn, frames, leads⟩, -⟩ := got
    refine ends_ask_of_allows isIn rfl (fun _ w isIn => ⟨isIn.1, ?_⟩)
      fun e _ isIn => ⟨isIn.1, fun _ => Abort.not_refusal e.not_refusal⟩
    rw [isIn.2]
    exact ⟨_, List.mem_concat_self, rfl, es, _, _, rfl, frames, leads⟩
  · intro cause s w got
    obtain ⟨⟨_, last⟩, refused⟩ := got
    -- the rollback ends the transaction, however it is answered
    refine ⟨undone last.1, fun candid refusal => ?_⟩
    obtain ⟨revisions, error, isIn, failed, same⟩ := refused candid refusal
    have phase : (transcripts.answer .rollback w).2.phase =
        (Transcript.protocol (·.keepsEvents = true)).next w.phase .rollback
          (w.oracle 0 .rollback) := rfl
    rw [phase, isIn.2]
    exact ⟨_, List.mem_concat_self, rfl, revisions, error, _, rfl, failed, same⟩

/-- The transactions behind the results of an append, whatever it is answered. -/
theorem Journal.ends_appendWith_transcript (j : Journal) (batch : Batch) {s : LeafCache}
    (lawful : w.lawful) :
    Ends transcripts (j.appendWith transform batch) s w
      (fun events _ w' => w'.lawful ∧
        ∃ tx ∈ w'.phase.ended, tx.Commits (σ := LeafCache) (batch.append j.chain transform) events)
      (fun cause _ w' => w'.lawful ∧ w'.phase.KnowsRefusal j.chain transform batch cause) := by
  refine Ends.attempts (fun _ _ _ w => w.lawful) ?_ 1 false s w lawful
  intro attempt reconnected s w lawful
  refine (batch.ends_inTransaction_transcript lawful).mono (fun _ _ _ h => h) ?_
  intro cause s w got
  obtain ⟨lawful, known⟩ := got
  unfold Owed
  split
  · split
    · rename_i final verdict
      rcases Verdict.of_finish verdict with rfl | rfl
      · exact ⟨lawful, known⟩
      · exact ⟨lawful, fun _ => Abort.not_refusal rfl⟩
    · exact lawful
    · exact lawful
    · rename_i stream types _
      have kept : Ends transcripts (Catalog.healer j.catalogConfig stream types) s w
          (fun _ _ w => w.lawful) (fun _ _ w => w.lawful) :=
        Ends.of_sends
          (fun _ allowed _ lawful => ⟨lawful, Statement.keepsEvents_of_catalog allowed⟩)
          (Catalog.sends_healer j.catalogConfig stream types) lawful
      refine (kept.and (Catalog.candid_healer j.catalogConfig stream types _ _ s w)).mono
        (fun _ _ _ h => h.1) fun _ _ _ h => ⟨h.1, fun _ => Abort.not_refusal h.2⟩
  · exact ⟨lawful, known⟩

end

end EventJournal

import EventJournal.Proofs.Healing.LeafTable
import EventJournal.Proofs.Passes
import EventJournal.Proofs.Transaction.Recording

/-!
# What an append writes

An attempt to append opens a serializable transaction, takes the position lock and asks for
the last revision of the stream (`Batch.opening`). The answer decides what follows, as long as
there is room for the batch above it. Where the stream is not as expected, or an event is
refused, nothing is sent but the rollback. Otherwise each event is inserted under the revision
that follows, as the transform and the chain have shaped it (`Batch.Inserts`), and the rows
that are answered are what is returned. `Batch.Account` says so of the trace of an attempt and
of how its call ends.

## Main results

* `Batch.ends_insertFrom_recording` — the statements for the events of a batch.
* `Batch.account_of_attempt` — an attempt, whatever it is answered.
* `Journal.appendWith_account` — the last attempt of a call.
-/

namespace EventJournal

open EventJournal.Action

/-- The statement belongs to the insertion of an event. -/
def Statement.isOfInsertion : Statement → Bool
  | .eventTypeId _ | .insertEvent _ => true
  | _ => false

namespace Batch

/-! ## The exchanges of an attempt -/

/-- How an attempt to append opens, up to the answer that tells the last revision. -/
def opening (stream : Stream) (revisions : List Int32) : List Exchange :=
  [⟨.begin, .ok ()⟩, .isolated .serializable, .locked, .lastRead stream revisions]

/-- The exchanges that insert events under the revisions from a number on: for each event the
request for the identifier of its type, and then its row, with that identifier. The rows are
those that are answered. -/
inductive Inserts (stream : Stream) : Int → List Event → List Exchange → List StoredEvent → Prop
  | nil (number : Int) : Inserts stream number [] [] []
  | cons {number : Int} {event : Event} {typeId : Int64} {typeIds : List Int64} {revision : Int32}
      {draft : EventDraft} {row : StoredEvent} {rows : List StoredEvent} {events : List Event}
      {steps : List Exchange} {answered : List StoredEvent}
      (at_number : revision.toInt = number)
      (bound : ∀ drawn, (Statement.insertEvent draft).values drawn = [
        .uuid (event.id.getD drawn), .text stream.context, .text stream.streamName,
        .text stream.streamId, .int revision, .text event.type, .bigint typeId,
        .json event.data, .json event.metadata, .uuid event.linkId,
        .bigint event.linkPartitionId, .bigint event.linkGlobalPosition])
      (rest : Inserts stream (number + 1) events steps answered) :
      Inserts stream number (event :: events)
        (⟨.eventTypeId event.type, .ok (typeId :: typeIds)⟩ ::
          ⟨.insertEvent draft, .ok (row :: rows)⟩ :: steps)
        (row :: answered)

variable {σ δ : Type} {db : Database δ} {s : σ} {d : δ} {said steps : List Exchange}
  {stream : Stream} {events all : List Event} {rows : List StoredEvent} {number : Int}

theorem Inserts.isOfInsertion (h : Inserts stream number events steps rows) :
    ∀ e ∈ steps, e.statement.isOfInsertion = true := by
  induction h with
  | nil => exact List.forall_mem_nil _
  | cons _ _ _ ih => exact List.forall_mem_cons.2 ⟨rfl, List.forall_mem_cons.2 ⟨rfl, ih⟩⟩

/-- There is one row for each event. -/
theorem Inserts.countP_eq_length (h : Inserts stream number events steps rows) :
    steps.countP (·.statement.isInsertion) = events.length := by
  induction h with
  | nil => rfl
  | cons _ _ _ ih =>
      rw [List.countP_cons_of_neg (by exact Bool.false_ne_true), List.countP_cons_of_pos rfl, ih]
      rfl

/-! ## The insertion of events -/

/-- The insertion of events broke off, at a statement or for want of a revision. -/
structure BrokeOff (steps : List Exchange) (fits : Prop) : Prop where
  statements : ∀ e ∈ steps, e.statement.isOfInsertion = true
  failed : (∃ e ∈ steps, e.broken = true) ∨ ¬fits

/-- One event is inserted, or the insertion breaks off. -/
theorem ends_insertOne_recording (first : Int32) (index : Nat) (event : Event) :
    Ends db.recording (insertOne stream all first index event) s (d, said)
      (fun inserted _ x => ∃ (revision : Int32) (typeId : Int64) (typeIds : List Int64)
        (row : StoredEvent) (rows : List StoredEvent), revision.toInt = first.toInt + index ∧
        inserted = row.toEvent ∧
        x.2 = said ++ [⟨.eventTypeId event.type, .ok (typeId :: typeIds)⟩,
          ⟨.insertEvent (draft stream revision typeId event), .ok (row :: rows)⟩])
      (fun _ _ x => ∃ steps, x.2 = said ++ steps ∧
        BrokeOff steps (first.toInt + index ≤ Int32.maxValue.toInt)) := by
  have typed : ∀ answer, ∀ e ∈ [(⟨.eventTypeId event.type, answer⟩ : Exchange)],
      e.statement.isOfInsertion = true := fun _ => List.forall_mem_singleton.2 rfl
  unfold insertOne
  simp only [ends_bind, ends_pure]
  refine Ends.ask_recording (fun typeIds d => ?_) fun e d => ?_
  · cases typeIds with
    | nil =>
        exact (ends_check_error _).2 ⟨_, rfl, typed _, .inl ⟨_, List.mem_singleton_self _, rfl⟩⟩
    | cons typeId typeIds =>
        refine (ends_check_ok typeId).2 (ends_inRange (fun revision at_index => ?_) fun none => ?_)
        · refine Ends.attempt_recording fun answer d => ?_
          have sent : ∀ e ∈ [(⟨.eventTypeId event.type, .ok (typeId :: typeIds)⟩ : Exchange),
              ⟨.insertEvent (draft stream revision typeId event), answer⟩],
              e.statement.isOfInsertion = true :=
            List.forall_mem_cons.2 ⟨rfl, List.forall_mem_singleton.2 rfl⟩
          rw [List.append_assoc]
          -- no row is as good as an error
          rcases answer with e | _ | ⟨row, rows⟩
          · exact (ends_check_error _).2 ⟨_, rfl, sent, .inl ⟨_, List.mem_of_mem_tail
              (List.mem_singleton_self _), rfl⟩⟩
          · exact (ends_check_error _).2 ⟨_, rfl, sent, .inl ⟨_, List.mem_of_mem_tail
              (List.mem_singleton_self _), rfl⟩⟩
          · exact (ends_check_ok row).2
              ⟨revision, typeId, typeIds, row, rows, Revision.toInt_of_advance? at_index, rfl, rfl⟩
        · refine ⟨_, rfl, typed _, .inr fun fits => ?_⟩
          obtain ⟨_, there⟩ := Revision.exists_advance? first index fits
          cases none.symm.trans there
  · exact ⟨_, rfl, typed _, .inl ⟨_, List.mem_singleton_self _, rfl⟩⟩

/-- The events of a batch from an index on are inserted, or the insertion breaks off. -/
theorem ends_insertFrom_recording (first : Int32) (events : List Event) :
    ∀ (index : Nat) (s : σ) d said,
      Ends db.recording (insertFrom stream all first index events) s (d, said)
        (fun inserted _ x => ∃ steps rows, inserted = rows.map StoredEvent.toEvent ∧
          x.2 = said ++ steps ∧ Inserts stream (first.toInt + index) events steps rows)
        (fun _ _ x => ∃ steps, x.2 = said ++ steps ∧
          BrokeOff steps (first.toInt + index + events.length ≤ Int32.maxValue.toInt + 1)) := by
  induction events with
  | nil =>
      intro index s d said
      unfold insertFrom
      exact (ends_pure []).2 ⟨[], [], rfl, (List.append_nil said).symm, .nil _⟩
  | cons event rest ih =>
      intro index s d said
      unfold insertFrom
      simp only [ends_bind, ends_pure]
      refine (ends_insertOne_recording first index event).mono ?_ ?_
      · rintro _ s ⟨d, _⟩ ⟨revision, typeId, typeIds, row, others, at_index, rfl, rfl⟩
        refine (ih (index + 1) s d _).mono ?_ ?_
        · rintro _ s ⟨d, _⟩ ⟨steps, rows, rfl, rfl, inserts⟩
          refine ⟨_, row :: rows, rfl, List.append_assoc _ _ _, ?_⟩
          refine .cons at_index (fun _ => rfl) ?_
          rwa [show first.toInt + ((index + 1 : Nat) : Int) = first.toInt + index + 1 by omega]
            at inserts
        · rintro _ s ⟨d, _⟩ ⟨steps, rfl, broke⟩
          refine ⟨_, List.append_assoc _ _ _, ?_, broke.failed.imp ?_ ?_⟩
          · exact List.forall_mem_cons.2 ⟨rfl, List.forall_mem_cons.2 ⟨rfl, broke.statements⟩⟩
          · rintro ⟨e, among, broken⟩
            exact ⟨e, List.mem_append_right _ among, broken⟩
          · rw [List.length_cons]
            omega
      · rintro _ s ⟨d, _⟩ ⟨steps, rfl, broke⟩
        refine ⟨steps, rfl, broke.statements, broke.failed.imp id ?_⟩
        rw [List.length_cons]
        omega

/-! ## The account of an attempt -/

/-- An attempt to append has opened and was undone. -/
def Undone (stream : Stream) (revisions : List Int32) (said : List Exchange) : Prop :=
  ∃ answer, said = opening stream revisions ++ [⟨.rollback, answer⟩]

/-- What an attempt to append has said that was told the last revision of its stream, how it
ended, and how its call ends with it. -/
structure Account (chain : MiddlewareChain) (transform : EventTransform) (batch : Batch)
    (revisions : List Int32) (said : List Exchange) (attempt result : Except Abort (List Event)) :
    Prop where
  /-- The call ends as the attempt, unless that failed in a way from which another attempt may
  recover. -/
  ends : result = attempt ∨
    ∃ cause, attempt = .error (.error cause) ∧ cause.Recoverable true
  /-- The stream is not as expected. -/
  unexpected (fails : batch.expected.admits revisions.head? = false) :
    Undone batch.stream revisions said ∧
      result = .error (.error (.wrongExpectedVersion batch.stream batch.expected revisions.head?))
  /-- An event is refused, and those before it are not. -/
  refused (admitted : batch.expected.admits revisions.head? = true) {before after : List Event}
    {event : Event} {cause : JournalError} (split : batch.events = before ++ event :: after)
    (earlier : ∀ event ∈ before, ∃ shaped, chain.shape transform event = .ok shaped)
    (refuses : chain.shape transform event = .error cause) :
    Undone batch.stream revisions said ∧ attempt = .error (.error cause)
  /-- All events are shaped, and nothing fails. -/
  written (admitted : batch.expected.admits revisions.head? = true) {shaped : List Event}
    (shapes : List.Forall₂ (fun event shaped => chain.shape transform event = .ok shaped)
      batch.events shaped)
    (sound : ∀ e ∈ said, e.broken = false) :
    ∃ steps rows,
      Inserts batch.stream (Revision.number revisions.head? + 1) shaped steps rows ∧
      ∀ {shown}, List.Forall₂ (fun row event => chain.unshape row.toEvent = .ok event) rows shown →
        said = opening batch.stream revisions ++ steps ++ [⟨.commit, .ok ()⟩] ∧
        said.countP (·.statement.isInsertion) = batch.events.length ∧ result = .ok shown

variable {chain : MiddlewareChain} {transform : EventTransform} {batch : Batch}
  {revisions : List Int32} {attempt result : Except Abort (List Event)}

/-- There is room for the events of the batch above the last revision. -/
def Room (batch : Batch) (revisions : List Int32) : Prop :=
  Revision.number revisions.head? + max batch.events.length 1 ≤ Int32.maxValue.toInt

instance (batch : Batch) (revisions : List Int32) : Decidable (batch.Room revisions) :=
  inferInstanceAs (Decidable (_ ≤ _))

/-- Why an attempt to append fails after its opening, and what it has said by then. -/
inductive Falls (chain : MiddlewareChain) (transform : EventTransform) (batch : Batch)
    (revisions : List Int32) : List Exchange → Abort → Prop
  | unexpected (fails : batch.expected.admits revisions.head? = false) :
      Falls chain transform batch revisions []
        (.error (.wrongExpectedVersion batch.stream batch.expected revisions.head?))
  | refused {cause : JournalError} (admitted : batch.expected.admits revisions.head? = true)
      (refuses : prepare transform chain batch.events = .error cause) :
      Falls chain transform batch revisions [] (.error cause)
  | broke {steps : List Exchange} (cause : Abort)
      (admitted : batch.expected.admits revisions.head? = true) {shaped : List Event}
      (shapes : prepare transform chain batch.events = .ok shaped)
      (broke : BrokeOff steps (batch.Room revisions)) :
      Falls chain transform batch revisions steps cause
  | unread {shaped : List Event} {steps : List Exchange} {rows : List StoredEvent}
      {cause : JournalError} (admitted : batch.expected.admits revisions.head? = true)
      (shapes : prepare transform chain batch.events = .ok shaped)
      (inserts : Inserts batch.stream (Revision.number revisions.head? + 1) shaped steps rows)
      (unread : MiddlewareChain.outcome (chain.deserializeAll (rows.map StoredEvent.toEvent)) =
        .error cause) :
      Falls chain transform batch revisions steps (.error cause)

theorem prepare_eq_ok_iff {events shaped : List Event} :
    prepare transform chain events = .ok shaped ↔
      List.Forall₂ (fun event shaped => chain.shape transform event = .ok shaped) events
        shaped := by
  rw [MiddlewareChain.prepare_eq, mapM_eq_ok_iff]

theorem prepare_eq_error_iff {events : List Event} {cause : JournalError} :
    prepare transform chain events = .error cause ↔
      ∃ before event after, events = before ++ event :: after ∧
        (∀ event ∈ before, ∃ shaped, chain.shape transform event = .ok shaped) ∧
        chain.shape transform event = .error cause := by
  rw [MiddlewareChain.prepare_eq, mapM_eq_error_iff]

theorem outcome_deserializeAll_rows {shown : List Event} :
    MiddlewareChain.outcome (chain.deserializeAll (rows.map StoredEvent.toEvent)) = .ok shown ↔
      List.Forall₂ (fun row event => chain.unshape row.toEvent = .ok event) rows shown := by
  rw [MiddlewareChain.outcome_deserializeAll, mapM_eq_ok_iff, List.forall₂_map_left_iff]

/-- What follows the answer that tells the last revision. -/
theorem ends_append_told (chain : MiddlewareChain) (transform : EventTransform) (batch : Batch)
    (revisions : List Int32) (s : σ) (d : δ) (said : List Exchange) :
    Ends db.recording
      (do
        let last := revisions.head?
        Action.check (batch.expected.validate batch.stream last)
        let events ← Action.check (prepare transform chain batch.events)
        let first ← inRange (Revision.next? last)
        let inserted ← insertFrom batch.stream events first 0 events
        Action.check (MiddlewareChain.outcome (chain.deserializeAll inserted)) :
          Action σ (List Event)) s (d, said)
      (fun shown _ x => batch.expected.admits revisions.head? = true ∧
        ∃ shaped steps rows, prepare transform chain batch.events = .ok shaped ∧
          Inserts batch.stream (Revision.number revisions.head? + 1) shaped steps rows ∧
          MiddlewareChain.outcome (chain.deserializeAll (rows.map StoredEvent.toEvent)) =
            .ok shown ∧ x.2 = said ++ steps)
      (fun cause _ x => ∃ steps, Falls chain transform batch revisions steps cause ∧
        x.2 = said ++ steps) := by
  dsimp only
  simp only [ends_bind]
  unfold ExpectedRevision.validate
  cases admitted : batch.expected.admits revisions.head? with
  | false => exact (ends_check_error _).2 ⟨[], .unexpected admitted, (List.append_nil said).symm⟩
  | true =>
      refine (ends_check_ok ()).2 (Ends.check (fun shaped shapes => ?_) fun cause refuses => ?_)
      · have length := (prepare_eq_ok_iff.1 shapes).length_eq
        refine ends_inRange (fun first next => ?_) fun none => ?_
        · have same := Revision.toInt_of_next? next
          refine (ends_insertFrom_recording first shaped 0 s d said).mono ?_ ?_
          · rintro _ s ⟨d, _⟩ ⟨steps, rows, rfl, rfl, inserts⟩
            rw [Int.natCast_zero, Int.add_zero, same] at inserts
            refine Ends.check (fun shown read => ?_) fun cause unread => ?_
            · exact ⟨rfl, shaped, steps, rows, shapes, inserts, read, rfl⟩
            · exact ⟨steps, .unread admitted shapes inserts unread, rfl⟩
          · rintro cause s ⟨d, _⟩ ⟨steps, rfl, broke⟩
            refine ⟨steps, .broke cause admitted shapes ⟨broke.statements, ?_⟩, rfl⟩
            refine broke.failed.imp id fun full room => full ?_
            unfold Room at room
            omega
        · refine ⟨[], .broke _ admitted shapes ⟨List.forall_mem_nil _, .inr fun room => ?_⟩,
            (List.append_nil said).symm⟩
          unfold Room at room
          obtain ⟨_, there, -⟩ := Revision.exists_next? revisions.head? (by omega)
          cases none.symm.trans there
      · exact ⟨[], .refused admitted refuses, (List.append_nil said).symm⟩

theorem Falls.statements {cause : Abort} (h : Falls chain transform batch revisions steps cause) :
    ∀ e ∈ steps, e.statement.isOfInsertion = true := by
  cases h with
  | unexpected => exact List.forall_mem_nil _
  | refused => exact List.forall_mem_nil _
  | broke _ _ _ broke => exact broke.statements
  | unread _ _ inserts _ => exact inserts.isOfInsertion

/-- The account of an attempt that falls after its opening. -/
theorem Falls.account {cause : Abort} (h : Falls chain transform batch revisions steps cause)
    (room : batch.Room revisions) (answer : Except DbError Unit) :
    Account chain transform batch revisions
      (opening batch.stream revisions ++ steps ++ [⟨.rollback, answer⟩])
      (.error cause) (.error cause) := by
  refine ⟨.inl rfl, fun fails => ?_,
    fun admitted before after event refusal split earlier refuses => ?_,
    fun admitted shaped shapes sound => ?_⟩
  · cases h with
    | unexpected => exact ⟨⟨answer, by rw [List.append_nil]⟩, rfl⟩
    | refused admitted | broke _ admitted | unread admitted =>
        cases fails.symm.trans admitted
  · have refused := prepare_eq_error_iff.2 ⟨before, event, after, split, earlier, refuses⟩
    cases h with
    | unexpected fails => cases fails.symm.trans admitted
    | refused _ refuses =>
        cases refused.symm.trans refuses
        exact ⟨⟨answer, by rw [List.append_nil]⟩, rfl⟩
    | broke _ _ shapes | unread _ shapes => cases refused.symm.trans shapes
  · have prepared := prepare_eq_ok_iff.2 shapes
    cases h with
    | unexpected fails => cases fails.symm.trans admitted
    | refused _ refuses => cases prepared.symm.trans refuses
    | broke _ _ _ broke =>
        rcases broke.failed with ⟨e, among, broken⟩ | full
        · have said := sound e (by simp [among])
          cases said.symm.trans broken
        · exact absurd room full
    | @unread _ _ rows _ _ shapes' inserts unread =>
        cases prepared.symm.trans shapes'
        refine ⟨steps, rows, inserts, fun reads => ?_⟩
        cases unread.symm.trans (outcome_deserializeAll_rows.2 reads)

/-- The account of an attempt that has inserted all events and read the rows. -/
theorem Inserts.account {shaped shown : List Event}
    (admitted : batch.expected.admits revisions.head? = true)
    (shapes : prepare transform chain batch.events = .ok shaped)
    (inserts : Inserts batch.stream (Revision.number revisions.head? + 1) shaped steps rows)
    (reads : MiddlewareChain.outcome (chain.deserializeAll (rows.map StoredEvent.toEvent)) =
      .ok shown) (answer : Except DbError Unit) :
    Account chain transform batch revisions
      (opening batch.stream revisions ++ steps ++ [⟨.commit, answer⟩])
      (match answer with | .ok _ => .ok shown | .error e => .error (.error e.toJournalError))
      (match answer with | .ok _ => .ok shown | .error e => .error (.error e.toJournalError)) := by
  refine ⟨.inl rfl, fun fails => ?_, fun _ before after event refusal split earlier refuses =>
    ?_, fun _ shaped' shapes' sound => ?_⟩
  · cases fails.symm.trans admitted
  · cases shapes.symm.trans (prepare_eq_error_iff.2 ⟨before, event, after, split, earlier, refuses⟩)
  · cases shapes.symm.trans (prepare_eq_ok_iff.2 shapes')
    refine ⟨steps, rows, inserts, fun {shown'} reads' => ?_⟩
    cases reads.symm.trans (outcome_deserializeAll_rows.2 reads')
    cases answer with
    | error e =>
        have committed := sound ⟨.commit, .error e⟩ (by simp)
        cases committed
    | ok _ =>
        refine ⟨rfl, ?_, rfl⟩
        have count := inserts.countP_eq_length
        have length := shapes'.length_eq
        rw [List.countP_append, List.countP_append, count, ← length]
        exact Nat.zero_add _

/-! ## An attempt, whatever it is answered -/

/-- Whatever the answer is that tells the last revision, there is an account of the attempt. -/
def Accounted (chain : MiddlewareChain) (transform : EventTransform) (batch : Batch)
    (attempt : Except Abort (List Event)) (said : List Exchange) : Prop :=
  ∀ revisions, .lastRead batch.stream revisions ∈ said → batch.Room revisions →
    Account chain transform batch revisions said attempt attempt

/-- The last revision is told but once, in the opening. -/
theorem Accounted.of_told {told : List Int32} {closing : Exchange}
    (inserting : ∀ e ∈ steps, e.statement.isOfInsertion = true)
    (closes : closing.statement.isBoundary = true)
    (h : batch.Room told → Account chain transform batch told
      (opening batch.stream told ++ steps ++ [closing]) attempt attempt) :
    Accounted chain transform batch attempt
      (opening batch.stream told ++ steps ++ [closing]) := by
  intro revisions there room
  obtain rfl : revisions = told := by
    rcases List.mem_append.1 there with there | there
    · rcases List.mem_append.1 there with there | there
      · simpa [opening, Exchange.isolated, Exchange.locked, Exchange.lastRead] using there
      · cases inserting _ there
    · cases List.mem_singleton.1 there
      cases closes
  exact h room

theorem ends_attempt_recording (chain : MiddlewareChain) (transform : EventTransform)
    (regular : batch.stream.isRegular = true) (valid : batch.stream.isValid = true) (s : σ)
    (d : δ) :
    Ends db.recording (inTransaction .serializable (batch.append chain transform)) s (d, [])
      (fun shown _ x => Accounted chain transform batch (.ok shown) x.2)
      (fun cause _ x => Accounted chain transform batch (.error cause) x.2) := by
  have allowed : checkStream batch.stream = .ok () := by
    unfold checkStream
    rw [regular, valid]
    rfl
  rw [ends_inTransaction]
  -- an attempt that falls before it is told the last revision has nothing to account for
  refine Ends.ask_recording (fun _ d => ?_) fun e d revisions there => ?_
  · refine Ends.ask_recording (fun _ d => ?_) fun e d revisions there => ?_
    · unfold append
      rw [ends_bind, allowed, ends_check_ok, ends_bind]
      refine Ends.ask_recording (fun _ d => ?_) fun e d revisions there => ?_
      · rw [ends_bind]
        refine Ends.ask_recording (fun told d => ?_) fun e d revisions there => ?_
        · refine (ends_append_told chain transform batch told s d _).mono ?_ ?_
          · rintro shown s ⟨d, _⟩ ⟨admitted, shaped, steps, rows, shapes, inserts, reads, rfl⟩
            have account := inserts.account admitted shapes reads
            refine Ends.ask_recording (fun _ d => ?_) fun e d => ?_
            · exact .of_told inserts.isOfInsertion rfl fun _ => account (.ok ())
            · exact .of_told inserts.isOfInsertion rfl fun _ => account (.error e)
          · rintro cause s ⟨d, _⟩ ⟨steps, falls, rfl⟩
            exact .of_told falls.statements rfl fun room => falls.account room _
        · simp [Exchange.lastRead, Database.recording] at there
      · simp [Exchange.lastRead, Database.recording] at there
    · simp [Exchange.lastRead, Database.recording] at there
  · simp [Exchange.lastRead] at there

/-- An attempt to append, whatever the database is. -/
theorem account_of_attempt (regular : batch.stream.isRegular = true)
    (valid : batch.stream.isValid = true) {s s' : σ} {d' : δ}
    (run : (inTransaction .serializable (batch.append chain transform)).runOn db s d =
      ((attempt, s'), d'))
    (there : .lastRead batch.stream revisions ∈
      ((inTransaction .serializable (batch.append chain transform)).start s).exchanges db d)
    (room : batch.Room revisions) :
    Account chain transform batch revisions
      (((inTransaction .serializable (batch.append chain transform)).start s).exchanges db d)
      attempt attempt :=
  Ends.of_recording (ends_attempt_recording chain transform regular valid s d) run revisions
    there room

end Batch

/-! ## The account of a call -/

section

variable {σ α δ : Type} {db : Database δ} {catalog : Option (LeafKey → Action σ Partition)}
  {unit : Action σ α}

/-- The last round of a course starts where those before it end. -/
theorem Course.of_snoc {p q : σ × δ} {before : List (Round α)} {last : Round α}
    (h : Course db catalog unit p (before ++ [last]) q) :
    ∃ s d s' d', Course db catalog unit p before (s, d) ∧
      (inTransaction .serializable unit).runOn db s d = ((last.outcome, s'), d') := by
  induction before generalizing p with
  | nil =>
      cases h with
      | @more s s' d d' _ _ _ _ run _ _ => exact ⟨s, d, s', d', .none _, run⟩
  | cons round before ih =>
      cases h with
      | more run healing others =>
          obtain ⟨s, d, s', d', course, final⟩ := ih others
          exact ⟨s, d, s', d', .more run healing course, final⟩

/-- A call ends as its last attempt, unless that failed in a way from which another attempt may
recover. -/
theorem Round.Closes.outcome_eq_or {policy : RetryPolicy} {heals : Bool}
    {before : List (Round α)} {round : Round α} {ending : Ending α}
    (h : round.Closes policy heals before ending) :
    ending.outcome = round.outcome ∨
      ∃ cause, round.outcome = .error (.error cause) ∧ cause.Recoverable heals := by
  cases ending with
  | bare outcome => exact .inl ((h.bare outcome).1 rfl).1.symm
  | exhausted attempts last =>
      obtain ⟨-, -, failed, recoverable⟩ := (h.exhausted attempts last).1 rfl
      exact .inr ⟨last, failed, recoverable⟩
  | unhealed cause =>
      obtain ⟨there, -, stream, types, failed, -⟩ := (h.unhealed cause).1 rfl
      exact .inr ⟨_, failed, .inr ⟨there, stream, types, rfl⟩⟩

end

/-- The account of a call whose last attempt is accounted for. -/
theorem Batch.Account.of_closes {chain : MiddlewareChain} {transform : EventTransform}
    {batch : Batch} {revisions : List Int32} {said : List Exchange} {policy : RetryPolicy}
    {before : List (Round (List Event))} {last : Round (List Event)}
    {ending : Ending (List Event)}
    (h : Account chain transform batch revisions said last.outcome last.outcome)
    (closes : last.Closes policy true before ending) :
    Account chain transform batch revisions said last.outcome ending.outcome where
  ends := closes.outcome_eq_or
  unexpected fails := by
    obtain ⟨undone, failed⟩ := h.unexpected fails
    refine ⟨undone, ?_⟩
    rcases closes.outcome_eq_or with same | ⟨cause, failed', recoverable⟩
    · rw [same, failed]
    · cases failed.symm.trans failed'
      rcases recoverable with retryable | ⟨-, _, _, missing⟩
      · cases retryable
      · cases missing
  refused := h.refused
  written admitted shaped shapes sound := by
    obtain ⟨steps, rows, inserts, reads⟩ := h.written admitted shapes sound
    refine ⟨steps, rows, inserts, fun read => ?_⟩
    obtain ⟨said, count, returned⟩ := reads read
    exact ⟨said, count, (closes.outcome_eq_ok_iff _).2 returned⟩

namespace Journal

open Batch

/-- **What an append writes.** A call to append to a regular stream is a course of attempts. If
its last attempt is told the last revision, and there is room for the batch above it, that
attempt is accounted for: either the stream is not as expected, or an event is refused, and
nothing is written; or each event is inserted as the transform and the chain have shaped it,
under the revision that follows, and the answered rows are what the call returns. -/
theorem appendWith_account {δ : Type} (db : Database δ) (j : Journal) (transform : EventTransform)
    {batch : Batch} (regular : batch.stream.isRegular = true)
    (valid : batch.stream.isValid = true) (cache : LeafCache) (d : δ) :
    let attempt := inTransaction .serializable (batch.append j.chain transform)
    ∃ (before : List (Round (List Event))) (last : Round (List Event)),
      ∃ ending cache₁ d₁ cache' d',
        (j.appendWith transform batch).runOn db cache d = ((Ending.outcome ending, cache'), d') ∧
        Concluded db j.config.retry (some (Catalog.ensure j.catalogConfig))
          (batch.append j.chain transform) (cache, d) before last ending (cache', d') ∧
        -- the last attempt starts where the rounds before it end
        Course db (some (Catalog.ensure j.catalogConfig)) (batch.append j.chain transform)
          (cache, d) before (cache₁, d₁) ∧
        (attempt.runOn db cache₁ d₁).1.1 = last.outcome ∧
        ∀ revisions,
          .lastRead batch.stream revisions ∈ (attempt.start cache₁).exchanges db d₁ →
          batch.Room revisions →
          Account j.chain transform batch revisions ((attempt.start cache₁).exchanges db d₁)
            last.outcome ending.outcome := by
  intro attempt
  obtain ⟨outcome, cache', d', run, before, last, ending, concluded, rfl⟩ :=
    transact_told db j.config.retry (some (Catalog.ensure j.catalogConfig))
      (batch.append j.chain transform) cache d
  obtain ⟨cache₁, d₁, cache₂, d₂, course, ran⟩ := concluded.course.of_snoc
  refine ⟨before, last, ending, cache₁, d₁, cache', d', run, concluded, course, by rw [ran], ?_⟩
  intro revisions there room
  exact (account_of_attempt regular valid ran there room).of_closes concluded.closes

/-! ## Two orders -/

/-- A journal that stores all events under one type and leaves a trail. -/
def stamping : Journal where
  config := { retry := .immediate 2 }
  chain := [.retype "Created", .trail "a"]
  nameTries := 1

/-- An event with an identifier and one without, for an order that has five. -/
def twoOrders : Batch where
  stream := ⟨"Sales", "Order", "1", .regular⟩
  events := [{ id := some ⟨7⟩, type := "Placed" }, { type := "Paid" }]
  expected := .exact 4

/-- A table that has five events of each stream, and the leaf of an order. -/
def fiveEach : LeafTable where
  stored :=
    { last := fun _ => some 4
      partitions := [⟨1, "Sales", some "Order", some "Created", "event_types_1"⟩] }

/-- Both events are inserted under the type that the chain gives them, with the revisions that
follow, and the rows are returned. -/
theorem twoOrders_account :
    let shaped := twoOrders.events.map fun event =>
      Middleware.mark "a" { event with type := "Created" }
    ∃ steps rows, Inserts twoOrders.stream 5 shaped steps rows ∧
      ((stamping.append twoOrders).runOn LeafTable.database {} fiveEach).1.1 =
        .ok (rows.map fun row => Middleware.mark ("a".map Char.toUpper) row.toEvent) := by
  intro shaped
  obtain ⟨before, last, ending, cache₁, t₁, cache', t', run, concluded, course, ran, account⟩ :=
    appendWith_account LeafTable.database stamping .ok
      (show twoOrders.stream.isRegular = true from rfl) (by decide) {} fiveEach
  have returns : ((inTransaction .serializable (twoOrders.append stamping.chain .ok)).runOn
      LeafTable.database ({} : LeafCache) fiveEach).1.1.isOk = true := by decide +kernel
  -- a first attempt that returns is the last one
  obtain rfl : before = [] := by
    cases before with
    | nil => rfl
    | cons round rest =>
        obtain ⟨cause, failed⟩ := concluded.continues.failed round List.mem_cons_self
        cases course with
        | more run₁ _ _ =>
            rw [run₁, failed] at returns
            cases returns
  cases course
  have account := account [4] (.tail _ (.tail _ (.tail _ (.head _)))) (by decide)
  have shapes : List.Forall₂
      (fun event shaped => MiddlewareChain.shape stamping.chain .ok event = .ok shaped)
      twoOrders.events shaped := .cons rfl (.cons rfl .nil)
  obtain ⟨steps, rows, inserts, reads⟩ := account.written rfl shapes (by decide +kernel)
  have read : List.Forall₂
      (fun row event => MiddlewareChain.unshape stamping.chain row.toEvent = .ok event) rows
      (rows.map fun row => Middleware.mark ("a".map Char.toUpper) row.toEvent) :=
    List.forall₂_map_right_iff.2 (List.forall₂_same.2 fun _ _ => rfl)
  refine ⟨steps, rows, inserts, ?_⟩
  rw [← (reads read).2.2]
  exact congrArg (·.1.1) run

end Journal

end EventJournal

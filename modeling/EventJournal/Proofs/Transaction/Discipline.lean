import EventJournal.Proofs.History
import EventJournal.Proofs.Sql.Keywords
import EventJournal.Proofs.Transaction.Attempts

/-!
# What may be said in a transaction

A client knows what has been said in its transaction since it was begun. `Allowed` says what
may be sent next: first of all how the transaction is kept apart, then anything but another
begin, and after a failure the rollback alone. Rows of events and partitions are changed in
serializable transactions only, and an event is inserted once the shared side of the position
lock is held and the last revision of its stream has been read. Outside of a transaction a
client reads.

`Transaction.bracket` is the protocol of this. That the units of work obey it is proved from
their texts, whatever they are answered.

## Main results

* `Transaction.ends_inTransaction_closed` — a unit that keeps to what may be said leaves no
  transaction open, in one attempt.
* `Transaction.ends_transact_closed` — nor does a call, in all its attempts and healings.
-/

namespace EventJournal

namespace Statement

/-- The statement changes rows of events, or creates a partition. -/
def changes (s : Statement) : Bool := s.changeKeyword?.isSome

/-- The statement inserts an event. -/
def isInsertion : Statement → Bool
  | .insertEvent _ => true
  | _ => false

/-- The statement reads, and may do so outside of a transaction. -/
def isQuery : Statement → Bool
  | .streamExists _ | .readEvents _ | .readHeads _ _ _ | .readTargets _ _ | .findPartition _
  | .findLeaves _ | .partitionsById _ => true
  | _ => false

/-- The statement may stand anywhere within a transaction. -/
def isPlain : Statement → Bool
  | .schemaStep _ => false
  | s => !s.isFrame && !s.changes

/-- The answer has no row where there must be one. -/
def lacksRow : (s : Statement) → s.Answer → Bool
  | .eventTypeId _, [] | .insertEvent _, [] | .streamExists _, [] | .countLater _ _, []
  | .lastPosition, [] | .tableNameTaken _, [] | .registerPartition _ _, [] => true
  | _, _ => false

end Statement

namespace Exchange

/-- The statement failed, or was answered without the row it asked for. -/
def broken : Exchange → Bool
  | ⟨_, .error _⟩ => true
  | ⟨s, .ok answer⟩ => s.lacksRow answer

/-- The transaction has said how it is kept apart. -/
def isolated (level : Isolation) : Exchange := ⟨.isolate level, .ok ()⟩

/-- The shared side of the position lock was taken. -/
def locked : Exchange := ⟨.lockPositions .shared, .ok ()⟩

/-- The last revision of a stream was read. -/
def lastRead (stream : Stream) (revisions : List Int32) : Exchange :=
  ⟨.lastRevision stream, .ok revisions⟩

end Exchange

namespace Transaction

open Exchange

/-- What may be sent in a transaction in which so much has been said since it was begun. -/
structure Allowed (said : List Exchange) (s : Statement) : Prop where
  /-- No other transaction begins. -/
  begins : s ≠ .begin
  /-- First of all, the transaction says how it is kept apart. -/
  isolates : said = [] ↔ ∃ level, s = .isolate level
  changes : s.changes = true → said.head? = some (isolated .serializable)
  inserts : ∀ draft, s = .insertEvent draft →
    locked ∈ said ∧ ∃ revisions, lastRead draft.stream revisions ∈ said
  /-- After a failure, there is nothing left but the rollback. -/
  stops : (∃ e ∈ said, e.broken = true) → s = .rollback
  /-- The text of the statement is not anyone's own. -/
  known : ∀ text, s ≠ .schemaStep text

/-- The protocol of a client that knows what it has said in its transaction. -/
def bracket : Protocol (Option (List Exchange)) where
  allows
    | none, s => s = .begin ∨ s.isQuery = true
    | some said, s => Allowed said s
  next
    | none, .begin, .ok _ => some []
    | none, _, _ => none
    | some said, s, answer => if s.isBoundary then none else some (said ++ [⟨s, answer⟩])

/-! ## Within a transaction -/

open EventJournal.Action Protocol

variable {σ α : Type} {s : σ} {w : Watch (Option (List Exchange))} {level : Isolation}
  {needed : List Exchange} {statement : Statement}

/-- A transaction is open that has said how it is kept apart, or has tried to. -/
structure Open (w : Watch (Option (List Exchange))) : Prop where
  lawful : w.lawful
  said : ∃ e rest, w.phase = some (e :: rest)

/-- Such a transaction in which nothing has failed, and some exchanges are known. -/
structure Inside (level : Isolation) (needed : List Exchange)
    (w : Watch (Option (List Exchange))) : Prop where
  lawful : w.lawful
  said : ∃ said, w.phase = some (isolated level :: said) ∧ needed ⊆ said ∧
    ∀ e ∈ said, e.broken = false

theorem Inside.isOpen (h : Inside level needed w) : Open w := by
  obtain ⟨said, phase, -⟩ := h.said
  exact ⟨h.lawful, _, said, phase⟩

/-- Less may be known. -/
theorem Inside.mono {fewer : List Exchange} (h : Inside level needed w) (sub : fewer ⊆ needed) :
    Inside level fewer w := by
  obtain ⟨said, phase, known, sound⟩ := h.said
  exact ⟨h.lawful, said, phase, List.Subset.trans sub known, sound⟩

/-- Nothing has failed in a transaction in which nothing has failed after it has said how it
is kept apart. -/
theorem not_exists_broken {said : List Exchange} (sound : ∀ e ∈ said, e.broken = false) :
    ¬∃ e ∈ isolated level :: said, e.broken = true := by
  rintro ⟨e, there, broken⟩
  rcases List.mem_cons.1 there with rfl | there
  · cases broken
  · rw [sound e there] at broken
    cases broken

/-- What may be sent where some exchanges are known. -/
inductive Permitted (needed : List Exchange) : Isolation → Statement → Prop
  | plain {level : Isolation} {s : Statement} : s.isPlain = true → Permitted needed level s
  | change {s : Statement} : s.changes = true → s.isInsertion = false →
      Permitted needed .serializable s
  | insert {draft : EventDraft} {revisions : List Int32} : locked ∈ needed →
      lastRead draft.stream revisions ∈ needed →
      Permitted needed .serializable (.insertEvent draft)

theorem Permitted.isFrame (h : Permitted needed level statement) : statement.isFrame = false := by
  cases h with
  | plain h => cases statement <;> first | rfl | cases h
  | change h => cases statement <;> first | rfl | cases h
  | insert => rfl

theorem Permitted.allowed {said : List Exchange} (h : Permitted needed level statement)
    (known : needed ⊆ said) (sound : ∀ e ∈ said, e.broken = false) :
    Allowed (isolated level :: said) statement where
  begins := by
    rintro rfl
    cases h.isFrame
  isolates := by
    refine ⟨nofun, ?_⟩
    rintro ⟨other, rfl⟩
    cases h.isFrame
  changes changes := by
    cases h with
    | plain plain => cases statement <;> cases changes <;> cases plain
    | change => rfl
    | insert => rfl
  inserts draft same := by
    cases h with
    | plain plain =>
        subst same
        cases plain
    | change _ other =>
        subst same
        cases other
    | insert locks reads =>
        cases same
        exact ⟨List.mem_cons_of_mem _ (known locks), _, List.mem_cons_of_mem _ (known reads)⟩
  stops broken := absurd broken (not_exists_broken sound)
  known text := by
    rintro rfl
    cases h with
    | plain plain => cases plain
    | change changes => cases changes

/-- A statement within a transaction. The transaction stays open, and if the statement has not
failed, it is known as well. -/
theorem ends_attempt_inside {ok : Except DbError statement.Answer → σ → Watch _ → Prop}
    {bad : Abort → σ → Watch _ → Prop} (h : Inside level needed w)
    (permitted : Permitted needed level statement)
    (answered : ∀ answer w', Open w' →
      (Exchange.broken ⟨statement, answer⟩ = false →
        Inside level (⟨statement, answer⟩ :: needed) w') → ok answer s w') :
    Ends bracket.database (attempt statement) s w ok bad := by
  obtain ⟨said, phase, known, sound⟩ := h.said
  have allowed : bracket.allows (some (isolated level :: said)) statement :=
    permitted.allowed known sound
  refine ends_attempt_of_allows ⟨h.lawful, phase⟩ allowed fun answer w' isIn => ?_
  have stays : bracket.next (some (isolated level :: said)) statement answer =
      some (isolated level :: (said ++ [⟨statement, answer⟩])) :=
    if_neg (ne_true_of_eq_false (Statement.not_isBoundary_of_not_isFrame permitted.isFrame))
  refine answered answer w' ⟨isIn.1, _, _, isIn.2.trans stays⟩ fun sane => ?_
  refine ⟨isIn.1, _, isIn.2.trans stays, ?_, ?_⟩
  · exact List.cons_subset.2 ⟨List.mem_append_right _ List.mem_cons_self,
      List.Subset.trans known (List.subset_append_left _ _)⟩
  · exact List.forall_mem_append.2 ⟨sound, List.forall_mem_singleton.2 sane⟩

/-- A statement whose failure ends the unit, with the transaction still open. -/
theorem ends_ask_inside {ok : statement.Answer → σ → Watch _ → Prop}
    (h : Inside level needed w) (permitted : Permitted needed level statement)
    (answered : ∀ answer w', Open w' →
      (statement.lacksRow answer = false →
        Inside level (⟨statement, .ok answer⟩ :: needed) w') → ok answer s w') :
    Ends bracket.database (ask statement) s w ok fun _ _ w => Open w := by
  unfold ask
  rw [ends_bind]
  refine ends_attempt_inside h permitted fun answer w' isOpen inside => ?_
  cases answer with
  | ok value => exact (ends_check_ok value).2 (answered value w' isOpen inside)
  | error e => exact (ends_check_error _).2 isOpen

/-! ## Units in transactions -/

/-- The unit keeps to what may be said in a transaction, and if it ends with a value, nothing
has failed. -/
def Minds (level : Isolation) (unit : Action σ α) : Prop :=
  ∀ s w, Inside level [] w →
    Ends bracket.database unit s w (fun _ _ w => Inside level [] w) (fun _ _ w => Open w)

/-- No transaction is open. -/
abbrev Closed (w : Watch (Option (List Exchange))) : Prop := w.IsIn none

theorem Open.rollback (h : Open w) : Closed (bracket.database.answer .rollback w).2 := by
  obtain ⟨e, rest, phase⟩ := h.said
  have allowed : Allowed (e :: rest) .rollback :=
    ⟨nofun, ⟨nofun, fun ⟨_, same⟩ => nomatch same⟩, nofun, nofun, fun _ => rfl, nofun⟩
  have closed : bracket.next w.phase .rollback (w.oracle 0 .rollback) = none := by
    rw [phase]
    rfl
  exact ⟨⟨h.lawful, by rw [phase]; exact allowed⟩, closed⟩

/-- One attempt at a unit leaves no transaction open. -/
theorem ends_inTransaction_closed {unit : Action σ α} (minds : Minds level unit)
    (closed : Closed w) :
    Ends bracket.database (inTransaction level unit) s w (fun _ _ w => Closed w)
      (fun _ _ w => Closed w) := by
  have first : Allowed [] (.isolate level) :=
    ⟨nofun, ⟨fun _ => ⟨level, rfl⟩, fun _ => rfl⟩, nofun, nofun,
      fun ⟨_, there, _⟩ => absurd there List.not_mem_nil, nofun⟩
  rw [ends_inTransaction]
  refine ends_ask_of_allows closed (.inl rfl) (fun _ w begun => ?_) fun _ _ refused => refused
  refine ends_ask_of_allows begun first (fun _ w isIn => ?_) fun _ w isIn => ?_
  · have inside : Inside level [] w :=
      ⟨isIn.1, [], isIn.2, List.nil_subset _, List.forall_mem_nil _⟩
    refine (minds s w inside).mono (fun _ s w inside => ?_) fun _ _ _ isOpen => isOpen.rollback
    obtain ⟨said, phase, -, sound⟩ := inside.said
    have commits : Allowed (isolated level :: said) .commit :=
      ⟨nofun, ⟨nofun, fun ⟨_, same⟩ => nomatch same⟩, nofun, nofun,
        fun broken => absurd broken (not_exists_broken sound), nofun⟩
    exact ends_ask_of_allows ⟨inside.lawful, phase⟩ commits (fun _ _ ended => ended)
      fun _ _ ended => ended
  · have isOpen : Open w := ⟨isIn.1, _, _, isIn.2⟩
    exact isOpen.rollback

/-- Nor does a call, with all its attempts and healings. -/
theorem ends_transact_closed {policy : RetryPolicy} {healer : Option (Healer σ)}
    {unit : Action σ α} (minds : Minds .serializable unit)
    (heals : ∀ f, healer = some f → ∀ stream types s w, Closed w →
      Ends bracket.database (f stream types) s w (fun _ _ w => Closed w) (fun _ _ w => Closed w))
    (closed : Closed w) :
    Ends bracket.database (transact policy healer unit) s w (fun _ _ w => Closed w)
      (fun _ _ w => Closed w) :=
  Ends.transact_keeps (fun _ _ closed => ends_inTransaction_closed minds closed) heals s w closed

/-- Reading outside of a transaction opens none. -/
theorem ends_closed_of_sends {action : Action σ α} (sends : action.Sends (·.isQuery = true))
    (closed : Closed w) :
    Ends bracket.database action s w (fun _ _ w => Closed w) (fun _ _ w => Closed w) := by
  refine Ends.of_sends ?_ sends closed
  rintro statement query w ⟨lawful, phase⟩
  have stays : bracket.next w.phase statement (w.oracle 0 statement) = none := by
    rw [phase]
    cases statement <;> first | rfl | cases query
  exact ⟨⟨lawful, by rw [phase]; exact .inr query⟩, stays⟩

end Transaction

end EventJournal

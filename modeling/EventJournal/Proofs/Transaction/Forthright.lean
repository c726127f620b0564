import EventJournal.Journal
import EventJournal.Proofs.Passes
import EventJournal.Proofs.Transaction.Rounds

/-!
# Units of work that stop at a failure

A unit of work does not try to go on after a statement that fails. Whichever it is, the unit
ends at once with an error. What that error says may depend on the statement: a row without a
partition, or a table that another writer has created, is told apart from other failures. But
a conflict and a lost connection are never taken for anything else, and a unit whose statements
do not fail speaks of neither, unless it is a hook of the caller that does. A unit that is so
(`Action.Forthright`) also leaves its state alone.

## Main results

* `Batch.forthright_append`, `Event.forthright_delete`, `Stream.forthright_delete`,
  `Catalog.forthright_ensurePath` — the units of work, read off their texts.
-/

namespace EventJournal

/-- The transaction got in the way of another, or lost its connection. -/
def DbError.isSignal (e : DbError) : Bool := e.isConflict || e.isConnectionLoss

/-- The error is one after which a call may make another attempt. -/
def JournalError.isSignal : JournalError → Bool
  | .serializationConflict _ | .partitionRace _ | .connectionLost _ | .missingPartitions _ _ => true
  | _ => false

/-- Whichever statement fails, the program ends at once, with an error that tells of a conflict
or a lost connection. If none fails, it ends with such an error only if it is one that is
raised. It always ends with the state it was given. -/
def Program.Forthright {σ α : Type} (raises : JournalError → Prop) (s : σ) :
    Program (Except Abort α × σ) → Prop
  | .done result =>
      result.2 = s ∧
        ∀ cause, result.1 = .error (.error cause) → cause.isSignal = true → raises cause
  | .send _ next =>
      (∀ e, ∃ cause, next (.error e) = .done (.error (.error cause), s) ∧
        (e.isSignal = true → cause = e.toJournalError)) ∧
      ∀ answer, (next (.ok answer)).Forthright raises s

/-- The same of an action, whatever its state. -/
def Action.Forthright {σ α : Type} (raises : JournalError → Prop) (action : Action σ α) : Prop :=
  ∀ s, (action.start s).Forthright raises s

/-! ## Rules -/

theorem Program.Forthright.bind {σ α β : Type} {raises : JournalError → Prop} {s : σ}
    {program : Program (Except Abort α × σ)}
    {f : Except Abort α × σ → Program (Except Abort β × σ)}
    (first : program.Forthright raises s) (rest : ∀ value, (f (.ok value, s)).Forthright raises s)
    (stops : ∀ cause s, f (.error cause, s) = .done (.error cause, s)) :
    (program.bind f).Forthright raises s := by
  induction program with
  | done result =>
      obtain ⟨result, s'⟩ := result
      obtain ⟨rfl, raised⟩ := first
      cases result with
      | ok value => exact rest value
      | error cause =>
          show (f (.error cause, s')).Forthright raises s'
          rw [stops]
          exact ⟨rfl, fun cause' same => raised cause' (by rw [Except.error.inj same])⟩
  | send statement next ih =>
      refine ⟨fun e => ?_, fun answer => ih _ (first.2 answer)⟩
      obtain ⟨cause, ends, told⟩ := first.1 e
      refine ⟨cause, ?_, told⟩
      show Program.bind (next (.error e)) f = _
      rw [ends]
      exact stops _ _

namespace Action

variable {σ α β : Type} {raises : JournalError → Prop}

theorem forthright_pure (value : α) : (pure value : Action σ α).Forthright raises :=
  fun _ => ⟨rfl, fun _ same => by cases same⟩

theorem forthright_abort {cause : Abort}
    (raised : ∀ e, cause = .error e → e.isSignal = true → raises e) :
    (abort cause : Action σ α).Forthright raises :=
  fun _ => ⟨rfl, fun e same => raised e (Except.error.inj same)⟩

theorem forthright_check {result : Except JournalError α}
    (raised : ∀ cause, result = .error cause → cause.isSignal = true → raises cause) :
    (check result : Action σ α).Forthright raises := by
  cases result with
  | ok value => exact forthright_pure value
  | error cause =>
      refine forthright_abort fun e same => ?_
      cases same
      exact raised _ rfl

/-- No row where there must be one is no reason to try again. -/
theorem forthright_one (rows : List α) : (one rows : Action σ α).Forthright raises := by
  cases rows with
  | nil =>
      refine forthright_check fun cause same signal => ?_
      cases same
      cases signal
  | cons row rows => exact forthright_pure row

theorem Forthright.bind {action : Action σ α} {f : α → Action σ β}
    (first : action.Forthright raises) (rest : ∀ value, (f value).Forthright raises) :
    (action >>= f).Forthright raises :=
  fun s => (first s).bind (fun value => rest value s) fun _ _ => rfl

/-- A statement whose failure is kept, and is then what the action ends with. -/
theorem forthright_attempt_bind {statement : Statement}
    {f : Except DbError statement.Answer → Action σ β}
    (stops : ∀ e, ∃ cause, f (.error e) = abort (.error cause) ∧
      (e.isSignal = true → cause = e.toJournalError))
    (rest : ∀ answer, (f (.ok answer)).Forthright raises) :
    (attempt statement >>= f).Forthright raises := by
  refine fun s => ⟨fun e => ?_, fun answer => rest answer s⟩
  obtain ⟨cause, ends, told⟩ := stops e
  refine ⟨cause, ?_, told⟩
  show (f (.error e)).start s = _
  rw [ends]
  rfl

theorem forthright_ask (statement : Statement) :
    (ask statement : Action σ _).Forthright raises :=
  forthright_attempt_bind (fun _ => ⟨_, rfl, fun _ => rfl⟩) fun answer => forthright_pure answer

theorem forthright_mapM {ι : Type} {f : ι → Action σ β} (h : ∀ item, (f item).Forthright raises)
    (items : List ι) : (items.mapM f).Forthright raises := by
  induction items with
  | nil =>
      rw [List.mapM_nil]
      exact forthright_pure []
  | cons item rest ih =>
      rw [List.mapM_cons]
      exact (h item).bind fun value => ih.bind fun values => forthright_pure _

theorem Forthright.mono {raises' : JournalError → Prop} {action : Action σ α}
    (h : action.Forthright raises)
    (less : ∀ cause, cause.isSignal = true → raises cause → raises' cause) :
    action.Forthright raises' := by
  intro s
  have forthright := h s
  generalize action.start s = program at forthright
  induction program with
  | done result =>
      exact ⟨forthright.1, fun cause ends signal =>
        less cause signal (forthright.2 cause ends signal)⟩
  | send statement next ih =>
      exact ⟨forthright.1, fun answer => ih _ (forthright.2 answer)⟩

end Action

/-! ## Meanings of failures -/

namespace DbError

variable {e : DbError}

/-- A conflict or a lost connection does not have the code of another error. -/
theorem code?_ne_of_isSignal (signal : e.isSignal = true) (code : String)
    (other : (database (some code) "").isSignal = false) : e.code? ≠ some code := by
  intro same
  cases e with
  | database code' text =>
      obtain rfl : code' = some code := same
      exact Bool.false_ne_true (other.symm.trans signal)
  | _ => cases same

theorem insertError_of_isSignal (signal : e.isSignal = true) (stream : Stream)
    (events : List Event) : Batch.insertError stream events e = e.toJournalError := by
  refine if_neg ?_
  cases e with
  | database code text =>
      have ne : code ≠ some "23514" := code?_ne_of_isSignal signal _ (by decide)
      rw [isMissingPartition, decide_eq_false ne, Bool.false_and]
      exact Bool.false_ne_true
  | _ => exact Bool.false_ne_true

/-- Neither is taken for a race. -/
theorem creationError_of_isSignal (signal : e.isSignal = true) (table : String) :
    Catalog.creationError table e = e.toJournalError := by
  have ne := code?_ne_of_isSignal signal
  refine if_neg ?_
  unfold isUniqueViolation isDuplicateRelation
  simp [ne "23505" (by decide), ne "42P07" (by decide), ne "42P17" (by decide)]

end DbError

/-! ## The units of work -/

open EventJournal.Action

variable {σ : Type} {raises : JournalError → Prop}

namespace Batch

theorem forthright_inRange {α : Type} (found : Option α) :
    (inRange found : Action σ α).Forthright raises := by
  cases found with
  | none =>
      refine forthright_abort fun e same => ?_
      cases same
  | some value => exact forthright_pure value

theorem forthright_insertOne (stream : Stream) (all : List Event) (first : Int32) (index : Nat)
    (event : Event) : (insertOne stream all first index event : Action σ _).Forthright raises := by
  refine (forthright_ask _).bind fun typeIds => (forthright_one typeIds).bind fun typeId => ?_
  refine (forthright_inRange _).bind fun revision => forthright_attempt_bind (fun e => ?_) ?_
  · exact ⟨insertError stream all e, rfl, fun signal => DbError.insertError_of_isSignal signal _ _⟩
  · intro rows
    refine (forthright_check fun cause same signal => ?_).bind fun row => forthright_pure _
    cases rows with
    | nil =>
        cases same
        cases signal
    | cons row rows => cases same

theorem forthright_insertFrom (stream : Stream) (all : List Event) (first : Int32)
    (events : List Event) :
    ∀ index, (insertFrom stream all first index events : Action σ _).Forthright raises := by
  induction events with
  | nil => exact fun _ => forthright_pure []
  | cons event rest ih =>
      intro index
      refine (forthright_insertOne stream all first index event).bind fun inserted => ?_
      exact (ih (index + 1)).bind fun others => forthright_pure _

/-- An append speaks of a conflict of its own only where the transform or a middleware does. -/
theorem forthright_append (chain : MiddlewareChain) (transform : EventTransform) (batch : Batch) :
    (batch.append chain transform : Action σ _).Forthright (chain.Raises transform) := by
  refine (forthright_check fun cause same signal => ?_).bind fun _ =>
    (forthright_ask _).bind fun _ => (forthright_ask _).bind fun revisions => ?_
  · unfold checkStream at same
    split at same
    · cases same
      cases signal
    · split at same
      · cases same
        cases signal
      · cases same
  refine (forthright_check fun cause same signal => ?_).bind fun _ => ?_
  · unfold ExpectedRevision.validate at same
    split at same
    · cases same
    · cases same
      cases signal
  refine (forthright_check fun cause refused _ => ?_).bind fun events => ?_
  · exact MiddlewareChain.raises_of_prepare refused
  refine (forthright_inRange _).bind fun first => ?_
  refine (forthright_insertFrom _ _ _ _ _).bind fun inserted =>
    forthright_check fun cause refused _ => ?_
  exact MiddlewareChain.raises_of_deserializeAll refused transform

theorem forthright_appendAll (chain : MiddlewareChain) (transform : EventTransform)
    (batches : List Batch) :
    (appendAll chain transform batches : Action σ _).Forthright (chain.Raises transform) :=
  forthright_mapM (forthright_append chain transform) batches

end Batch

theorem Event.forthright_delete (limit : Int64) (force : Bool) (event : Event) :
    (event.delete limit force : Action σ _).Forthright raises := by
  unfold Event.delete
  split
  · refine forthright_abort fun e same signal => ?_
    cases same
    cases signal
  · refine (forthright_ask _).bind fun rows => ?_
    cases rows with
    | nil => exact forthright_pure false
    | cons row rows =>
        refine (forthright_ask _).bind fun counts => (forthright_one counts).bind fun count => ?_
        refine (forthright_check fun cause same signal => ?_).bind fun _ => ?_
        · unfold Event.checkRenumbering at same
          split at same
          · cases same
            cases signal
          · cases same
        · exact (forthright_ask _).bind fun _ => (forthright_ask _).bind fun _ =>
            forthright_pure true

theorem Stream.forthright_delete (stream : Stream) :
    (stream.delete : Action σ _).Forthright raises := by
  unfold Stream.delete
  split
  · exact (forthright_ask _).bind fun count => forthright_pure _
  · refine forthright_abort fun e same signal => ?_
    cases same
    cases signal

namespace Catalog

theorem forthright_freeName (tries : Nat) :
    ∀ name, (freeName tries name : Action σ _).Forthright raises := by
  induction tries with
  | zero =>
      refine fun _ => forthright_abort fun e same => ?_
      cases same
  | succ tries ih =>
      intro name
      refine (forthright_ask _).bind fun rows => (forthright_one rows).bind fun taken => ?_
      cases taken with
      | false => exact forthright_pure name
      | true => exact ih _

theorem forthright_create (config : CatalogConfig) (parent : String) (key : PartitionKey) :
    (create config parent key : Action σ _).Forthright raises := by
  have stops (name : String) (e : DbError) : ∃ cause,
      (fail (creationError name e) : Action σ Partition) = abort (.error cause) ∧
        (e.isSignal = true → cause = e.toJournalError) :=
    ⟨_, rfl, fun signal => DbError.creationError_of_isSignal signal name⟩
  refine (forthright_freeName _ _).bind fun name =>
    forthright_attempt_bind (stops name) fun _ => ?_
  refine forthright_attempt_bind (stops name) fun rows => ?_
  refine forthright_check fun cause same signal => ?_
  cases rows with
  | nil =>
      cases same
      cases signal
  | cons row rows => cases same

theorem forthright_findOrCreate (config : CatalogConfig) (parent : String) (key : PartitionKey) :
    (findOrCreate config parent key : Action σ _).Forthright raises := by
  refine ((forthright_ask _).bind fun rows => forthright_pure _).bind fun found => ?_
  cases found with
  | some partition => exact forthright_pure partition
  | none => exact forthright_create config parent key

/-- Another writer's partition is a race, but only if a statement says so. -/
theorem forthright_ensurePath (raises : JournalError → Prop) (config : CatalogConfig)
    (key : LeafKey) :
    (ensurePath config key : Action σ _).Forthright raises :=
  (forthright_findOrCreate config _ _).bind fun _ =>
    (forthright_findOrCreate config _ _).bind fun _ => forthright_findOrCreate config _ _

end Catalog

end EventJournal

import Mathlib.Data.List.Induction
import Mathlib.Logic.Function.Basic
import EventJournal.Proofs.Ends

/-!
# Clients that take turns

Any number of clients run programs against one database. At each turn one of them has its
next statement answered, or has to wait; which client it is, no one decides. A `Crowd` is
what every client has left to do, with the database.

What a client knows follows from what it has been told alone. A `Protocol` puts it into
phases: it says which statements are allowed in a phase, and in which phase an answer
leaves the client. That a program obeys the protocol, whatever it is answered
(`Program.Obeys`), is a fact about this one program; it is proved with the rules of
`Action.Ends`, over a database that answers anything (`Protocol.database`).

## Main results

* `Action.obeys_of_ends` — from the end of an action, whatever it is answered, to every
  statement on the way.
* `Crowd.run_invariant` — what each turn keeps holds after all of them, with a phase for
  each client from which its program obeys the protocol.
-/

namespace EventJournal

/-- A database that clients share. A statement of a client is answered, or has to wait. -/
structure SharedDatabase (δ : Type) where
  answer : (client : Nat) → (s : Statement) → δ → Option (Except DbError s.Answer) × δ

/-- What the clients have left to do, and the database. -/
structure Crowd (α δ : Type) where
  program : Nat → Program α
  database : δ

namespace Crowd

variable {α δ : Type}

/-- The turn of a client. A client that is done lets it pass. -/
def step (db : SharedDatabase δ) (x : Crowd α δ) (client : Nat) : Crowd α δ :=
  match x.program client with
  | .done _ => x
  | .send s next =>
      match db.answer client s x.database with
      | (none, d) => { x with database := d }
      | (some answer, d) => ⟨Function.update x.program client (next answer), d⟩

/-- One turn after the other. -/
def run (db : SharedDatabase δ) (x : Crowd α δ) (turns : List Nat) : Crowd α δ :=
  turns.foldl (step db) x

/-- What a client has ended with. -/
def result? (x : Crowd α δ) (client : Nat) : Option α :=
  match x.program client with
  | .done value => some value
  | .send _ _ => none

/-- At its next turn, the client is given the answer to a statement. -/
def Hears (db : SharedDatabase δ) (x : Crowd α δ) (client : Nat) (s : Statement)
    (answer : Except DbError s.Answer) : Prop :=
  (∃ next, x.program client = .send s next) ∧ (db.answer client s x.database).1 = some answer

theorem run_append (db : SharedDatabase δ) (x : Crowd α δ) (turns later : List Nat) :
    x.run db (turns ++ later) = (x.run db turns).run db later :=
  List.foldl_append

theorem run_concat (db : SharedDatabase δ) (x : Crowd α δ) (turns : List Nat) (client : Nat) :
    x.run db (turns ++ [client]) = (x.run db turns).step db client :=
  run_append db x turns [client]

/-- A turn that is answered leaves the database as the statement does. -/
theorem Hears.database_step {db : SharedDatabase δ} {x : Crowd α δ} {client : Nat} {s : Statement}
    {answer : Except DbError s.Answer} (h : x.Hears db client s answer) :
    (x.step db client).database = (db.answer client s x.database).2 := by
  obtain ⟨⟨next, sends⟩, told⟩ := h
  unfold step
  rw [sends]
  dsimp only
  split <;> rename_i answered <;> rw [answered]

/-- What every statement keeps, all turns keep. -/
theorem run_keeps {db : SharedDatabase δ} {I : δ → Prop}
    (keeps : ∀ client s d, I d → I (db.answer client s d).2) (turns : List Nat) :
    ∀ x : Crowd α δ, I x.database → I (x.run db turns).database := by
  induction turns with
  | nil => exact fun _ h => h
  | cons client rest ih =>
      intro x h
      refine ih _ ?_
      unfold step
      split
      · exact h
      · rename_i s next _
        have kept := keeps client s x.database h
        split <;> rename_i answered <;> rw [answered] at kept <;> exact kept

end Crowd

/-! ## Protocols -/

/-- What a client may send in each phase, and the phase after an answer. -/
structure Protocol (φ : Type) where
  allows : φ → Statement → Prop := fun _ _ => True
  next : φ → (s : Statement) → Except DbError s.Answer → φ

/-- From a phase, the program sends only what is allowed, whatever it is answered, and its
value fits the phase it ends in. -/
def Program.Obeys {φ α : Type} (P : Protocol φ) (fits : φ → α → Prop) : φ → Program α → Prop
  | phase, .done value => fits phase value
  | phase, .send s next =>
      P.allows phase s ∧ ∀ answer, (next answer).Obeys P fits (P.next phase s answer)

theorem Program.Obeys.bind {φ α β : Type} {P : Protocol φ} {fits : φ → α → Prop}
    {fits' : φ → β → Prop} {f : α → Program β} {program : Program α} :
    ∀ {phase}, program.Obeys P fits phase →
      (∀ phase value, fits phase value → (f value).Obeys P fits' phase) →
      (program.bind f).Obeys P fits' phase := by
  induction program with
  | done value => exact fun h rest => rest _ value h
  | send s next ih => exact fun h rest => ⟨h.1, fun answer => ih answer (h.2 answer) rest⟩

namespace Protocol

variable {φ σ α β : Type}

/-- Every statement by its number has an answer. -/
abbrev Oracle : Type := Nat → (s : Statement) → Except DbError s.Answer

/-- A client as it is watched: its phase, the answers it has yet to hear, and whether all it
has sent was allowed. -/
structure Watch (φ : Type) where
  phase : φ
  oracle : Oracle
  lawful : Prop := True

/-- A database that answers what an oracle says. -/
def database (P : Protocol φ) : Database (Watch φ) where
  answer s w := (w.oracle 0 s, {
    phase := P.next w.phase s (w.oracle 0 s)
    oracle := fun number => w.oracle (number + 1)
    lawful := w.lawful ∧ P.allows w.phase s })

/-- What was not allowed is not forgotten. -/
theorem lawful_of_run {P : Protocol φ} (program : Program α) :
    ∀ {w}, (program.run P.database w).2.lawful → w.lawful := by
  induction program with
  | done value => exact fun h => h
  | send s next ih => exact fun h => (ih _ h).1

open scoped Classical in
/-- The oracle that gives one answer before all others. -/
noncomputable def first (s : Statement) (answer : Except DbError s.Answer) (oracle : Oracle) :
    Oracle
  | 0, other => if same : s = other then same ▸ answer else .error .workerCrashed
  | number + 1, other => oracle number other

theorem first_zero (s : Statement) (answer : Except DbError s.Answer) (oracle : Oracle) :
    first s answer oracle 0 s = answer :=
  dif_pos rfl

/-- A program that ends well under every oracle obeys the protocol on the way. -/
theorem obeys_of_run {P : Protocol φ} {fits : φ → α → Prop} {program : Program α} :
    ∀ {phase},
      (∀ oracle, (program.run P.database ⟨phase, oracle, True⟩).2.lawful ∧
        fits (program.run P.database ⟨phase, oracle, True⟩).2.phase
          (program.run P.database ⟨phase, oracle, True⟩).1) →
      program.Obeys P fits phase := by
  -- an oracle for each answer: the program goes the way of that answer and then any way
  induction program with
  | done value => exact fun h => (h fun _ _ => .error .workerCrashed).2
  | send s next ih =>
      intro phase h
      have allowed : P.allows phase s :=
        (lawful_of_run (next _) (h fun _ _ => .error .workerCrashed).1).2
      refine ⟨allowed, fun answer => ih answer fun oracle => ?_⟩
      have run : (Program.send s next).run P.database ⟨phase, first s answer oracle, True⟩ =
          (next answer).run P.database ⟨P.next phase s answer, oracle, True⟩ := by
        show (next (first s answer oracle 0 s)).run P.database
          ⟨P.next phase s (first s answer oracle 0 s), oracle, True ∧ P.allows phase s⟩ = _
        rw [first_zero, eq_true allowed, true_and]
      have ends := h (first s answer oracle)
      rw [run] at ends
      exact ends

/-- The watched client has done nothing wrong and is in a phase. -/
def Watch.IsIn (w : Watch φ) (phase : φ) : Prop := w.lawful ∧ w.phase = phase

end Protocol

namespace Action

open Protocol

variable {φ σ α : Type} {P : Protocol φ} {phase : φ} {s : σ} {w : Watch φ}

/-- An action that ends well under every oracle obeys the protocol on the way. -/
theorem obeys_of_ends {action : Action σ α} (ok : α → φ → Prop) (bad : Abort → φ → Prop)
    (h : ∀ oracle, Ends P.database action s ⟨phase, oracle, True⟩
      (fun value _ w => w.lawful ∧ ok value w.phase)
      (fun cause _ w => w.lawful ∧ bad cause w.phase)) :
    (action.start s).Obeys P
      (fun phase ended => match ended.1 with
        | .ok value => ok value phase
        | .error cause => bad cause phase) phase := by
  refine obeys_of_run fun oracle => ?_
  have ends := h oracle
  rcases run : action.runOn P.database s ⟨phase, oracle, True⟩ with ⟨⟨result, s'⟩, w⟩
  have same : (action.start s).run P.database ⟨phase, oracle, True⟩ = ((result, s'), w) := run
  rw [same]
  cases result with
  | ok value => exact (ends_of_runOn_ok run).1 ends
  | error cause => exact (ends_of_runOn_error run).1 ends

/-- A statement that is allowed, by the phases after its answers. -/
theorem ends_attempt_of_allows {statement : Statement}
    {ok : Except DbError statement.Answer → σ → Watch φ → Prop} {bad : Abort → σ → Watch φ → Prop}
    (isIn : w.IsIn phase) (allows : P.allows phase statement)
    (answered : ∀ answer w', w'.IsIn (P.next phase statement answer) → ok answer s w') :
    Ends P.database (attempt statement) s w ok bad := by
  obtain ⟨lawful, rfl⟩ := isIn
  refine (ends_of_runOn_ok (runOn_attempt P.database s w statement)).2 ?_
  exact answered _ _ ⟨⟨lawful, allows⟩, rfl⟩

/-- A statement that is allowed, by the two kinds of answers. -/
theorem ends_ask_of_allows {statement : Statement} {ok : statement.Answer → σ → Watch φ → Prop}
    {bad : Abort → σ → Watch φ → Prop} (isIn : w.IsIn phase) (allows : P.allows phase statement)
    (answered : ∀ answer w', w'.IsIn (P.next phase statement (.ok answer)) → ok answer s w')
    (failed : ∀ e w', w'.IsIn (P.next phase statement (.error e)) →
      bad (.error e.toJournalError) s w') :
    Ends P.database (ask statement) s w ok bad := by
  unfold ask
  rw [ends_bind]
  refine ends_attempt_of_allows isIn allows fun answer w' isIn => ?_
  cases answer with
  | ok value => exact (ends_check_ok value).2 (answered value w' isIn)
  | error e => exact (ends_check_error _).2 (failed e w' isIn)

end Action

/-! ## Runs -/

namespace Crowd

variable {α δ φ : Type} {db : SharedDatabase δ} {P : Protocol φ} {fits : Nat → φ → α → Prop}

/-- Each client obeys the protocol from its phase on. -/
def Obeys (P : Protocol φ) (fits : Nat → φ → α → Prop) (phases : Nat → φ) (x : Crowd α δ) : Prop :=
  ∀ client, (x.program client).Obeys P (fits client) (phases client)

/-- What a client has ended with fits its phase. -/
theorem Obeys.result_fits {x : Crowd α δ} {phases : Nat → φ} (h : x.Obeys P fits phases)
    {client : Nat} {value : α} (ended : x.result? client = some value) :
    fits client (phases client) value := by
  have obeys := h client
  unfold result? at ended
  split at ended
  · rename_i done
    cases ended
    rw [done] at obeys
    exact obeys
  · cases ended

/-- After any turns there is a phase for each client from which it obeys the protocol, and
what every turn keeps holds of the turns taken, the phases and the database. The turn of a
client that is done changes nothing, a client that waits keeps its phase, and an answer
moves it on as the protocol says. -/
theorem run_invariant {I : List Nat → (Nat → φ) → δ → Prop} {x : Crowd α δ} {start : Nat → φ}
    (obeys : x.Obeys P fits start) (begins : I [] start x.database)
    (passes : ∀ turns client phases d, I turns phases d → I (turns ++ [client]) phases d)
    (waits : ∀ turns client s phases d, I turns phases d → P.allows (phases client) s →
      (db.answer client s d).1 = none → I (turns ++ [client]) phases (db.answer client s d).2)
    (answers : ∀ turns client s answer phases, I turns phases (x.run db turns).database →
      (x.run db turns).Hears db client s answer → P.allows (phases client) s →
      I (turns ++ [client]) (Function.update phases client (P.next (phases client) s answer))
        (db.answer client s (x.run db turns).database).2) :
    ∀ turns, ∃ phases, I turns phases (x.run db turns).database ∧
      (x.run db turns).Obeys P fits phases := by
  intro turns
  -- the last turn is taken off, so that `I` may speak of all the turns before it
  induction turns using List.reverseRecOn with
  | nil => exact ⟨start, begins, obeys⟩
  | append_singleton turns client ih =>
      obtain ⟨phases, holds, obeys⟩ := ih
      rw [run_concat]
      have mine := obeys client
      unfold step
      split
      · exact ⟨phases, passes turns client phases _ holds, obeys⟩
      · rename_i s next sends
        rw [sends] at mine
        split
        · rename_i d waiting
          have kept := waits turns client s phases _ holds mine.1 (congrArg Prod.fst waiting)
          rw [waiting] at kept
          exact ⟨phases, kept, obeys⟩
        · rename_i answer d told
          have hears : (x.run db turns).Hears db client s answer :=
            ⟨⟨next, sends⟩, congrArg Prod.fst told⟩
          have kept := answers turns client s answer phases holds hears mine.1
          rw [told] at kept
          refine ⟨_, kept, ?_⟩
          intro other
          by_cases same : other = client
          · subst same
            simp only [Function.update_self]
            exact mine.2 answer
          · simp only [Function.update_of_ne same]
            exact obeys other

end Crowd

end EventJournal

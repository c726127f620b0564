import EventJournal.Proofs.Interleaving
import EventJournal.Proofs.Sends

/-!
# What clients and a database have said to each other

Of a database that clients share, a `Record` keeps every exchange, by the transactions in
which they took place: those that are open, and those that have ended, in the order in which
they have. It is kept beside the database, and no client can tell.

What a client has said and been told is its `Transcript`. As the phase of a protocol, it
turns a fact about a program by itself, over a database that answers anything, into one about
the program among others.

## Main results

* `Crowd.run_withRecord` — a record makes no difference to the clients.
* `Crowd.run_recorded` — each client has been told what its transcript says.
-/

namespace EventJournal

/-- A statement with the answer to it. -/
structure Exchange where
  statement : Statement
  answer : Except DbError statement.Answer

/-- The exchange failed, and the client was concerned: how a rollback is answered makes no
difference. -/
def Exchange.failed (e : Exchange) : Bool :=
  match e.statement, e.answer with
  | .rollback, _ => false
  | _, .ok _ => false
  | _, .error _ => true

/-- The statement begins or ends a transaction. -/
def Statement.isBoundary : Statement → Bool
  | .begin | .commit | .rollback => true
  | _ => false

theorem Statement.not_isBoundary_of_not_isFrame {s : Statement} (h : s.isFrame = false) :
    s.isBoundary = false := by
  cases s <;> first | rfl | cases h

/-- A transaction that has ended. -/
structure Transaction where
  client : Nat
  exchanges : List Exchange
  committed : Bool

namespace Transaction

/-- A statement of the transaction has failed. -/
def failed (tx : Transaction) : Bool := tx.exchanges.any (·.failed)

/-- What an exchange of a client makes of its open transaction, and the transaction it ends.
A statement outside of a transaction is one by itself. -/
def extend (client : Nat) (current : Option (List Exchange)) :
    Exchange → Option (List Exchange) × List Transaction
  | ⟨.begin, .ok _⟩ => (some [], [])
  | ⟨.begin, .error _⟩ => (current, [])
  | ⟨.commit, answer⟩ =>
      (none, [⟨client, current.getD [] ++ [⟨.commit, answer⟩], answer.isOk⟩])
  | ⟨.rollback, answer⟩ => (none, [⟨client, current.getD [] ++ [⟨.rollback, answer⟩], false⟩])
  | e =>
      match current with
      | some exchanges => (some (exchanges ++ [e]), [])
      | none => (none, [⟨client, [e], !e.failed⟩])

variable {client : Nat} {current : Option (List Exchange)} {e : Exchange}

/-- A transaction that ends is one of its client. -/
theorem client_of_extend : ∀ tx ∈ (extend client current e).2, tx.client = client := by
  intro tx there
  unfold extend at there
  split at there
  · cases there
  · cases there
  · rw [List.mem_singleton.1 there]
  · rw [List.mem_singleton.1 there]
  · split at there
    · cases there
    · rw [List.mem_singleton.1 there]

/-- Beside begin, commit and rollback, an exchange belongs to the open transaction. -/
theorem extend_some {exchanges : List Exchange} (h : e.statement.isBoundary = false) :
    extend client (some exchanges) e = (some (exchanges ++ [e]), []) := by
  obtain ⟨statement, answer⟩ := e
  cases statement <;> first | rfl | cases h

/-- Outside of a transaction, it is one by itself. -/
theorem extend_none (h : e.statement.isBoundary = false) :
    extend client none e = (none, [⟨client, [e], !e.failed⟩]) := by
  obtain ⟨statement, answer⟩ := e
  cases statement <;> first | rfl | cases h

/-- What has been said was said in the open transaction before, or it is the exchange. -/
theorem mem_current_of_extend {exchanges : List Exchange} {old : Exchange}
    (same : (extend client current e).1 = some exchanges) (there : old ∈ exchanges) :
    (∃ before, current = some before ∧ old ∈ before) ∨ old = e := by
  unfold extend at same
  split at same
  · cases same
    cases there
  · exact .inl ⟨exchanges, same, there⟩
  · cases same
  · cases same
  · split at same
    · cases same
      rcases List.mem_append.1 there with before | new
      · exact .inl ⟨_, rfl, before⟩
      · exact .inr (List.mem_singleton.1 new)
    · cases same

theorem mem_ended_of_extend {tx : Transaction} {old : Exchange}
    (ended : tx ∈ (extend client current e).2) (there : old ∈ tx.exchanges) :
    (∃ before, current = some before ∧ old ∈ before) ∨ old = e := by
  have closed : ∀ last : Exchange, old ∈ current.getD [] ++ [last] → last = e →
      (∃ before, current = some before ∧ old ∈ before) ∨ old = e := by
    intro last there same
    rcases List.mem_append.1 there with before | new
    · cases current with
      | none => cases before
      | some exchanges => exact .inl ⟨exchanges, rfl, before⟩
    · exact .inr ((List.mem_singleton.1 new).trans same)
  unfold extend at ended
  split at ended
  · cases ended
  · cases ended
  · rw [List.mem_singleton.1 ended] at there
    exact closed _ there rfl
  · rw [List.mem_singleton.1 ended] at there
    exact closed _ there rfl
  · split at ended
    · cases ended
    · rw [List.mem_singleton.1 ended] at there
      exact .inr (List.mem_singleton.1 there)

end Transaction

/-- What a client has said and been told. -/
structure Transcript where
  client : Nat
  current : Option (List Exchange) := none
  ended : List Transaction := []

/-- The transcript after an exchange. -/
def Transcript.add (t : Transcript) (e : Exchange) : Transcript :=
  { t with
    current := (Transaction.extend t.client t.current e).1
    ended := t.ended ++ (Transaction.extend t.client t.current e).2 }

/-- What all clients have said and been told. -/
structure Record where
  current : Nat → Option (List Exchange) := fun _ => none
  ended : List Transaction := []

namespace Record

variable (r : Record) (client : Nat) (e : Exchange)

/-- The record after an exchange of a client. -/
def add : Record where
  current := Function.update r.current client (Transaction.extend client (r.current client) e).1
  ended := r.ended ++ (Transaction.extend client (r.current client) e).2

/-- The part of one client. -/
def transcript : Transcript where
  client := client
  current := r.current client
  ended := r.ended.filter (·.client = client)

theorem transcript_add_self : (r.add client e).transcript client = (r.transcript client).add e := by
  have mine : (Transaction.extend client (r.current client) e).2.filter (·.client = client) =
      (Transaction.extend client (r.current client) e).2 :=
    List.filter_eq_self.2 fun tx there => decide_eq_true (Transaction.client_of_extend tx there)
  unfold transcript add Transcript.add
  simp only [Function.update_self, List.filter_append, mine]

theorem transcript_add_of_ne {other : Nat} (h : other ≠ client) :
    (r.add client e).transcript other = r.transcript other := by
  have foreign : (Transaction.extend client (r.current client) e).2.filter (·.client = other) =
      [] := by
    refine List.filter_eq_nil_iff.2 fun tx there => ?_
    rw [Transaction.client_of_extend tx there]
    simpa using Ne.symm h
  unfold transcript add
  simp only [Function.update_of_ne h, List.filter_append, foreign, List.append_nil]

/-- All statements of the record are allowed. -/
structure All (allowed : Statement → Prop) (r : Record) : Prop where
  current : ∀ client exchanges, r.current client = some exchanges →
    ∀ e ∈ exchanges, allowed e.statement
  ended : ∀ tx ∈ r.ended, ∀ e ∈ tx.exchanges, allowed e.statement

variable {r client e}

theorem All.add {allowed : Statement → Prop} (h : r.All allowed) (new : allowed e.statement) :
    (r.add client e).All allowed where
  current other exchanges same old there := by
    change Function.update r.current client _ other = some exchanges at same
    by_cases mine : other = client
    · subst mine
      rw [Function.update_self] at same
      rcases Transaction.mem_current_of_extend same there with ⟨before, was, member⟩ | rfl
      · exact h.current other before was old member
      · exact new
    · rw [Function.update_of_ne mine] at same
      exact h.current other exchanges same old there
  ended tx there old member := by
    rcases List.mem_append.1 there with before | closed
    · exact h.ended tx before old member
    · rcases Transaction.mem_ended_of_extend closed member with ⟨before, was, member⟩ | rfl
      · exact h.current client before was old member
      · exact new

end Record

/-- A database with a record of all that is said. -/
def SharedDatabase.recorded {δ : Type} (db : SharedDatabase δ) : SharedDatabase (δ × Record) where
  answer client s d :=
    match db.answer client s d.1 with
    | (none, after) => (none, (after, d.2))
    | (some answer, after) => (some answer, (after, d.2.add client ⟨s, answer⟩))

/-- A client that sends statements of some kinds only, with its transcript. -/
def Transcript.protocol (allowed : Statement → Prop) : Protocol Transcript where
  allows _ := allowed
  next t s answer := t.add ⟨s, answer⟩

variable {α δ : Type} {allowed : Statement → Prop} {db : SharedDatabase δ} {client : Nat}
  {s : Statement}

theorem Transcript.obeys_of_sends {program : Program α} (sends : program.Sends allowed) :
    ∀ t, program.Obeys (Transcript.protocol allowed) (fun _ _ => True) t := by
  induction program with
  | done value => exact fun _ => trivial
  | send s next ih => exact fun t => ⟨sends.1, fun answer => ih answer (sends.2 answer) _⟩

/-- The phases of the clients are their transcripts. -/
structure Record.Tells (allowed : Statement → Prop) (phases : Nat → Transcript) (r : Record) :
    Prop where
  all : r.All allowed
  told : ∀ client, phases client = r.transcript client

theorem Record.Tells.start (allowed : Statement → Prop) :
    Record.Tells allowed (fun client => { client }) {} where
  all := ⟨fun _ _ absent => (nomatch absent), fun _ there => (nomatch there)⟩
  told _ := rfl

theorem Record.Tells.add {phases : Nat → Transcript} {r : Record}
    {answer : Except DbError s.Answer} (h : Record.Tells allowed phases r) (new : allowed s) :
    Record.Tells allowed
      (Function.update phases client ((Transcript.protocol allowed).next (phases client) s answer))
      (r.add client ⟨s, answer⟩) where
  all := h.all.add new
  told other := by
    by_cases mine : other = client
    · subst mine
      rw [Function.update_self, h.told, Record.transcript_add_self]
      rfl
    · rw [Function.update_of_ne mine, h.told, Record.transcript_add_of_ne _ _ _ mine]

theorem SharedDatabase.recorded_of_none {d : δ × Record}
    (h : (db.recorded.answer client s d).1 = none) : (db.recorded.answer client s d).2.2 = d.2 := by
  unfold recorded at h ⊢
  dsimp only at h ⊢
  split at h
  · rfl
  · cases h

theorem SharedDatabase.recorded_of_some {d : δ × Record} {answer : Except DbError s.Answer}
    (h : (db.recorded.answer client s d).1 = some answer) :
    (db.recorded.answer client s d).2.2 = d.2.add client ⟨s, answer⟩ := by
  unfold recorded at h ⊢
  dsimp only at h ⊢
  split at h
  · cases h
  · cases h
    rfl

namespace Crowd

/-- The clients with a record of what they have said before. -/
def withRecord (x : Crowd α δ) (r : Record) : Crowd α (δ × Record) where
  program := x.program
  database := (x.database, r)

theorem step_withRecord (db : SharedDatabase δ) (x : Crowd α δ) (r : Record) (client : Nat) :
    ∃ r', (x.withRecord r).step db.recorded client = (x.step db client).withRecord r' := by
  unfold step withRecord SharedDatabase.recorded
  dsimp only
  cases x.program client with
  | done _ => exact ⟨r, rfl⟩
  | send s next =>
      dsimp only
      rcases db.answer client s x.database with ⟨_ | answer, d⟩
      · exact ⟨r, rfl⟩
      · exact ⟨r.add client ⟨s, answer⟩, rfl⟩

/-- A record makes no difference to the clients and the database. -/
theorem run_withRecord (db : SharedDatabase δ) (turns : List Nat) :
    ∀ (x : Crowd α δ) (r : Record),
      ∃ r', (x.withRecord r).run db.recorded turns = (x.run db turns).withRecord r' := by
  induction turns with
  | nil => exact fun x r => ⟨r, rfl⟩
  | cons client rest ih =>
      intro x r
      obtain ⟨r', stepped⟩ := step_withRecord db x r client
      show ∃ r', ((x.withRecord r).step db.recorded client).run db.recorded rest = _
      rw [stepped]
      exact ih (x.step db client) r'

/-- What is said in some turns. -/
def record (db : SharedDatabase δ) (x : Crowd α δ) (turns : List Nat) : Record :=
  ((x.withRecord {}).run db.recorded turns).database.2

/-- The clients after some turns, with what they have said in them. -/
theorem run_withRecord_eq (db : SharedDatabase δ) (x : Crowd α δ) (turns : List Nat) :
    (x.withRecord {}).run db.recorded turns = (x.run db turns).withRecord (x.record db turns) := by
  obtain ⟨r, same⟩ := run_withRecord db turns x {}
  rw [record, same]
  rfl

/-- Clients that send allowed statements only have been told what their transcripts say. -/
theorem run_recorded {fits : Nat → Transcript → α → Prop} {x : Crowd α δ}
    (obeys : ∀ client, (x.program client).Obeys (Transcript.protocol allowed) (fits client)
      { client }) (db : SharedDatabase δ) (turns : List Nat) :
    (x.record db turns).All allowed ∧
      ∀ client value, (x.run db turns).result? client = some value →
        fits client ((x.record db turns).transcript client) value := by
  let I : List Nat → (Nat → Transcript) → δ × Record → Prop :=
    fun _ phases d => Record.Tells allowed phases d.2
  have begins : (x.withRecord {}).Obeys (Transcript.protocol allowed) fits
      fun client => { client } := obeys
  have waits : ∀ (turns : List Nat) client s phases d, I turns phases d →
      (Transcript.protocol allowed).allows (phases client) s →
      (db.recorded.answer client s d).1 = none →
        I (turns ++ [client]) phases (db.recorded.answer client s d).2 := by
    intro turns client s phases d tells _ none
    show Record.Tells allowed phases _
    rw [SharedDatabase.recorded_of_none none]
    exact tells
  obtain ⟨phases, tells, ended⟩ := Crowd.run_invariant (I := I) begins (.start allowed)
    (fun _ _ _ _ h => h) waits (fun turns client s answer phases tells hears new => by
      show Record.Tells allowed _ _
      rw [SharedDatabase.recorded_of_some hears.2]
      exact tells.add new) turns
  -- what holds of the clients with a record holds of them without
  have same := run_withRecord_eq db x turns
  have tells : Record.Tells allowed phases (x.record db turns) := by
    have tells : Record.Tells allowed phases ((x.withRecord {}).run db.recorded turns).database.2 :=
      tells
    rw [same] at tells
    exact tells
  rw [same] at ended
  refine ⟨tells.all, fun client value result => ?_⟩
  rw [← tells.told client]
  exact ended.result_fits result

end Crowd

end EventJournal

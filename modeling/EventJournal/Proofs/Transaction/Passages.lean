import EventJournal.Proofs.Transaction.Units

/-!
# What calls say to a database

The trace of a program is every statement it sends, with the answer. Cut where transactions
begin and end, the trace of any calls falls into `Passage`s: queries by themselves, begins
that were refused, and whole transactions, in each of which every statement was allowed by
what had been said before.

## Main results

* `Program.cut_exchanges` — the trace of a program that obeys the protocol.
* `Call.performAll_disciplined` — the trace of any calls over any database.
-/

namespace EventJournal

open Transaction

/-- What a program says to a database and is told. -/
def Program.exchanges {α δ : Type} (db : Database δ) : Program α → δ → List Exchange
  | .done _, _ => []
  | .send s next, d =>
      ⟨s, (db.answer s d).1⟩ :: (next (db.answer s d).1).exchanges db (db.answer s d).2

/-- A passage of a trace. -/
inductive Passage where
  /-- A statement outside of any transaction. -/
  | alone (e : Exchange)
  /-- A transaction, after its begin, and the exchange that ends it. -/
  | transaction (inside : List Exchange) (closing : Exchange)

namespace Passage

def exchanges : Passage → List Exchange
  | .alone e => [e]
  | .transaction inside closing => ⟨.begin, .ok ()⟩ :: (inside ++ [closing])

/-- Every exchange was allowed after those before it. -/
def InOrder (said exchanges : List Exchange) : Prop :=
  ∀ before e after, exchanges = before ++ e :: after → Allowed (said ++ before) e.statement

theorem InOrder.cons {said rest : List Exchange} {e : Exchange} (first : Allowed said e.statement)
    (h : InOrder (said ++ [e]) rest) : InOrder said (e :: rest) := by
  intro before later after same
  cases before with
  | nil =>
      obtain ⟨rfl, rfl⟩ := List.cons.inj same
      rwa [List.append_nil]
  | cons other before =>
      obtain ⟨rfl, tail⟩ := List.cons.inj same
      rw [List.append_cons]
      exact h before later after tail

/-- A passage in order: a query, a begin that was refused, or a transaction that was ended. -/
def Orderly : Passage → Prop
  | .alone e => e.statement.isQuery = true ∨ e.statement = .begin ∧ e.broken = true
  | .transaction inside closing =>
      (∀ e ∈ inside, e.statement.isBoundary = false) ∧
        (closing.statement = .commit ∨ closing.statement = .rollback) ∧
        InOrder [] (inside ++ [closing])

/-- The trace of a client without a transaction falls into passages; that of a client within
one goes on to its end first. -/
def Cut : Option (List Exchange) → List Exchange → Prop
  | none, trace => ∃ passages : List Passage,
      trace = passages.flatMap exchanges ∧ ∀ p ∈ passages, p.Orderly
  | some said, trace => ∃ inside closing, ∃ passages : List Passage,
      trace = inside ++ closing :: passages.flatMap exchanges ∧
        (∀ e ∈ inside, e.statement.isBoundary = false) ∧
        (closing.statement = .commit ∨ closing.statement = .rollback) ∧
        InOrder said (inside ++ [closing]) ∧ ∀ p ∈ passages, p.Orderly

variable {e : Exchange} {said rest : List Exchange}

theorem Cut.alone (orderly : Orderly (.alone e)) (h : Cut none rest) : Cut none (e :: rest) := by
  obtain ⟨passages, rfl, all⟩ := h
  exact ⟨.alone e :: passages, rfl, List.forall_mem_cons.2 ⟨orderly, all⟩⟩

theorem Cut.begin (h : Cut (some []) rest) : Cut none (⟨.begin, .ok ()⟩ :: rest) := by
  obtain ⟨inside, closing, passages, rfl, plain, ends, ordered, all⟩ := h
  refine ⟨.transaction inside closing :: passages, ?_, ?_⟩
  · rw [List.flatMap_cons, exchanges, List.cons_append, List.append_assoc]
    rfl
  · exact List.forall_mem_cons.2 ⟨⟨plain, ends, ordered⟩, all⟩

theorem Cut.close (ends : e.statement = .commit ∨ e.statement = .rollback)
    (allowed : Allowed said e.statement) (h : Cut none rest) : Cut (some said) (e :: rest) := by
  obtain ⟨passages, rfl, all⟩ := h
  refine ⟨[], e, passages, rfl, List.forall_mem_nil _, ends, .cons allowed ?_, all⟩
  intro before later after same
  exact absurd same.symm (List.append_ne_nil_of_right_ne_nil _ (List.cons_ne_nil _ _))

theorem Cut.inside (plain : e.statement.isBoundary = false) (allowed : Allowed said e.statement)
    (h : Cut (some (said ++ [e])) rest) : Cut (some said) (e :: rest) := by
  obtain ⟨inside, closing, passages, rfl, others, ends, ordered, all⟩ := h
  exact ⟨e :: inside, closing, passages, rfl, List.forall_mem_cons.2 ⟨plain, others⟩, ends,
    .cons allowed ordered, all⟩

end Passage

namespace Program

variable {α δ : Type} {db : Database δ}

/-- The trace of a program that obeys the protocol to a point where no transaction is open. -/
theorem cut_exchanges {fits : Option (List Exchange) → α → Prop}
    (closed : ∀ phase value, fits phase value → phase = none) {program : Program α} :
    ∀ {phase}, program.Obeys bracket fits phase → ∀ d,
      Passage.Cut phase (program.exchanges db d) := by
  induction program with
  | done value =>
      intro phase fits d
      obtain rfl := closed phase value fits
      exact ⟨[], rfl, List.forall_mem_nil _⟩
  | send s next ih =>
      intro phase obeys d
      have rest := ih (db.answer s d).1 (obeys.2 _) (db.answer s d).2
      have allowed := obeys.1
      unfold exchanges
      revert rest
      generalize (db.answer s d).1 = answer
      intro rest
      cases phase with
      | none =>
          rcases allowed with rfl | query
          · cases answer with
            | error cause => exact .alone (.inr ⟨rfl, rfl⟩) rest
            | ok value => exact .begin rest
          · have stays : bracket.next none s answer = none := by
              cases s <;> first | rfl | cases query
            rw [stays] at rest
            exact .alone (.inl query) rest
      | some said =>
          cases boundary : s.isBoundary with
          | false =>
              have goes : bracket.next (some said) s answer = some (said ++ [⟨s, answer⟩]) :=
                if_neg (ne_true_of_eq_false boundary)
              rw [goes] at rest
              exact .inside boundary allowed rest
          | true =>
              have ends : s = .commit ∨ s = .rollback := by
                cases s with
                | begin => exact absurd rfl allowed.begins
                | commit => exact .inl rfl
                | rollback => exact .inr rfl
                | _ => cases boundary
              rw [show bracket.next (some said) s answer = none from if_pos boundary] at rest
              exact .close ends allowed rest

end Program

/-- The trace falls into passages in order, and its texts tell which statements change
something. -/
structure Disciplined (trace : List Exchange) : Prop where
  passages : ∃ passages : List Passage,
    trace = passages.flatMap Passage.exchanges ∧ ∀ p ∈ passages, p.Orderly
  texts : ∀ e ∈ trace, ∀ k ∈ Statement.changeKeywords,
    e.statement.changeKeyword? = some k ↔ Statement.Opens k e.statement.sql

theorem Passage.Orderly.known {p : Passage} (h : p.Orderly) :
    ∀ e ∈ p.exchanges, ∀ text, e.statement ≠ .schemaStep text := by
  intro e there text same
  cases p with
  | alone e =>
      obtain rfl := List.mem_singleton.1 there
      rcases h with query | ⟨begins, -⟩
      · rw [same] at query
        cases query
      · rw [same] at begins
        cases begins
  | transaction inside closing =>
      rcases List.mem_cons.1 there with rfl | there
      · cases same
      · obtain ⟨before, after, split⟩ := List.append_of_mem there
        exact (h.2.2 before e after split).known text same

theorem Disciplined.of_passages {trace : List Exchange} (h : Passage.Cut none trace) :
    Disciplined trace where
  passages := h
  texts e there k := by
    obtain ⟨passages, rfl, all⟩ := h
    obtain ⟨p, among, there⟩ := List.mem_flatMap.1 there
    exact Statement.changeKeyword?_eq_some_iff ((all p among).known e there)

/-- **The discipline of transactions.** Whatever the configurations of the journals, the calls
and the answers to them, all changes are made in transactions that are serializable from
their first statement on, events are inserted under the position lock once the last revision
of their stream has been read, nothing but the rollback follows a failure, and every
transaction is ended before the next is begun. -/
theorem Call.performAll_disciplined {δ : Type} (db : Database δ) (calls : List (Journal × Call))
    (cache : LeafCache) (d : δ) :
    Disciplined (((performAll calls).start cache).exchanges db d) := by
  have ends : ∀ oracle : Protocol.Oracle,
      Action.Ends bracket.database (performAll calls) cache ⟨none, oracle, True⟩
        (fun _ _ w => w.lawful ∧ w.phase = none) (fun _ _ w => w.lawful ∧ w.phase = none) :=
    fun oracle => closes_performAll calls cache _ ⟨trivial, rfl⟩
  have obeys := Action.obeys_of_ends (fun _ phase => phase = none) (fun _ phase => phase = none)
    ends
  refine .of_passages (Program.cut_exchanges ?_ obeys d)
  rintro phase ⟨_ | _, _⟩ closed <;> exact closed

end EventJournal

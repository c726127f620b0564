import EventJournal.Proofs.Paging
import EventJournal.Proofs.Transaction.Discipline

/-!
# Queries of a database that does not change

While a database does not change, it answers each query in one way. An action that only asks
queries, and neither looks at its state nor changes it, then `Yields` one result, whenever and
from whatever state it is run, and a longer action yields what its parts come to.

## Main results

* `Read.exists_yields_rows`, `Read.exists_yields_fetch` — the rows of a read, and what links
  refer to.
* `Read.resolveLinks_eq` — links are replaced by what is fetched for them.
-/

namespace EventJournal

/-- In each of some states the database answers a query in the same way, and it stays in these
states. -/
def Database.Unchanging {δ : Type} (db : Database δ) (states : δ → Prop) : Prop :=
  ∀ s : Statement, s.isQuery = true →
    ∃ reply, ∀ d, states d → (db.answer s d).1 = reply ∧ states (db.answer s d).2

namespace Action

variable {δ σ α β : Type} {db : Database δ} {states : δ → Prop}

/-- From each of the states, and whatever its own state is, the action ends with the result. -/
def Yields (db : Database δ) (states : δ → Prop) (action : Action σ α) (result : Except Abort α) :
    Prop :=
  ∀ s d, states d → ∃ d', states d' ∧ action.runOn db s d = ((result, s), d')

variable {action : Action σ α} {f : α → Action σ β} {result : Except Abort α}

theorem yields_pure (value : α) : (pure value : Action σ α).Yields db states (.ok value) :=
  fun _ d there => ⟨d, there, rfl⟩

theorem yields_abort (cause : Abort) : (abort cause : Action σ α).Yields db states (.error cause) :=
  fun _ d there => ⟨d, there, rfl⟩

theorem yields_check (result : Except JournalError α) :
    (check result : Action σ α).Yields db states (result.mapError .error) :=
  fun _ d there => ⟨d, there, runOn_check db _ d result⟩

theorem exists_yields_ask (unchanging : db.Unchanging states) (statement : Statement)
    (query : statement.isQuery = true) :
    ∃ result, (ask statement : Action σ _).Yields db states result := by
  obtain ⟨reply, answers⟩ := unchanging statement query
  refine ⟨reply.mapError fun e => .error e.toJournalError, fun s d there => ?_⟩
  obtain ⟨same, stays⟩ := answers d there
  refine ⟨_, stays, ?_⟩
  rw [runOn_ask, same]

/-- An action goes on with the value that it yields. -/
theorem Yields.bind {value : α} {result : Except Abort β}
    (first : action.Yields db states (.ok value)) (rest : (f value).Yields db states result) :
    (action >>= f).Yields db states result := by
  intro s d there
  obtain ⟨d₁, stays, ends⟩ := first s d there
  obtain ⟨d₂, stays', ends'⟩ := rest s d₁ stays
  refine ⟨d₂, stays', ?_⟩
  rw [runOn_bind, ends]
  exact ends'

/-- An action goes no further than its failure. -/
theorem Yields.bind_error {cause : Abort} (first : action.Yields db states (.error cause)) :
    (action >>= f).Yields db states (.error cause) := by
  intro s d there
  obtain ⟨d₁, stays, ends⟩ := first s d there
  refine ⟨d₁, stays, ?_⟩
  rw [runOn_bind, ends]

/-- An action goes on with what is made of a value, or no further than its failure. -/
theorem Yields.map_bind {ι : Type} {found : Except Abort ι} {g : ι → α} {k : ι → Except Abort β}
    (first : action.Yields db states (found.map g))
    (rest : ∀ value, (f (g value)).Yields db states (k value)) :
    (action >>= f).Yields db states (found >>= k) := by
  cases found with
  | ok value => exact first.bind (rest value)
  | error cause => exact first.bind_error

theorem exists_yields_bind (first : ∃ result, action.Yields db states result)
    (rest : ∀ value, ∃ result, (f value).Yields db states result) :
    ∃ result, (action >>= f).Yields db states result := by
  obtain ⟨result, first⟩ := first
  cases result with
  | ok value =>
      obtain ⟨result, rest⟩ := rest value
      exact ⟨result, first.bind rest⟩
  | error cause => exact ⟨_, first.bind_error⟩

theorem Yields.map {g : α → β} (yields : action.Yields db states result) :
    (g <$> action).Yields db states (result.map g) := by
  rw [← bind_pure_comp]
  cases result with
  | ok value => exact yields.bind (yields_pure (g value))
  | error cause => exact yields.bind_error

theorem Yields.outcome (yields : action.Yields db states result) :
    action.outcome.Yields db states (.ok result) := by
  intro s d there
  obtain ⟨d', stays, ends⟩ := yields s d there
  refine ⟨d', stays, ?_⟩
  rw [runOn_outcome, ends]

end Action

namespace Read

open EventJournal.Action

variable {δ σ : Type} {db : Database δ} {states : δ → Prop}

theorem exists_yields_rows (unchanging : db.Unchanging states) (stream : Stream)
    (options : ReadOptions) :
    ∃ result, (rows stream options : Action σ _).Yields db states result := by
  refine exists_yields_bind ⟨_, yields_check _⟩ fun query =>
    exists_yields_bind (exists_yields_ask unchanging (.readEvents query) rfl) fun found => ?_
  split
  · refine exists_yields_bind ?_ fun there => ?_
    · exact exists_yields_bind (exists_yields_ask unchanging (.streamExists stream) rfl)
        fun rows => ⟨_, yields_check _⟩
    · cases there with
      | true => exact ⟨_, yields_pure _⟩
      | false => exact ⟨_, yields_abort _⟩
  · exact ⟨_, yields_pure _⟩

/-- Fetches what targets refer to. -/
def fetch (targets : List LinkTarget) : Action σ (List StoredEvent) := do
  let partitions ← Catalog.findByIds (LinkTarget.partitions targets)
  match branches? targets partitions with
  | none => abort .misfit
  | some [] => pure []
  | some (first :: rest) => ask (.readTargets first rest)

/-- The links of a list are replaced by what is fetched for them. -/
theorem resolveLinks_eq (events : List Event) :
    (resolveLinks events : Action σ _) =
      (fun fetched => events.map (merge fetched)) <$> fetch (LinkTarget.ofEvents events) := by
  unfold resolveLinks fetch
  rw [map_bind]
  refine bind_congr fun partitions => ?_
  rcases branches? (LinkTarget.ofEvents events) partitions with _ | _ | ⟨first, rest⟩
  · rfl
  · rw [map_pure, map_merge_nil]
  · exact bind_pure_comp _ _

theorem exists_yields_fetch (unchanging : db.Unchanging states) (targets : List LinkTarget) :
    ∃ result, (fetch targets : Action σ _).Yields db states result := by
  refine exists_yields_bind ?_ fun partitions => ?_
  · cases LinkTarget.partitions targets with
    | nil => exact ⟨_, yields_pure _⟩
    | cons first rest => exact exists_yields_ask unchanging (.partitionsById _) rfl
  · rcases branches? targets partitions with _ | _ | ⟨first, rest⟩
    · exact ⟨_, yields_abort _⟩
    · exact ⟨_, yields_pure _⟩
    · exact exists_yields_ask unchanging (.readTargets first rest) rfl

end Read

end EventJournal

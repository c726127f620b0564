import EventJournal.Proofs.Healing.Faultless
import EventJournal.Proofs.Losses.Surrender

/-!
# Healing with a lost connection

Over a database without faults whose connection may be lost, leaves are still created: the
transaction in which a leaf is created runs once more. The lookup before it does not. It is
sent outside of a transaction, nothing recovers from its failure, and the call that asked
for the leaf ends with it (`Loss.AtLookup`).

## Main results

* `Database.Faultless.undoes` — a transaction that is undone leaves no trace.
* `Database.Faultless.ends_losing_healWith` — the leaves of a batch, with a loss that may come.
-/

namespace EventJournal

open EventJournal.Action

/-- A lookup of a leaf, outside of a transaction, was not heard. -/
structure Loss.AtLookup (loss : Loss) : Prop where
  outside : loss.inside = false
  lookup : loss.statement.isLookup = true

namespace Database.Faultless

variable {δ : Type} {db : Database δ} {config : CatalogConfig} {last : LastRevisions}
  {idle : LeafCache → Leaves → δ → Prop} {inside : LeafCache → Leaves → LastRevisions → δ → Prop}
  {opened : LeafCache → Leaves → δ → Prop} {cache : LeafCache} {leaves : Leaves}
  {e : DbError} {x : Exposed δ}

/-- A transaction that is undone leaves no trace. -/
theorem undoes (h : db.Faultless config last idle inside opened) (cache : LeafCache)
    (leaves : Leaves) : db.Undoes Statement.IsWithin (idle cache leaves) (opened cache leaves) where
  plain within := within.plain
  begin is := by
    obtain ⟨_, d', answer, -, is⟩ := h.serves.begin is
    exact ⟨d', answer, h.opens is⟩
  keeps within is := h.keeps within is
  undo is := h.undo is
  rest is := h.rest is

/-- A leaf is created although the connection may be lost: then in the transaction after. -/
theorem ends_losing_create (h : db.Faultless config last idle inside opened)
    (lost : e.isConnectionLoss = true) (whole : x.Whole) (later : 0 < x.ended)
    (is : idle cache leaves x.model) (key : LeafKey) :
    Ends (db.losing e) (transact config.retry none (Catalog.ensurePath config key)) cache x
      (fun leaf cache y => idle (cache.insert key leaf) (leaves.grow [key]) y.model ∧ y.Past)
      fun _ _ _ => False := by
  let I (_ : Nat) (reconnected : Bool) (cache : LeafCache) (y : Exposed δ) : Prop :=
    idle cache leaves y.model ∧
      ((y.Whole ∧ 0 < y.ended) ∧ reconnected = false ∨ ∃ loss, y.Recovered loss ∧ ¬loss.InFirst)
  refine Ends.attempts I ?_ 1 false cache x ⟨is, .inl ⟨⟨whole, later⟩, rfl⟩⟩
  rintro attempt reconnected cache y ⟨is, ⟨⟨whole, later⟩, rfl⟩ | ⟨loss, recovered, elsewhere⟩⟩
  · refine (ends_losing_inTransaction (h.undoes cache leaves) lost (.inl ⟨_, rfl⟩)
      ((Catalog.sends_ensurePath config key).mono fun _ part => .inr (.inr part))
      (Catalog.surrenders_ensurePath lost config key) whole is (h.creates is key)).mono ?_ ?_
    · exact fun _ _ _ got => ⟨got.1, .inl got.2⟩
    · rintro cause _ z (⟨never, -⟩ | ⟨rfl, rfl, dropped⟩)
      · exact never.elim
      · exact Owed.of_connectionLost ⟨dropped.1, .inr (dropped.past later)⟩
  · refine ((h.creates is key).of_recovered e recovered).mono ?_ fun _ _ _ never => never.1.elim
    exact fun _ _ _ got => ⟨got.1, .inr ⟨loss, got.2, elsewhere⟩⟩

/-- To ask for a leaf makes it exist, unless the connection is lost at the lookup. -/
theorem ends_losing_ensure (h : db.Faultless config last idle inside opened)
    (lost : e.isConnectionLoss = true) (past : x.Past) (is : idle cache leaves x.model)
    (key : LeafKey) :
    Ends (db.losing e) (Catalog.ensure config key) cache x
      (fun _ cache y => idle cache (leaves.grow [key]) y.model ∧ y.Past)
      (fun cause _ y => cause = e.abort ∧
        ∃ loss, y.loss = some loss ∧ loss.AtLookup ∧ ¬loss.InFirst) := by
  rcases past with ⟨whole, later⟩ | ⟨loss, recovered, elsewhere⟩
  · unfold Catalog.ensure Catalog.findLeaf Catalog.findPartition
    simp only [ends_bind, ends_state]
    cases kept : cache.find? key with
    | some leaf =>
        rw [Leaves.grow_singleton (h.known is kept)]
        exact (ends_pure _).2 ((ends_pure leaf).2 ⟨is, .inl ⟨whole, later⟩⟩)
    | none =>
        simp only [ends_bind, ends_pure]
        by_cases due : x.due = some 0
        · refine (ends_ask_of_error (Database.answer_losing_of_due due _)).2 ?_
          exact ⟨(DbError.abort_eq lost).symm, _, rfl, ⟨whole.closed, rfl⟩,
            fun first => Nat.ne_of_gt later first.first⟩
        obtain ⟨found, d, answer, is, may⟩ := h.finds is key
        obtain ⟨heard, rfl⟩ := Database.answer_losing (e := e) due answer
        have whole : (x.pass db (.findPartition key.toPartitionKey)).Whole :=
          ⟨whole.closed, whole.unlost⟩
        refine (ends_ask_of_ok heard).2 ?_
        cases first : found.head? with
        | some leaf =>
            obtain ⟨has, is⟩ := may leaf first
            rw [Leaves.grow_singleton has]
            simp only [ends_bind, ends_modify, ends_pure]
            exact ⟨is, .inl ⟨whole, later⟩⟩
        | none =>
            simp only [ends_bind, ends_modify, ends_pure]
            exact (h.ends_losing_create lost whole later is key).mono (fun _ _ _ got => got)
              fun _ _ _ never => never.elim
  · refine ((h.ends_ensure is key).of_recovered e recovered).mono ?_
      fun _ _ _ never => never.1.elim
    exact fun _ _ _ got => ⟨got.1, .inr ⟨loss, got.2, elsewhere⟩⟩

/-- To heal makes the leaves of all types exist, unless the connection is lost at a lookup. -/
theorem ends_losing_healWith (h : db.Faultless config last idle inside opened)
    (lost : e.isConnectionLoss = true) (stream : Stream) (types : List String) :
    ∀ cache leaves (x : Exposed δ), x.Past → idle cache leaves x.model →
      Ends (db.losing e) (Catalog.healWith (Catalog.ensure config) stream types) cache x
        (fun _ cache y => idle cache (leaves.grow (Round.leaves stream types)) y.model ∧ y.Past)
        (fun cause _ y => cause = e.abort ∧
          ∃ loss, y.loss = some loss ∧ loss.AtLookup ∧ ¬loss.InFirst) := by
  induction types with
  | nil =>
      intro cache leaves x past is
      refine (ends_pure ()).2 ⟨?_, past⟩
      show idle cache (leaves.grow []) x.model
      rwa [Leaves.grow_nil]
  | cons type rest ih =>
      intro cache leaves x past is
      show Ends _ (_ >>= fun _ => Catalog.healWith (Catalog.ensure config) stream rest) cache x _ _
      simp only [ends_bind, ends_pure]
      refine (h.ends_losing_ensure lost past is (stream.leaf type)).mono ?_
        fun _ _ _ failed => failed
      rintro _ cache x ⟨is, past⟩
      refine (ih cache _ x past is).mono ?_ fun _ _ _ failed => failed
      rintro _ cache y ⟨is, past⟩
      rw [Leaves.grow_grow] at is
      exact ⟨is, past⟩

end Database.Faultless

end EventJournal

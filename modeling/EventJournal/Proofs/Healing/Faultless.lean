import EventJournal.Proofs.Healing.Service
import EventJournal.Proofs.History

/-!
# A database without faults

`Database.Faultless` adds to a database that serves appends what the catalog asks of it:
leaves that are looked up are found if they are there, and a leaf that is missing can be
created. All of it takes place in transactions, so it says as well what they are good for.
`opened` tells an open transaction by what there was before it; whatever is done in it, a
rollback leads back there.

The leaves that the cache knows are among those that there are, and stay so.

## Main results

* `Database.Faultless.healthy` — the database fails only for want of a leaf.
-/

namespace EventJournal

open EventJournal.Action

/-- The statement is sent within the transaction of an append, or of the creation of a
leaf. -/
def Statement.IsWithin (s : Statement) : Prop :=
  (∃ level, s = .isolate level) ∨ s.isOfAppend = true ∨ s.isOfCatalog = true

theorem Statement.IsWithin.plain {s : Statement} (h : s.IsWithin) : s.isBoundary = false := by
  rcases h with ⟨level, rfl⟩ | h | h
  · rfl
  · cases s <;> first | rfl | cases h
  · cases s <;> first | rfl | cases h

/-- The database serves appends, and leaves are found or created. -/
structure Database.Faultless {δ : Type} (db : Database δ) (config : CatalogConfig)
    (last : LastRevisions) (idle : LeafCache → Leaves → δ → Prop)
    (inside : LeafCache → Leaves → LastRevisions → δ → Prop)
    (opened : LeafCache → Leaves → δ → Prop) : Prop where
  serves : db.Service (· = last) idle inside
  opens {cache leaves last d} (is : inside cache leaves last d) : opened cache leaves d
  keeps {s cache leaves d} (within : s.IsWithin) (is : opened cache leaves d) :
    opened cache leaves (db.answer s d).2
  undo {cache leaves d} (is : opened cache leaves d) : idle cache leaves (db.answer .rollback d).2
  /-- Where no transaction is open there is nothing to undo. -/
  rest {cache leaves d} (is : idle cache leaves d) : idle cache leaves (db.answer .rollback d).2
  known {cache leaves d key leaf} (is : idle cache leaves d)
    (kept : cache.find? key = some leaf) : leaves key = true
  /-- A leaf that is found may be kept. -/
  finds {cache leaves d} (is : idle cache leaves d) (key : LeafKey) :
    ∃ (found : List Partition) (d' : δ),
      db.answer (.findPartition key.toPartitionKey) d = (.ok found, d') ∧ idle cache leaves d' ∧
        ∀ leaf, found.head? = some leaf → leaves key = true ∧ idle (cache.insert key leaf) leaves d'
  /-- A leaf that is created may be kept. -/
  creates {cache leaves d} (is : idle cache leaves d) (key : LeafKey) :
    Ends db (inTransaction .serializable (Catalog.ensurePath config key)) cache d
      (fun leaf cache d => idle (cache.insert key leaf) (leaves.grow [key]) d) fun _ _ _ => False

namespace Database.Faultless

variable {δ : Type} {db : Database δ} {config : CatalogConfig} {last : LastRevisions}
  {idle : LeafCache → Leaves → δ → Prop} {inside : LeafCache → Leaves → LastRevisions → δ → Prop}
  {opened : LeafCache → Leaves → δ → Prop} {cache : LeafCache} {leaves : Leaves} {d : δ}

/-- To ask the catalog for a leaf makes it exist. -/
theorem ends_ensure (h : db.Faultless config last idle inside opened) (is : idle cache leaves d)
    (key : LeafKey) :
    Ends db (Catalog.ensure config key) cache d
      (fun _ cache d => idle cache (leaves.grow [key]) d) fun _ _ _ => False := by
  unfold Catalog.ensure Catalog.findLeaf Catalog.findPartition
  simp only [ends_bind, ends_state]
  cases kept : cache.find? key with
  | some leaf =>
      rw [Leaves.grow_singleton (h.known is kept)]
      exact (ends_pure _).2 ((ends_pure leaf).2 is)
  | none =>
      simp only [ends_bind, ends_pure]
      obtain ⟨found, d', answer, is, may⟩ := h.finds is key
      refine (ends_ask_of_ok answer).2 ?_
      cases first : found.head? with
      | some leaf =>
          obtain ⟨has, is⟩ := may leaf first
          rw [Leaves.grow_singleton has]
          simp only [ends_bind, ends_modify, ends_pure]
          exact is
      | none =>
          simp only [ends_bind, ends_modify, ends_pure]
          exact Ends.transact_of_ok (h.creates is key)

/-- The database fails only for want of a leaf. -/
theorem healthy (h : db.Faultless config last idle inside opened) :
    db.Healthy (Catalog.ensure config) (· = last) idle inside where
  serves := h.serves
  heals is key := h.ends_ensure is key

end Database.Faultless

end EventJournal

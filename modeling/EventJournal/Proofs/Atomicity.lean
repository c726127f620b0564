import EventJournal.Proofs.Table.Changes
import EventJournal.Proofs.Table.Effects
import EventJournal.Proofs.Transaction.Commits

/-!
# Changes happen as a whole or not at all

Over a database in which a commit that fails has no effect, a call that changes events has
done so in one transaction or has changed nothing. Which statement fails, whether a
middleware or a transform refuses an event, and how often the unit had to run before makes
no difference: the rows after a call that returns are those before it with the effect of
one complete run of its unit, and one of its transactions was committed.

Each attempt starts from the stored rows, so nothing of the attempts before it can be in
its effect (`Performs.ends_transact`). The effects themselves are told in
`EventJournal.Proofs.Table.Effects` and the transactions in
`EventJournal.Proofs.Transaction.Commits`.

## Main results

* `EventTable.Performs.ends_transact` — a call has the effect of its unit, or none.
* `EventTable.change_all_or_nothing` — the same for each kind of change.
-/

namespace EventJournal

/-- The same circumstances, but a commit that fails has no effect. -/
def Circumstances.settled (c : Circumstances) : Circumstances := { c with landed := fun _ => false }

/-! ## Changes and their effects -/

namespace Change

/-- What a change returns. -/
def Result : Change → Type
  | .append _ _ | .linkTo _ => List Event
  | .appendMany _ => List (List Event)
  | .deleteEvent _ _ | .deleteStream _ => Bool

/-- A change as a call of a journal. -/
def call (j : Journal) : (change : Change) → Action LeafCache change.Result
  | .append transform batch => j.appendWith transform batch
  | .appendMany batches => j.appendMany batches
  | .linkTo targets => j.linkTo targets
  | .deleteEvent event force => j.deleteEvent event force
  | .deleteStream stream => j.deleteStream stream

/-- What a change does before its transactions: links are only made to events that may be
linked to, and their partitions are looked up. -/
def locate : Change → Action LeafCache PartitionsById
  | .linkTo targets => do
      Action.check (Journal.checkTargets targets.events)
      Journal.locate [] targets.events
  | _ => pure []

/-- The unit of work of a change. -/
def unit (j : Journal) (partitions : PartitionsById) :
    (change : Change) → Action LeafCache change.Result
  | .append transform batch => batch.append j.chain transform
  | .appendMany batches => Batch.appendAll j.chain .ok batches
  | .linkTo targets => targets.append j.chain (linkFor partitions)
  | .deleteEvent event force => event.delete j.config.maxRecordsToLock force
  | .deleteStream stream => stream.delete

/-- The effect of one complete run of the unit on the rows. -/
def Effect (j : Journal) (partitions : PartitionsById) :
    (change : Change) → List StoredEvent → change.Result → List StoredEvent → Prop
  | .append transform batch => batch.Effect j.chain transform
  | .appendMany batches => Batch.Effects j.chain .ok batches
  | .linkTo targets => targets.Effect j.chain (linkFor partitions)
  | .deleteEvent event force => fun rows value rows' =>
      event.Deletion j.config.maxRecordsToLock force rows value rows'
  | .deleteStream stream => fun rows value rows' => stream.isRegular = true ∧
      value = decide (0 < rows.countP (·.liesIn stream)) ∧
      rows' = rows.filter (!·.liesIn stream)

theorem call_eq (j : Journal) (change : Change) :
    change.call j = change.locate >>= fun partitions => j.transact (change.unit j partitions) := by
  cases change with
  | append transform batch => rfl
  | appendMany batches => rfl
  | linkTo targets => exact (bind_assoc _ _ _).symm
  | deleteEvent event force => rfl
  | deleteStream stream => rfl

/-- The unit does not commit by itself. -/
theorem quiet_unit (j : Journal) (partitions : PartitionsById) (change : Change) :
    (change.unit j partitions).Sends (· ≠ .commit) := by
  have append : ∀ transform batch,
      (Batch.append j.chain transform batch : Action LeafCache _).Sends (· ≠ .commit) :=
    fun transform batch => (Batch.sends_append j.chain transform batch).mono
      fun _ => Statement.ne_commit_of_isOfAppend
  cases change with
  | append transform batch => exact append transform batch
  | appendMany batches =>
      exact (Batch.sends_appendAll j.chain .ok batches).mono
        fun _ => Statement.ne_commit_of_isOfAppend
  | linkTo targets => exact append (linkFor partitions) targets
  | deleteEvent event force =>
      exact (event.sends_delete _ force).mono fun _ => Statement.ne_commit_of_isOfDeletion
  | deleteStream stream =>
      exact stream.sends_delete.mono fun _ => Statement.ne_commit_of_isOfDeletion

end Change

namespace EventTable

open EventJournal.Action

variable {c : Circumstances} {σ α : Type}

/-- Every unit performs the effect of its change. -/
theorem performs_unit (j : Journal) (partitions : PartitionsById) (change : Change) :
    Performs c.truthful (change.unit j partitions) (change.Effect j partitions) := by
  cases change with
  | append transform batch => exact performs_append j.chain transform batch
  | appendMany batches => exact performs_appendAll j.chain .ok batches
  | linkTo targets => exact performs_append j.chain (linkFor partitions) targets
  | deleteEvent event force => exact performs_delete _ force event
  | deleteStream stream => exact performs_deleteStream stream

/-! ## Transactions -/

/-- A commit stores the rows of the transaction, or it fails and does nothing. -/
theorem ends_commit_settled {s : σ} {t : EventTable} {ok : Unit → σ → EventTable → Prop}
    {bad : Abort → σ → EventTable → Prop} (done : ok () s t.tick.commit)
    (failed : ∀ cause, bad cause s t.tick) :
    Ends (database c.settled.truthful) (ask .commit) s t ok bad := by
  rcases answer_cases c.settled.truthful .commit t with answer | ⟨e, answer⟩
  · exact (ends_ask_of_ok answer).2 done
  · have nothing : t.tick.afterFault c.settled.truthful t.clock e .commit = t.tick := by
      show (if e.isConnectionLoss && false then _ else _) = t.tick
      rw [Bool.and_false]
      rfl
    rw [nothing] at answer
    exact (ends_ask_of_error answer).2 (failed _)

variable {unit : Action σ α} {effect : List StoredEvent → α → List StoredEvent → Prop}

/-- One transaction has the effect of its unit on the stored rows, or none. -/
theorem Performs.ends_inTransaction {isolation : Isolation}
    (performs : Performs c.settled.truthful unit effect) (s : σ) (t : EventTable) :
    Ends (database c.settled.truthful) (inTransaction isolation unit) s t
      (fun value _ t' => effect t.stored value t'.stored)
      (fun _ _ t' => t'.stored = t.stored) := by
  refine ends_inTransaction_of_commit (P := fun rows _ _ => rows = t.stored)
    (fun value u => ∃ rows, u.working = some rows ∧ effect t.stored value rows) ?_ ?_
    (fun _ _ _ keeps => keeps) rfl
  · intro s u fresh keeps
    have keeps : u.stored = t.stored := keeps
    apply Ends.mono (performs s u u.stored fresh)
    · intro value s v got
      obtain ⟨stored, rows, working, had⟩ := got
      rw [keeps] at had
      exact ⟨stored.trans keeps, rows, working, had⟩
    · exact fun _ _ _ stored => stored.trans keeps
  · intro value s u keeps got
    obtain ⟨rows, working, had⟩ := got
    refine ends_commit_settled ?_ fun _ => keeps
    show effect t.stored value u.visible
    rw [visible_of_working working]
    exact had

/-- A call has the effect of its unit on the stored rows, or none. -/
theorem Performs.ends_transact {unit : Action LeafCache α}
    (performs : Performs c.settled.truthful unit effect) (j : Journal) (s : LeafCache)
    (t : EventTable) :
    Ends (database c.settled.truthful) (j.transact unit) s t
      (fun value _ t' => effect t.stored value t'.stored)
      (fun _ _ t' => t'.stored = t.stored) := by
  refine Ends.attempts (fun _ _ _ u => u.stored = t.stored) ?_ 1 false s t rfl
  intro attempt reconnected s u keeps
  apply Ends.mono (performs.ends_inTransaction s u)
  · intro value s v had
    rw [keeps] at had
    exact had
  · intro cause s v stored
    have kept : v.stored = t.stored := stored.trans keeps
    unfold Owed
    split
    · split
      · exact kept
      · exact kept
      · exact kept
      · exact ends_healer_keeps (P := fun rows _ _ => rows = t.stored) j.catalogConfig _ _ s kept
    · exact kept

/-- A change that fails leaves the stored rows as they were. A change that returns has
committed one of its own transactions, and the stored rows are those before it with the
effect of one complete run of its unit. -/
theorem change_all_or_nothing (c : Circumstances) (j : Journal) (change : Change)
    (s : LeafCache) (t : EventTable) :
    Ends (database c.settled.truthful) (change.call j) s t
      (fun value s' t' => ∃ partitions s₁ t₁ rounds,
        change.locate.runOn (database c.settled.truthful) s t = ((.ok partitions, s₁), t₁) ∧
        Ledger (database c.settled.truthful) (some (Catalog.ensure j.catalogConfig))
          (change.unit j partitions) (s₁, t₁) rounds 1 (s', t') ∧
        change.Effect j partitions t.stored value t'.stored)
      (fun _ _ t' => t'.stored = t.stored) := by
  have located : Ends (database c.settled.truthful) change.locate s t
      (fun _ _ u => u.stored = t.stored) (fun _ _ u => u.stored = t.stored) := by
    cases change with
    | linkTo targets =>
        show Ends _ (_ >>= fun _ => _) s t _ _
        rw [ends_bind]
        refine Ends.check (fun _ _ => ?_) fun _ _ => rfl
        exact ends_locate_keeps (P := fun rows _ _ => rows = t.stored) targets.events [] s t rfl
    | _ => exact (ends_pure []).2 rfl
  rw [Change.call_eq, ends_bind]
  refine Ends.of_forall ?_ ?_
  · intro partitions s₁ t₁ run
    have same : t₁.stored = t.stored := (ends_of_runOn_ok run).1 located
    have effect := (performs_unit (c := c.settled) j partitions change).ends_transact j s₁ t₁
    obtain ⟨outcome, s', t', rounds, ran, ledger⟩ :=
      transact_ledger (database c.settled.truthful) j.config.retry
        (some (Catalog.ensure j.catalogConfig)) (change.quiet_unit j partitions) s₁ t₁
    -- the effect and the ledger are two accounts of the same run
    rw [same] at effect
    cases outcome with
    | ok value =>
        have effect := (ends_of_runOn_ok ran).1 effect
        exact (ends_of_runOn_ok ran).2 ⟨partitions, s₁, t₁, rounds, run, ledger, effect⟩
    | error cause =>
        have kept := (ends_of_runOn_error ran).1 effect
        exact (ends_of_runOn_error ran).2 kept
  · intro cause s₁ t₁ run
    exact (ends_of_runOn_error run).1 located

end EventTable

end EventJournal

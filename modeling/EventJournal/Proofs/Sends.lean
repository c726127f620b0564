import EventJournal.Journal
import EventJournal.Proofs.Ends

/-!
# What calls send

Which statements a unit of work may send, whatever it is answered, is read off its text
once; that it sends no statement of some other kind follows by `Action.Sends.mono`. The
rules for transactions add the statements that begin and end them.

## Main results

* `Batch.sends_append`, `Event.sends_delete`, `Stream.sends_delete` — the units of work.
* `Action.sends_transact` — a call sends what its unit and its healer send, and the frame
  of a transaction.
-/

namespace EventJournal

namespace Statement

/-- The statement begins or ends a transaction, or says how it is kept apart. -/
def isFrame : Statement → Bool
  | .begin | .isolate _ | .commit | .rollback => true
  | _ => false

/-- The statement belongs to an append. -/
def isOfAppend : Statement → Bool
  | .lockPositions .shared | .lastRevision _ | .eventTypeId _ | .insertEvent _ => true
  | _ => false

/-- The statement asks the catalog for a partition, or whether a name is taken. -/
def isLookup : Statement → Bool
  | .findPartition _ | .tableNameTaken _ => true
  | _ => false

/-- The statement asks the catalog for a partition, or creates one. -/
def isOfCatalog : Statement → Bool
  | .findPartition _ | .tableNameTaken _ | .createTable _ | .registerPartition _ _ => true
  | _ => false

/-- The statement belongs to a deletion. -/
def isOfDeletion : Statement → Bool
  | .reload _ | .countLater _ _ | .deleteEvent _ | .closeGap _ _ | .deleteStream _ => true
  | _ => false

/-- The statement takes no event away and leaves those that are there as they are. -/
def keepsEvents : Statement → Bool
  | .deleteEvent _ | .closeGap _ _ | .deleteStream _ => false
  | _ => true

theorem ne_commit_of_isOfAppend {s : Statement} (h : s.isOfAppend = true) : s ≠ .commit := by
  rintro rfl
  cases h

theorem ne_commit_of_isOfDeletion {s : Statement} (h : s.isOfDeletion = true) : s ≠ .commit := by
  rintro rfl
  cases h

theorem isOfCatalog_of_isLookup {s : Statement} (h : s.isLookup = true) :
    s.isOfCatalog = true := by
  cases s <;> first | rfl | cases h

end Statement

theorem Program.Sends.mono {α : Type} {allowed other : Statement → Prop} {program : Program α}
    (h : program.Sends allowed) (weaker : ∀ s, allowed s → other s) : program.Sends other := by
  induction program with
  | done value => trivial
  | send s next ih => exact ⟨weaker s h.1, fun answer => ih answer (h.2 answer)⟩

namespace Action

variable {σ α β : Type} {allowed other : Statement → Prop}

theorem Sends.mono {action : Action σ α} (h : action.Sends allowed)
    (weaker : ∀ s, allowed s → other s) : action.Sends other :=
  fun s => (h s).mono weaker

theorem Sends.outcome {action : Action σ α} (h : action.Sends allowed) :
    action.outcome.Sends allowed :=
  fun s => Program.sends_bind (h s) fun _ => trivial

theorem Sends.mapM {ι : Type} {f : ι → Action σ α} (h : ∀ item, (f item).Sends allowed)
    (items : List ι) : (items.mapM f).Sends allowed := by
  induction items with
  | nil =>
      rw [List.mapM_nil]
      exact sends_pure _
  | cons item rest ih =>
      rw [List.mapM_cons]
      exact (h item).bind fun _ => ih.bind fun _ => sends_pure _

theorem Sends.forM {ι : Type} {f : ι → Action σ Unit} (h : ∀ item, (f item).Sends allowed)
    (items : List ι) : (items.forM f).Sends allowed := by
  induction items with
  | nil => exact sends_pure ()
  | cons item rest ih => exact (h item).bind fun _ => ih

/-! ## Transactions -/

theorem sends_inTransaction {isolation : Isolation} {unit : Action σ α}
    (frame : ∀ s : Statement, s.isFrame = true → allowed s) (sends : unit.Sends allowed) :
    (inTransaction isolation unit).Sends allowed := by
  have rollback : (rollback : Action σ Unit).Sends allowed :=
    (sends_attempt (frame _ rfl)).bind fun _ => sends_pure _
  have body : (do let _ ← ask (.isolate isolation); unit : Action σ α).Sends allowed :=
    (sends_ask (frame _ rfl)).bind fun _ => sends
  refine (sends_ask (frame .begin rfl)).bind fun _ => body.outcome.bind fun result => ?_
  cases result with
  | ok value => exact (sends_ask (frame .commit rfl)).bind fun _ => sends_pure value
  | error cause => exact rollback.bind fun _ => sends_abort cause

theorem sends_attempts {policy : RetryPolicy} {healer : Option (Healer σ)} {unit : Action σ α}
    (frame : ∀ s : Statement, s.isFrame = true → allowed s) (sends : unit.Sends allowed)
    (heals : ∀ f, healer = some f → ∀ stream types, (f stream types).Sends allowed) :
    ∀ attempt reconnected, (attempts policy healer unit attempt reconnected).Sends allowed := by
  intro attempt reconnected
  induction fuel : Verdict.fuel policy attempt reconnected using Nat.strongRecOn
    generalizing attempt reconnected with
  | _ n ih =>
      have next : ∀ reconnected', Verdict.fuel policy (attempt + 1) reconnected' < n →
          (attempts policy healer unit (attempt + 1) reconnected').Sends allowed :=
        fun reconnected' less => ih _ less _ _ rfl
      rw [attempts]
      refine (sends_inTransaction frame sends).outcome.bind fun result => ?_
      split
      · exact sends_pure _
      · split
        · exact sends_abort _
        · rename_i verdict
          exact next _ (fuel ▸ Verdict.fuel_lt_of_again verdict)
        · rename_i verdict
          exact next _ (fuel ▸ Verdict.fuel_lt_of_reconnect verdict)
        · rename_i verdict
          have later := next _ (fuel ▸ Verdict.fuel_lt_of_heal verdict)
          split
          · exact (heals _ rfl _ _).bind fun _ => later
          · exact later
      · exact sends_abort _

/-- A call sends what its unit and its healer send, and the frame of a transaction. -/
theorem sends_transact {policy : RetryPolicy} {healer : Option (Healer σ)} {unit : Action σ α}
    (frame : ∀ s : Statement, s.isFrame = true → allowed s) (sends : unit.Sends allowed)
    (heals : ∀ f, healer = some f → ∀ stream types, (f stream types).Sends allowed) :
    (transact policy healer unit).Sends allowed :=
  sends_attempts frame sends heals 1 false

end Action

/-! ## The catalog -/

open EventJournal.Action

variable {σ : Type}

namespace Catalog

theorem sends_findPartition (key : PartitionKey) :
    (findPartition key : Action σ _).Sends (·.isLookup = true) :=
  Sends.bind (sends_ask rfl) fun _ => sends_pure _

theorem sends_freeName (tries : Nat) :
    ∀ name, (freeName tries name : Action σ _).Sends (·.isLookup = true) := by
  induction tries with
  | zero => exact fun _ => sends_abort _
  | succ tries ih =>
      intro name
      refine Sends.bind (sends_ask rfl) fun rows => Sends.bind (sends_one rows) fun taken => ?_
      cases taken with
      | false => exact sends_pure name
      | true => exact ih _

theorem sends_create (config : CatalogConfig) (parent : String) (key : PartitionKey) :
    (create config parent key : Action σ _).Sends (·.isOfCatalog = true) := by
  have free := (sends_freeName (σ := σ) config.nameTries
    (TableName.candidate key.level (config.digest key))).mono
      fun _ => Statement.isOfCatalog_of_isLookup
  refine free.bind fun name => Sends.bind (sends_attempt rfl) fun answer => ?_
  cases answer with
  | error e => exact sends_abort _
  | ok _ => exact Sends.bind (sends_attempt rfl) fun _ => sends_check _

theorem sends_findOrCreate (config : CatalogConfig) (parent : String) (key : PartitionKey) :
    (findOrCreate config parent key : Action σ _).Sends (·.isOfCatalog = true) := by
  have find := (sends_findPartition (σ := σ) key).mono fun _ => Statement.isOfCatalog_of_isLookup
  refine find.bind fun found => ?_
  cases found with
  | some partition => exact sends_pure partition
  | none => exact sends_create config parent key

theorem sends_ensurePath (config : CatalogConfig) (key : LeafKey) :
    (ensurePath config key : Action σ _).Sends (·.isOfCatalog = true) :=
  Sends.bind (sends_findOrCreate config _ _) fun _ =>
    Sends.bind (sends_findOrCreate config _ _) fun _ => sends_findOrCreate config _ _

theorem sends_findLeaf (key : LeafKey) : (findLeaf key).Sends (·.isLookup = true) := by
  refine Sends.bind sends_state fun cache => ?_
  split
  · exact sends_pure _
  · refine Sends.bind (sends_findPartition _) fun found => ?_
    cases found with
    | some leaf => exact Sends.bind (sends_modify _) fun _ => sends_pure _
    | none => exact sends_pure _

/-- A call for a leaf looks it up or creates it in transactions of its own. -/
theorem sends_ensure (config : CatalogConfig) (key : LeafKey) :
    (ensure config key).Sends fun s => s.isFrame = true ∨ s.isOfCatalog = true := by
  have find : (findLeaf key).Sends fun s => s.isFrame = true ∨ s.isOfCatalog = true :=
    (sends_findLeaf key).mono fun _ h => .inr (Statement.isOfCatalog_of_isLookup h)
  have path : (ensurePath config key : Action LeafCache _).Sends
      fun s => s.isFrame = true ∨ s.isOfCatalog = true :=
    (sends_ensurePath config key).mono fun _ h => .inr h
  refine find.bind fun found => ?_
  cases found with
  | some leaf => exact sends_pure leaf
  | none =>
      refine Sends.bind (sends_transact (fun _ => .inl) path fun _ absent => nomatch absent) ?_
      exact fun leaf => (sends_modify _).bind fun _ => sends_pure leaf

theorem sends_healer (config : CatalogConfig) (stream : Stream) (types : List String) :
    (healer config stream types).Sends fun s => s.isFrame = true ∨ s.isOfCatalog = true :=
  Sends.forM (fun _ => (sends_ensure config _).bind fun _ => sends_pure ()) types

end Catalog

theorem Journal.sends_locate (events : List Event) :
    ∀ known, (locate known events).Sends (·.isLookup = true) := by
  induction events with
  | nil => exact fun known => sends_pure known
  | cons event rest ih =>
      intro known
      unfold locate
      split
      · refine (Catalog.sends_findLeaf _).bind fun found => ?_
        cases found with
        | some leaf => exact ih _
        | none => exact sends_abort _
      · exact sends_abort _

/-! ## Units of work -/

namespace Batch

theorem sends_inRange {α : Type} {allowed : Statement → Prop} (found : Option α) :
    (inRange found : Action σ α).Sends allowed := by
  cases found with
  | none => exact sends_abort _
  | some value => exact sends_pure value

theorem sends_insertOne (stream : Stream) (all : List Event) (first : Int32) (index : Nat)
    (event : Event) :
    (insertOne stream all first index event : Action σ Event).Sends (·.isOfAppend = true) := by
  refine Sends.bind (sends_ask rfl) fun typeIds => ?_
  refine Sends.bind (sends_one typeIds) fun typeId => ?_
  refine Sends.bind (sends_inRange _) fun revision => ?_
  refine Sends.bind (sends_attempt rfl) fun answer => ?_
  exact Sends.bind (sends_check _) fun row => sends_pure _

theorem sends_insertFrom (stream : Stream) (all : List Event) (first : Int32)
    (events : List Event) :
    ∀ index, (insertFrom stream all first index events : Action σ _).Sends
      (·.isOfAppend = true) := by
  induction events with
  | nil => exact fun _ => sends_pure []
  | cons event rest ih =>
      intro index
      refine (sends_insertOne stream all first index event).bind fun inserted => ?_
      exact (ih (index + 1)).bind fun others => sends_pure _

theorem sends_append (chain : MiddlewareChain) (transform : EventTransform) (batch : Batch) :
    (batch.append chain transform : Action σ _).Sends (·.isOfAppend = true) := by
  refine Sends.bind (sends_check _) fun _ => ?_
  refine Sends.bind (sends_ask rfl) fun _ => ?_
  refine Sends.bind (sends_ask rfl) fun revisions => ?_
  refine Sends.bind (sends_check _) fun _ => ?_
  refine Sends.bind (sends_check _) fun events => ?_
  refine Sends.bind (sends_inRange _) fun first => ?_
  exact Sends.bind (sends_insertFrom _ _ _ _ _) fun inserted => sends_check _

theorem sends_appendAll (chain : MiddlewareChain) (transform : EventTransform)
    (batches : List Batch) :
    (appendAll chain transform batches : Action σ _).Sends (·.isOfAppend = true) :=
  Sends.mapM (sends_append chain transform) batches

end Batch

theorem Event.sends_delete (limit : Int64) (force : Bool) (event : Event) :
    (event.delete limit force : Action σ _).Sends (·.isOfDeletion = true) := by
  unfold Event.delete
  split
  · exact sends_abort _
  · refine Sends.bind (sends_ask rfl) fun rows => ?_
    cases rows with
    | nil => exact sends_pure false
    | cons row rest =>
        refine Sends.bind (sends_ask rfl) fun counts => ?_
        refine Sends.bind (sends_one counts) fun count => ?_
        refine Sends.bind (sends_check _) fun _ => ?_
        refine Sends.bind (sends_ask rfl) fun _ => ?_
        exact Sends.bind (sends_ask rfl) fun _ => sends_pure true

theorem Stream.sends_delete (stream : Stream) :
    (stream.delete : Action σ _).Sends (·.isOfDeletion = true) := by
  unfold Stream.delete
  split
  · exact Sends.bind (sends_ask rfl) fun count => sends_pure _
  · exact sends_abort _

end EventJournal

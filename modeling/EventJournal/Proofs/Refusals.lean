import EventJournal.Journal
import EventJournal.Proofs.Passes
import EventJournal.Proofs.Transaction.Attempts

/-!
# Who may say that an expectation was not met

Only the unit of an append compares the stream with what is expected of it. An action is
`Candid` if it never ends by saying that this comparison has failed; the database, the
catalog and the transaction loop are. Transforms and middlewares come from the caller and
may refuse an event with any error, so that of them it is an assumption
(`MiddlewareChain.Candid`).

## Main results

* `Catalog.candid_healer` — to create partitions is never refused by an expectation.
* `MiddlewareChain.Candid.prepare`, `MiddlewareChain.Candid.deserializeAll` — nor are the
  passes of a candid chain.
-/

namespace EventJournal

open EventJournal.Action

/-! ## Refusals -/

/-- The expectation of an append was not met. -/
def Abort.isRefusal : Abort → Bool
  | .error cause => cause.isWrongExpectedVersion
  | _ => false

theorem DbError.not_refusal (e : DbError) : e.toJournalError.isWrongExpectedVersion = false := by
  unfold toJournalError
  split
  · rfl
  · split <;> rfl

/-- What an action ends with, if it ends without a result, is no refusal. -/
def Action.Candid {σ α : Type} (action : Action σ α) : Prop :=
  ∀ (δ : Type) (db : Database δ) (s : σ) (d : δ),
    Ends db action s d (fun _ _ _ => True) (fun cause _ _ => cause.isRefusal = false)

namespace Action.Candid

variable {σ α β : Type}

theorem pure (value : α) : (pure value : Action σ α).Candid :=
  fun _ _ _ _ => (ends_pure value).2 trivial

theorem abort {cause : Abort} (h : cause.isRefusal = false) : (abort cause : Action σ α).Candid :=
  fun _ _ _ _ => (ends_abort cause).2 h

theorem state : (state : Action σ σ).Candid := fun _ _ _ _ => ends_state.2 trivial

theorem modify (f : σ → σ) : (modify f).Candid := fun _ _ _ _ => (ends_modify f).2 trivial

theorem bind {action : Action σ α} {f : α → Action σ β} (first : action.Candid)
    (rest : ∀ value, (f value).Candid) : (action >>= f).Candid := by
  intro δ db s d
  rw [ends_bind]
  exact (first δ db s d).mono (fun value s d _ => rest value δ db s d) fun _ _ _ h => h

theorem check {result : Except JournalError α}
    (h : ∀ cause, result = .error cause → cause.isWrongExpectedVersion = false) :
    (check result : Action σ α).Candid :=
  fun _ _ _ _ => Ends.check (fun _ _ => trivial) h

theorem attempt (statement : Statement) : (attempt statement : Action σ _).Candid :=
  fun _ _ _ _ => Ends.attempt (fun _ _ _ => trivial) fun _ _ _ => trivial

theorem ask (statement : Statement) : (ask statement : Action σ _).Candid :=
  fun _ _ _ _ => Ends.ask (fun _ _ _ => trivial) fun e _ _ => e.not_refusal

theorem one (rows : List α) : (one rows : Action σ α).Candid :=
  fun _ _ _ _ => Ends.one (fun _ _ _ => trivial) fun _ => DbError.rowNotFound.not_refusal

theorem forM {ι : Type} {f : ι → Action σ Unit} (h : ∀ item, (f item).Candid) (items : List ι) :
    (items.forM f).Candid := by
  induction items with
  | nil => exact .pure ()
  | cons item rest ih => exact (h item).bind fun _ => ih

theorem inTransaction {isolation : Isolation} {unit : Action σ α} (h : unit.Candid) :
    (inTransaction isolation unit).Candid := by
  intro δ db s d
  rw [ends_inTransaction]
  refine (ask _ δ db s d).mono (fun _ s d _ => ?_) fun _ _ _ h => h
  refine (ask _ δ db s d).mono (fun _ s d _ => ?_) fun _ _ _ h => h
  exact (h δ db s d).mono (fun _ s d _ => ask _ δ db s d) fun _ _ _ h => h

end Action.Candid

/-- A call ends with what its last attempt ended with, or says that it has used up its
attempts. -/
theorem Verdict.of_finish {policy : RetryPolicy} {heals reconnected : Bool} {attempt : Nat}
    {cause final : JournalError} (h : of policy heals attempt reconnected cause = .finish final) :
    final = cause ∨ final = .retriesExhausted attempt cause := by
  unfold of at h
  split at h
  · split at h <;> cases h
    exact .inr rfl
  · repeat' split at h
    all_goals cases h
    · exact .inr rfl
    · exact .inl rfl

theorem Action.Candid.transact {σ α : Type} {policy : RetryPolicy} {unit : Action σ α}
    (h : unit.Candid) : (transact policy none unit).Candid := by
  intro δ db s d
  refine Ends.attempts (fun _ _ _ _ => True) ?_ 1 false s d trivial
  intro attempt reconnected s d _
  refine (h.inTransaction δ db s d).mono (fun _ _ _ _ => trivial) fun cause s d candid => ?_
  unfold Owed
  split
  · split
    · rename_i final verdict
      rcases Verdict.of_finish verdict with rfl | rfl
      · exact candid
      · rfl
    · trivial
    · trivial
    · exact (ends_pure ()).2 trivial
  · exact candid

namespace Catalog

variable {σ : Type}

theorem creationError_candid (table : String) (e : DbError) :
    (creationError table e).isWrongExpectedVersion = false := by
  unfold creationError
  split
  · rfl
  · exact e.not_refusal

theorem candid_freeName (tries : Nat) : ∀ name, (freeName tries name : Action σ _).Candid := by
  induction tries with
  | zero => exact fun _ => .abort rfl
  | succ tries ih =>
      intro name
      refine .bind (.ask _) fun rows => .bind (.one rows) fun taken => ?_
      cases taken with
      | false => exact .pure name
      | true => exact ih _

theorem candid_findOrCreate (config : CatalogConfig) (parent : String) (key : PartitionKey) :
    (findOrCreate config parent key : Action σ _).Candid := by
  refine .bind (.bind (.ask _) fun _ => .pure _) fun found => ?_
  cases found with
  | some partition => exact .pure partition
  | none =>
      refine .bind (candid_freeName _ _) fun name => .bind (.attempt _) fun answer => ?_
      cases answer with
      | error e => exact .abort (creationError_candid name e)
      | ok _ =>
          refine .bind (.attempt _) fun answer => .check fun cause failed => ?_
          cases result : Except.bind answer firstRow with
          | ok row =>
              rw [result] at failed
              cases failed
          | error e =>
              rw [result] at failed
              cases failed
              exact creationError_candid name e

theorem candid_ensure (config : CatalogConfig) (key : LeafKey) : (ensure config key).Candid := by
  have find : (findLeaf key).Candid := by
    refine .bind .state fun cache => ?_
    split
    · exact .pure _
    · refine .bind (.bind (.ask _) fun _ => .pure _) fun found => ?_
      cases found with
      | some leaf => exact .bind (.modify _) fun _ => .pure _
      | none => exact .pure _
  refine find.bind fun found => ?_
  cases found with
  | some leaf => exact .pure leaf
  | none =>
      refine .bind (.transact ?_) fun leaf => .bind (.modify _) fun _ => .pure leaf
      exact .bind (candid_findOrCreate config _ _) fun _ =>
        .bind (candid_findOrCreate config _ _) fun _ => candid_findOrCreate config _ _

/-- To create partitions is never refused by an expectation. -/
theorem candid_healer (config : CatalogConfig) (stream : Stream) (types : List String) :
    (healer config stream types).Candid :=
  .forM (fun _ => .bind (candid_ensure config _) fun _ => .pure ()) types

end Catalog

namespace Batch

variable {σ α : Type}

theorem checkStream_candid {stream : Stream} {cause : JournalError}
    (failed : checkStream stream = .error cause) : cause.isWrongExpectedVersion = false := by
  unfold checkStream at failed
  split at failed
  · cases failed
    rfl
  · split at failed <;> cases failed
    rfl

theorem candid_inRange (found : Option α) : (inRange found : Action σ α).Candid := by
  cases found with
  | none => exact .abort rfl
  | some value => exact .pure value

theorem candid_insertOne (stream : Stream) (all : List Event) (first : Int32) (index : Nat)
    (event : Event) : (insertOne stream all first index event : Action σ _).Candid := by
  refine .bind (.ask _) fun typeIds => .bind (.one typeIds) fun typeId => ?_
  refine .bind (candid_inRange _) fun revision => .bind (.attempt _) fun answer => ?_
  refine .bind (.check fun cause failed => ?_) fun row => .pure _
  cases result : Except.bind answer firstRow with
  | ok row =>
      rw [result] at failed
      cases failed
  | error e =>
      rw [result] at failed
      cases failed
      unfold insertError
      split
      · rfl
      · exact e.not_refusal

theorem candid_insertFrom (stream : Stream) (all : List Event) (first : Int32)
    (events : List Event) :
    ∀ index, (insertFrom stream all first index events : Action σ _).Candid := by
  induction events with
  | nil => exact fun _ => .pure []
  | cons event rest ih =>
      intro index
      exact .bind (candid_insertOne stream all first index event) fun inserted =>
        .bind (ih _) fun others => .pure _

end Batch

/-- Neither the transform nor a middleware refuses an event by saying that an expectation
was not met. -/
structure MiddlewareChain.Candid (chain : MiddlewareChain) (transform : EventTransform) :
    Prop where
  transform : ∀ event cause, transform event = .error cause → cause.isWrongExpectedVersion = false
  serialize : ∀ m ∈ chain, ∀ event cause, m.serialize event = .error cause →
    cause.isWrongExpectedVersion = false
  deserialize : ∀ m ∈ chain, ∀ event cause, m.deserialize event = .error cause →
    cause.isWrongExpectedVersion = false

namespace MiddlewareChain

variable {chain : MiddlewareChain} {transform : EventTransform} {events : List Event}
  {cause : JournalError}

/-- What the transform or a middleware raises is no refusal. -/
theorem Candid.of_raises (h : chain.Candid transform) (raised : chain.Raises transform cause) :
    cause.isWrongExpectedVersion = false := by
  rcases raised with ⟨event, refused⟩ | ⟨m, member, event, refused | refused⟩
  · exact h.transform event cause refused
  · exact h.serialize m member event cause refused
  · exact h.deserialize m member event cause refused

theorem Candid.prepare (h : chain.Candid transform)
    (refused : Batch.prepare transform chain events = .error cause) :
    cause.isWrongExpectedVersion = false :=
  h.of_raises (raises_of_prepare refused)

theorem Candid.deserializeAll (h : chain.Candid transform)
    (refused : outcome (chain.deserializeAll events) = .error cause) :
    cause.isWrongExpectedVersion = false :=
  h.of_raises (raises_of_deserializeAll refused transform)

end MiddlewareChain

end EventJournal

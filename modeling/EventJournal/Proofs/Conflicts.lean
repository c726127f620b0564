import EventJournal.Proofs.Atomicity
import EventJournal.Proofs.Transaction.Conflicts

/-!
# Conflicts leave no trace

A call that changes something looks things up at most, and then runs a unit of work in
transactions of its own. Attempts that end with a conflict, wherever that is, make no difference
to the one after them: it sends what it would have sent as the first, and if it is answered
without a failure the call ends as it would have ended (`Undertaking.despite_conflicts`). What was
read, shaped or computed in a failed attempt is forgotten.

One thing is not of the journal's making. A transform or a middleware may fail as if there were
a conflict. Such a failure is retried as well, and how often depends on the attempts before.

## Main results

* `Action.forgets_conflicts` — a call that looks things up and then makes attempts.
* `Undertaking.despite_conflicts` — all kinds of changes, and the creation of leaves.
-/

namespace EventJournal

open EventJournal.Action

/-! ## Undertakings -/

/-- A call that changes something. -/
inductive Undertaking where
  | change (j : Journal) (made : Change)
  /-- A leaf is asked for, and created if there is none. -/
  | ensure (config : CatalogConfig) (key : LeafKey)

/-- The error is one that the hooks of the caller raise, those that the change makes use of. -/
def Change.Raises (j : Journal) : Change → JournalError → Prop
  | .append transform _ => j.chain.Raises transform
  | .appendMany _ | .linkTo _ => j.chain.Raises .ok
  | .deleteEvent _ _ | .deleteStream _ => fun _ => False

namespace Undertaking

def Result : Undertaking → Type
  | .change _ made => made.Result
  | .ensure _ _ => Partition

def call : (u : Undertaking) → Action LeafCache u.Result
  | .change j made => made.call j
  | .ensure config key => Catalog.ensure config key

/-- How often it is attempted. -/
def policy : Undertaking → RetryPolicy
  | .change j _ => j.config.retry
  | .ensure config _ => config.retry

/-- The error is one that the hooks of the caller raise. -/
def Raises : Undertaking → JournalError → Prop
  | .change j made => made.Raises j
  | .ensure _ _ => fun _ => False

/-- The action is what the undertaking does in a transaction. It may depend on what has been
looked up. -/
def IsUnit : (u : Undertaking) → Action LeafCache u.Result → Prop
  | .change j made => fun unit => ∃ partitions, unit = made.unit j partitions
  | .ensure config key => fun unit => unit = Catalog.ensurePath config key

end Undertaking

/-! ## Calls that make attempts -/

namespace Action

variable {σ α β δ δ' : Type}

/-- The action returns at once, or runs a unit in transactions and keeps its result without
asking for anything more. -/
inductive Attempts (policy : RetryPolicy) (isUnit : Action σ α → Prop) : Action σ α → Prop
  | none (value : α) : Attempts policy isUnit (pure value)
  | some {healer : Option (Healer σ)} {unit : Action σ α} {post : α → Action σ α}
      (known : isUnit unit) (silent : ∀ value s, ∃ ended, (post value).start s = .done ended) :
      Attempts policy isUnit (transact policy healer unit >>= post)

variable {policy : RetryPolicy} {isUnit : Action σ α → Prop} {raises : JournalError → Prop}
  {s : σ} {failed : List Passage} {last : Passage} {more : List Exchange}

/-- An attempt begins with a begin. -/
theorem begins_of_attempts {e : Exchange} {after : List Exchange}
    (conflicted : ∀ p ∈ failed, p.Conflicted) (sound : last.Sound)
    (same : failed.flatMap Passage.exchanges ++ (last.exchanges ++ more) = e :: after) :
    e.statement = .begin := by
  cases failed with
  | nil =>
      cases sound <;> exact (List.cons.inj same).1 ▸ rfl
  | cons p failed =>
      have first := conflicted p List.mem_cons_self
      rw [List.flatMap_cons] at same
      cases first <;> exact (List.cons.inj same).1 ▸ rfl

theorem attempts_ne_nil (sound : last.Sound) :
    failed.flatMap Passage.exchanges ++ (last.exchanges ++ more) ≠ [] := by
  refine List.append_ne_nil_of_right_ne_nil _ (List.append_ne_nil_of_left_ne_nil ?_ _)
  cases sound <;> exact List.cons_ne_nil _ _

/-- The program of a call that makes attempts: the first, and what follows it. -/
theorem start_transact_bind (policy : RetryPolicy) (healer : Option (Healer σ))
    (unit : Action σ α) (post : α → Action σ α) (s : σ) :
    (transact policy healer unit >>= post).start s =
      ((inTransaction .serializable unit).start s).bind fun ran =>
        ((resume policy healer unit 1 false ran.1).start ran.2).bind (following post) := by
  rw [start_bind, transact, start_attempts, Program.bind_assoc]

/-- If anything is sent, the first of it is a begin. -/
theorem Attempts.begins {action : Action σ α} (h : action.Attempts policy isUnit)
    {statement : Statement} {next : Except DbError statement.Answer → Program (Except Abort α × σ)}
    (same : action.start s = .send statement next) : statement = .begin := by
  cases h with
  | none value => cases same
  | some known silent =>
      rw [start_transact_bind, start_inTransaction] at same
      cases same
      rfl

/-- Attempts that ended with a conflict make no difference to a call that looks something up and
then makes attempts. -/
theorem forgets_conflicts {lookup : Action σ β} {tail : β → Action σ α}
    (looks : lookup.Sends (·.isLookup = true))
    (attempts : ∀ found, (tail found).Attempts policy isUnit)
    (forthright : ∀ unit, isUnit unit → unit.Forthright raises)
    (quiet : ∀ unit, isUnit unit → unit.Sends (·.isBoundary = false))
    {db : Database δ} {d : δ} {lookups : List Exchange}
    (said : ((lookup >>= tail).start s).exchanges db d =
      lookups ++ (failed.flatMap Passage.exchanges ++ (last.exchanges ++ more)))
    (looked : ∀ e ∈ lookups, e.statement.isLookup = true)
    (conflicted : ∀ p ∈ failed, p.Conflicted)
    (left : failed.length < policy.maxAttempts.toNat) (sound : last.Sound)
    {db' : Database δ'} {d' d'' : δ'} (answers : db'.Answers d' (lookups ++ last.exchanges) d'') :
    lookups ++ last.exchanges <+: ((lookup >>= tail).start s).exchanges db' d' ∧
      ((more = [] ∧ ((lookup >>= tail).start s).exchanges db' d' = lookups ++ last.exchanges ∧
          (lookup >>= tail).runOn db' s d' = (((lookup >>= tail).runOn db s d).1, d'')) ∨
        ∃ unit s₁ cause, isUnit unit ∧
          ((inTransaction .serializable unit).start s₁).Leads last.exchanges
            (.error (.error cause), s₁) ∧ raises cause ∧ cause.isSignal = true) := by
  have leads := Program.leads_exchanges db ((lookup >>= tail).start s) d
  rw [said, start_bind] at leads
  have opens : ∀ found statement next, following tail found = .send statement next →
      ¬statement.isLookup = true := by
    rintro ⟨_ | found, s₁⟩ statement next same
    · cases same
    · have same : (tail found).start s₁ = .send statement next := same
      rw [(attempts found).begins same]
      exact Bool.false_ne_true
  have outside : ∀ e after, failed.flatMap Passage.exchanges ++ (last.exchanges ++ more) =
      e :: after → ¬e.statement.isLookup = true := by
    intro e after same
    rw [begins_of_attempts conflicted sound same]
    exact Bool.false_ne_true
  obtain ⟨⟨_ | found, s₁⟩, first, second⟩ := leads.of_bind (looks s) opens looked outside
  · exact absurd second.of_done.1 (attempts_ne_nil sound)
  have second : ((tail found).start s₁).Leads _ _ := second
  have attempts := attempts found
  generalize same : tail found = ends at attempts second
  cases attempts with
  | none value => exact absurd second.of_done.1 (attempts_ne_nil sound)
  | @some healer unit post known silent =>
      rw [start_bind] at second
      obtain ⟨outcome, ran, raised, rest⟩ := leads_attempts (forthright _ known) (quiet _ known)
        sound failed conflicted 1 (by omega) second
      -- the second run goes the way of the lookups, and then of the last attempt
      obtain ⟨d₁, looked', answered⟩ := answers.of_append
      obtain ⟨run₁, said₁⟩ := first.follow looked'
      obtain ⟨run₂, said₂⟩ := ran.follow answered
      have said' : ((lookup >>= tail).start s).exchanges db' d' = lookups ++ (last.exchanges ++
          (((resume policy healer unit 1 false outcome).start s₁).bind (following post)).exchanges
            db' d'') := by
        rw [start_bind, Program.exchanges_bind, said₁, run₁]
        show _ ++ ((tail found).start s₁).exchanges db' d₁ = _
        rw [same, start_transact_bind, Program.exchanges_bind, said₂, run₂]
      have run' : ((lookup >>= tail).start s).run db' d' =
          (((resume policy healer unit 1 false outcome).start s₁).bind (following post)).run
            db' d'' := by
        rw [start_bind, Program.run_bind, run₁]
        show ((tail found).start s₁).run db' d₁ = _
        rw [same, start_transact_bind, Program.run_bind, run₂]
      rw [← List.append_assoc] at said'
      refine ⟨⟨_, said'.symm⟩, ?_⟩
      by_cases signal : ∃ cause, outcome = .error (.error cause) ∧ cause.isSignal = true
      · obtain ⟨cause, rfl, signal⟩ := signal
        exact .inr ⟨unit, s₁, cause, known, ran, raised cause rfl signal, signal⟩
      · have final : ∀ cause, outcome = .error (.error cause) → cause.isSignal = false :=
          fun cause ends => Bool.eq_false_iff.2 fun signals => signal ⟨cause, ends, signals⟩
        obtain ⟨ended, silent⟩ : ∃ ended, following post (outcome, s₁) = .done ended := by
          cases outcome with
          | ok value => exact silent value s₁
          | error cause => exact ⟨_, rfl⟩
        have concludes (attempt : Nat) :
            ((resume policy healer unit attempt false outcome).start s₁).bind (following post) =
              .done ended := by
          rw [resume_of_not_isSignal final]
          exact silent
        rw [concludes] at rest run' said'
        obtain ⟨none, same⟩ := rest.of_done
        refine .inl ⟨none, said'.trans (List.append_nil _), run'.trans ?_⟩
        rw [← same]
        rfl

end Action

/-! ## All undertakings -/

/-- The statements of units of work stand within transactions. -/
theorem Statement.not_isBoundary_of_work {s : Statement}
    (work : s.isOfAppend = true ∨ s.isOfDeletion = true ∨ s.isOfCatalog = true) :
    s.isBoundary = false := by
  cases s with
  | begin | commit | rollback => rcases work with part | part | part <;> cases part
  | _ => rfl

/-- A link is refused for its target alone. -/
theorem linkFor_not_isSignal {partitions : PartitionsById} {event : Event} {cause : JournalError}
    (refused : linkFor partitions event = .error cause) : cause.isSignal = false := by
  unfold linkFor LinkDraft.build at refused
  dsimp only at refused
  repeat' split at refused
  all_goals cases refused
  all_goals rfl

namespace Change

theorem forthright_unit (j : Journal) (partitions : PartitionsById) (change : Change) :
    (change.unit j partitions).Forthright (change.Raises j) := by
  cases change with
  | append transform batch => exact Batch.forthright_append j.chain transform batch
  | appendMany batches => exact Batch.forthright_appendAll j.chain .ok batches
  | linkTo targets =>
      refine (Batch.forthright_append j.chain (linkFor partitions) targets).mono ?_
      rintro cause signal (⟨event, refused⟩ | raised)
      · rw [linkFor_not_isSignal refused] at signal
        cases signal
      · exact .inr raised
  | deleteEvent event force => exact event.forthright_delete _ force
  | deleteStream stream => exact stream.forthright_delete

/-- No unit begins or ends a transaction. -/
theorem sends_unit (j : Journal) (partitions : PartitionsById) (change : Change) :
    (change.unit j partitions).Sends (·.isBoundary = false) := by
  have append : ∀ transform batch,
      (Batch.append j.chain transform batch : Action LeafCache _).Sends (·.isBoundary = false) :=
    fun transform batch => (Batch.sends_append j.chain transform batch).mono
      fun _ part => Statement.not_isBoundary_of_work (.inl part)
  cases change with
  | append transform batch => exact append transform batch
  | appendMany batches =>
      exact (Batch.sends_appendAll j.chain .ok batches).mono
        fun _ part => Statement.not_isBoundary_of_work (.inl part)
  | linkTo targets => exact append (linkFor partitions) targets
  | deleteEvent event force =>
      exact (event.sends_delete _ force).mono
        fun _ part => Statement.not_isBoundary_of_work (.inr (.inl part))
  | deleteStream stream =>
      exact stream.sends_delete.mono
        fun _ part => Statement.not_isBoundary_of_work (.inr (.inl part))

theorem sends_locate (change : Change) : change.locate.Sends (·.isLookup = true) := by
  cases change with
  | linkTo targets => exact (sends_check _).bind fun _ => Journal.sends_locate targets.events []
  | _ => exact sends_pure []

end Change

namespace Undertaking

theorem forthright_of_isUnit {u : Undertaking} {unit : Action LeafCache u.Result}
    (known : u.IsUnit unit) : unit.Forthright u.Raises := by
  cases u with
  | change j made =>
      obtain ⟨partitions, rfl⟩ := known
      exact made.forthright_unit j partitions
  | ensure config key =>
      obtain rfl := known
      exact Catalog.forthright_ensurePath _ config key

theorem sends_of_isUnit {u : Undertaking} {unit : Action LeafCache u.Result}
    (known : u.IsUnit unit) : unit.Sends (·.isBoundary = false) := by
  cases u with
  | change j made =>
      obtain ⟨partitions, rfl⟩ := known
      exact made.sends_unit j partitions
  | ensure config key =>
      obtain rfl := known
      exact (Catalog.sends_ensurePath config key).mono
        fun _ part => Statement.not_isBoundary_of_work (.inr (.inr part))

/-- An undertaking looks something up, if anything, and then makes attempts. -/
theorem exists_attempts (u : Undertaking) :
    ∃ (β : Type) (lookup : Action LeafCache β) (tail : β → Action LeafCache u.Result),
      u.call = lookup >>= tail ∧ lookup.Sends (·.isLookup = true) ∧
        ∀ found, (tail found).Attempts u.policy u.IsUnit := by
  cases u with
  | change j made =>
      refine ⟨_, made.locate, _, made.call_eq j, made.sends_locate, fun partitions => ?_⟩
      rw [← Action.bind_pure (j.transact (made.unit j partitions))]
      exact .some ⟨partitions, rfl⟩ fun value s => ⟨_, rfl⟩
  | ensure config key =>
      refine ⟨_, Catalog.findLeaf key, _, rfl, Catalog.sends_findLeaf key, fun found => ?_⟩
      cases found with
      | some leaf => exact .none leaf
      | none => exact .some rfl fun leaf cache => ⟨_, rfl⟩

/-- **Conflicts leave no trace.** In the run of a call, let attempts that ended with a conflict,
fewer than the policy allows, be followed by one none of whose statements failed. If the same call
with the same cache is answered to its lookups and then as in that last attempt, it sends the same
statements with the same values as were sent there. With that it has sent all, and ends as the
first run did; unless the attempt has ended, in both runs, with a failure of the caller's own
hooks that asks for another one. -/
theorem despite_conflicts (u : Undertaking) {cache : LeafCache} {δ δ' : Type} {db : Database δ}
    {d : δ} {lookups : List Exchange} {failed : List Passage} {last : Passage}
    {more : List Exchange}
    (said : (u.call.start cache).exchanges db d =
      lookups ++ (failed.flatMap Passage.exchanges ++ (last.exchanges ++ more)))
    (looked : ∀ e ∈ lookups, e.statement.isLookup = true)
    (conflicted : ∀ p ∈ failed, p.Conflicted)
    (left : failed.length < u.policy.maxAttempts.toNat) (sound : last.Sound)
    {db' : Database δ'} {d' d'' : δ'} (answers : db'.Answers d' (lookups ++ last.exchanges) d'') :
    lookups ++ last.exchanges <+: (u.call.start cache).exchanges db' d' ∧
      ((more = [] ∧ (u.call.start cache).exchanges db' d' = lookups ++ last.exchanges ∧
          u.call.runOn db' cache d' = ((u.call.runOn db cache d).1, d'')) ∨
        ∃ unit cache₁ cause, u.IsUnit unit ∧
          ((inTransaction .serializable unit).start cache₁).Leads last.exchanges
            (.error (.error cause), cache₁) ∧ u.Raises cause ∧ cause.isSignal = true) := by
  obtain ⟨β, lookup, tail, call, looks, attempts⟩ := u.exists_attempts
  rw [call] at said ⊢
  exact forgets_conflicts looks attempts (fun _ known => forthright_of_isUnit known)
    (fun _ known => sends_of_isUnit known) said looked conflicted left sound answers

/-! ## An order in the way of others -/

/-- An order is created, if need be at the third attempt. -/
def createdOrder : Undertaking :=
  .change { config := { retry := .immediate 3 }, nameTries := 1 } (.append .ok {
    stream := ⟨"Sales", "Order", "1", .regular⟩
    events := [{ id := some ⟨7⟩, type := "Created" }] })

/-- The row to be inserted after a revision. -/
def orderRow (revision : Int32) : EventDraft :=
  Batch.draft ⟨"Sales", "Order", "1", .regular⟩ revision 1 { id := some ⟨7⟩, type := "Created" }

/-- What an attempt says after its begin that is told a revision, up to the insertion under
the next one. -/
def orderSteps (told next : Int32) (inserted : Except DbError (List StoredEvent)) :
    List Exchange :=
  [.isolated .serializable, .locked, .lastRead ⟨"Sales", "Order", "1", .regular⟩ [told],
    ⟨.eventTypeId "Created", .ok [1]⟩] ++ [⟨.insertEvent (orderRow next), inserted⟩]

/-- The replies to three attempts: the first ends with a conflict at the insertion, the second
at the commit. -/
def conflicting : Script where
  replies := [⟨none, .int32s [4]⟩, ⟨none, .int64s [1]⟩, ⟨none, .error (some "40001") "conflict"⟩,
    ⟨none, .int32s [5]⟩, ⟨none, .int64s [1]⟩, ⟨none, .echo .empty⟩,
    ⟨some .commit, .error (some "40P01") "deadlock"⟩,
    ⟨none, .int32s [6]⟩, ⟨none, .int64s [1]⟩, ⟨none, .echo .empty⟩]

/-- The replies to the third alone. -/
def smooth : Script where
  replies := [⟨none, .int32s [6]⟩, ⟨none, .int64s [1]⟩, ⟨none, .echo .empty⟩]

/-- The third attempt sends what it would have sent as the first, and the call returns the same. -/
theorem createdOrder_despite_conflicts :
    let third := Passage.transaction (orderSteps 6 7 (.ok [StoredEvent.ofDraft (orderRow 7) ⟨7⟩]))
      ⟨.commit, .ok ()⟩
    (createdOrder.call.start {}).exchanges Script.database smooth = third.exchanges ∧
      (createdOrder.call.runOn Script.database {} smooth).1 =
        (createdOrder.call.runOn Script.database {} conflicting).1 := by
  intro third
  let failed : List Passage := [
    .transaction (orderSteps 4 5 (.error (.database (some "40001") "conflict")))
      ⟨.rollback, .ok ()⟩,
    .transaction (orderSteps 5 6 (.ok [StoredEvent.ofDraft (orderRow 6) ⟨7⟩]))
      ⟨.commit, .error (.database (some "40P01") "deadlock")⟩]
  have said : (createdOrder.call.start {}).exchanges Script.database conflicting =
      [] ++ (failed.flatMap Passage.exchanges ++ (third.exchanges ++ [])) := by
    with_unfolding_all rfl
  have plain (told next : Int32) (inserted) :
      ∀ x ∈ orderSteps told next inserted, x.statement.isBoundary = false := by
    simp [orderSteps, Exchange.isolated, Exchange.locked, Exchange.lastRead,
      Statement.isBoundary]
  have conflicted : ∀ p ∈ failed, p.Conflicted :=
    List.forall_mem_cons.2 ⟨.inside (plain 4 5 _) (by decide),
      List.forall_mem_singleton.2 (.commit (plain 5 6 _) (by decide))⟩
  have answers : Script.database.Answers smooth ([] ++ third.exchanges) _ :=
    .cons rfl (.cons rfl (.cons rfl (.cons rfl (.cons rfl (.cons rfl (.cons rfl (.nil _)))))))
  obtain ⟨-, ⟨-, said', run⟩ | ⟨_, _, _, _, _, raised, _⟩⟩ :=
    despite_conflicts createdOrder said (List.forall_mem_nil _) conflicted (by decide)
      (.committed (plain 6 7 _) (by decide)) answers
  · exact ⟨said', by rw [run]⟩
  · rcases raised with ⟨_, refused⟩ | ⟨_, among, _⟩
    · cases refused
    · cases among

end Undertaking

end EventJournal

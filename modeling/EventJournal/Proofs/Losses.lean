import EventJournal.Proofs.Healing.LeafTable
import EventJournal.Proofs.Losses.Healing
import EventJournal.Proofs.Losses.Rereading

/-!
# One lost connection

Over a database without faults, an append whose connection is lost once mostly ends as it
would have ended. The attempt that is broken off leaves nothing behind and is made once
more, and so is a transaction in which a leaf is created. The events that are returned are
the same but for what is drawn anew, provided that the middlewares read them alike.

The loss shows in two ways (`Loss.Shows`). A lookup of a leaf is sent between the attempts,
in no transaction, and is not made again. And an attempt that is lost counts as one. A batch
that lacks a leaf needs two attempts of its own, so where two are all it has, and the first
is lost, it gives up at the second. Three are always enough.

The proof follows the loop of attempts. Before each of them either every event has a leaf,
or what came before was at most one attempt that was lost (`Standing`).

## Main results

* `Database.Faultless.ends_losing_append` — a call of which it is known what it would
  return.
* `Journal.appendWith_despite_loss` — a call that would return.
-/

namespace EventJournal

open EventJournal.Action

/-- A loss after which an append has no attempt left once it lacks a leaf: of two attempts
the first was lost. The leaves are those that there were before, and the events those that
were to be written. -/
structure Loss.Exhausts (policy : RetryPolicy) (leaves : Leaves) (stream : Stream)
    (written : List Event) (loss : Loss) : Prop where
  two : policy.maxAttempts.toNat = 2
  first : loss.InFirst
  lacking : ¬Batch.Covered leaves stream written

/-- How an append may end on account of a loss. -/
inductive Loss.Shows (policy : RetryPolicy) (leaves : Leaves) (stream : Stream)
    (written : List Event) (e : DbError) (loss : Loss) : Abort → Prop
  /-- A lookup is not made again. It follows the first transaction. -/
  | lookup (atLookup : loss.AtLookup) (later : ¬loss.InFirst) :
      loss.Shows policy leaves stream written e e.abort
  | exhausted (spent : loss.Exhausts policy leaves stream written) :
      loss.Shows policy leaves stream written e (.error
        (.retriesExhausted 2 (.missingPartitions stream (Batch.distinctTypes written))))

/-- To heal a batch gives each of its events a leaf. -/
theorem Batch.covered_grow (leaves : Leaves) (stream : Stream) (events : List Event) :
    Covered (leaves.grow (Round.leaves stream (distinctTypes events))) stream events :=
  fun event among =>
    Leaves.grow_of_mem (List.mem_map_of_mem (mem_distinctTypes.2 ⟨event, among, rfl⟩))

/-- What an append has returned: what the chain reads of rows that hold the events it has
written. -/
def Batch.Returned (chain : MiddlewareChain) (transform : EventTransform) (batch : Batch)
    (last : LastRevisions) (events : List Event) : Prop :=
  ∃ written rows, Database.Service.Ready chain transform batch (last batch.stream) written ∧
    Database.Service.Rows batch (last batch.stream) written rows ∧
    MiddlewareChain.outcome (chain.deserializeAll (rows.map StoredEvent.toEvent)) = .ok events

namespace Database.Faultless

variable {δ : Type} {db : Database δ} {config : CatalogConfig} {last : LastRevisions}
  {idle : LeafCache → Leaves → δ → Prop} {inside : LeafCache → Leaves → LastRevisions → δ → Prop}
  {opened : LeafCache → Leaves → δ → Prop} {cache : LeafCache} {leaves : Leaves} {d : δ}
  {chain : MiddlewareChain} {transform : EventTransform} {batch : Batch}

/-! ## Without a loss -/

/-- An attempt that fails has changed nothing. -/
theorem ends_append_opened (h : db.Faultless config last idle inside opened)
    (chain : MiddlewareChain) (transform : EventTransform) (batch : Batch)
    (is : opened cache leaves d) :
    Ends db (batch.append chain transform) cache d (fun _ _ _ => True)
      fun _ cache d => idle cache leaves (db.answer .rollback d).2 := by
  have sends := (Batch.sends_append (σ := LeafCache) chain transform batch).mono
    fun _ part => (.inr (.inl part) : Statement.IsWithin _)
  -- to leave the cache alone is part of giving up, whatever the error
  have surrenders : (batch.append chain transform : Action LeafCache _).Surrenders .poolClosed :=
    Batch.surrenders_append rfl chain transform batch
  refine ((Ends.of_sends (fun _ within _ is => h.keeps within is) sends is).and
    (surrenders.ends_state db cache d)).mono (fun _ _ _ _ => trivial) ?_
  rintro _ _ d ⟨is, rfl⟩
  exact h.undo is

/-- An append in a transaction. -/
theorem ends_append_returned (h : db.Faultless config last idle inside opened)
    (is : idle cache leaves d) :
    Ends db (inTransaction .serializable (batch.append chain transform)) cache d
      (fun events _ _ => batch.Returned chain transform last events)
      fun _ cache d => idle cache leaves d := by
  refine h.serves.ends_inTransaction (fun last' d begun is => ?_) is
  subst begun
  have failed := h.ends_append_opened chain transform batch (h.opens is)
  by_cases ready : ∃ written, Service.Ready chain transform batch (last' batch.stream) written
  · obtain ⟨written, ready⟩ := ready
    refine ((h.serves.ends_append ready is).and failed).mono ?_ fun _ _ _ h => h.2
    rintro events cache d ⟨⟨-, ⟨rows, hold, read⟩, is⟩, -⟩
    exact ⟨⟨written, rows, ready, hold, read⟩, _, is⟩
  · refine ((h.serves.ends_append_ready is).and failed).mono ?_ fun _ _ _ h => h.2
    exact fun _ _ _ got => absurd got.1 ready

/-- What an append returns, whichever of its attempts it is that returns. -/
theorem ends_appendWith_returned {j : Journal}
    (h : db.Faultless j.catalogConfig last idle inside opened) (is : idle cache leaves d) :
    Ends db (j.appendWith transform batch) cache d
      (fun events _ _ => batch.Returned j.chain transform last events) fun _ _ _ => True := by
  refine Ends.attempts (fun _ _ cache d => ∃ leaves, idle cache leaves d) ?_ 1 false cache d
    ⟨leaves, is⟩
  rintro attempt reconnected cache d ⟨leaves, is⟩
  refine (h.ends_append_returned is).mono (fun _ _ _ got => got) fun cause cache d is => ?_
  unfold Owed
  split
  · split
    · trivial
    · exact ⟨leaves, is⟩
    · exact ⟨leaves, is⟩
    · exact (h.healthy.ends_healWith_idle _ _ cache leaves d is).mono (fun _ _ _ is => ⟨_, is⟩)
        fun _ _ _ _ => trivial
  · trivial

/-! ## With a loss -/

variable {written : List Event} {Good : List Event → Prop} {policy : RetryPolicy}

/-- An append in a transaction, if whatever is read of its rows is good. -/
theorem ends_attempt (h : db.Faultless config last idle inside opened)
    (ready : Service.Ready chain transform batch (last batch.stream) written)
    (reads : ∀ rows, Service.Rows batch (last batch.stream) written rows →
      ∃ shown, MiddlewareChain.outcome (chain.deserializeAll (rows.map StoredEvent.toEvent)) =
        .ok shown ∧ Good shown) (is : idle cache leaves d) :
    Ends db (inTransaction .serializable (batch.append chain transform)) cache d
      (fun events _ _ => Batch.Covered leaves batch.stream written ∧ Good events)
      (fun cause cache d => ¬Batch.Covered leaves batch.stream written ∧
        cause = .error (.missingPartitions batch.stream (Batch.distinctTypes written)) ∧
        idle cache leaves d) := by
  refine h.serves.ends_inTransaction (fun last' d begun is => ?_) is
  subst begun
  refine (h.serves.ends_append ready is).mono ?_ ?_
  · rintro events cache d ⟨covered, ⟨rows, hold, read⟩, is⟩
    obtain ⟨shown, read', good⟩ := reads rows hold
    obtain rfl := Except.ok.inj (read.symm.trans read')
    exact ⟨⟨covered, good⟩, _, is⟩
  · rintro cause cache d (failed | ⟨rows, refusal, hold, refused⟩)
    · exact failed
    · obtain ⟨shown, read', -⟩ := reads rows hold
      cases refused.symm.trans read'

/-- Where an append stands before an attempt. Each of its events has a leaf, or one attempt
at most was made before, and that was lost. -/
def Standing (idle : LeafCache → Leaves → δ → Prop) (policy : RetryPolicy) (leaves : Leaves)
    (stream : Stream) (written : List Event) (attempt : Nat) (reconnected : Bool)
    (cache : LeafCache) (x : Exposed δ) : Prop :=
  ∃ now, idle cache now x.model ∧
    -- nothing is lost yet: there was no attempt before, or it was healed
    ((x.Whole ∧ reconnected = false ∧
        (Batch.Covered now stream written ∧ 0 < x.ended ∨
          attempt = 1 ∧ now = leaves ∧ x.ended = 0)) ∨
      -- it was lost outside of the attempts, or in an attempt that was healed, or in the first
      ∃ loss, x.Recovered loss ∧
        (Batch.Covered now stream written ∧ ¬loss.Exhausts policy leaves stream written ∨
          attempt = 2 ∧ now = leaves ∧ loss.InFirst))

/-- An append ends well although the connection may be lost, or the loss shows. The induction
is on the attempts, by `Standing`. -/
theorem ends_losing_append {e : DbError} {x : Exposed δ}
    (h : db.Faultless config last idle inside opened) (lost : e.isConnectionLoss = true)
    (ready : Service.Ready chain transform batch (last batch.stream) written)
    (reads : ∀ rows, Service.Rows batch (last batch.stream) written rows →
      ∃ shown, MiddlewareChain.outcome (chain.deserializeAll (rows.map StoredEvent.toEvent)) =
        .ok shown ∧ Good shown)
    (two : 2 ≤ policy.maxAttempts.toNat) (whole : x.Whole) (none : x.ended = 0)
    (is : idle cache leaves x.model) :
    Ends (db.losing e)
      (transact policy (some (Catalog.healer config)) (batch.append chain transform)) cache x
      (fun events _ y => Good events ∧
        ∀ loss, y.loss = some loss → ¬loss.Exhausts policy leaves batch.stream written)
      (fun cause _ y => ∃ loss, y.loss = some loss ∧
        loss.Shows policy leaves batch.stream written e cause) := by
  refine Ends.attempts (Standing idle policy leaves batch.stream written) ?_ 1 false cache x
    ⟨leaves, is, .inl ⟨whole, rfl, .inr ⟨rfl, rfl, none⟩⟩⟩
  rintro attempt reconnected cache y ⟨now, is, ⟨whole, rfl, held⟩ | ⟨loss, recovered, held⟩⟩
  · refine (ends_losing_inTransaction (h.undoes cache now) lost (.inl ⟨_, rfl⟩)
      ((Batch.sends_append chain transform batch).mono fun _ part => .inr (.inl part))
      (Batch.surrenders_append lost chain transform batch) whole is
      (h.ends_attempt ready reads is)).mono ?_ ?_
    · rintro events cache z ⟨⟨-, good⟩, whole, -⟩
      refine ⟨good, fun loss lost => ?_⟩
      cases whole.unlost.symm.trans lost
    rintro cause cache' z
      (⟨⟨absent, rfl, is⟩, past⟩ | ⟨rfl, rfl, is, loss, recovered, broke, same⟩)
    · obtain ⟨rfl, -⟩ := held.resolve_left fun before => absent before.1
      refine Owed.of_missing two ?_
      refine (h.ends_losing_healWith lost _ _ cache' now z past is).mono ?_ ?_
      · rintro _ cache y ⟨is, past⟩
        have covered := Batch.covered_grow now batch.stream written
        exact ⟨_, is, past.imp (fun ⟨whole, later⟩ => ⟨whole, rfl, .inl ⟨covered, later⟩⟩)
          fun ⟨loss, recovered, elsewhere⟩ =>
            ⟨loss, recovered, .inl ⟨covered, fun spent => elsewhere spent.first⟩⟩⟩
      · rintro _ _ y ⟨rfl, loss, same, atLookup, later⟩
        exact ⟨loss, same, .lookup atLookup later⟩
    · refine Owed.of_connectionLost ?_
      refine ⟨now, is, .inr ⟨loss, recovered, held.imp ?_ ?_⟩⟩
      · rintro ⟨covered, later⟩
        exact ⟨covered, fun spent => Nat.ne_of_gt later (same.symm.trans spent.first.first)⟩
      · rintro ⟨rfl, rfl, none⟩
        exact ⟨rfl, rfl, same.trans none, broke⟩
  · refine ((h.ends_attempt ready reads is).of_recovered e recovered).mono ?_ ?_
    · rintro events cache z ⟨⟨covered, good⟩, recovered⟩
      refine ⟨good, fun other same spent => ?_⟩
      obtain rfl : loss = other := Option.some.inj (recovered.loss.symm.trans same)
      rcases held with ⟨-, enough⟩ | ⟨-, rfl, -⟩
      · exact enough spent
      · exact spent.lacking covered
    rintro cause cache z ⟨⟨absent, rfl, is⟩, recovered⟩
    obtain ⟨rfl, same, first⟩ := held.resolve_left fun before => absent before.1
    by_cases left : 2 < policy.maxAttempts.toNat
    · refine Owed.of_missing left ?_
      refine ((h.healthy.ends_healWith_idle _ _ cache now z.model is).of_recovered e
        recovered).mono ?_ fun _ _ _ never => never.1.elim
      rintro _ cache y ⟨is, recovered⟩
      exact ⟨_, is, .inr ⟨loss, recovered, .inl ⟨Batch.covered_grow now batch.stream written,
        fun spent => Nat.ne_of_gt left spent.two⟩⟩⟩
    · have spent := Nat.not_lt.1 left
      exact Owed.of_missing_spent spent ⟨loss, recovered.loss,
        .exhausted ⟨Nat.le_antisymm spent two, first, same ▸ absent⟩⟩

end Database.Faultless

namespace Journal

/-- Over a database without faults, an append that returns does so as well if its connection
is lost once, whichever statement is not heard, unless the loss shows. What it returns then
are the same events but for what is drawn anew, if the middlewares read them alike. After a
loss that leaves it no attempt it does not return. -/
theorem appendWith_despite_loss {δ : Type} {db : Database δ} {j : Journal} {last : LastRevisions}
    {idle : LeafCache → Leaves → δ → Prop}
    {inside : LeafCache → Leaves → LastRevisions → δ → Prop}
    {opened : LeafCache → Leaves → δ → Prop}
    (faultless : db.Faultless j.catalogConfig last idle inside opened)
    {transform : EventTransform} {batch : Batch}
    (alike : ∀ written, Batch.prepare transform j.chain batch.events = .ok written →
      ∀ event ∈ written, j.chain.ReadsAlike event)
    (two : 2 ≤ j.config.retry.maxAttempts.toNat)
    {cache cache' : LeafCache} {leaves : Leaves} {d d' : δ} (is : idle cache leaves d)
    {events : List Event}
    (returns : (j.appendWith transform batch).runOn db cache d = ((.ok events, cache'), d'))
    {e : DbError} (lost : e.isConnectionLoss = true) (point : Nat) :
    ∃ written outcome cache'' x, Batch.prepare transform j.chain batch.events = .ok written ∧
      (j.appendWith transform batch).runOn (db.losing e) cache { model := d, due := some point } =
        ((outcome, cache''), x) ∧
      ((∃ again, outcome = .ok again ∧ List.Forall₂ Event.Alike events again ∧
          ∀ loss, x.loss = some loss →
            ¬loss.Exhausts j.config.retry leaves batch.stream written) ∨
        ∃ loss cause, x.loss = some loss ∧ outcome = .error cause ∧
          loss.Shows j.config.retry leaves batch.stream written e cause) := by
  obtain ⟨written, rows, ready, hold, read⟩ :=
    (ends_of_runOn_ok returns).1 (faultless.ends_appendWith_returned is)
  have ends := faultless.ends_losing_append (x := { model := d, due := some point }) lost ready
    (fun others hold' =>
      MiddlewareChain.ReadsAlike.deserializeAll (alike written ready.prepared) hold hold' read)
    two ⟨rfl, rfl⟩ rfl is
  rcases run : (j.appendWith transform batch).runOn (db.losing e) cache
    { model := d, due := some point } with ⟨⟨outcome, cache''⟩, x⟩
  refine ⟨written, outcome, cache'', x, ready.prepared, rfl, ?_⟩
  cases outcome with
  | ok again => exact .inl ⟨again, rfl, (ends_of_runOn_ok run).1 ends⟩
  | error cause =>
      obtain ⟨loss, same, shows_⟩ := (ends_of_runOn_error run).1 ends
      exact .inr ⟨loss, cause, same, rfl, shows_⟩

/-! ## A first order -/

/-- The first event of an order. -/
def firstOrder : Batch where
  stream := ⟨"Sales", "Order", "1", .regular⟩
  events := [{ type := "Created" }]

/-- How the append of a first order ends over a table. -/
def ordered (j : Journal) (t : LeafTable) : Except Abort (List Event) :=
  ((j.append firstOrder).runOn LeafTable.database {} t).1.1

/-- How it ends if the connection is lost at a point. -/
def orderedDespite (j : Journal) (t : LeafTable) (point : Nat) : Except Abort (List Event) :=
  ((j.append firstOrder).runOn (LeafTable.database.losing (.io "reset by peer")) {}
    { model := t, due := some point }).1.1

/-- What a call fails with, if it does. -/
def failure {α : Type} : Except Abort α → Option Abort
  | .ok _ => none
  | .error cause => some cause

theorem exists_of_failure {α : Type} {outcome : Except Abort α} (none : failure outcome = none) :
    ∃ value, outcome = .ok value := by
  cases outcome with
  | ok value => exact ⟨value, rfl⟩
  | error cause => cases none

/-- The lock on positions is the third statement of the call. If it is not heard, the second
attempt lacks a leaf and the third one returns. -/
theorem firstOrder_despite_loss :
    ∃ events again, ordered (withAttempts 3) {} = .ok events ∧
      orderedDespite (withAttempts 3) {} 2 = .ok again ∧
      List.Forall₂ Event.Alike events again := by
  have tries : (withAttempts 3).catalogConfig.nameTries ≠ 0 := by decide
  have alike (event : Event) : (withAttempts 3).chain.ReadsAlike event :=
    MiddlewareChain.readsAlike_of_oblivious (List.forall_mem_nil _) event
  obtain ⟨events, returned⟩ :=
    exists_of_failure (show failure (ordered (withAttempts 3) {}) = none by decide +kernel)
  obtain ⟨again, survived⟩ :=
    exists_of_failure (show failure (orderedDespite (withAttempts 3) {} 2) = none by decide +kernel)
  rcases run : ((withAttempts 3).append firstOrder).runOn LeafTable.database {} {} with
    ⟨⟨outcome, cache⟩, t⟩
  obtain rfl : outcome = .ok events := by rw [← returned, ordered, run]
  obtain ⟨_, outcome, cache', x, -, run', got⟩ := appendWith_despite_loss
    (LeafTable.faultless (fun _ => none) tries) (fun _ _ event _ => alike event) (by decide)
    LeafTable.idle_empty run (e := .io "reset by peer") rfl 2
  have same : outcome = .ok again := by
    rw [← survived]
    exact (congrArg (·.1.1) run').symm
  refine ⟨events, again, returned, survived, ?_⟩
  rcases got with ⟨shown, ended, all, -⟩ | ⟨_, _, _, failed, _⟩
  · cases same.symm.trans ended
    exact all
  · cases same.symm.trans failed

/-- Refuses to read what has a later position. -/
def readsUpTo (position : Int64) : Middleware where
  deserialize event :=
    if event.globalPosition.any (· ≤ position) then .ok event
    else .error (.middleware "cannot read so far")

/-- A table that has the leaf of the order. -/
def orderTable : LeafTable where
  stored := { partitions := [⟨1, "Sales", some "Order", some "Created", "event_types_1"⟩] }

/-- One lost connection shows. Over a table without faults the append returns with two
attempts and without middlewares, and does not if the lock on positions is not heard, nor if
the lookup of the leaf is not, which is the eighth statement. With a middleware that looks at
positions it returns over a table that has the leaf, and does not if the lock is not heard. -/
theorem firstOrder_shows_loss :
    let checked : Journal := { withAttempts 2 with chain := [readsUpTo 6] }
    LeafTable.database.Faultless (withAttempts 2).catalogConfig (fun _ => none)
        (LeafTable.Idle fun _ => none) (LeafTable.Inside fun _ => none)
        (LeafTable.Opened fun _ => none) ∧
      LeafTable.Idle (fun _ => none) {} (fun _ => false) {} ∧
      LeafTable.Idle (fun _ => none) {} orderTable.stored.leaves orderTable ∧
      (failure (ordered (withAttempts 2) {}) = none ∧
        failure (orderedDespite (withAttempts 2) {} 2) = some (.error (.retriesExhausted 2
          (.missingPartitions firstOrder.stream ["Created"]))) ∧
        failure (orderedDespite (withAttempts 2) {} 7) = some (.error (.connectionLost
          "error communicating with database: reset by peer"))) ∧
      failure (ordered checked orderTable) = none ∧
      failure (orderedDespite checked orderTable 2) =
        some (.error (.middleware "cannot read so far")) := by
  refine ⟨LeafTable.faultless _ (by decide), LeafTable.idle_empty,
    ⟨rfl, rfl, rfl, fun _ _ found => by cases found⟩, ?_⟩
  decide +kernel

end Journal

end EventJournal

import EventJournal.Proofs.Healing.Lacking
import EventJournal.Proofs.Table.Appends

/-!
# A database that serves appends

`Database.Service` speaks of any database by what is there between the transactions of a
call, the leaves, and by what an open transaction sees beside them, the last revisions of
streams. Everything that an append sends succeeds, but a row that belongs to no leaf. Where
a state stands in these respects is said by two relations, `idle` and `inside`, so nothing
is assumed of how a database is made.

Over such a database the end of an append is a function of the leaves that exist and of the
last revision of its stream: it succeeds if every event has a leaf, and otherwise fails with
all types of the batch, unless the revisions end before an event that it comes to.

## Main results

* `Database.Service.ends_append` — one batch in an open transaction.
* `Database.Service.ends_append_of_cleared` — the same where the revisions may end.
* `Database.Service.ends_inTransaction` — a unit in a transaction of its own.
-/

namespace EventJournal

open EventJournal.Action

variable {σ α δ : Type}

/-- The database serves appends. Between transactions `idle` tells which leaves there are,
and `inside` does in an open one, with the last revisions that it sees; a transaction begins
with last revisions that `begins` allows. -/
structure Database.Service (db : Database δ) (begins : LastRevisions → Prop)
    (idle : σ → Leaves → δ → Prop) (inside : σ → Leaves → LastRevisions → δ → Prop) : Prop where
  begin {s leaves d} (is : idle s leaves d) :
    ∃ last d', db.answer .begin d = (.ok (), d') ∧ begins last ∧ inside s leaves last d'
  isolate {s leaves last d} (is : inside s leaves last d) (level : Isolation) :
    ∃ d', db.answer (.isolate level) d = (.ok (), d') ∧ inside s leaves last d'
  lock {s leaves last d} (is : inside s leaves last d) :
    ∃ d', db.answer (.lockPositions .shared) d = (.ok (), d') ∧ inside s leaves last d'
  lastRevision {s leaves last d} (is : inside s leaves last d) (stream : Stream) :
    ∃ (revisions : List Int32) (d' : δ), db.answer (.lastRevision stream) d = (.ok revisions, d') ∧
      revisions.head? = last stream ∧ inside s leaves last d'
  eventTypeId {s leaves last d} (is : inside s leaves last d) (type : String) :
    ∃ (id : Int64) (others : List Int64) (d' : δ),
      db.answer (.eventTypeId type) d = (.ok (id :: others), d') ∧ inside s leaves last d'
  /-- A row that follows the last one of its stream is inserted if there is a leaf for it. -/
  insert {s leaves last d} (is : inside s leaves last d) (draft : EventDraft)
    (next : Revision.next? (last draft.stream) = some draft.revision)
    (there : leaves draft.leaf = true) :
    ∃ (drawn : Uuid) (position : Nat) (time : Instant) (others : List StoredEvent) (d' : δ),
      db.answer (.insertEvent draft) d = (.ok (.filled draft drawn position time :: others), d') ∧
        inside s leaves (Function.update last draft.stream (some draft.revision)) d'
  /-- If there is none it is refused for that reason, and the transaction can be undone. -/
  refuse {s leaves last d} (is : inside s leaves last d) (draft : EventDraft)
    (next : Revision.next? (last draft.stream) = some draft.revision)
    (absent : leaves draft.leaf = false) :
    ∃ e d', db.answer (.insertEvent draft) d = (.error e, d') ∧ e.isMissingPartition = true ∧
      idle s leaves (db.answer .rollback d').2
  commit {s leaves last d} (is : inside s leaves last d) :
    ∃ d', db.answer .commit d = (.ok (), d')

namespace Database.Service

variable {db : Database δ} {begins : LastRevisions → Prop} {idle : σ → Leaves → δ → Prop}
  {inside : σ → Leaves → LastRevisions → δ → Prop} {s : σ} {leaves : Leaves}
  {last : LastRevisions} {d : δ} {stream : Stream} {chain : MiddlewareChain}

/-! ## One batch -/

/-- An event that has a leaf is inserted. -/
theorem ends_insertOne_of_leaf (h : db.Service begins idle inside) {all : List Event}
    {first revision : Int32} {index : Nat} {event : Event} (is : inside s leaves last d)
    (at_index : Revision.advance? first index = some revision)
    (next : Revision.next? (last stream) = some revision)
    (there : leaves (stream.leaf event.type) = true) :
    Ends db (Batch.insertOne stream all first index event) s d
      (fun inserted s d => ∃ row : StoredEvent, row.Holds stream revision.toInt event ∧
        inserted = row.toEvent ∧ inside s leaves (Function.update last stream (some revision)) d)
      fun _ _ _ => False := by
  unfold Batch.insertOne
  simp only [ends_bind, ends_pure]
  obtain ⟨id, others, d₁, answer, is⟩ := h.eventTypeId is event.type
  refine (ends_ask_of_ok answer).2 ((ends_check_ok id).2 ?_)
  rw [at_index]
  refine (ends_pure revision).2 ?_
  obtain ⟨drawn, position, time, rows, d₂, answer, is⟩ :=
    h.insert is (Batch.draft stream revision id event) next there
  refine (ends_attempt_of_answer answer).2 ((ends_check_ok _).2 ?_)
  exact ⟨_, StoredEvent.holds_filled, rfl, is⟩

/-- An event that has none fails the batch with all of its types. -/
theorem ends_insertOne_of_none (h : db.Service begins idle inside) {all : List Event}
    {first revision : Int32} {index : Nat} {event : Event} (is : inside s leaves last d)
    (at_index : Revision.advance? first index = some revision)
    (next : Revision.next? (last stream) = some revision)
    (absent : leaves (stream.leaf event.type) = false) :
    Ends db (Batch.insertOne stream all first index event) s d (fun _ _ _ => False)
      fun cause s d => cause = .error (.missingPartitions stream (Batch.distinctTypes all)) ∧
        idle s leaves (db.answer .rollback d).2 := by
  unfold Batch.insertOne
  simp only [ends_bind, ends_pure]
  obtain ⟨id, others, d₁, answer, is⟩ := h.eventTypeId is event.type
  refine (ends_ask_of_ok answer).2 ((ends_check_ok id).2 ?_)
  rw [at_index]
  refine (ends_pure revision).2 ?_
  obtain ⟨e, d₂, answer, missing, idle⟩ :=
    h.refuse is (Batch.draft stream revision id event) next absent
  refine (ends_attempt_of_answer answer).2 ((ends_check_error _).2 ⟨?_, idle⟩)
  rw [Batch.insertError, if_pos missing]

/-- An event for which there is no revision ends the insertion. -/
theorem ends_insertOne_of_full (h : db.Service begins idle inside) {all : List Event}
    {first : Int32} {index : Nat} {event : Event} (is : inside s leaves last d)
    (full : Revision.advance? first index = none) :
    Ends db (Batch.insertOne stream all first index event) s d (fun _ _ _ => False)
      fun cause _ _ => cause = .overflow := by
  unfold Batch.insertOne
  simp only [ends_bind, ends_pure]
  obtain ⟨id, others, d₁, answer, is⟩ := h.eventTypeId is event.type
  refine (ends_ask_of_ok answer).2 ((ends_check_ok id).2 ?_)
  rw [full]
  exact (ends_abort _).2 rfl

/-- The events of a batch from an index on are inserted if each has a leaf, as long as there
are revisions for those that the insertion comes to. -/
theorem ends_insertFrom (h : db.Service begins idle inside) {all : List Event}
    {first : Int32} (events : List Event) :
    ∀ index s last d, inside s leaves last d →
      Revision.next? (last stream) = Revision.advance? first index →
      first.toInt + index ≤ Int32.maxValue.toInt + 1 →
      Ends db (Batch.insertFrom stream all first index events) s d
        (fun inserted s d => Batch.Covered leaves stream events ∧
          first.toInt + index + Batch.reach leaves stream events ≤ Int32.maxValue.toInt + 1 ∧
          (∃ rows, StoredEvent.HoldAll stream (first.toInt + (index : Nat)) events rows ∧
            inserted = rows.map StoredEvent.toEvent) ∧
          inside s leaves
            (Function.update last stream (Revision.after (last stream) events.length)) d)
        (fun cause s d =>
          (first.toInt + index + Batch.reach leaves stream events ≤ Int32.maxValue.toInt + 1 ∧
            ¬Batch.Covered leaves stream events ∧
            cause = .error (.missingPartitions stream (Batch.distinctTypes all)) ∧
            idle s leaves (db.answer .rollback d).2) ∨
          (Int32.maxValue.toInt + 1 < first.toInt + index + Batch.reach leaves stream events ∧
            cause = .overflow)) := by
  induction events with
  | nil =>
      intro index s last d is next fits
      unfold Batch.insertFrom
      rw [ends_pure]
      refine ⟨List.forall_mem_nil _, by simpa [Batch.reach] using fits, ⟨[], .nil _, rfl⟩, ?_⟩
      show inside s leaves (Function.update last stream (last stream)) d
      rwa [Function.update_eq_self]
  | cons event rest ih =>
      intro index s last d is next fits
      unfold Batch.insertFrom
      simp only [ends_bind, ends_pure]
      cases at_index : Revision.advance? first index with
      | none =>
          have top := Revision.advance?_eq_none_iff.1 at_index
          have some := Batch.reach_cons_pos leaves stream event rest
          refine (h.ends_insertOne_of_full is at_index).mono (fun _ _ _ never => never.elim) ?_
          exact fun cause _ _ ended => .inr ⟨by omega, ended⟩
      | some revision =>
          have room := Revision.le_of_advance? at_index
          rw [at_index] at next
          cases there : leaves (stream.leaf event.type) with
          | false =>
              rw [Batch.reach_cons_of_none there]
              refine (h.ends_insertOne_of_none is at_index next there).mono
                (fun _ _ _ never => never.elim) fun cause s d failed => .inl ⟨by omega, ?_, failed⟩
              intro covered
              exact Bool.false_ne_true (there.symm.trans (covered event List.mem_cons_self))
          | true =>
              rw [Batch.reach_cons_of_leaf there]
              refine (h.ends_insertOne_of_leaf is at_index next there).mono ?_
                fun _ _ _ never => never.elim
              intro inserted s d got
              obtain ⟨row, holds, rfl, is⟩ := got
              have step : Revision.next? (Function.update last stream (some revision) stream) =
                  Revision.advance? first (index + 1) := by
                rw [Function.update_self]
                exact Revision.advance?_succ at_index
              refine (ih (index + 1) s _ d is step (by omega)).mono ?_ ?_
              · intro others s d got
                obtain ⟨covered, fits, ⟨rows, hold, rfl⟩, is⟩ := got
                refine ⟨List.forall_mem_cons.2 ⟨there, covered⟩, by omega,
                  ⟨row :: rows, .cons ?_ ?_, rfl⟩, ?_⟩
                · rwa [Revision.toInt_of_advance? at_index] at holds
                · rw [show first.toInt + (index : Int) + 1 =
                    first.toInt + ((index + 1 : Nat) : Int) by omega]
                  exact hold
                · rw [Function.update_idem, Function.update_self] at is
                  rw [List.length_cons, Revision.after, next]
                  exact is
              · rintro cause s d (⟨fits, uncovered, failed⟩ | ⟨full, failed⟩)
                · exact .inl ⟨by omega, fun covered => uncovered (List.forall_mem_cons.1 covered).2,
                    failed⟩
                · exact .inr ⟨by omega, failed⟩

/-- What an append has passed when it comes to its first revision: its stream is in order, its
expectation is met, and the middlewares have written its events. -/
structure Cleared (chain : MiddlewareChain) (transform : EventTransform) (batch : Batch)
    (last : Option Int32) (events : List Event) : Prop where
  allowed : Batch.checkStream batch.stream = .ok ()
  admitted : batch.expected.admits last = true
  prepared : Batch.prepare transform chain batch.events = .ok events

/-- What an append depends on beside the leaves: it comes to its first revision, and there
are revisions for all of its events. -/
structure Ready (chain : MiddlewareChain) (transform : EventTransform) (batch : Batch)
    (last : Option Int32) (events : List Event) : Prop
    extends Cleared chain transform batch last events where
  fits : Revision.number last + max 1 events.length ≤ Int32.maxValue.toInt

/-- The rows of an append hold its events from the next revision on. -/
def Rows (batch : Batch) (last : Option Int32) (events : List Event) (rows : List StoredEvent) :
    Prop :=
  StoredEvent.HoldAll batch.stream (Revision.number last + 1) events rows

/-- An append that comes to its first revision succeeds if each event has a leaf and the
middlewares can read what they have written, as long as there are revisions for the events
that it comes to. -/
theorem ends_append_of_cleared (h : db.Service begins idle inside) {transform : EventTransform}
    {batch : Batch} {events : List Event}
    (cleared : Cleared chain transform batch (last batch.stream) events)
    (is : inside s leaves last d) :
    Ends db (batch.append chain transform) s d
      (fun result s d => Batch.Covered leaves batch.stream events ∧
        Batch.RoomWithin leaves batch.stream (last batch.stream) events ∧
        (∃ rows, Rows batch (last batch.stream) events rows ∧
          MiddlewareChain.outcome (chain.deserializeAll (rows.map StoredEvent.toEvent)) =
            .ok result) ∧
        inside s leaves (Function.update last batch.stream
          (Revision.after (last batch.stream) events.length)) d)
      (fun cause s d =>
        (Batch.RoomWithin leaves batch.stream (last batch.stream) events ∧
          ¬Batch.Covered leaves batch.stream events ∧
          cause = .error (.missingPartitions batch.stream (Batch.distinctTypes events)) ∧
          idle s leaves (db.answer .rollback d).2) ∨
        (¬Batch.RoomWithin leaves batch.stream (last batch.stream) events ∧ cause = .overflow) ∨
        ∃ rows refusal, Rows batch (last batch.stream) events rows ∧
          MiddlewareChain.outcome (chain.deserializeAll (rows.map StoredEvent.toEvent)) =
            .error refusal) := by
  unfold Batch.append Batch.RoomWithin
  simp only [ends_bind]
  rw [cleared.allowed]
  refine (ends_check_ok ()).2 ?_
  obtain ⟨d₁, answer, is⟩ := h.lock is
  refine (ends_ask_of_ok answer).2 ?_
  obtain ⟨revisions, d₂, answer, head, is⟩ := h.lastRevision is batch.stream
  refine (ends_ask_of_ok answer).2 ?_
  rw [head, ExpectedRevision.validate, if_pos cleared.admitted, cleared.prepared]
  refine (ends_check_ok ()).2 ((ends_check_ok events).2 ?_)
  refine Batch.ends_inRange (fun first next => ?_) fun none => ?_
  · have same := Revision.toInt_of_next? next
    have top := first.toInt_le
    refine (h.ends_insertFrom events 0 s last d₂ is ?_ (by omega)).mono ?_ ?_
    · rw [next]
      exact (Revision.advance?_zero first).symm
    · intro inserted s d got
      obtain ⟨covered, fits, ⟨rows, hold, rfl⟩, is⟩ := got
      rw [Int.natCast_zero, Int.add_zero, same] at hold
      refine Ends.check (fun result shown => ?_) fun refusal refused => ?_
      · exact ⟨covered, by omega, ⟨rows, hold, shown⟩, is⟩
      · exact .inr (.inr ⟨rows, refusal, hold, refused⟩)
    · rintro cause s d (⟨fits, failed⟩ | ⟨full, failed⟩)
      · exact .inl ⟨by omega, failed⟩
      · exact .inr (.inl ⟨by omega, failed⟩)
  · have full := Revision.lt_of_next?_eq_none none
    exact .inr (.inl ⟨by omega, rfl⟩)

/-- An append that depends on nothing but the leaves succeeds if each event has one, and if
the middlewares can read what they have written. -/
theorem ends_append (h : db.Service begins idle inside) {transform : EventTransform}
    {batch : Batch} {events : List Event}
    (ready : Ready chain transform batch (last batch.stream) events)
    (is : inside s leaves last d) :
    Ends db (batch.append chain transform) s d
      (fun result s d => Batch.Covered leaves batch.stream events ∧
        (∃ rows, Rows batch (last batch.stream) events rows ∧
          MiddlewareChain.outcome (chain.deserializeAll (rows.map StoredEvent.toEvent)) =
            .ok result) ∧
        inside s leaves (Function.update last batch.stream
          (Revision.after (last batch.stream) events.length)) d)
      (fun cause s d =>
        (¬Batch.Covered leaves batch.stream events ∧
          cause = .error (.missingPartitions batch.stream (Batch.distinctTypes events)) ∧
          idle s leaves (db.answer .rollback d).2) ∨
        ∃ rows refusal, Rows batch (last batch.stream) events rows ∧
          MiddlewareChain.outcome (chain.deserializeAll (rows.map StoredEvent.toEvent)) =
            .error refusal) := by
  refine (h.ends_append_of_cleared ready.toCleared is).mono ?_ ?_
  · intro _ _ _ got
    exact ⟨got.1, got.2.2⟩
  · rintro cause s d (failed | ⟨full, -⟩ | refused)
    · exact .inl failed.2
    · exact absurd (Batch.roomWithin_of_length ready.fits) full
    · exact .inr refused

/-- An append returns only where it depends on nothing but the leaves. -/
theorem ends_append_ready (h : db.Service begins idle inside) {transform : EventTransform}
    {batch : Batch} (is : inside s leaves last d) :
    Ends db (batch.append chain transform) s d
      (fun _ _ _ => ∃ events, Ready chain transform batch (last batch.stream) events)
      fun _ _ _ => True := by
  unfold Batch.append
  simp only [ends_bind]
  refine Ends.check (fun _ allowed => ?_) fun _ _ => trivial
  obtain ⟨d₁, answer, is⟩ := h.lock is
  refine (ends_ask_of_ok answer).2 ?_
  obtain ⟨revisions, d₂, answer, head, is⟩ := h.lastRevision is batch.stream
  refine (ends_ask_of_ok answer).2 ?_
  rw [head]
  refine Ends.check (fun _ validated => ?_) fun _ _ => trivial
  refine Ends.check (fun events prepared => ?_) fun _ _ => trivial
  refine Batch.ends_inRange (fun first next => ?_) fun _ => trivial
  have lower := Revision.toInt_of_next? next
  have top := first.toInt_le
  have at_first : Revision.next? (last batch.stream) = Revision.advance? first 0 := by
    rw [next, Revision.advance?_zero]
  refine (h.ends_insertFrom events 0 s last d₂ is at_first (by omega)).mono ?_
    fun _ _ _ _ => trivial
  intro inserted s d got
  obtain ⟨covered, fits, -, -⟩ := got
  rw [Batch.reach_of_covered covered] at fits
  refine Ends.check (fun _ _ => ⟨events, ⟨allowed, ?_, prepared⟩, by omega⟩) fun _ _ => trivial
  unfold ExpectedRevision.validate at validated
  split at validated
  · assumption
  · cases validated

/-! ## Transactions -/

/-- A unit in a transaction of its own, by what it does in an open one. -/
theorem ends_inTransaction (h : db.Service begins idle inside) {unit : Action σ α}
    {done : α → Prop} {bad : Abort → σ → δ → Prop}
    (runs : ∀ last d, begins last → inside s leaves last d →
      Ends db unit s d (fun value s d => done value ∧ ∃ last, inside s leaves last d)
        (fun cause s d => bad cause s (db.answer .rollback d).2))
    (is : idle s leaves d) :
    Ends db (inTransaction .serializable unit) s d (fun value _ _ => done value) bad := by
  rw [Action.ends_inTransaction]
  obtain ⟨last, d₁, answer, begun, is⟩ := h.begin is
  refine (ends_ask_of_ok answer).2 ?_
  obtain ⟨d₂, answer, is⟩ := h.isolate is .serializable
  refine (ends_ask_of_ok answer).2 ?_
  refine (runs last d₂ begun is).mono ?_ fun _ _ _ failed => failed
  intro value s d got
  obtain ⟨done, _, is⟩ := got
  obtain ⟨d₃, answer⟩ := h.commit is
  exact (ends_ask_of_ok answer).2 done

end Database.Service

/-- The database fails only for want of a leaf: it serves appends, and to ask for a leaf
makes it exist, and no other. -/
structure Database.Healthy (db : Database δ) (ensure : LeafKey → Action σ Partition)
    (begins : LastRevisions → Prop) (idle : σ → Leaves → δ → Prop)
    (inside : σ → Leaves → LastRevisions → δ → Prop) : Prop where
  serves : db.Service begins idle inside
  heals {s leaves d} (is : idle s leaves d) (key : LeafKey) :
    Ends db (ensure key) s d (fun _ s d => idle s (leaves.grow [key]) d) fun _ _ _ => False

/-- To heal makes the leaves of all types exist. -/
theorem Database.Healthy.ends_healWith_idle {db : Database δ}
    {ensure : LeafKey → Action σ Partition} {begins : LastRevisions → Prop}
    {idle : σ → Leaves → δ → Prop} {inside : σ → Leaves → LastRevisions → δ → Prop}
    (h : db.Healthy ensure begins idle inside) (stream : Stream) (types : List String) :
    ∀ s leaves d, idle s leaves d →
      Ends db (Catalog.healWith ensure stream types) s d
        (fun _ s d => idle s (leaves.grow (Round.leaves stream types)) d) fun _ _ _ => False := by
  induction types with
  | nil =>
      intro s leaves d is
      refine (ends_pure ()).2 ?_
      show idle s (leaves.grow []) d
      rwa [Leaves.grow_nil]
  | cons type rest ih =>
      intro s leaves d is
      show Ends db (_ >>= fun _ => Catalog.healWith ensure stream rest) s d _ _
      simp only [ends_bind, ends_pure]
      refine (h.heals is (stream.leaf type)).mono ?_ fun _ _ _ never => never
      intro _ s d is
      refine (ih s _ d is).mono ?_ fun _ _ _ never => never
      intro _ s d is
      rwa [Leaves.grow_grow] at is

end EventJournal

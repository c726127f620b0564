import EventJournal.Proofs.Delivery
import EventJournal.Proofs.Interleaving
import EventJournal.Proofs.Sends

/-!
# The protocol of the position lock

Every append takes the shared side of the lock on the global position before it inserts a
row, in the same transaction, and the safe position is read under the exclusive side of it,
by a transaction that is read committed. The protocol says so by the phases of a client; it
is obeyed whatever a client is answered, however often it tries again, and while it creates
partitions in between.

## Main results

* `Journal.ends_appendCall_lawful` — the calls that append obey the protocol.
* `SafePosition.ends_find_lawful` — so does a request for the safe position.
-/

namespace EventJournal

/-! ## The protocol -/

namespace SafePosition

/-- How far a client is with its transaction, as far as it can know. -/
inductive Phase where
  /-- It may have none. -/
  | away
  /-- It has begun one. -/
  | opened
  | serializable
  /-- It holds the shared side of the lock. -/
  | sharing
  | readCommitted
  /-- It holds the exclusive side of the lock, read committed. -/
  | excluding
  /-- It has read the last position under the exclusive side. -/
  | knowing (p : Int64)

namespace Phase

/-- The phase after a statement that did not fail. -/
def after : Phase → (s : Statement) → s.Answer → Phase
  | _, .begin, _ => .opened
  | _, .rollback, _ => .away
  | .knowing p, .commit, _ => .knowing p
  | _, .commit, _ => .away
  | .opened, .isolate .serializable, _ => .serializable
  | .opened, .isolate .readCommitted, _ => .readCommitted
  | _, .isolate _, _ => .away
  | .opened, _, _ => .away
  | .serializable, .lockPositions .shared, _ => .sharing
  | .readCommitted, .lockPositions .exclusive, _ => .excluding
  | .excluding, .lastPosition, p :: _ => .knowing p
  | phase, _, _ => phase

/-- Beside the frame of a transaction and the locks, a statement leaves the client in its
phase, or it is not known any more how far the transaction is. -/
theorem after_cases {s : Statement} (frame : s.isFrame = false)
    (lock : ∀ mode, s ≠ .lockPositions mode) (phase : Phase) (value : s.Answer) :
    phase.after s value = phase ∧ phase ≠ .opened ∨
      phase.after s value = .away ∨ ∃ p, phase.after s value = .knowing p := by
  cases s with
  | begin => cases frame
  | isolate isolation => cases frame
  | commit => cases frame
  | rollback => cases frame
  | lockPositions mode => exact absurd rfl (lock mode)
  | lastPosition =>
      cases phase with
      | opened => exact .inr (.inl rfl)
      | excluding =>
          cases value with
          | nil => exact .inl ⟨rfl, nofun⟩
          | cons p rest => exact .inr (.inr ⟨p, rfl⟩)
      | _ => exact .inl ⟨rfl, nofun⟩
  | _ =>
      cases phase with
      | opened => exact .inr (.inl rfl)
      | _ => exact .inl ⟨rfl, nofun⟩

end Phase

/-- Rows are inserted under the shared side of the lock, in a transaction in which no
statement has failed, and locks are taken once it has said how it is kept apart. -/
def protocol : Protocol Phase where
  allows phase
    | .insertEvent _ => phase = .sharing
    | .lockPositions _ => phase ≠ .opened
    | _ => True
  next phase s
    | .ok answer => phase.after s answer
    | .error _ => .away

end SafePosition

/-! ## What the clients send -/

open EventJournal.Action Protocol SafePosition

variable {σ : Type} {s : σ} {w : Watch Phase} {phase : Phase}

namespace SafePosition

/-- The catalog keeps to the protocol in every phase. -/
theorem allows_of_catalog {statement : Statement}
    (h : statement.isFrame = true ∨ statement.isOfCatalog = true) (phase : Phase) :
    protocol.allows phase statement := by
  cases statement <;> first | trivial | exact h.elim nofun nofun

/-- What sends statements of the catalog alone is lawful. -/
theorem ends_lawful_of_sends {α : Type} {action : Action σ α}
    (sends : action.Sends fun s => s.isFrame = true ∨ s.isOfCatalog = true) (lawful : w.lawful) :
    Ends protocol.database action s w (fun _ _ w => w.lawful) (fun _ _ w => w.lawful) := by
  refine Ends.of_sends (I := fun w : Watch Phase => w.lawful) ?_ sends lawful
  exact fun statement allowed w lawful => ⟨lawful, allows_of_catalog allowed w.phase⟩

/-- A unit in one transaction, told by the phases it runs through. The unit may run into a
failure in any phase. -/
theorem ends_inTransaction_lawful {α : Type} {isolation : Isolation} {unit : Action σ α}
    (reached : α → Phase → Prop) {ok : α → σ → Watch Phase → Prop}
    (runs : ∀ s w, w.IsIn (Phase.opened.after (.isolate isolation) ()) →
      Ends protocol.database unit s w (fun value _ w => w.lawful ∧ reached value w.phase)
        (fun _ _ w => w.lawful))
    (commits : ∀ value s w phase, reached value phase → w.IsIn (phase.after .commit ()) →
      ok value s w)
    (lawful : w.lawful) :
    Ends protocol.database (inTransaction isolation unit) s w ok (fun _ _ w => w.lawful) := by
  rw [ends_inTransaction]
  refine ends_ask_of_allows ⟨lawful, rfl⟩ trivial (fun _ w isIn => ?_) fun _ _ isIn => isIn.1
  refine ends_ask_of_allows isIn trivial (fun _ w isIn => ?_) fun _ _ isIn => ⟨isIn.1, trivial⟩
  apply Ends.mono (runs s w isIn)
  · intro value s w got
    obtain ⟨lawful, reached⟩ := got
    exact ends_ask_of_allows ⟨lawful, rfl⟩ trivial
      (fun _ w isIn => commits value s w _ reached isIn) fun _ _ isIn => isIn.1
  · exact fun _ _ w lawful => ⟨lawful, trivial⟩

end SafePosition

namespace Batch

theorem ends_insertOne_lawful {stream : Stream} {all : List Event} {first : Int32} {index : Nat}
    {event : Event} (sharing : w.IsIn .sharing) :
    Ends protocol.database (insertOne stream all first index event) s w
      (fun _ _ w => w.IsIn .sharing) (fun _ _ w => w.lawful) := by
  unfold insertOne
  simp only [ends_bind, ends_pure]
  refine ends_ask_of_allows sharing trivial (fun _ w sharing => ?_) fun _ _ isIn => isIn.1
  refine Ends.one (fun _ _ _ => ?_) fun _ => sharing.1
  refine ends_inRange (fun _ _ => ?_) fun _ => sharing.1
  refine ends_attempt_of_allows sharing rfl fun answer w isIn => ?_
  cases answer with
  | error e => exact (ends_check_error _).2 isIn.1
  | ok rows =>
      have sharing : w.IsIn .sharing := isIn
      exact Ends.check (fun _ _ => sharing) fun _ _ => sharing.1

theorem ends_insertFrom_lawful {stream : Stream} {all : List Event} {first : Int32}
    (events : List Event) :
    ∀ index s w, w.IsIn .sharing →
      Ends protocol.database (insertFrom stream all first index events : Action σ _) s w
        (fun _ _ w => w.IsIn .sharing) (fun _ _ w => w.lawful) := by
  induction events with
  | nil => exact fun index s w sharing => (ends_pure []).2 sharing
  | cons event rest ih =>
      intro index s w sharing
      unfold insertFrom
      simp only [ends_bind, ends_pure]
      apply Ends.mono (ends_insertOne_lawful sharing)
      · exact fun _ s w sharing => ih (index + 1) s w sharing
      · exact fun _ _ _ lawful => lawful

/-- An append takes the lock before it inserts. -/
theorem ends_append_lawful (chain : MiddlewareChain) (transform : EventTransform) (batch : Batch)
    (isIn : w.IsIn phase) (begun : phase = .serializable ∨ phase = .sharing) :
    Ends protocol.database (batch.append chain transform) s w (fun _ _ w => w.IsIn .sharing)
      (fun _ _ w => w.lawful) := by
  have locks : phase.after (.lockPositions .shared) () = .sharing := by
    rcases begun with rfl | rfl <;> rfl
  unfold append
  simp only [ends_bind]
  have ne : phase ≠ .opened := by
    rintro rfl
    rcases begun with same | same <;> cases same
  refine Ends.check (fun _ _ => ?_) fun _ _ => isIn.1
  refine ends_ask_of_allows isIn ne (fun _ w isIn => ?_) fun _ _ isIn => isIn.1
  have sharing : w.IsIn .sharing := locks ▸ isIn
  refine ends_ask_of_allows sharing trivial (fun _ w sharing => ?_) fun _ _ isIn => isIn.1
  refine Ends.check (fun _ _ => ?_) fun _ _ => sharing.1
  refine Ends.check (fun _ _ => ?_) fun _ _ => sharing.1
  refine ends_inRange (fun _ _ => ?_) fun _ => sharing.1
  apply Ends.mono (ends_insertFrom_lawful _ 0 s w sharing)
  · exact fun _ s w sharing => Ends.check (fun _ _ => sharing) fun _ _ => sharing.1
  · exact fun _ _ _ lawful => lawful

theorem ends_appendAll_lawful (chain : MiddlewareChain) (transform : EventTransform)
    (batches : List Batch) :
    ∀ s w phase, w.IsIn phase → phase = .serializable ∨ phase = .sharing →
      Ends protocol.database (appendAll chain transform batches : Action σ _) s w
        (fun _ _ w => w.lawful) (fun _ _ w => w.lawful) := by
  unfold appendAll
  induction batches with
  | nil =>
      intro s w phase isIn _
      rw [ends_mapM_nil]
      exact isIn.1
  | cons batch rest ih =>
      intro s w phase isIn begun
      rw [ends_mapM_cons]
      apply Ends.mono (ends_append_lawful chain transform batch isIn begun)
      · exact fun _ s w sharing => ih s w .sharing sharing (.inr rfl)
      · exact fun _ _ _ lawful => lawful

end Batch

namespace Journal

/-- A call whose unit is lawful is lawful, with all its attempts and healings. -/
theorem ends_transact_lawful {α : Type} (j : Journal) {unit : Action LeafCache α}
    (runs : ∀ s w, w.IsIn .serializable →
      Ends protocol.database unit s w (fun _ _ w => w.lawful) (fun _ _ w => w.lawful))
    {s : LeafCache} (lawful : w.lawful) :
    Ends protocol.database (j.transact unit) s w (fun _ _ w => w.lawful)
      (fun _ _ w => w.lawful) := by
  refine Ends.transact_keeps (I := fun w : Watch Phase => w.lawful) ?_ ?_ s w lawful
  · intro s w lawful
    refine ends_inTransaction_lawful (fun _ _ => True) ?_ ?_ lawful
    · exact fun s w isIn => (runs s w isIn).mono (fun _ _ _ lawful => ⟨lawful, trivial⟩)
        fun _ _ _ lawful => lawful
    · exact fun _ _ _ _ _ isIn => isIn.1
  · intro f there stream types s w lawful
    cases there
    exact ends_lawful_of_sends (Catalog.sends_healer j.catalogConfig stream types) lawful

/-- A call that appends takes the lock before it inserts, in every attempt. -/
theorem ends_appendCall_lawful (j : Journal) (call : AppendCall) (s : LeafCache)
    (lawful : w.lawful) :
    Ends protocol.database (call.perform j) s w (fun _ _ w => w.lawful)
      (fun _ _ w => w.lawful) := by
  have append : ∀ transform batch s (w : Watch Phase), w.lawful →
      Ends protocol.database (j.appendWith transform batch) s w (fun _ _ w => w.lawful)
        (fun _ _ w => w.lawful) := by
    intro transform batch s w lawful
    refine j.ends_transact_lawful (fun s w isIn => ?_) lawful
    exact (Batch.ends_append_lawful j.chain transform batch isIn (.inl rfl)).mono
      (fun _ _ _ isIn => isIn.1) fun _ _ _ lawful => lawful
  cases call with
  | append transform batch =>
      simp only [AppendCall.perform, ends_bind, ends_pure]
      exact append transform batch s w lawful
  | appendMany batches =>
      refine j.ends_transact_lawful (fun s w isIn => ?_) lawful
      exact Batch.ends_appendAll_lawful j.chain .ok batches s w _ isIn (.inl rfl)
  | linkTo targets =>
      simp only [AppendCall.perform, linkTo, ends_bind, ends_pure]
      refine Ends.check (fun _ _ => ?_) fun _ _ => lawful
      have locates : (locate [] targets.events).Sends
          fun s => s.isFrame = true ∨ s.isOfCatalog = true :=
        (sends_locate targets.events []).mono
          fun _ lookup => .inr (Statement.isOfCatalog_of_isLookup lookup)
      refine (ends_lawful_of_sends locates lawful).mono ?_ fun _ _ _ lawful => lawful
      exact fun partitions s w lawful => append _ targets s w lawful

end Journal

namespace SafePosition

/-- Whoever is told the safe position has read it under the exclusive side of the lock. -/
theorem ends_find_lawful (lawful : w.lawful) :
    Ends protocol.database find s w (fun p _ w => w.lawful ∧ w.phase = .knowing p)
      (fun _ _ w => w.lawful) := by
  refine ends_inTransaction_lawful (fun p phase => phase = .knowing p) ?_ ?_ lawful
  · intro s w isIn
    unfold read
    simp only [ends_bind]
    have ne : Phase.readCommitted ≠ .opened := by
      intro same
      cases same
    refine ends_ask_of_allows isIn ne (fun _ w isIn => ?_) fun _ _ isIn => isIn.1
    have excluding : w.IsIn .excluding := isIn
    refine ends_ask_of_allows excluding trivial (fun positions w isIn => ?_) fun _ _ isIn => isIn.1
    refine Ends.one ?_ fun _ => isIn.1
    rintro p rest rfl
    exact isIn
  · intro p s w phase reached isIn
    subst reached
    exact isIn

end SafePosition

end EventJournal

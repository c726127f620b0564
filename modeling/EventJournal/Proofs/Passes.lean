import EventJournal.Append
import Mathlib.Data.List.Forall2

/-!
# What a chain makes of events

A chain is applied to an event in a pass that keeps the event beside a refusal. What a
caller gets who has no use for a refused event is simpler: on the way in, each middleware
after the one registered before it (`MiddlewareChain.shape`), on the way back, each before
the one registered after it (`MiddlewareChain.unshape`), and a list of events one by one.
A pass over a list succeeds where every item does (`mapM_eq_ok_iff`), and otherwise fails
as the first item that fails (`mapM_eq_error_iff`).

Nothing is refused but by the caller's transform or by a middleware of the chain: the error
is one that they raise (`MiddlewareChain.Raises`).
-/

namespace EventJournal

/-! ## Passes over lists -/

section

variable {α β ε : Type} {f : α → Except ε β}

theorem mapM_cons_of_ok {item : α} {value : β} (one : f item = .ok value) (rest : List α) :
    (item :: rest).mapM f = (rest.mapM f).map (value :: ·) := by
  rw [List.mapM_cons, one]
  cases rest.mapM f <;> rfl

theorem mapM_cons_of_error {item : α} {e : ε} (one : f item = .error e) (rest : List α) :
    (item :: rest).mapM f = .error e := by
  rw [List.mapM_cons, one]
  rfl

/-- A pass over a list succeeds with a result for each item. -/
theorem mapM_eq_ok_iff {items : List α} {values : List β} :
    items.mapM f = .ok values ↔
      List.Forall₂ (fun item value => f item = .ok value) items values := by
  induction items generalizing values with
  | nil => cases values <;> simp [pure, Except.pure]
  | cons item rest ih =>
      cases one : f item with
      | error e => cases values <;> simp [mapM_cons_of_error one, one]
      | ok value =>
          rw [mapM_cons_of_ok one]
          cases others : rest.mapM f <;> cases values <;>
            simp [Except.map, ← ih, others, one]

/-- Every result of a pass is that of one of the items. -/
theorem exists_of_mapM_eq_ok {items : List α} {values : List β} {value : β}
    (h : items.mapM f = .ok values) (there : value ∈ values) :
    ∃ item ∈ items, f item = .ok value := by
  have each := mapM_eq_ok_iff.1 h
  clear h
  induction each with
  | nil => cases there
  | @cons item first rest others one _ ih =>
      rcases List.mem_cons.1 there with rfl | there
      · exact ⟨item, List.mem_cons_self, one⟩
      · obtain ⟨item, member, made⟩ := ih there
        exact ⟨item, List.mem_cons_of_mem _ member, made⟩

/-- A pass over a list fails as its first item that fails. -/
theorem mapM_eq_error_iff {items : List α} {e : ε} :
    items.mapM f = .error e ↔ ∃ before item after, items = before ++ item :: after ∧
      (∀ earlier ∈ before, ∃ value, f earlier = .ok value) ∧ f item = .error e := by
  induction items with
  | nil => simp [pure, Except.pure]
  | cons item rest ih =>
      cases one : f item with
      | error other =>
          rw [mapM_cons_of_error one]
          constructor
          · intro h
            exact ⟨[], item, rest, rfl, by simp, by rw [one, Except.error.inj h]⟩
          · rintro ⟨before, failing, after, hSplit, hBefore, hFails⟩
            cases before with
            | nil => simp_all
            | cons first before => simp_all
      | ok value =>
          have hRest : (rest.mapM f).map (value :: ·) = .error e ↔ rest.mapM f = .error e := by
            cases rest.mapM f <;> simp [Except.map]
          rw [mapM_cons_of_ok one, hRest, ih]
          constructor
          · rintro ⟨before, failing, after, rfl, hBefore, hFails⟩
            exact ⟨item :: before, failing, after, rfl, by simp_all, hFails⟩
          · rintro ⟨before, failing, after, hSplit, hBefore, hFails⟩
            cases before with
            | nil => simp_all
            | cons first before =>
                simp only [List.cons_append, List.cons.injEq] at hSplit
                have hEarlier : ∀ x ∈ before, ∃ value, f x = .ok value :=
                  fun x hx => hBefore x (by simp [hx])
                exact ⟨before, failing, after, hSplit.2, hEarlier, hFails⟩

/-- A pass that hands a value from item to item fails at one of them. -/
theorem exists_of_foldlM_eq_error {step : β → α → Except ε β} {items : List α} {value : β}
    {e : ε} (h : items.foldlM step value = .error e) :
    ∃ item ∈ items, ∃ value, step value item = .error e := by
  induction items generalizing value with
  | nil => cases h
  | cons item rest ih =>
      rw [List.foldlM_cons] at h
      cases one : step value item with
      | error other =>
          rw [one] at h
          cases h
          exact ⟨item, by simp, value, one⟩
      | ok next =>
          rw [one] at h
          obtain ⟨later, hMem, hFails⟩ := ih h
          exact ⟨later, by simp [hMem], hFails⟩

end

namespace MiddlewareChain

/-! ## Passes of a chain -/

/-- An event as it is stored: after the transform, and then after each middleware in the
order of registration. -/
def shape (chain : MiddlewareChain) (transform : EventTransform) (event : Event) :
    Except JournalError Event := do
  let event ← transform event
  chain.foldlM (fun event m => m.serialize event) event

/-- An event as it is returned: after each middleware, the last registered first. -/
def unshape (chain : MiddlewareChain) (event : Event) : Except JournalError Event :=
  chain.foldrM (fun m event => m.deserialize event) event

theorem outcome_pass (transforms : List EventTransform) (event : Event) :
    outcome (pass transforms event) = transforms.foldlM (fun event t => t event) event := by
  induction transforms generalizing event with
  | nil => rfl
  | cons transform rest ih =>
      rw [pass, List.foldlM_cons]
      cases transform event with
      | error cause => rfl
      | ok passed => exact ih passed

theorem outcome_each (transform : Event → Event × Option JournalError) (events : List Event) :
    outcome (each transform events) = events.mapM fun event => outcome (transform event) := by
  induction events with
  | nil => rfl
  | cons event rest ih =>
      rw [each, List.mapM_cons, ← ih]
      rcases transform event with ⟨passed, _ | cause⟩
      · rcases each transform rest with ⟨others, _ | cause⟩ <;> rfl
      · rfl

theorem outcome_serialize (chain : MiddlewareChain) (event : Event) :
    outcome (chain.serialize event) = chain.foldlM (fun event m => m.serialize event) event := by
  rw [serialize, outcome_pass, List.foldlM_map]

/-- The events of a batch are shaped one by one. -/
theorem prepare_eq (transform : EventTransform) (chain : MiddlewareChain) (events : List Event) :
    Batch.prepare transform chain events = events.mapM (chain.shape transform) := by
  simp only [Batch.prepare, outcome_serialize]
  rfl

theorem outcome_deserialize (chain : MiddlewareChain) (event : Event) :
    outcome (chain.deserialize event) = chain.unshape event := by
  rw [deserialize, outcome_pass, List.foldlM_map, List.foldlM_reverse, unshape]

theorem outcome_deserializeAll (chain : MiddlewareChain) (events : List Event) :
    outcome (chain.deserializeAll events) = events.mapM chain.unshape := by
  simp only [deserializeAll, outcome_each, outcome_deserialize]

/-! ## Who refuses events -/

/-- The transform or a middleware of the chain refuses some event with the error. -/
def Raises (chain : MiddlewareChain) (transform : EventTransform) (cause : JournalError) : Prop :=
  (∃ event, transform event = .error cause) ∨
    ∃ m ∈ chain, ∃ event, m.serialize event = .error cause ∨ m.deserialize event = .error cause

variable {chain : MiddlewareChain} {transform : EventTransform} {events : List Event}
  {cause : JournalError}

theorem raises_of_shape {event : Event} (h : chain.shape transform event = .error cause) :
    chain.Raises transform cause := by
  rw [shape] at h
  cases hTransform : transform event with
  | error other =>
      rw [hTransform] at h
      cases h
      exact .inl ⟨event, hTransform⟩
  | ok passed =>
      rw [hTransform] at h
      obtain ⟨m, hMem, event, hFails⟩ := exists_of_foldlM_eq_error h
      exact .inr ⟨m, hMem, event, .inl hFails⟩

theorem raises_of_unshape {event : Event} (h : chain.unshape event = .error cause)
    (transform : EventTransform) : chain.Raises transform cause := by
  rw [unshape, ← List.foldlM_reverse] at h
  obtain ⟨m, hMem, event, hFails⟩ := exists_of_foldlM_eq_error h
  exact .inr ⟨m, List.mem_reverse.1 hMem, event, .inr hFails⟩

theorem raises_of_prepare (h : Batch.prepare transform chain events = .error cause) :
    chain.Raises transform cause := by
  rw [prepare_eq, mapM_eq_error_iff] at h
  obtain ⟨_, event, _, -, -, hFails⟩ := h
  exact raises_of_shape hFails

theorem raises_of_deserializeAll (h : outcome (chain.deserializeAll events) = .error cause)
    (transform : EventTransform) : chain.Raises transform cause := by
  rw [outcome_deserializeAll, mapM_eq_error_iff] at h
  obtain ⟨_, event, _, -, -, hFails⟩ := h
  exact raises_of_unshape hFails transform

end MiddlewareChain

end EventJournal

import EventJournal.Journal

/-!
# Middlewares that lose nothing

A middleware is lossless if it rewrites nothing of an event but its payload, never refuses,
and takes off what it has put on. A chain of such middlewares is one: it takes its layers off
in the reverse of the order in which it has put them on, so its members need not commute.
Where a chain refuses nothing, a pass over a list of events is a map, on the way in as on the
way back.

## Main results

* `MiddlewareChain.Lossless.payload_shown` — what a chain makes of an event as it is written
  has the payload of the event.
* `MiddlewareChain.Total.prepare`, `MiddlewareChain.Total.deserializeAll` — lists of events on
  the way in and back.
-/

namespace EventJournal

/-- What middlewares may rewrite of an event. -/
structure Payload where
  type : String
  data : Json
  metadata : Json

namespace Event

def payload (e : Event) : Payload := ⟨e.type, e.data, e.metadata⟩

def withPayload (e : Event) (p : Payload) : Event :=
  { e with type := p.type, data := p.data, metadata := p.metadata }

@[simp] theorem withPayload_payload (e : Event) : e.withPayload e.payload = e := by
  cases e
  rfl

end Event

/-- The columns in which a row stores a payload. -/
def StoredEvent.payload (row : StoredEvent) : Payload := ⟨row.type, row.data, row.metadata⟩

/-- The middleware rewrites the payload alone, in both directions, and what it has written it
reads back. -/
def Middleware.Lossless (m : Middleware) : Prop :=
  ∃ write read : Payload → Payload,
    (∀ e, m.serialize e = .ok (e.withPayload (write e.payload))) ∧
    (∀ e, m.deserialize e = .ok (e.withPayload (read e.payload))) ∧
    ∀ p, read (write p) = p

namespace MiddlewareChain

/-- The event as the chain writes it. -/
def written (chain : MiddlewareChain) (e : Event) : Event := (chain.serialize e).1

/-- What the chain makes of an event that is read. -/
def shown (chain : MiddlewareChain) (e : Event) : Event := (chain.deserialize e).1

/-- The chain refuses no event, in either direction. -/
structure Total (chain : MiddlewareChain) : Prop where
  writes : ∀ e, (chain.serialize e).2 = none
  reads : ∀ e, (chain.deserialize e).2 = none

theorem each_eq {transform : Event → Event × Option JournalError} {made : Event → Event}
    (total : ∀ e, transform e = (made e, none)) (events : List Event) :
    each transform events = (events.map made, none) := by
  induction events with
  | nil => rfl
  | cons e rest ih =>
      rw [each, total]
      dsimp only
      rw [ih]
      rfl

namespace Total

variable {chain : MiddlewareChain}

theorem serialize_eq (total : chain.Total) (e : Event) :
    chain.serialize e = (chain.written e, none) := Prod.ext rfl (total.writes e)

theorem deserialize_eq (total : chain.Total) (e : Event) :
    chain.deserialize e = (chain.shown e, none) := Prod.ext rfl (total.reads e)

/-- Events on the way in are written one by one, after nothing else. -/
theorem prepare (total : chain.Total) (events : List Event) :
    Batch.prepare .ok chain events = .ok (events.map chain.written) := by
  induction events with
  | nil => rfl
  | cons e rest ih =>
      have one : (do let e ← Except.ok e; outcome (chain.serialize e) : Except JournalError Event) =
          .ok (chain.written e) := by
        show outcome (chain.serialize e) = _
        rw [total.serialize_eq]
        rfl
      unfold Batch.prepare at ih ⊢
      rw [List.mapM_cons, one, ih]
      rfl

/-- Events on the way back are shown one by one. -/
theorem deserializeAll (total : chain.Total) (events : List Event) :
    outcome (chain.deserializeAll events) = .ok (events.map chain.shown) := by
  unfold MiddlewareChain.deserializeAll
  rw [each_eq total.deserialize_eq]
  rfl

end Total

/-- Every member is lossless. -/
def Lossless (chain : MiddlewareChain) : Prop := ∀ m ∈ chain, m.Lossless

/-- The row was written for the event: it stores the payload that the chain writes. -/
def Wrote (chain : MiddlewareChain) (e : Event) (row : StoredEvent) : Prop :=
  row.payload = (chain.written e).payload

theorem pass_append (transforms others : List EventTransform) (e : Event) :
    pass (transforms ++ others) e =
      match pass transforms e with
      | (e, none) => pass others e
      | refused => refused := by
  induction transforms generalizing e with
  | nil => rfl
  | cons transform rest ih =>
      rw [List.cons_append, pass, pass]
      cases transform e with
      | ok e => exact ih e
      | error cause => rfl

theorem deserialize_cons (m : Middleware) (chain : MiddlewareChain) (e : Event) :
    deserialize (m :: chain) e =
      match chain.deserialize e with
      | (e, none) => pass [m.deserialize] e
      | refused => refused := by
  unfold deserialize
  rw [List.reverse_cons, List.map_append]
  exact pass_append _ _ e

namespace Lossless

variable {chain : MiddlewareChain}

/-- A chain does to a payload what one lossless middleware does. -/
theorem exists_layers (lossless : chain.Lossless) :
    ∃ write read : Payload → Payload,
      (∀ e, chain.serialize e = (e.withPayload (write e.payload), none)) ∧
      (∀ e, chain.deserialize e = (e.withPayload (read e.payload), none)) ∧
      ∀ p, read (write p) = p := by
  induction chain with
  | nil =>
      have left (e : Event) :
          (e, none) = (e.withPayload e.payload, (none : Option JournalError)) := by
        rw [Event.withPayload_payload]
      exact ⟨id, id, left, left, fun _ => rfl⟩
  | cons m rest ih =>
      obtain ⟨first, others⟩ := List.forall_mem_cons.1 lossless
      obtain ⟨write, read, serializes, deserializes, undone⟩ := first
      obtain ⟨writeRest, readRest, serialized, deserialized, undoneRest⟩ := ih others
      refine ⟨writeRest ∘ write, read ∘ readRest, fun e => ?_, fun e => ?_, fun p => ?_⟩
      · unfold serialize
        rw [List.map_cons, pass, serializes]
        exact serialized _
      · rw [deserialize_cons, deserialized]
        dsimp only
        rw [pass, deserializes]
        rfl
      · exact (congrArg read (undoneRest _)).trans (undone p)

theorem total (lossless : chain.Lossless) : chain.Total := by
  obtain ⟨write, read, serialized, deserialized, -⟩ := lossless.exists_layers
  constructor
  · intro e
    rw [serialized]
  · intro e
    rw [deserialized]

/-- The link event in whose place an event stands makes no difference to the chain. -/
theorem shown_withLink (lossless : chain.Lossless) (e : Event) (link : Option Event) :
    chain.shown { e with link } = { chain.shown e with link } := by
  obtain ⟨-, read, -, deserialized, -⟩ := lossless.exists_layers
  unfold shown
  rw [deserialized, deserialized]
  rfl

/-- A row is shown with the payload of any event that it was written for. -/
theorem payload_shown (lossless : chain.Lossless) {e : Event} {row : StoredEvent}
    (wrote : chain.Wrote e row) : (chain.shown row.toEvent).payload = e.payload := by
  obtain ⟨write, read, serialized, deserialized, undone⟩ := lossless.exists_layers
  have stored : row.toEvent.payload = write e.payload := by
    show row.payload = _
    rw [wrote, written, serialized]
    rfl
  unfold shown
  rw [deserialized, stored, undone]
  rfl

end Lossless

/-- The chain without members loses nothing. -/
theorem lossless_nil : Lossless [] := nofun

end MiddlewareChain

namespace Middleware

end Middleware

end EventJournal

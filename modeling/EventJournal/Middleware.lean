import EventJournal.Error
import EventJournal.Event

/-!
# Middlewares

A middleware transforms events on their way into the store and back, for example to
encrypt payloads. A chain of middlewares writes in the order of registration and reads
in the reverse order, so that the last layer put on is the first taken off.

A chain stops at the first refusal. What the earlier members did to the event remains
visible to the caller, so a pass returns the event beside the refusal.
-/

namespace EventJournal

/-- A change of events that may refuse one. -/
abbrev EventTransform : Type := Event → Except JournalError Event

/-- A transform for each direction. -/
structure Middleware where
  serialize : EventTransform := .ok
  deserialize : EventTransform := .ok

/-- Middlewares in the order of their registration. -/
abbrev MiddlewareChain := List Middleware

namespace MiddlewareChain

/-- Applies transforms in turn until one refuses. -/
def pass : List EventTransform → Event → Event × Option JournalError
  | [], event => (event, none)
  | transform :: rest, event =>
      match transform event with
      | .ok event => pass rest event
      | .error cause => (event, some cause)

/-- The event as it is written. -/
def serialize (chain : MiddlewareChain) (event : Event) : Event × Option JournalError :=
  pass (chain.map (·.serialize)) event

/-- The event as it is read. -/
def deserialize (chain : MiddlewareChain) (event : Event) : Event × Option JournalError :=
  pass (chain.reverse.map (·.deserialize)) event

/-- Transforms events one after the other until one is refused; those after it stay as
they are. -/
def each (transform : Event → Event × Option JournalError) :
    List Event → List Event × Option JournalError
  | [] => ([], none)
  | event :: rest =>
      match transform event with
      | (event, some cause) => (event :: rest, some cause)
      | (event, none) =>
          let (rest, refusal) := each transform rest
          (event :: rest, refusal)

/-- The events of a read. -/
def deserializeAll (chain : MiddlewareChain) (events : List Event) :
    List Event × Option JournalError :=
  each chain.deserialize events

/-- The outcome of a pass for a caller that has no use for a refused event. -/
def outcome {α : Type} : α × Option JournalError → Except JournalError α
  | (value, none) => .ok value
  | (_, some cause) => .error cause

/-- The chain as diagnostic texts show it. -/
def describe (chain : MiddlewareChain) : String :=
  "MiddlewareChain \x7b len: " ++ toString chain.length ++ " \x7d"

end MiddlewareChain

namespace Middleware

/-! ## Ready-made middlewares -/

/-- Leaves events alone. -/
def identity : Middleware := {}

/-- The text at the member `trail` of some metadata, empty where there is none. -/
def trailOf (metadata : Json) : String := ((metadata.member? "trail").bind Json.asText).getD ""

/-- Replaces the metadata by its trail with a mark added. -/
def mark (text : String) (event : Event) : Event :=
  { event with metadata := .object [("trail", .text (trailOf event.metadata ++ text))] }

/-- Leaves a trail in the metadata: the mark on the way in, the mark in capital letters
on the way back. Marks are words in letters from `a` to `z`; others have no capitals. -/
def trail (text : String) : Middleware where
  serialize event := .ok (mark text event)
  deserialize event := .ok (mark (text.map Char.toUpper) event)

/-- Wraps payloads into an object with one member, and unwraps objects that have it. -/
def envelope : Middleware where
  serialize event := .ok { event with data := .object [("sealed", event.data)] }
  deserialize event :=
    match event.data.member? "sealed" with
    | some data => .ok { event with data }
    | none => .ok event

/-- Stores every event under one type. -/
def retype (type : String) : Middleware where
  serialize event := .ok { event with type }

/-- Refuses to write events of a type. -/
def refuseWriting (type : String) : Middleware where
  serialize event :=
    if event.type = type then .error (.middleware ("cannot write " ++ type)) else .ok event

/-- Refuses to read events of a type. -/
def refuseReading (type : String) : Middleware where
  deserialize event :=
    if event.type = type then .error (.middleware ("cannot read " ++ type)) else .ok event

end Middleware

end EventJournal

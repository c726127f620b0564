/-!
# Classes of event types

A registry says which class of an application an event type belongs to. A type that
was never registered has the fallback class; of two registrations of one type the later
one counts.
-/

namespace EventJournal

structure Registry (κ : Type) where
  /-- The registrations, newest first. -/
  classes : List (String × κ) := []
  fallback : κ

namespace Registry

variable {κ : Type}

def register (r : Registry κ) (type : String) (cls : κ) : Registry κ :=
  { r with classes := (type, cls) :: r.classes }

/-- The class a type was registered with. -/
def find? (r : Registry κ) (type : String) : Option κ := r.classes.lookup type

def isRegistered (r : Registry κ) (type : String) : Bool := (r.find? type).isSome

def resolve (r : Registry κ) (type : String) : κ := (r.find? type).getD r.fallback

end Registry

end EventJournal

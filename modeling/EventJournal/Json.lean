/-!
# JSON values

The payloads of events are JSON: the journal stores them, hands them through
middlewares and binds them to statements, and it never looks inside. Numbers are
kept apart by kind, because an integer and a real number of the same magnitude
are different payloads: `int` holds what was written without fraction and
exponent, `float` the rest.

An object is a list of members. `insert` keeps the names distinct by replacing an
earlier member of the same name, which is what a reader does with a repeated name;
the order of the members carries no meaning.
-/

namespace EventJournal

/-- A JSON value. -/
inductive Json where
  | null
  | bool (value : Bool)
  | int (value : Int)
  | float (value : Float)
  | text (value : String)
  | list (items : List Json)
  | object (members : List (String × Json))
  deriving Inhabited

namespace Json

/-- The object without members, the payload of an event that sets none. -/
def empty : Json := .object []

/-- The member of a list of members that has the given name. -/
def lookup (name : String) : List (String × Json) → Option Json
  | [] => none
  | (key, value) :: rest => if key = name then some value else lookup name rest

/-- Adds a member, in place of an earlier one of the same name. -/
def insert (name : String) (value : Json) : List (String × Json) → List (String × Json)
  | [] => [(name, value)]
  | (key, old) :: rest =>
      if key = name then (key, value) :: rest else (key, old) :: insert name value rest

/-- The member of an object that has the given name; other values have no members. -/
def member? (json : Json) (name : String) : Option Json :=
  match json with
  | .object members => lookup name members
  | _ => none

/-- An optional value, absent as `null`. -/
def ofOption {α : Type} (encode : α → Json) : Option α → Json
  | none => .null
  | some value => encode value

/-- A list of values. -/
def ofList {α : Type} (encode : α → Json) (values : List α) : Json :=
  .list (values.map encode)

/-! ## Members after an insertion -/

theorem lookup_insert_self (name : String) (value : Json) (members : List (String × Json)) :
    lookup name (insert name value members) = some value := by
  induction members with
  | nil => simp [insert, lookup]
  | cons entry rest ih =>
      obtain ⟨key, old⟩ := entry
      by_cases h : key = name <;> simp [insert, lookup, h, ih]

theorem lookup_insert_of_ne {name other : String} (h : other ≠ name) (value : Json)
    (members : List (String × Json)) :
    lookup other (insert name value members) = lookup other members := by
  induction members with
  | nil => simp [insert, lookup, Ne.symm h]
  | cons entry rest ih =>
      obtain ⟨key, old⟩ := entry
      by_cases hk : key = name
      · subst hk
        simp [insert, lookup, Ne.symm h]
      · simp [insert, lookup, hk, ih]

end Json

end EventJournal

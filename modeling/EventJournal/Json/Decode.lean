import EventJournal.Json

/-!
# Reading domain values from JSON

A value that does not have the expected form is `none`; why it does not is not
recorded. The conventions hold for every record and choice of the library:

* a record is read from an object, whose unknown members are ignored, or from the list
  of its fields in their order (`fields?`);
* an optional field may be missing from an object or be `null`, and a field with a
  default may be missing, also at the end of a list;
* a choice without content is read from its name, or from an object whose only member
  has that name and the value `null` (`choice?`);
* an integer is read from a number written without fraction and exponent, if it fits.
-/

namespace EventJournal.Json

def asText : Json → Option String
  | .text s => some s
  | _ => none

def asBool : Json → Option Bool
  | .bool b => some b
  | _ => none

/-- An integer of 32 bits. -/
def asInt32 : Json → Option Int32
  | .int n =>
      if Int32.minValue.toInt ≤ n ∧ n ≤ Int32.maxValue.toInt then some (Int32.ofInt n) else none
  | _ => none

/-- An integer of 64 bits. -/
def asInt64 : Json → Option Int64
  | .int n =>
      if Int64.minValue.toInt ≤ n ∧ n ≤ Int64.maxValue.toInt then some (Int64.ofInt n) else none
  | _ => none

/-- A natural number. -/
def asNat : Json → Option Nat
  | .int n => if 0 ≤ n then some n.toNat else none
  | _ => none

/-- A value or `null`. -/
def asOption {α : Type} (decode : Json → Option α) : Json → Option (Option α)
  | .null => some none
  | json => (decode json).map some

/-- A list of values. -/
def asList {α : Type} (decode : Json → Option α) : Json → Option (List α)
  | .list items => items.mapM decode
  | _ => none

/-! ## Records -/

/-- The fields of a record with the given names, of which the first `least` must be
there when the record is written as a list. A field is `none` where it is missing. -/
def fields? (names : List String) (least : Nat) : Json → Option (List (Option Json))
  | .object members => some (names.map (lookup · members))
  | .list items =>
      if least ≤ items.length ∧ items.length ≤ names.length then
        some (items.map some ++ List.replicate (names.length - items.length) none)
      else none
  | _ => none

/-- A field that must be there. -/
def required {α : Type} (decode : Json → Option α) (field : Option Json) : Option α :=
  field.bind decode

/-- A field that may be missing or `null`. -/
def optional {α : Type} (decode : Json → Option α) : Option Json → Option (Option α)
  | none => some none
  | some json => asOption decode json

/-- A field that has a default where it is missing. -/
def withDefault {α : Type} (value : α) (decode : Json → Option α) : Option Json → Option α
  | none => some value
  | some json => decode json

/-! ## Choices -/

/-- The choice without content that a value names. -/
def choice? {α : Type} (choices : List (String × α)) : Json → Option α
  | .text name => (choices.find? (·.1 = name)).map (·.2)
  | .object [(name, .null)] => (choices.find? (·.1 = name)).map (·.2)
  | _ => none

end EventJournal.Json

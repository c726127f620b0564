/-!
# Settings from the environment

A setting is a named text. A number in a setting is decimal, with an optional plus
sign, or a minus sign where the number may be negative; anything else, and a number
that does not fit, leaves the setting without effect.
-/

namespace EventJournal

/-- The settings by name. -/
abbrev Environment := List (String × String)

namespace Environment

/-- The text of a setting. -/
def text? (env : Environment) (name : String) : Option String :=
  (env.find? (·.1 = name)).map (·.2)

/-- The number that decimal digits spell; none without a digit. -/
def digits? (chars : List Char) : Option Nat :=
  if chars ≠ [] ∧ chars.all Char.isDigit then
    some (chars.foldl (fun n c => n * 10 + (c.toNat - '0'.toNat)) 0)
  else none

/-- A number that is not negative. -/
def natOf? (s : String) : Option Nat :=
  match s.toList with
  | '+' :: rest => digits? rest
  | chars => digits? chars

/-- A number with an optional sign. -/
def intOf? (s : String) : Option Int :=
  match s.toList with
  | '-' :: rest => (digits? rest).map fun n => -(n : Int)
  | _ => (natOf? s).map fun n => (n : Int)

/-- A setting that is a signed number of 64 bits. -/
def int64? (env : Environment) (name : String) : Option Int64 :=
  ((env.text? name).bind intOf?).bind fun n =>
    if Int64.minValue.toInt ≤ n ∧ n ≤ Int64.maxValue.toInt then some (Int64.ofInt n) else none

/-- A setting that is an unsigned number of 32 bits. -/
def uint32? (env : Environment) (name : String) : Option UInt32 :=
  ((env.text? name).bind natOf?).bind fun n =>
    if n < UInt32.size then some (UInt32.ofNat n) else none

/-- A setting that is an unsigned number of 64 bits. -/
def uint64? (env : Environment) (name : String) : Option UInt64 :=
  ((env.text? name).bind natOf?).bind fun n =>
    if n < UInt64.size then some (UInt64.ofNat n) else none

end Environment

end EventJournal

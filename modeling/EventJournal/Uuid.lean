/-!
# Event identifiers

An identifier is a 128-bit number. It is written in lower-case hexadecimal, in five
groups of 8, 4, 4, 4 and 12 digits joined by hyphens. Reading also accepts the bare
32 digits, the grouped form in braces and the grouped form after `urn:uuid:`, with
digits of either case.
-/

namespace EventJournal

/-- An identifier. -/
structure Uuid where
  bits : BitVec 128
  deriving DecidableEq

namespace Uuid

/-- The value of a hexadecimal digit. -/
def hexValue? (c : Char) : Option Nat :=
  if '0' ≤ c ∧ c ≤ '9' then some (c.toNat - '0'.toNat)
  else if 'a' ≤ c ∧ c ≤ 'f' then some (c.toNat - 'a'.toNat + 10)
  else if 'A' ≤ c ∧ c ≤ 'F' then some (c.toNat - 'A'.toNat + 10)
  else none

/-- The last `width` hexadecimal digits of a number. -/
def hexDigits : (width : Nat) → Nat → List Char
  | 0, _ => []
  | width + 1, n => hexDigits width (n / 16) ++ [Nat.digitChar (n % 16)]

/-- The number that hexadecimal digits spell. -/
def ofHexDigits? (chars : List Char) : Option Nat :=
  chars.foldlM (fun n c => (hexValue? c).map (n * 16 + ·)) 0

/-- The written form. -/
def render (u : Uuid) : String :=
  let digits := hexDigits 32 u.bits.toNat
  let group (start size : Nat) : String := String.ofList ((digits.drop start).take size)
  "-".intercalate [group 0 8, group 8 4, group 12 4, group 16 4, group 20 12]

/-- An identifier from its 32 digits. -/
def ofSimple? (chars : List Char) : Option Uuid :=
  if chars.length = 32 then (ofHexDigits? chars).map fun n => ⟨BitVec.ofNat 128 n⟩ else none

/-- An identifier from the five groups. -/
def ofGrouped? (chars : List Char) : Option Uuid :=
  if chars.length = 36 ∧ [8, 13, 18, 23].all (fun i => chars[i]? = some '-') then
    ofSimple? ((chars.take 8) ++ (chars.drop 9).take 4 ++ (chars.drop 14).take 4 ++
      (chars.drop 19).take 4 ++ chars.drop 24)
  else none

/-- Reads an identifier in any of its four forms. -/
def parse? (s : String) : Option Uuid :=
  let chars := s.toList
  match chars with
  | '\x7b' :: rest =>
      if rest.getLast? = some '\x7d' then ofGrouped? rest.dropLast else none
  | 'u' :: 'r' :: 'n' :: ':' :: 'u' :: 'u' :: 'i' :: 'd' :: ':' :: rest => ofGrouped? rest
  | _ => if chars.length = 32 then ofSimple? chars else ofGrouped? chars

end Uuid

end EventJournal

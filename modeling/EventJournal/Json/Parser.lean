import EventJournal.Json

/-!
# JSON text, read

Reading takes two passes, each a single fold. `tokens?` cuts the characters into
tokens with a small state machine, and `ofTokens?` builds the value with an explicit
stack of the containers that are still open. Neither recurses on anything but its
input, so reading ends on every text.

A number without fraction and exponent is an integer as long as it fits into 64 bits,
signed or unsigned; a larger one, and the negative zero, is a real number.
-/

namespace EventJournal.Json

/-! ## Tokens -/

/-- A lexeme: a bracket or separator, a quoted text, or a bare word (a number or one of
the three named constants). -/
inductive Token where
  | mark (c : Char)
  | quoted (s : String)
  | word (s : String)
  deriving DecidableEq, Repr

/-- Where the scanner stands. `unit` counts the hexadecimal digits still to come; `high`
is the first half of a surrogate pair that waits for the second. -/
inductive Scan where
  | between
  | word (done : List Char)
  | text (done : List Char) (high : Option Nat)
  | escape (done : List Char) (high : Option Nat)
  | unit (done : List Char) (high : Option Nat) (left : Nat) (value : Nat)

/-- The blanks between tokens. -/
def isBlank (c : Char) : Bool := c = ' ' || c = '\t' || c = '\n' || c = '\r'

/-- Brackets and separators. -/
def isMark (c : Char) : Bool :=
  c = '[' || c = ']' || c = '\x7b' || c = '\x7d' || c = ',' || c = ':'

/-- The value of a hexadecimal digit. -/
def hexValue? (c : Char) : Option Nat :=
  if '0' ≤ c ∧ c ≤ '9' then some (c.toNat - '0'.toNat)
  else if 'a' ≤ c ∧ c ≤ 'f' then some (c.toNat - 'a'.toNat + 10)
  else if 'A' ≤ c ∧ c ≤ 'F' then some (c.toNat - 'A'.toNat + 10)
  else none

/-- The character after a backslash, where it stands for one character. -/
def escaped? (c : Char) : Option Char :=
  if c = '"' ∨ c = '\\' ∨ c = '/' then some c
  else if c = 'b' then some '\x08'
  else if c = 'f' then some '\x0c'
  else if c = 'n' then some '\n'
  else if c = 'r' then some '\r'
  else if c = 't' then some '\t'
  else none

/-- Adds a code unit to a text. Two halves of a surrogate pair make one character; a
half that stands alone is refused. -/
def addUnit (done : List Char) (high : Option Nat) (value : Nat) : Option Scan :=
  match high with
  | none =>
      if 0xD800 ≤ value ∧ value < 0xDC00 then some (.text done (some value))
      else if 0xDC00 ≤ value ∧ value < 0xE000 then none
      else some (.text (Char.ofNat value :: done) none)
  | some first =>
      if 0xDC00 ≤ value ∧ value < 0xE000 then
        some (.text
          (Char.ofNat (0x10000 + (first - 0xD800) * 0x400 + (value - 0xDC00)) :: done) none)
      else none

/-- One character of input: the tokens it completes and the next state. -/
def scanChar (state : Scan) (c : Char) : Option (List Token × Scan) :=
  match state with
  | .between =>
      if isBlank c then some ([], .between)
      else if isMark c then some ([.mark c], .between)
      else if c = '"' then some ([], .text [] none)
      else some ([], .word [c])
  | .word done =>
      if isBlank c then some ([.word (String.ofList done.reverse)], .between)
      else if isMark c then some ([.word (String.ofList done.reverse), .mark c], .between)
      else if c = '"' then none
      else some ([], .word (c :: done))
  | .text done high =>
      if c = '\\' then some ([], .escape done high)
      else if high.isSome then none
      else if c = '"' then some ([.quoted (String.ofList done.reverse)], .between)
      else if c.toNat < 0x20 then none
      else some ([], .text (c :: done) none)
  | .escape done high =>
      if c = 'u' then some ([], .unit done high 4 0)
      else if high.isSome then none
      else (escaped? c).map fun e => ([], .text (e :: done) none)
  | .unit done high left value =>
      match hexValue? c with
      | none => none
      | some digit =>
          let value := value * 16 + digit
          if left ≤ 1 then (addUnit done high value).map fun next => ([], next)
          else some ([], .unit done high (left - 1) value)

/-- All tokens of a text, newest first, and the state at its end. -/
def scanFrom (state : Scan) (done : List Token) : List Char → Option (List Token × Scan)
  | [] => some (done, state)
  | c :: rest =>
      match scanChar state c with
      | none => none
      | some (found, next) => scanFrom next (found.reverse ++ done) rest

/-- The tokens of a text. -/
def tokens? (s : String) : Option (List Token) :=
  match scanFrom .between [] s.toList with
  | some (done, .between) => some done.reverse
  | some (done, .word chars) => some (.word (String.ofList chars.reverse) :: done).reverse
  | _ => none

/-! ## Numbers -/

/-- The decimal number of a list of digits; none for an empty list or another character. -/
def digits? : List Char → Option Nat
  | [] => none
  | chars => if chars.all Char.isDigit then
      some (chars.foldl (fun n c => n * 10 + (c.toNat - '0'.toNat)) 0) else none

/-- Whether digits stand as a number may: a leading zero stands alone. -/
def wholePart? (chars : List Char) : Option Nat :=
  match chars with
  | '0' :: _ :: _ => none
  | _ => digits? chars

/-- An exponent with its optional sign. -/
def exponent? (chars : List Char) : Option Int :=
  match chars with
  | '-' :: rest => (digits? rest).map fun n => -(n : Int)
  | '+' :: rest => (digits? rest).map fun n => (n : Int)
  | _ => (digits? chars).map fun n => (n : Int)

/-- The real number `± mantissa · 10 ^ exponent`. -/
def realNumber (negative : Bool) (mantissa : Nat) (exponent : Int) : Json :=
  let x :=
    if mantissa = 0 then 0.0
    else if exponent < 0 then Float.ofScientific mantissa true (-exponent).toNat
    else Float.ofScientific mantissa false exponent.toNat
  .float (if negative then -x else x)

/-- A number from its sign and the characters after it. -/
def unsigned? (negative : Bool) (chars : List Char) : Option Json :=
  let isExponentMark := fun c : Char => c = 'e' || c = 'E'
  let whole := chars.takeWhile Char.isDigit
  let rest := chars.dropWhile Char.isDigit
  match wholePart? whole, rest with
  | none, _ => none
  | some n, [] =>
      if negative then
        if n = 0 ∨ -(n : Int) < Int64.minValue.toInt then some (realNumber true n 0)
        else some (.int (-(n : Int)))
      else if UInt64.size ≤ n then some (realNumber false n 0) else some (.int n)
  | some n, '.' :: rest =>
      let fraction := rest.takeWhile Char.isDigit
      match digits? fraction, rest.dropWhile Char.isDigit with
      | none, _ => none
      | some f, tail =>
          let mantissa := n * Nat.pow 10 fraction.length + f
          match tail with
          | [] => some (realNumber negative mantissa (-(fraction.length : Int)))
          | c :: power =>
              if isExponentMark c then
                (exponent? power).map fun e => realNumber negative mantissa (e - fraction.length)
              else none
  | some n, c :: power =>
      if isExponentMark c then (exponent? power).map fun e => realNumber negative n e else none

/-- A bare word: a named constant or a number. -/
def ofWord? (s : String) : Option Json :=
  if s = "null" then some .null
  else if s = "true" then some (.bool true)
  else if s = "false" then some (.bool false)
  else
    match s.toList with
    | '-' :: rest => unsigned? true rest
    | chars => unsigned? false chars

/-! ## Values -/

/-- A container that is still open, with what it holds so far (items newest first). -/
inductive Frame where
  | list (items : List Json)
  | members (done : List (String × Json)) (name : String)
  | object (done : List (String × Json))

/-- What may come next: a value, a value or the end of a list that has just been opened,
a name (or the end of an object that has just been opened), a colon, or a separator. -/
inductive Expect where
  | value
  | firstItem
  | firstName
  | name
  | colon
  | separator

/-- The builder's state: the innermost open container first. -/
structure Builder where
  stack : List Frame
  expect : Expect
  result : Option Json

/-- Hands a finished value to the innermost container. -/
def Builder.finish (b : Builder) (value : Json) : Option Builder :=
  match b.stack with
  | [] => some ⟨[], .separator, some value⟩
  | .list items :: rest => some ⟨.list (value :: items) :: rest, .separator, none⟩
  | .members done name :: rest =>
      some ⟨.object (insert name value done) :: rest, .separator, none⟩
  | .object _ :: _ => none

/-- Whether a value may start here. -/
def Expect.admitsValue : Expect → Bool
  | .value => true
  | .firstItem => true
  | _ => false

/-- One token. -/
def Builder.step (b : Builder) (token : Token) : Option Builder :=
  match token, b.expect, b.stack with
  | .word w, expect, _ =>
      if expect.admitsValue then (ofWord? w).bind b.finish else none
  | .quoted s, .firstName, .object done :: rest => some ⟨.members done s :: rest, .colon, none⟩
  | .quoted s, .name, .object done :: rest => some ⟨.members done s :: rest, .colon, none⟩
  | .quoted s, expect, _ => if expect.admitsValue then b.finish (.text s) else none
  | .mark '[', expect, stack =>
      if expect.admitsValue then some ⟨.list [] :: stack, .firstItem, none⟩ else none
  | .mark '\x7b', expect, stack =>
      if expect.admitsValue then some ⟨.object [] :: stack, .firstName, none⟩ else none
  | .mark ']', .firstItem, .list _ :: rest => Builder.finish ⟨rest, .separator, none⟩ (.list [])
  | .mark ']', .separator, .list items :: rest =>
      Builder.finish ⟨rest, .separator, none⟩ (.list items.reverse)
  | .mark '\x7d', .firstName, .object _ :: rest =>
      Builder.finish ⟨rest, .separator, none⟩ (.object [])
  | .mark '\x7d', .separator, .object done :: rest =>
      Builder.finish ⟨rest, .separator, none⟩ (.object done)
  | .mark ':', .colon, stack => some ⟨stack, .value, none⟩
  | .mark ',', .separator, .list items :: rest => some ⟨.list items :: rest, .value, none⟩
  | .mark ',', .separator, .object done :: rest => some ⟨.object done :: rest, .name, none⟩
  | _, _, _ => none

/-- The value that a list of tokens spells. -/
def ofTokens? (tokens : List Token) : Option Json :=
  match tokens.foldlM Builder.step ⟨[], .value, none⟩ with
  | some ⟨[], _, result⟩ => result
  | _ => none

/-- Reads a JSON text. -/
def parse? (s : String) : Option Json := (tokens? s).bind ofTokens?

end EventJournal.Json

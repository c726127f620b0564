/-!
# Shortest decimals of binary fractions

A binary floating-point number stands for an interval of reals: all those that
round to it. Its shortest decimal is the decimal with the fewest digits inside
that interval, and the one nearest to the number where several have that length.

`Binary` is a finite number `mantissa · 2 ^ exponent` with the interval around it;
everything is exact arithmetic on natural numbers. On the grid of multiples of
`10 ^ k` only the two neighbours of the number need a test: if any point of the
grid lies in the interval, one of the neighbours does.
-/

namespace EventJournal.Decimal

/-- A positive number `mantissa · 2 ^ exponent`, with `narrowBelow` when the next
smaller number is only half as far away as the next larger one. -/
structure Binary where
  mantissa : Nat
  exponent : Int
  narrowBelow : Bool

/-- Decimal digits with a power of ten: the value `digits · 10 ^ exponent`. -/
structure Digits where
  digits : Nat
  exponent : Int
  deriving DecidableEq, Repr

/-- A positive fraction. -/
structure Ratio where
  num : Nat
  den : Nat

namespace Ratio

/-- `n · 2 ^ e` as a fraction. -/
def ofTwo (n : Nat) (e : Int) : Ratio :=
  if 0 ≤ e then ⟨n * Nat.pow 2 e.toNat, 1⟩ else ⟨n, Nat.pow 2 (-e).toNat⟩

/-- `n · 10 ^ e` as a fraction. -/
def ofTen (n : Nat) (e : Int) : Ratio :=
  if 0 ≤ e then ⟨n * Nat.pow 10 e.toNat, 1⟩ else ⟨n, Nat.pow 10 (-e).toNat⟩

def lt (a b : Ratio) : Bool := a.num * b.den < b.num * a.den

def le (a b : Ratio) : Bool := a.num * b.den ≤ b.num * a.den

/-- The distance of two fractions. -/
def distance (a b : Ratio) : Ratio :=
  let x := a.num * b.den
  let y := b.num * a.den
  ⟨(x - y) + (y - x), a.den * b.den⟩

/-- The multiple of `10 ^ k` at or below the fraction, as a multiplier. -/
def floorOn (a : Ratio) (k : Int) : Nat :=
  if 0 ≤ k then a.num / (a.den * Nat.pow 10 k.toNat) else a.num * Nat.pow 10 (-k).toNat / a.den

end Ratio

namespace Binary

/-- The number itself. -/
def value (b : Binary) : Ratio := .ofTwo (4 * b.mantissa) (b.exponent - 2)

/-- Half way to the next smaller number. -/
def lower (b : Binary) : Ratio :=
  .ofTwo (4 * b.mantissa - if b.narrowBelow then 1 else 2) (b.exponent - 2)

/-- Half way to the next larger number. -/
def upper (b : Binary) : Ratio := .ofTwo (4 * b.mantissa + 2) (b.exponent - 2)

/-- Whether a fraction rounds to the number: the ends of the interval belong to it
exactly when the mantissa is even, because a tie goes to the even neighbour. -/
def admits (b : Binary) (x : Ratio) : Bool :=
  if b.mantissa % 2 = 0 then b.lower.le x && x.le b.upper
  else b.lower.lt x && x.lt b.upper

/-- The power of ten of the leading decimal digit. -/
def magnitude (b : Binary) : Int :=
  let v := b.value
  let whole := v.num / v.den
  if 0 < whole then ((Nat.toDigits 10 whole).length : Int) - 1
  else
    match (List.range 400).find? fun j => v.den ≤ v.num * Nat.pow 10 j with
    | some j => -(j : Int)
    | none => 0

/-- The nearer of the two neighbours on the grid of `10 ^ k` that round to the
number, if one does; the smaller of two that are equally near. -/
def onGrid (b : Binary) (k : Int) : Option Digits :=
  let low := b.value.floorOn k
  let high := low + 1
  let lowFits := 0 < low && b.admits (.ofTen low k)
  let highFits := b.admits (.ofTen high k)
  match lowFits, highFits with
  | true, true =>
      let toLow := b.value.distance (.ofTen low k)
      let toHigh := b.value.distance (.ofTen high k)
      if toLow.le toHigh then some ⟨low, k⟩ else some ⟨high, k⟩
  | true, false => some ⟨low, k⟩
  | false, true => some ⟨high, k⟩
  | false, false => none

/-- The shortest decimal, found on the first grid that has one; seventeen digits
always suffice for a 53-bit mantissa. -/
def shortest (b : Binary) : Digits :=
  let top := b.magnitude
  ((List.range 17).findSome? fun (n : Nat) => b.onGrid (top - (n : Int))).getD
    ⟨b.value.floorOn (top - 17), top - 17⟩

end Binary

/-- Drops trailing zeros of the digits into the exponent. -/
def Digits.normalize (d : Digits) : Digits :=
  let rec go : Nat → Nat → Int → Digits
    | 0, n, e => ⟨n, e⟩
    | fuel + 1, n, e => if n ≠ 0 ∧ n % 10 = 0 then go fuel (n / 10) (e + 1) else ⟨n, e⟩
  go 20 d.digits d.exponent

/-- How digits are laid out: positional notation for values whose leading digit has
a power of ten from `least` up to `most`, scientific notation elsewhere. A positional
number without fraction gets `.0`. -/
structure Layout where
  least : Int
  most : Int

/-- The text of digits in a layout. -/
def Layout.render (layout : Layout) (d : Digits) : String :=
  let d := d.normalize
  let text := Nat.toDigits 10 d.digits
  let top : Int := d.exponent + text.length - 1
  if layout.least ≤ top ∧ top ≤ layout.most then
    if 0 ≤ d.exponent then
      String.ofList (text ++ List.replicate d.exponent.toNat '0') ++ ".0"
    else if 0 ≤ top then
      let (whole, fraction) := text.splitAt (top.toNat + 1)
      String.ofList whole ++ "." ++ String.ofList fraction
    else
      "0." ++ String.ofList (List.replicate (-top - 1).toNat '0' ++ text)
  else
    match text with
    | [] => ""
    | [c] => String.ofList [c] ++ "e" ++ toString top
    | c :: rest => String.ofList [c] ++ "." ++ String.ofList rest ++ "e" ++ toString top

/-- The finite positive number of a double's biased exponent and fraction bits. -/
def Binary.ofFields (biased fraction : Nat) : Binary :=
  if biased = 0 then ⟨fraction, -1074, false⟩
  else ⟨Nat.pow 2 52 + fraction, (biased : Int) - 1075, fraction = 0 && 1 < biased⟩

/-- The text of a double in a layout: sign, then the shortest digits. -/
def Layout.renderFloat (layout : Layout) (x : Float) : String :=
  let bits := x.toBits.toNat
  let sign := if bits / Nat.pow 2 63 = 1 then "-" else ""
  let biased := bits / Nat.pow 2 52 % Nat.pow 2 11
  let fraction := bits % Nat.pow 2 52
  if biased = Nat.pow 2 11 - 1 then
    if fraction = 0 then sign ++ "inf" else "NaN"
  else if biased = 0 ∧ fraction = 0 then sign ++ "0.0"
  else sign ++ layout.render (Binary.ofFields biased fraction).shortest

/-- Real numbers are written out between one ten-thousandth and ten to the sixteenth
and in scientific notation outside. -/
def plain : Layout := ⟨-4, 15⟩

end EventJournal.Decimal

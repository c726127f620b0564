/-!
# Durations

A length of time is a number of whole seconds, a 64-bit word, and a number of
nanoseconds below one second. `toNanos` is the view of a duration as one exact
number. `saturatingMul` works on the two parts, carries from the nanoseconds into
the seconds and stops at the largest duration; in the view it is the exact product,
capped (`toNanos_saturatingMul`).
-/

namespace EventJournal

/-- A length of time. -/
@[ext]
structure Duration where
  seconds : UInt64
  nanos : UInt32
  nanos_lt : nanos.toNat < 1000000000
  deriving DecidableEq

namespace Duration

/-- The number of nanoseconds in a second. -/
abbrev nanosPerSecond : Nat := 1000000000

/-- The duration as one number of nanoseconds. -/
def toNanos (d : Duration) : Nat := d.seconds.toNat * nanosPerSecond + d.nanos.toNat

/-- A duration from its two parts; whole seconds in the second part are dropped. -/
def ofParts (seconds : Nat) (nanos : Nat) : Duration where
  seconds := UInt64.ofNat seconds
  nanos := UInt32.ofNat (nanos % nanosPerSecond)
  nanos_lt := by
    have h : nanos % nanosPerSecond < nanosPerSecond := Nat.mod_lt _ (by decide)
    rw [UInt32.toNat_ofNat', Nat.mod_eq_of_lt (by simp only [nanosPerSecond] at *; omega)]
    exact h

def zero : Duration := ofParts 0 0

/-- The largest duration. -/
def max : Duration := ofParts (UInt64.size - 1) (nanosPerSecond - 1)

def ofSeconds (n : UInt64) : Duration := ⟨n, 0, by decide⟩

def ofMillis (n : UInt64) : Duration :=
  ofParts (n.toNat / 1000) (n.toNat % 1000 * 1000000)

/-- The shorter of two durations. -/
def min (a b : Duration) : Duration := if a.toNanos ≤ b.toNanos then a else b

/-- The duration repeated `k` times, or the largest duration where that is too long. -/
def saturatingMul (d : Duration) (k : Nat) : Duration :=
  let nanos := d.nanos.toNat * k
  let seconds := d.seconds.toNat * k + nanos / nanosPerSecond
  if seconds < UInt64.size then ofParts seconds (nanos % nanosPerSecond) else max

/-! ## The exact view -/

theorem toNanos_ofParts {seconds nanos : Nat} (hs : seconds < UInt64.size)
    (hn : nanos < nanosPerSecond) :
    (ofParts seconds nanos).toNanos = seconds * nanosPerSecond + nanos := by
  simp only [toNanos, ofParts, Nat.mod_eq_of_lt hn, UInt64.toNat_ofNat', UInt32.toNat_ofNat']
  rw [Nat.mod_eq_of_lt hs, Nat.mod_eq_of_lt (by simp only [nanosPerSecond] at hn; omega)]

theorem toNanos_max : max.toNanos = UInt64.size * nanosPerSecond - 1 := by decide

theorem toNanos_le_max (d : Duration) : d.toNanos ≤ max.toNanos := by
  have hs := d.seconds.toNat_lt
  have hn := d.nanos_lt
  rw [toNanos_max]
  simp only [toNanos, nanosPerSecond, UInt64.size]
  omega

theorem toNanos_min (a b : Duration) : (a.min b).toNanos = Min.min a.toNanos b.toNanos := by
  unfold min
  split <;> simp only [Nat.min_def] <;> split <;> omega

/-- Repeating a duration is exact up to the largest one. -/
theorem toNanos_saturatingMul (d : Duration) (k : Nat) :
    (d.saturatingMul k).toNanos = Min.min (d.toNanos * k) max.toNanos := by
  have hsplit : d.toNanos * k =
      (d.seconds.toNat * k + d.nanos.toNat * k / nanosPerSecond) * nanosPerSecond +
        d.nanos.toNat * k % nanosPerSecond := by
    rw [toNanos, Nat.add_mul, Nat.add_mul, Nat.mul_right_comm, Nat.add_assoc, Nat.div_add_mod']
  have hmod : d.nanos.toNat * k % nanosPerSecond < nanosPerSecond := Nat.mod_lt _ (by decide)
  unfold saturatingMul
  simp only
  split
  · next h =>
    rw [toNanos_ofParts h hmod, hsplit, toNanos_max, Nat.min_def]
    simp only [nanosPerSecond] at *
    split <;> omega
  · next h =>
    rw [hsplit, toNanos_max, Nat.min_def]
    simp only [nanosPerSecond] at *
    split <;> omega

/-! ## Text -/

/-- The digits of a fraction below `10 ^ width`, without trailing zeros. -/
def fractionDigits (width : Nat) (n : Nat) : List Char :=
  let digits := Nat.toDigits 10 n
  let padded := List.replicate (width - digits.length) '0' ++ digits
  (padded.reverse.dropWhile (· = '0')).reverse

/-- A number with a fraction, and its unit. -/
def showUnit (whole width fraction : Nat) (unit : String) : String :=
  match fractionDigits width fraction with
  | [] => toString whole ++ unit
  | digits => toString whole ++ "." ++ String.ofList digits ++ unit

/-- The text of a duration: in the largest unit of which it holds at least one, down to
nanoseconds, with as many digits as are exact. -/
def describe (d : Duration) : String :=
  let nanos := d.nanos.toNat
  if 0 < d.seconds then showUnit d.seconds.toNat 9 nanos "s"
  else if 1000000 ≤ nanos then showUnit (nanos / 1000000) 6 (nanos % 1000000) "ms"
  else if 1000 ≤ nanos then showUnit (nanos / 1000) 3 (nanos % 1000) "µs"
  else toString nanos ++ "ns"

end Duration

end EventJournal

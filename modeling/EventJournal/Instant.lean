import EventJournal.Text.Blank

/-!
# Points in time

A point in time is kept as its date and time of day in universal time, to the
nanosecond. `Instant.render` writes it as RFC 3339 prescribes, with a fraction of no,
three, six or nine digits, the fewest that are exact. `Instant.parse?` reads that form
with any offset and is lenient about layout: parts may have a single digit and blanks
around them, a blank or a small letter may stand for the `T`, and `UTC` for the `Z`.

An offset is below a day, so moving a local time to universal time changes the date by
at most one day, and the calendar needs no more than the neighbours of a date.
-/

namespace EventJournal

/-- A year has a leap day when it is a multiple of four and, if it ends a century, of
four hundred. -/
def isLeapYear (year : Int) : Bool :=
  year % 4 = 0 && (year % 100 ≠ 0 || year % 400 = 0)

/-- The number of days of a month, none for a number that names no month. -/
def daysInMonth (year : Int) (month : Nat) : Nat :=
  if month = 2 then (if isLeapYear year then 29 else 28)
  else if month = 4 ∨ month = 6 ∨ month = 9 ∨ month = 11 then 30
  else if 1 ≤ month ∧ month ≤ 12 then 31
  else 0

/-- A day of the calendar. -/
structure Date where
  year : Int
  month : Nat
  day : Nat
  deriving DecidableEq, Repr

namespace Date

/-- The day exists, and its year is one that is kept. -/
def isValid (d : Date) : Bool :=
  -262143 ≤ d.year && d.year ≤ 262142 && 1 ≤ d.month && d.month ≤ 12 && 1 ≤ d.day &&
    d.day ≤ daysInMonth d.year d.month

/-- The day after. -/
def next (d : Date) : Date :=
  if d.day < daysInMonth d.year d.month then { d with day := d.day + 1 }
  else if d.month < 12 then ⟨d.year, d.month + 1, 1⟩
  else ⟨d.year + 1, 1, 1⟩

/-- The day before. -/
def previous (d : Date) : Date :=
  if 1 < d.day then { d with day := d.day - 1 }
  else if 1 < d.month then ⟨d.year, d.month - 1, daysInMonth d.year (d.month - 1)⟩
  else ⟨d.year - 1, 12, 31⟩

end Date

/-- A point in time, in universal time. The sixtieth second is a leap second. -/
structure Instant where
  date : Date
  hour : Nat
  minute : Nat
  second : Nat
  nanos : Nat
  deriving DecidableEq, Repr

namespace Instant

/-- The time of day exists, and so does the date. -/
def isValid (t : Instant) : Bool :=
  t.date.isValid && t.hour < 24 && t.minute < 60 && t.second ≤ 60 && t.nanos < 1000000000

/-- The same point of a clock that is ahead by a number of minutes, in universal time. -/
def fromOffset (t : Instant) (minutes : Int) : Instant :=
  let total : Int := t.hour * 60 + t.minute - minutes
  let clock := fun m : Int => ((m / 60).toNat, (m % 60).toNat)
  if total < 0 then
    let (hour, minute) := clock (total + 1440)
    { t with date := t.date.previous, hour, minute }
  else if 1440 ≤ total then
    let (hour, minute) := clock (total - 1440)
    { t with date := t.date.next, hour, minute }
  else
    let (hour, minute) := clock total
    { t with hour, minute }

/-! ## Writing -/

/-- A number in at least `width` digits. -/
def padded (width n : Nat) : List Char :=
  let digits := Nat.toDigits 10 n
  List.replicate (width - digits.length) '0' ++ digits

/-- The fraction of a second in the fewest exact groups of three digits. -/
def fractionText (nanos : Nat) : List Char :=
  if nanos = 0 then []
  else if nanos % 1000000 = 0 then '.' :: padded 3 (nanos / 1000000)
  else if nanos % 1000 = 0 then '.' :: padded 6 (nanos / 1000)
  else '.' :: padded 9 nanos

/-- A year in four digits, with a sign outside of the years 0 to 9999. -/
def yearText (year : Int) : List Char :=
  if year < 0 then '-' :: padded 4 (-year).toNat
  else if year ≤ 9999 then padded 4 year.toNat
  else '+' :: padded 4 year.toNat

/-- The characters of the written form. -/
def renderChars (t : Instant) : List Char :=
  yearText t.date.year ++ '-' :: padded 2 t.date.month ++ '-' :: padded 2 t.date.day ++
    'T' :: padded 2 t.hour ++ ':' :: padded 2 t.minute ++ ':' :: padded 2 t.second ++
    fractionText t.nanos ++ ['Z']

/-- The written form. -/
def render (t : Instant) : String := String.ofList t.renderChars

/-! ## Reading -/

/-- The number that decimal digits spell. -/
def ofDigits (digits : List Char) : Nat :=
  digits.foldl (fun n c => n * 10 + (c.toNat - '0'.toNat)) 0

/-- Reads one to `most` digits. -/
def number? (most : Nat) (chars : List Char) : Option (Nat × List Char) :=
  match (chars.take most).takeWhile Char.isDigit with
  | [] => none
  | digits => some (ofDigits digits, chars.drop digits.length)

/-- Reads a part of a date or time after blanks. -/
def part? (most : Nat) (chars : List Char) : Option (Nat × List Char) :=
  number? most (Text.skipBlanks chars)

/-- Reads a year: four digits at most, or any number of digits after a sign. -/
def year? (chars : List Char) : Option (Int × List Char) :=
  match Text.skipBlanks chars with
  | '-' :: rest => (number? rest.length rest).map fun (n, rest) => (-(n : Int), rest)
  | '+' :: rest => (number? rest.length rest).map fun (n, rest) => ((n : Int), rest)
  | rest => (number? 4 rest).map fun (n, rest) => ((n : Int), rest)

/-- Reads one given character after blanks. -/
def sign? (c : Char) (chars : List Char) : Option (List Char) :=
  match Text.skipBlanks chars with
  | head :: rest => if head = c then some rest else none
  | [] => none

/-- Reads a fraction of a second if there is one; digits beyond the ninth are dropped. -/
def fraction? (chars : List Char) : Option (Nat × List Char) :=
  match chars with
  | '.' :: rest =>
      match rest.takeWhile Char.isDigit with
      | [] => none
      | digits =>
          let kept := digits.take 9
          some (ofDigits kept * Nat.pow 10 (9 - kept.length), rest.drop digits.length)
  | _ => some (0, chars)

/-- Reads two digits that must be there. -/
def twoDigits? : List Char → Option (Nat × List Char)
  | p :: q :: rest => if p.isDigit && q.isDigit then some (ofDigits [p, q], rest) else none
  | _ => none

/-- Reads an offset in minutes. -/
def offset? (chars : List Char) : Option (Int × List Char) :=
  let signed (negative : Bool) (rest : List Char) : Option (Int × List Char) := do
    let (hours, rest) ← twoDigits? rest
    let (minutes, rest) ← twoDigits? (rest.dropWhile fun c => c = ':' || Text.isBlank c)
    if 60 ≤ minutes ∨ 24 ≤ hours then none
    else
      let total : Int := hours * 60 + minutes
      some (if negative then -total else total, rest)
  match chars with
  | 'Z' :: rest => some (0, rest)
  | 'z' :: rest => some (0, rest)
  | '+' :: rest => signed false rest
  | '-' :: rest => signed true rest
  | '−' :: rest => signed true rest
  | u :: t :: c :: rest =>
      if u.toUpper = 'U' && t.toUpper = 'T' && c.toUpper = 'C' then some (0, rest) else none
  | _ => none

/-- Reads the mark between date and time. -/
def timeMark? : List Char → Option (List Char)
  | 'T' :: rest => some rest
  | 't' :: rest => some rest
  | ' ' :: rest => some rest
  | _ => none

/-- Reads a point in time. -/
def parseChars? (chars : List Char) : Option Instant := do
  let (year, rest) ← year? chars
  let rest ← sign? '-' rest
  let (month, rest) ← part? 2 rest
  let rest ← sign? '-' rest
  let (day, rest) ← part? 2 rest
  let rest ← timeMark? rest
  let (hour, rest) ← part? 2 rest
  let rest ← sign? ':' rest
  let (minute, rest) ← part? 2 rest
  let rest ← sign? ':' rest
  let (second, rest) ← part? 2 rest
  let (nanos, rest) ← fraction? rest
  let (minutes, rest) ← offset? (Text.skipBlanks rest)
  let there : Instant := ⟨⟨year, month, day⟩, hour, minute, second, nanos⟩
  let here := there.fromOffset minutes
  if Text.skipBlanks rest = [] ∧ there.isValid ∧ here.isValid then some here else none

def parse? (s : String) : Option Instant := parseChars? s.toList

end Instant

end EventJournal

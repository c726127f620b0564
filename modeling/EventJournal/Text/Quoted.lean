import EventJournal.Text.Unprintable

/-!
# Texts shown for a reader

A text inside a message is shown between quotes. What would disturb the quotes or
leave no mark is escaped: the quote and the backslash, tab, line feed, carriage
return and NUL by a letter, every other unprintable character by its number in
hexadecimal. A list of texts stands between brackets.
-/

namespace EventJournal.Text

/-- The digits of a number in lower-case hexadecimal, without leading zeros. -/
def hexDigits (n : Nat) : List Char := Nat.toDigits 16 n

/-- How one character of a quoted text is shown. -/
def showChar (c : Char) : List Char :=
  if c = '\x00' then ['\\', '0']
  else if c = '\t' then ['\\', 't']
  else if c = '\r' then ['\\', 'r']
  else if c = '\n' then ['\\', 'n']
  else if c = '"' then ['\\', '"']
  else if c = '\\' then ['\\', '\\']
  else if isUnprintable c then ['\\', 'u', '\x7b'] ++ hexDigits c.toNat ++ ['\x7d']
  else [c]

/-- A text between quotes. -/
def showQuoted (s : String) : String :=
  "\"" ++ String.ofList (s.toList.flatMap showChar) ++ "\""

/-- A list of texts between brackets. -/
def showList (texts : List String) : String :=
  "[" ++ ", ".intercalate (texts.map showQuoted) ++ "]"

end EventJournal.Text

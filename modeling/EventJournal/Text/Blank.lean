/-!
# Blank characters

The characters with the property White_Space: the controls from tab to carriage
return, the next-line control, and the separators of every width.
-/

namespace EventJournal.Text

/-- Whether a character is white space. -/
def isBlank (c : Char) : Bool :=
  let n := c.toNat
  (0x09 ≤ n && n ≤ 0x0D) || n = 0x20 || n = 0x85 || n = 0xA0 || n = 0x1680 ||
    (0x2000 ≤ n && n ≤ 0x200A) || n = 0x2028 || n = 0x2029 || n = 0x202F || n = 0x205F ||
    n = 0x3000

/-- The characters from the first that is not blank. -/
def skipBlanks (chars : List Char) : List Char := chars.dropWhile isBlank

end EventJournal.Text

/-!
# Text literals

The one place where the text of a caller enters the text of a statement is the bound of
a partition, because a table definition takes no bound values. There it is written as a
literal: between quotes, and with every quote inside it doubled.
-/

namespace EventJournal.Sql

/-- Doubles the quotes of a text. -/
def doubleQuotes : List Char → List Char
  | [] => []
  | c :: rest => if c = '\'' then '\'' :: '\'' :: doubleQuotes rest else c :: doubleQuotes rest

/-- A text as a literal. -/
def literal (text : String) : String := String.ofList ('\'' :: doubleQuotes text.toList ++ ['\''])

end EventJournal.Sql

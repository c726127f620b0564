import EventJournal.Sql.Value

/-!
# Selections

A `Select` is a query put together from parts: columns, a table or a union of other
selections, joins, two groups of conditions, an order and a window. Conditions and joins
are written with a question mark for each value. `Select.pieces` lays the parts out from
left to right as characters and values; the text that is sent numbers the values in that
order, through all the members of a union and on into the selection around it, so the
text and the list of bound values cannot get out of step.

The conditions of the first group are alternatives and those of the second requirements:
a row is selected if it meets one of the former, where there are any, and all the latter.
Every condition stands in parentheses of its own.
-/

namespace EventJournal

/-- A character of a statement or a place for a value. -/
inductive Piece where
  | char (c : Char)
  | value (v : SqlValue)

/-- A piece of a statement with as many question marks as values. -/
structure Fragment where
  text : String
  values : List SqlValue := []
  fits : text.toList.count '?' = values.length := by rfl

/-- A condition that no row meets. -/
def Fragment.never : Fragment := { text := "FALSE" }

/-- Where the rows of a selection come from. -/
inductive RowSource (σ : Type) where
  | table (name : String)
  /-- All rows of at least one selection. -/
  | union (first : σ) (rest : List σ)

structure Select where
  /-- All columns, if none is named. -/
  columns : List String := []
  source : RowSource Select := .table ""
  joins : List Fragment := []
  /-- Conditions of which one must hold, if there are any. -/
  anyOf : List Fragment := []
  /-- Conditions that must all hold. -/
  allOf : List Fragment := []
  order : List String := []
  limit : Option Int64 := none
  offset : Option Int64 := none

namespace Piece

def ofText (s : String) : List Piece := s.toList.map .char

/-- Puts values in the places of question marks. -/
def place : List Char → List SqlValue → List Piece
  | [], _ => []
  | c :: cs, [] => .char c :: place cs []
  | c :: cs, v :: vs => if c = '?' then .value v :: place cs vs else .char c :: place cs (v :: vs)

/-- The values, from left to right. -/
def values : List Piece → List SqlValue
  | [] => []
  | .char _ :: rest => values rest
  | .value v :: rest => v :: values rest

/-- The text in which the values have the numbers that follow the given one. -/
def numbered (last : Nat) : List Piece → List Char
  | [] => []
  | .char c :: rest => c :: numbered last rest
  | .value _ :: rest => '$' :: ((toString (last + 1)).toList ++ numbered (last + 1) rest)

@[simp] theorem values_append (a b : List Piece) : values (a ++ b) = values a ++ values b := by
  induction a with
  | nil => rfl
  | cons piece rest ih => cases piece <;> simp [values, ih]

/-- The numbers of a text go on where those of the text before it end. -/
theorem numbered_append (last : Nat) (a b : List Piece) :
    numbered last (a ++ b) = numbered last a ++ numbered (last + (values a).length) b := by
  induction a generalizing last with
  | nil => rfl
  | cons piece rest ih =>
      cases piece with
      | char c => simp [numbered, values, ih]
      | value v => simp [numbered, values, ih, Nat.add_assoc, Nat.add_comm 1]

@[simp] theorem values_ofText (s : String) : values (ofText s) = [] := by
  unfold ofText
  induction s.toList with
  | nil => rfl
  | cons c rest ih => simpa [values] using ih

/-- If there are no more values than question marks, every value has a place. -/
theorem values_place (cs : List Char) (vs : List SqlValue) (h : vs.length ≤ cs.count '?') :
    values (place cs vs) = vs := by
  induction cs generalizing vs with
  | nil =>
      cases vs with
      | nil => rfl
      | cons v vs => simp at h
  | cons c cs ih =>
      cases vs with
      | nil => simpa [place, values] using ih [] (Nat.zero_le _)
      | cons v vs =>
          by_cases hc : c = '?'
          · subst hc
            have hle : vs.length ≤ cs.count '?' := by simpa using h
            simp [place, values, ih vs hle]
          · have hle : (v :: vs).length ≤ cs.count '?' := by
              rwa [List.count_cons_of_ne hc] at h
            simp [place, values, hc, ih (v :: vs) hle]

end Piece

namespace Fragment

/-- The fragment of a text and its values, if their numbers agree. -/
def ofText? (text : String) (values : List SqlValue) : Option Fragment :=
  if h : text.toList.count '?' = values.length then some ⟨text, values, h⟩ else none

/-- A condition on a column of a table that has no question mark in its name. -/
def onTable (table rest : String) (values : List SqlValue) (plain : '?' ∉ table.toList)
    (fits : rest.toList.count '?' = values.length) : Fragment where
  text := table ++ rest
  values := values
  fits := by simp [String.toList_append, List.count_append, List.count_eq_zero.2 plain, fits]

def pieces (f : Fragment) : List Piece := Piece.place f.text.toList f.values

/-- No value of a fragment is lost. -/
@[simp] theorem values_pieces (f : Fragment) : Piece.values f.pieces = f.values :=
  Piece.values_place _ _ (Nat.le_of_eq f.fits.symm)

/-- Conditions, each in parentheses, with a connective between them. -/
def group (connective : String) (fragments : List Fragment) : List Piece :=
  List.intercalate (Piece.ofText connective)
    (fragments.map fun f => .char '(' :: (f.pieces ++ [.char ')']))

/-- What follows the source of a selection to restrict its rows. -/
def conditions (anyOf allOf : List Fragment) : List Piece :=
  match anyOf, allOf with
  | [], [] => []
  | _ :: _, [] => Piece.ofText " WHERE " ++ group " OR " anyOf
  | [], _ :: _ => Piece.ofText " WHERE " ++ group " AND " allOf
  | _ :: _, _ :: _ =>
      Piece.ofText " WHERE (" ++ group " OR " anyOf ++ Piece.ofText ") AND (" ++
        group " AND " allOf ++ [.char ')']

end Fragment

namespace Select

/-! ## Building -/

def column (s : Select) (expression : String) : Select :=
  { s with columns := s.columns ++ [expression] }

def fromTable (s : Select) (table : String) : Select := { s with source := .table table }

def join (s : Select) (clause : Fragment) : Select := { s with joins := s.joins ++ [clause] }

/-- Adds an alternative. -/
def whereAny (s : Select) (condition : Fragment) : Select :=
  { s with anyOf := s.anyOf ++ [condition] }

/-- Adds a requirement. -/
def whereAll (s : Select) (condition : Fragment) : Select :=
  { s with allOf := s.allOf ++ [condition] }

def orderBy (s : Select) (clause : String) : Select := { s with order := s.order ++ [clause] }

def limitTo (s : Select) (count : Int64) : Select := { s with limit := some count }

def skip (s : Select) (count : Int64) : Select := { s with offset := some count }

/-- The rows of all the members; there is no union of nothing. -/
def union? : List Select → Option Select
  | [] => none
  | first :: rest => some { source := .union first rest }

/-! ## The text and the values -/

/-- The list of columns. -/
def columnList : List String → String
  | [] => "*"
  | columns => ", ".intercalate columns

/-- What follows the conditions. -/
def tail (order : List String) (limit offset : Option Int64) : String :=
  (if order.isEmpty then "" else " ORDER BY " ++ ", ".intercalate order) ++
    (match limit with
      | some n => " LIMIT " ++ toString n.toInt
      | none => "") ++
    match offset with
      | some n => " OFFSET " ++ toString n.toInt
      | none => ""

mutual

/-- The selection from left to right. -/
def pieces : Select → List Piece
  | ⟨columns, source, joins, anyOf, allOf, order, limit, offset⟩ =>
      Piece.ofText ("SELECT " ++ columnList columns ++ " FROM ") ++ sourcePieces source ++
        joins.flatMap (fun clause => .char ' ' :: clause.pieces) ++
        Fragment.conditions anyOf allOf ++ Piece.ofText (tail order limit offset)
termination_by structural s => s

def sourcePieces : RowSource Select → List Piece
  | .table name => Piece.ofText name
  | .union first rest =>
      Piece.ofText "((" ++ pieces first ++ memberPieces rest ++ Piece.ofText ")) combined"
termination_by structural source => source

/-- The members of a union after the first. -/
def memberPieces : List Select → List Piece
  | [] => []
  | member :: rest => Piece.ofText ") UNION ALL (" ++ pieces member ++ memberPieces rest
termination_by structural members => members

end

/-- The text that is sent. -/
def sql (s : Select) : String := String.ofList (Piece.numbered 0 s.pieces)

/-- The values that are bound, in the order of their numbers. -/
def values (s : Select) : List SqlValue := Piece.values s.pieces

end Select

end EventJournal

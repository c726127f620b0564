import EventJournal.Proofs.Sql.Placeholders

/-!
# The layout of a selection

The text of a selection is told by its `Select.layout`: the fragments with a question mark
for each value, and the texts between them, in the order in which they stand, through unions
nested to any depth and on into the selection around them. It is the text as it would be
without numbers (`Select.template`), and it says of every question mark which value was given
for it.

The layout is put together from the same parts as the pieces (`Part.Tells`). Wherever two
parts meet, a text that is not a fragment stands between two values, and it begins with no
digit; only within a fragment can a digit follow a question mark.

## Main results

* `Select.placeholders_in_step` — the placeholders of a selection, and the values at them.
* `Select.digit_joins_placeholder` — a digit after a question mark, by example.
-/

namespace EventJournal

/-! ## The layout of a selection -/

/-- A part of the text of a selection. -/
inductive Part where
  | trusted (text : String)
  | fragment (f : Fragment)

namespace Part

/-- The part as it is written. -/
def text : Part → List Char
  | .trusted text => text.toList
  | .fragment f => f.text.toList

/-- The values given for the question marks of the part. -/
def values : Part → List SqlValue
  | .trusted _ => []
  | .fragment f => f.values

def pieces : Part → List Piece
  | .trusted text => Piece.ofText text
  | .fragment f => f.pieces

/-- The text has neither a dollar sign nor a question mark. -/
def Plain (text : String) : Prop := '$' ∉ text.toList ∧ '?' ∉ text.toList

instance : DecidablePred Plain := fun text =>
  inferInstanceAs (Decidable ('$' ∉ text.toList ∧ '?' ∉ text.toList))

/-- A fragment may have question marks, but no dollar sign. -/
def Trusted : Part → Prop
  | .trusted text => Plain text
  | .fragment f => '$' ∉ f.text.toList

/-- No question mark of a fragment is directly followed by a digit. -/
def Apart : Part → Prop
  | .trusted _ => True
  | .fragment f => f.text.toList.IsChain fun a b => a = '?' → b.isDigit = false

instance : DecidablePred Apart
  | .trusted _ => inferInstanceAs (Decidable True)
  | .fragment f => inferInstanceAs
      (Decidable (f.text.toList.IsChain fun a b => a = '?' → b.isDigit = false))

/-- Conditions, each in parentheses, with a connective between them. -/
def group (connective : String) (fragments : List Fragment) : List Part :=
  List.intercalate [.trusted connective]
    (fragments.map fun f => [.trusted "(", .fragment f, .trusted ")"])

/-- What follows the joins of a selection. -/
def conditions (anyOf allOf : List Fragment) : List Part :=
  match anyOf, allOf with
  | [], [] => []
  | _ :: _, [] => .trusted " WHERE " :: group " OR " anyOf
  | [], _ :: _ => .trusted " WHERE " :: group " AND " allOf
  | _ :: _, _ :: _ =>
      .trusted " WHERE (" :: group " OR " anyOf ++ .trusted ") AND (" :: group " AND " allOf ++
        [.trusted ")"]

end Part

namespace Select

mutual

/-- The parts of the text of a selection, from left to right. -/
def layout : Select → List Part
  | ⟨columns, source, joins, anyOf, allOf, order, limit, offset⟩ =>
      .trusted ("SELECT " ++ columnList columns ++ " FROM ") :: sourceLayout source ++
        joins.flatMap (fun clause => [.trusted " ", .fragment clause]) ++
        Part.conditions anyOf allOf ++ [.trusted (tail order limit offset)]
termination_by structural s => s

def sourceLayout : RowSource Select → List Part
  | .table name => [.trusted name]
  | .union first rest =>
      .trusted "((" :: layout first ++ memberLayout rest ++ [.trusted ")) combined"]
termination_by structural source => source

def memberLayout : List Select → List Part
  | [] => []
  | member :: rest => .trusted ") UNION ALL (" :: layout member ++ memberLayout rest
termination_by structural members => members

end

/-- The text of a selection without numbers. -/
def template (s : Select) : List Char := s.layout.flatMap Part.text

mutual

/-- No text has a dollar sign, and only fragments have question marks. -/
def Trusted : Select → Prop
  | ⟨columns, source, joins, anyOf, allOf, order, _, _⟩ =>
      (∀ text ∈ columns, Part.Plain text) ∧ SourceTrusted source ∧
        (∀ f ∈ joins, '$' ∉ f.text.toList) ∧
        ((∀ f ∈ anyOf, '$' ∉ f.text.toList) ∧ ∀ f ∈ allOf, '$' ∉ f.text.toList) ∧
        ∀ text ∈ order, Part.Plain text
termination_by structural s => s

def SourceTrusted : RowSource Select → Prop
  | .table name => Part.Plain name
  | .union first rest => Trusted first ∧ MembersTrusted rest
termination_by structural source => source

def MembersTrusted : List Select → Prop
  | [] => True
  | member :: rest => Trusted member ∧ MembersTrusted rest
termination_by structural members => members

end

mutual

instance decidableTrusted : ∀ s : Select, Decidable (Trusted s)
  | ⟨columns, source, joins, anyOf, allOf, order, _, _⟩ =>
      have := decidableSourceTrusted source
      inferInstanceAs (Decidable ((∀ text ∈ columns, Part.Plain text) ∧ SourceTrusted source ∧
        (∀ f ∈ joins, '$' ∉ f.text.toList) ∧
        ((∀ f ∈ anyOf, '$' ∉ f.text.toList) ∧ ∀ f ∈ allOf, '$' ∉ f.text.toList) ∧
        ∀ text ∈ order, Part.Plain text))
termination_by structural s => s

instance decidableSourceTrusted : ∀ source : RowSource Select, Decidable (SourceTrusted source)
  | .table name => inferInstanceAs (Decidable (Part.Plain name))
  | .union first rest =>
      have := decidableTrusted first
      have := decidableMembersTrusted rest
      inferInstanceAs (Decidable (Trusted first ∧ MembersTrusted rest))
termination_by structural source => source

instance decidableMembersTrusted : ∀ members : List Select, Decidable (MembersTrusted members)
  | [] => inferInstanceAs (Decidable True)
  | member :: rest =>
      have := decidableTrusted member
      have := decidableMembersTrusted rest
      inferInstanceAs (Decidable (Trusted member ∧ MembersTrusted rest))
termination_by structural members => members

end

end Select

namespace Part

/-- The parts are those of the pieces: they hold the same text and values, digits stand apart
from values as they do in each fragment, and the parts are trusted if their texts are. -/
structure Tells (trusted : Prop) (parts : List Part) (pieces : List Piece) : Prop where
  pieces_eq : pieces = parts.flatMap Part.pieces
  apart_iff : pieces.IsChain Piece.Apart ↔ ∀ part ∈ parts, part.Apart
  trusted : trusted → ∀ part ∈ parts, part.Trusted

variable {p q : Prop} {a b : List Part} {x y : List Piece}

theorem Tells.imp (h : Tells p a x) (imp : q → p) : Tells q a x :=
  ⟨h.pieces_eq, h.apart_iff, h.trusted ∘ imp⟩

theorem Tells.nil : Tells True [] [] :=
  ⟨rfl, ⟨fun _ => List.forall_mem_nil _, fun _ => .nil⟩, fun _ => List.forall_mem_nil _⟩

theorem Tells.append (h : Tells p a x) (k : Tells q b y) (separate : Piece.Separate y) :
    Tells (p ∧ q) (a ++ b) (x ++ y) where
  pieces_eq := by rw [h.pieces_eq, k.pieces_eq, List.flatMap_append]
  apart_iff := by
    rw [Piece.isChain_append_iff separate, h.apart_iff, k.apart_iff, List.forall_mem_append]
  trusted both := List.forall_mem_append.2 ⟨h.trusted both.1, k.trusted both.2⟩

/-- A text before other parts. -/
theorem Tells.cons (text : String) (h : Tells p a x) :
    Tells (Plain text ∧ p) (.trusted text :: a) (Piece.ofText text ++ x) where
  pieces_eq := by rw [h.pieces_eq, List.flatMap_cons, Part.pieces]
  apart_iff := by
    rw [Piece.isChain_ofText_append_iff, h.apart_iff, List.forall_mem_cons]
    exact (and_iff_right trivial).symm
  trusted both := List.forall_mem_cons.2 ⟨both.1, h.trusted both.2⟩

theorem Tells.ofText (text : String) :
    Tells (Plain text) [.trusted text] (Piece.ofText text) := by
  have alone := Tells.nil.cons text
  rw [List.append_nil] at alone
  exact alone.imp fun plain => ⟨plain, trivial⟩

/-- A text without question marks and dollar signs before other parts. -/
theorem Tells.keyword (h : Tells p a x) (text : String) (plain : Plain text) :
    Tells p (.trusted text :: a) (Piece.ofText text ++ x) :=
  (h.cons text).imp fun trusted => ⟨plain, trusted⟩

/-- Such a text after other parts, where it does not begin with a digit. -/
theorem Tells.snoc (h : Tells p a x) (text : String) (plain : Plain text)
    (first : text.toList.head?.any Char.isDigit = false) :
    Tells p (a ++ [.trusted text]) (x ++ Piece.ofText text) :=
  (h.append (.ofText text) (Piece.separate_ofText first)).imp fun trusted => ⟨trusted, plain⟩

theorem Tells.ofFragment (f : Fragment) :
    Tells ('$' ∉ f.text.toList) [.fragment f] f.pieces where
  pieces_eq := by rw [List.flatMap_singleton, Part.pieces]
  apart_iff := by
    rw [List.forall_mem_singleton]
    exact Piece.isChain_place_iff f.fits
  trusted plain := List.forall_mem_singleton.2 plain

/-- A condition in parentheses. -/
theorem Tells.parenthesised (f : Fragment) :
    Tells ('$' ∉ f.text.toList) [.trusted "(", .fragment f, .trusted ")"]
      (.char '(' :: (f.pieces ++ [.char ')'])) :=
  ((Tells.ofFragment f).snoc ")" (by decide) (by decide)).keyword "(" (by decide)

theorem separate_group (connective : String) (fragments : List Fragment) :
    Piece.Separate (Fragment.group connective fragments) := by
  unfold Fragment.group
  cases fragments with
  | nil => exact Piece.separate_nil
  | cons f rest =>
      rw [List.map_cons, List.intercalate_cons_cons_left]
      exact Piece.separate_cons (by decide) _

/-- Conditions with a connective that stands apart from digits. -/
theorem Tells.group (connective : String) (plain : Plain connective)
    (first : connective.toList.head?.any Char.isDigit = false) (fragments : List Fragment) :
    Tells (∀ f ∈ fragments, '$' ∉ f.text.toList) (group connective fragments)
      (Fragment.group connective fragments) := by
  induction fragments with
  | nil => exact Tells.nil.imp fun _ => trivial
  | cons f rest ih =>
      cases rest with
      | nil =>
          unfold Part.group Fragment.group
          simp only [List.map_cons, List.map_nil, List.intercalate_singleton]
          exact (Tells.parenthesised f).imp fun plain => plain f List.mem_cons_self
      | cons g more =>
          have next : Piece.Separate
              (Piece.ofText connective ++ Fragment.group connective (g :: more)) :=
            (Piece.separate_ofText first).append (separate_group connective _)
          have both := (Tells.parenthesised f).append (ih.keyword connective plain) next
          unfold Part.group Fragment.group at both ⊢
          simp only [List.map_cons, List.intercalate_cons_cons, List.append_assoc] at both ⊢
          exact both.imp List.forall_mem_cons.1

theorem separate_conditions (anyOf allOf : List Fragment) :
    Piece.Separate (Fragment.conditions anyOf allOf) := by
  have space : ∀ rest, Piece.Separate (Piece.ofText " WHERE " ++ rest) :=
    Piece.separate_cons (c := ' ') (by decide)
  cases anyOf with
  | nil =>
      cases allOf with
      | nil => exact Piece.separate_nil
      | cons g others => exact space _
  | cons f rest =>
      cases allOf with
      | nil => exact space _
      | cons g others =>
          simp only [Fragment.conditions, List.append_assoc]
          exact Piece.separate_cons (c := ' ') (by decide) _

theorem Tells.conditions (anyOf allOf : List Fragment) :
    Tells ((∀ f ∈ anyOf, '$' ∉ f.text.toList) ∧ ∀ f ∈ allOf, '$' ∉ f.text.toList)
      (conditions anyOf allOf) (Fragment.conditions anyOf allOf) := by
  have alternatives := Tells.group " OR " (by decide) (by decide) anyOf
  have requirements := Tells.group " AND " (by decide) (by decide) allOf
  cases anyOf with
  | nil =>
      cases allOf with
      | nil => exact Tells.nil.imp fun _ => trivial
      | cons g others => exact (requirements.keyword " WHERE " (by decide)).imp fun both => both.2
  | cons f rest =>
      cases allOf with
      | nil => exact (alternatives.keyword " WHERE " (by decide)).imp fun both => both.1
      | cons g others =>
          have left := alternatives.keyword " WHERE (" (by decide)
          have right := requirements.keyword ") AND (" (by decide)
          have both := (left.append right (Piece.separate_cons (c := ')') (by decide) _)).snoc ")"
            (by decide) (by decide)
          simp only [List.append_assoc] at both
          simp only [Part.conditions, Fragment.conditions, List.append_assoc]
          exact both

theorem separate_joins (joins : List Fragment) :
    Piece.Separate (joins.flatMap fun clause => .char ' ' :: clause.pieces) := by
  cases joins with
  | nil => exact Piece.separate_nil
  | cons clause rest => exact Piece.separate_cons (by decide) _

theorem Tells.joins (joins : List Fragment) :
    Tells (∀ f ∈ joins, '$' ∉ f.text.toList)
      (joins.flatMap fun clause => [.trusted " ", .fragment clause])
      (joins.flatMap fun clause => .char ' ' :: clause.pieces) := by
  induction joins with
  | nil => exact Tells.nil.imp fun _ => trivial
  | cons clause rest ih =>
      have one := (Tells.ofFragment clause).keyword " " (by decide)
      exact (one.append ih (separate_joins rest)).imp List.forall_mem_cons.1

end Part

/-! ## The parts are the text -/

namespace Part

theorem Plain.append {a b : String} (ha : Plain a) (hb : Plain b) : Plain (a ++ b) := by
  unfold Plain at *
  simp only [String.toList_append, List.mem_append, not_or]
  exact ⟨⟨ha.1, hb.1⟩, ha.2, hb.2⟩

theorem plain_intercalate {separator : String} (plain : Plain separator) :
    ∀ {texts : List String}, (∀ text ∈ texts, Plain text) →
      Plain (separator.intercalate texts)
  | [], _ => by
      rw [String.intercalate_nil]
      decide
  | [text], all => by
      rw [String.intercalate_singleton]
      exact all text List.mem_cons_self
  | text :: next :: rest, all => by
      rw [String.intercalate_cons_cons]
      rw [List.forall_mem_cons] at all
      exact (all.1.append plain).append (plain_intercalate plain all.2)

theorem plain_nat (n : Nat) : Plain (toString n) :=
  ⟨fun there => absurd (Placeholder.isDigit_of_mem_toString there) (by decide),
    fun there => absurd (Placeholder.isDigit_of_mem_toString there) (by decide)⟩

theorem plain_int : ∀ n : Int, Plain (toString n)
  | .ofNat n => plain_nat n
  | .negSucc n => Plain.append (by decide) (plain_nat (n + 1))

end Part

namespace Select

theorem plain_columnList {columns : List String} (plain : ∀ text ∈ columns, Part.Plain text) :
    Part.Plain (columnList columns) := by
  cases columns with
  | nil => decide
  | cons first rest => exact Part.plain_intercalate (by decide) plain

theorem plain_tail {order : List String} (plain : ∀ text ∈ order, Part.Plain text)
    (limit offset : Option Int64) : Part.Plain (tail order limit offset) := by
  unfold tail
  refine .append (.append ?_ ?_) ?_
  · split
    · decide
    · exact .append (by decide) (Part.plain_intercalate (by decide) plain)
  · split
    · exact .append (by decide) (Part.plain_int _)
    · decide
  · split
    · exact .append (by decide) (Part.plain_int _)
    · decide

/-- What follows the conditions begins with a space, where there is anything. -/
theorem tail_first (order : List String) (limit offset : Option Int64) :
    (tail order limit offset).toList.head?.any Char.isDigit = false := by
  have append : ∀ {a b : String}, a.toList.head?.any Char.isDigit = false →
      b.toList.head?.any Char.isDigit = false →
        (a ++ b).toList.head?.any Char.isDigit = false := by
    intro a b ha hb
    rw [String.toList_append]
    cases chars : a.toList with
    | nil => exact hb
    | cons c rest =>
        rw [chars] at ha
        exact ha
  have keyword : ∀ {a b : String}, a.toList.head? = some ' ' →
      (a ++ b).toList.head?.any Char.isDigit = false := by
    intro a b first
    rw [String.toList_append, List.head?_append, first]
    rfl
  unfold tail
  refine append (append ?_ ?_) ?_
  · split
    · rfl
    · exact keyword (by decide)
  · split
    · exact keyword (by decide)
    · rfl
  · split
    · exact keyword (by decide)
    · rfl

theorem separate_memberPieces (members : List Select) :
    Piece.Separate (memberPieces members) := by
  cases members with
  | nil => exact Piece.separate_nil
  | cons member rest =>
      unfold memberPieces
      rw [List.append_assoc]
      exact Piece.separate_cons (c := ')') (by decide) _

mutual

theorem tells : ∀ s : Select, Part.Tells s.Trusted s.layout s.pieces
  | ⟨columns, source, joins, anyOf, allOf, order, limit, offset⟩ => by
      have start := sourceTells source
      have rows := ((start.append (Part.Tells.joins joins) (Part.separate_joins joins)).append
        (Part.Tells.conditions anyOf allOf) (Part.separate_conditions anyOf allOf)).append
        (.ofText (tail order limit offset)) (Piece.separate_ofText (tail_first _ _ _))
      have whole := rows.cons ("SELECT " ++ columnList columns ++ " FROM ")
      unfold layout pieces
      simp only [List.append_assoc, List.cons_append] at whole ⊢
      refine whole.imp ?_
      rintro ⟨columns, source, joins, conditions, order⟩
      exact ⟨((show Part.Plain "SELECT " by decide).append (plain_columnList columns)).append
        (by decide), ⟨⟨source, joins⟩, conditions⟩, plain_tail order _ _⟩
termination_by structural s => s

theorem sourceTells : ∀ source : RowSource Select,
    Part.Tells (SourceTrusted source) (sourceLayout source) (sourcePieces source)
  | .table name => Part.Tells.ofText name
  | .union first rest => by
      have members := (tells first).append (memberTells rest) (separate_memberPieces rest)
      have whole := (members.snoc ")) combined" (by decide) (by decide)).keyword "((" (by decide)
      unfold sourceLayout sourcePieces
      simp only [List.append_assoc, List.cons_append] at whole ⊢
      exact whole
termination_by structural source => source

theorem memberTells : ∀ members : List Select,
    Part.Tells (MembersTrusted members) (memberLayout members) (memberPieces members)
  | [] => Part.Tells.nil
  | member :: rest => by
      have both := (tells member).append (memberTells rest) (separate_memberPieces rest)
      have whole := both.keyword ") UNION ALL (" (by decide)
      unfold memberLayout memberPieces
      simp only [List.append_assoc, List.cons_append] at whole ⊢
      exact whole
termination_by structural members => members

end

end Select

/-! ## Placeholders and values -/

namespace Part

theorem map_mark_pieces (part : Part) : part.pieces.map Piece.mark = part.text := by
  cases part with
  | trusted text =>
      unfold pieces Piece.ofText
      rw [List.map_map]
      exact List.map_id _
  | fragment f => exact Piece.map_mark_place f.fits

theorem values_pieces (part : Part) : Piece.values part.pieces = part.values := by
  cases part with
  | trusted text => exact Piece.values_ofText text
  | fragment f => exact f.values_pieces

theorem Trusted.plain_pieces {part : Part} (trusted : part.Trusted) :
    Piece.Plain part.pieces := by
  cases part with
  | trusted text =>
      intro there
      obtain ⟨c, there, same⟩ := List.mem_map.1 there
      cases same
      exact trusted.1 there
  | fragment f => exact Piece.plain_place trusted f.values

/-- A part has a value for each question mark. -/
theorem Trusted.count_text {part : Part} (trusted : part.Trusted) :
    part.text.count '?' = part.values.length := by
  cases part with
  | trusted text => exact List.count_eq_zero.2 trusted.2
  | fragment f => exact f.fits

theorem count_text {parts : List Part} (trusted : ∀ part ∈ parts, part.Trusted) :
    (parts.flatMap text).count '?' = (parts.flatMap values).length := by
  induction parts with
  | nil => rfl
  | cons part rest ih =>
      rw [List.forall_mem_cons] at trusted
      rw [List.flatMap_cons, List.flatMap_cons, List.count_append, List.length_append,
        trusted.1.count_text, ih trusted.2]

theorem values_flatMap_pieces (parts : List Part) :
    Piece.values (parts.flatMap pieces) = parts.flatMap values := by
  induction parts with
  | nil => rfl
  | cons part rest ih =>
      rw [List.flatMap_cons, List.flatMap_cons, Piece.values_append, values_pieces, ih]

end Part

namespace Select

open Placeholder

variable {s : Select}

theorem values_eq (s : Select) : s.values = s.layout.flatMap Part.values := by
  rw [values, (tells s).pieces_eq, Part.values_flatMap_pieces]

theorem map_mark_pieces (s : Select) : s.pieces.map Piece.mark = s.template := by
  rw [(tells s).pieces_eq, List.map_flatMap, template]
  simp only [Part.map_mark_pieces]

theorem Trusted.plain_pieces (trusted : s.Trusted) : Piece.Plain s.pieces := by
  rw [(tells s).pieces_eq]
  intro there
  obtain ⟨part, among, there⟩ := List.mem_flatMap.1 there
  exact ((tells s).trusted trusted part among).plain_pieces there

theorem toList_sql (s : Select) : s.sql.toList = Piece.numbered 0 s.pieces :=
  String.toList_ofList

/-- There is a value for each question mark of the text without numbers, the one given for
it. -/
structure Filled (s : Select) : Prop where
  complete : s.template.count '?' = s.values.length
  given : ∀ {before f after a b}, s.layout = before ++ .fragment f :: after →
    f.text.toList = a ++ '?' :: b →
      ∃ v, f.values[a.count '?']? = some v ∧
        s.values[(before.flatMap Part.text ++ a).count '?']? = some v

/-- The placeholders of the text that is sent are in step with the values that are bound. -/
structure InStep (s : Select) : Prop extends Filled s where
  /-- The placeholders are those of the numbers one, two and so on, one for each value. -/
  counted : numbers s.sql.toList = countUp 1 s.values.length
  /-- With question marks in their places, the text is the one without numbers. -/
  restored : erase false s.sql.toList = s.template

theorem given_at (trusted : s.Trusted) {before after : List Part} {f : Fragment}
    {a b : List Char} (layout : s.layout = before ++ .fragment f :: after)
    (text : f.text.toList = a ++ '?' :: b) :
    ∃ v, f.values[a.count '?']? = some v ∧
      s.values[(before.flatMap Part.text ++ a).count '?']? = some v := by
  have safe := (tells s).trusted trusted
  rw [layout] at safe
  have passed : (before.flatMap Part.text).count '?' = (before.flatMap Part.values).length :=
    Part.count_text fun part there => safe part (List.mem_append_left _ there)
  have bound : a.count '?' < f.values.length := by
    rw [← f.fits, text, List.count_append, List.count_cons_self]
    omega
  refine ⟨f.values[a.count '?'], List.getElem?_eq_getElem bound, ?_⟩
  rw [values_eq, layout, List.flatMap_append, List.flatMap_cons, List.count_append, passed,
    List.getElem?_append_right (Nat.le_add_right _ _), Nat.add_sub_cancel_left]
  exact (List.getElem?_append_left bound).trans (List.getElem?_eq_getElem bound)

theorem Trusted.filled (trusted : s.Trusted) : s.Filled where
  complete := by
    rw [values_eq]
    exact Part.count_text ((tells s).trusted trusted)
  given := given_at trusted

/-- **Placeholders are in step with the values** of every selection, unions nested to any
depth included: there is a value for each question mark, the one given for it, and the
placeholders are those of the numbers one, two and so on, one for each value, if and only if
no question mark of a fragment is directly followed by a digit. Then the text is the one
without numbers but for them. -/
theorem placeholders_in_step (trusted : s.Trusted) :
    s.Filled ∧
      (numbers s.sql.toList = countUp 1 s.values.length ↔ ∀ part ∈ s.layout, part.Apart) ∧
      ((∀ part ∈ s.layout, part.Apart) → erase false s.sql.toList = s.template) := by
  have plain := trusted.plain_pieces
  rw [← (tells s).apart_iff, toList_sql]
  refine ⟨trusted.filled, Piece.numbers_numbered_iff plain 0, fun apart => ?_⟩
  rw [Piece.erase_numbered plain apart 0 false nofun, map_mark_pieces]

/-- A union within a union, with values in a member, in a join and in both groups. -/
def nested : Select where
  source := .union
    { source := .union
        { source := .table "a", allOf := [⟨"x = ? OR y = ?", [.int 1, .int 2], rfl⟩] }
        [{ source := .table "b", anyOf := [⟨"z >= ?", [.int 3], rfl⟩] }] }
    [{ source := .table "c", limit := some 5 }]
  joins := [⟨"LEFT JOIN d ON d.x = ?", [.int 4], rfl⟩]
  anyOf := [⟨"e = ?", [.int 5], rfl⟩, .never]
  allOf := [⟨"f = ?", [.int 6], rfl⟩]
  order := ["x ASC"]

theorem nested_inStep : nested.Trusted ∧ nested.InStep := by
  have trusted : nested.Trusted := by decide
  have apart : ∀ part ∈ nested.layout, part.Apart := by decide
  obtain ⟨filled, counted, restored⟩ := placeholders_in_step trusted
  exact ⟨trusted, filled, counted.2 apart, restored apart⟩

/-- A digit directly after a question mark joins the number: the text asks for a fifteenth
value where one is bound. -/
theorem digit_joins_placeholder :
    let s := (Select.fromTable {} "t").whereAll ⟨"a = ?5", [.int 7], rfl⟩
    s.Trusted ∧ s.sql = "SELECT * FROM t WHERE (a = $15)" ∧ s.values.length = 1 ∧
      numbers s.sql.toList = [['1', '5']] ∧ ¬s.InStep :=
  ⟨by decide, by decide, rfl, by decide, fun step => absurd step.counted (by decide)⟩

end Select

end EventJournal

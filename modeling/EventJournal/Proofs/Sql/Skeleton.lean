import EventJournal.Database.Statement

/-!
# The skeleton of a statement

The skeleton of a selection is the selection with every bound value replaced by one fixed
value of its type. The text that is sent is made from the pieces of a selection, and a
value adds to it no more than a number, so a selection and its skeleton have the same text
(`Select.sql_skeleton`), and the skeleton keeps the types of the values. Two statements are
therefore alike, to whoever reads their texts, as soon as their skeletons are equal
(`Select.Alike.of_skeleton`).
-/

namespace EventJournal

/-! ## Values -/

namespace SqlValue

/-- The value of the same type that stands for all of them. -/
def blank : SqlValue → SqlValue
  | .text _ => .text none
  | .int _ => .int 0
  | .bigint _ => .bigint none
  | .uuid _ => .uuid none
  | .json _ => .json .null
  | .texts _ => .texts []
  | .uuids _ => .uuids []
  | .bigints _ => .bigints []

@[simp]
theorem typeLabel_blank (v : SqlValue) : v.blank.typeLabel = v.typeLabel := by
  cases v <;> rfl

end SqlValue

/-! ## Pieces -/

namespace Piece

/-- A place for a value keeps its type only. -/
def blank : Piece → Piece
  | .char c => .char c
  | .value v => .value v.blank

theorem map_blank_ofText (text : String) : (ofText text).map blank = ofText text := by
  simp [ofText, blank]

/-- A value adds its number to the text and nothing else. -/
theorem numbered_map_blank (last : Nat) (pieces : List Piece) :
    numbered last (pieces.map blank) = numbered last pieces := by
  induction pieces generalizing last with
  | nil => rfl
  | cons piece rest ih => cases piece <;> simp [blank, numbered, ih]

theorem values_map_blank (pieces : List Piece) :
    values (pieces.map blank) = (values pieces).map SqlValue.blank := by
  induction pieces with
  | nil => rfl
  | cons piece rest ih => cases piece <;> simp [blank, values, ih]

/-- Where a value is placed depends on the text alone. -/
theorem place_map_blank (cs : List Char) (vs : List SqlValue) :
    place cs (vs.map SqlValue.blank) = (place cs vs).map blank := by
  induction cs generalizing vs with
  | nil => rfl
  | cons c cs ih =>
      cases vs with
      | nil => simpa [place, blank] using ih []
      | cons v vs =>
          by_cases hMark : c = '?'
          · simp [place, hMark, blank, ih vs]
          · simpa [place, hMark, blank] using ih (v :: vs)

end Piece

/-! ## Selections -/

namespace Fragment

/-- The fragment with a blank in each of its places. -/
def skeleton (f : Fragment) : Fragment where
  text := f.text
  values := f.values.map SqlValue.blank
  fits := by rw [List.length_map, f.fits]

@[simp]
theorem pieces_skeleton (f : Fragment) : f.skeleton.pieces = f.pieces.map Piece.blank :=
  Piece.place_map_blank f.text.toList f.values

theorem group_skeleton (connective : String) (fragments : List Fragment) :
    group connective (fragments.map skeleton) = (group connective fragments).map Piece.blank := by
  induction fragments with
  | nil => rfl
  | cons f rest ih =>
      cases rest <;> simp_all [group, Piece.blank, Piece.map_blank_ofText]

theorem conditions_skeleton (anyOf allOf : List Fragment) :
    conditions (anyOf.map skeleton) (allOf.map skeleton) =
      (conditions anyOf allOf).map Piece.blank := by
  have hAny := group_skeleton " OR " anyOf
  have hAll := group_skeleton " AND " allOf
  cases anyOf <;> cases allOf <;>
    simp_all [conditions, Piece.map_blank_ofText, Piece.blank]

end Fragment

namespace Select

mutual

/-- The selection with a blank for each of its values, in all the members of a union. -/
def skeleton : Select → Select
  | ⟨columns, source, joins, anyOf, allOf, order, limit, offset⟩ =>
      ⟨columns, sourceSkeleton source, joins.map Fragment.skeleton, anyOf.map Fragment.skeleton,
        allOf.map Fragment.skeleton, order, limit, offset⟩
termination_by structural s => s

def sourceSkeleton : RowSource Select → RowSource Select
  | .table name => .table name
  | .union first rest => .union (skeleton first) (memberSkeletons rest)
termination_by structural source => source

def memberSkeletons : List Select → List Select
  | [] => []
  | member :: rest => skeleton member :: memberSkeletons rest
termination_by structural members => members

end

theorem memberSkeletons_eq (members : List Select) :
    memberSkeletons members = members.map skeleton := by
  induction members with
  | nil => rfl
  | cons member rest ih => rw [memberSkeletons, ih, List.map_cons]

mutual

theorem pieces_skeleton : ∀ s : Select, s.skeleton.pieces = s.pieces.map Piece.blank
  | ⟨columns, source, joins, anyOf, allOf, order, limit, offset⟩ => by
      have hSource := sourcePieces_skeleton source
      have hJoins : (joins.map Fragment.skeleton).flatMap (fun f => Piece.char ' ' :: f.pieces) =
          (joins.flatMap fun f => Piece.char ' ' :: f.pieces).map Piece.blank := by
        simp [List.flatMap_map, List.map_flatMap, Piece.blank]
      simp only [skeleton, pieces, hSource, hJoins, Fragment.conditions_skeleton, List.map_append,
        Piece.map_blank_ofText]

theorem sourcePieces_skeleton : ∀ source : RowSource Select,
    sourcePieces (sourceSkeleton source) = (sourcePieces source).map Piece.blank
  | .table name => by simp only [sourceSkeleton, sourcePieces, Piece.map_blank_ofText]
  | .union first rest => by
      simp only [sourceSkeleton, sourcePieces, pieces_skeleton first, memberPieces_skeleton rest,
        List.map_append, Piece.map_blank_ofText]

theorem memberPieces_skeleton : ∀ members : List Select,
    memberPieces (memberSkeletons members) = (memberPieces members).map Piece.blank
  | [] => rfl
  | member :: rest => by
      simp only [memberSkeletons, memberPieces, pieces_skeleton member, memberPieces_skeleton rest,
        List.map_append, Piece.map_blank_ofText]

end

/-- The text of a selection does not depend on its values. -/
theorem sql_skeleton (s : Select) : s.skeleton.sql = s.sql := by
  rw [sql, sql, pieces_skeleton, Piece.numbered_map_blank]

theorem values_skeleton (s : Select) : s.skeleton.values = s.values.map SqlValue.blank := by
  rw [values, values, pieces_skeleton, Piece.values_map_blank]

end Select

/-- The selections have the same text and bind values of the same types to the same places. -/
def Select.Alike (s t : Select) : Prop :=
  s.sql = t.sql ∧ s.values.map SqlValue.typeLabel = t.values.map SqlValue.typeLabel

theorem Select.Alike.of_skeleton {s t : Select} (h : s.skeleton = t.skeleton) : s.Alike t := by
  have hTypes (u : Select) :
      u.values.map SqlValue.typeLabel = u.skeleton.values.map SqlValue.typeLabel := by
    simp [u.values_skeleton, Function.comp_def]
  exact ⟨by rw [← s.sql_skeleton, h, t.sql_skeleton], by rw [hTypes s, h, ← hTypes t]⟩

/-- The same of statements, whatever identifiers are drawn for them. -/
def Statement.Alike (a b : Statement) : Prop :=
  a.sql = b.sql ∧ ∀ drawn drawn',
    (a.values drawn).map SqlValue.typeLabel = (b.values drawn').map SqlValue.typeLabel

end EventJournal

import Mathlib.Data.List.Chain
import EventJournal.Sql.Select

/-!
# Placeholders

A reader of a statement takes a dollar sign and all digits after it for one placeholder
(`Placeholder.numbers`). `Piece.numbered` writes such placeholders in the places of values.
It knows nothing of the parts of a statement that the pieces come from, so the numbers go on
from one part to the next. The one thing that can go wrong is a digit directly after a
value, which the reader takes for a part of the number.

## Main results

* `Piece.numbers_numbered_iff` — the numbers of a text count up if and only if no digit
  follows a value.
* `Piece.erase_numbered` — the text without its numbers.
-/

namespace EventJournal

/-! ## Reading placeholders -/

namespace Placeholder

/-- The placeholders of a text from left to right, each by the digits that follow its dollar
sign. -/
def numbers : List Char → List (List Char)
  | [] => []
  | c :: rest => if c = '$' then rest.takeWhile Char.isDigit :: numbers rest else numbers rest

/-- The text with a question mark in the place of each placeholder; `inside` says that the
text goes on with the digits of one. -/
def erase (inside : Bool) : List Char → List Char
  | [] => []
  | c :: rest =>
      if c = '$' then '?' :: erase true rest
      else if inside && c.isDigit then erase true rest
      else c :: erase false rest

/-- The digits of the placeholders from the first one on. -/
def countUp (first size : Nat) : List (List Char) :=
  (List.range' first size).map fun number => (toString number).toList

theorem isDigit_of_mem_toString {number : Nat} {c : Char} (h : c ∈ (toString number).toList) :
    c.isDigit = true := by
  rw [Nat.toString_eq_repr, Nat.toList_repr] at h
  exact Nat.isDigit_of_mem_toDigits (by decide) (by decide) h

theorem ne_dollar_of_isDigit {c : Char} (h : c.isDigit = true) : c ≠ '$' := by
  rintro rfl
  exact absurd h (by decide)

/-- Digits begin no placeholder. -/
theorem numbers_digits_append {digits : List Char} (h : ∀ c ∈ digits, c.isDigit = true)
    (rest : List Char) : numbers (digits ++ rest) = numbers rest := by
  induction digits with
  | nil => rfl
  | cons c more ih =>
      rw [List.forall_mem_cons] at h
      rw [List.cons_append, numbers, if_neg (ne_dollar_of_isDigit h.1), ih h.2]

/-- Digits after a dollar sign go with it. -/
theorem erase_digits_append {digits : List Char} (h : ∀ c ∈ digits, c.isDigit = true)
    (rest : List Char) : erase true (digits ++ rest) = erase true rest := by
  induction digits with
  | nil => rfl
  | cons c more ih =>
      rw [List.forall_mem_cons] at h
      rw [List.cons_append, erase, if_neg (ne_dollar_of_isDigit h.1), h.1]
      exact ih h.2

end Placeholder

/-! ## Pieces -/

namespace Piece

open Placeholder

/-- The character that stands for a piece where values have no numbers. -/
def mark : Piece → Char
  | .char c => c
  | .value _ => '?'

/-- The two pieces can stand side by side: a digit after a value would join its number. -/
def Apart : Piece → Piece → Prop
  | .value _, .char c => c.isDigit = false
  | _, _ => True

/-- The pieces can stand after any piece. -/
def Separate (pieces : List Piece) : Prop := ∀ p ∈ pieces.head?, ∀ before, Apart before p

/-- No piece is a dollar sign. -/
def Plain (pieces : List Piece) : Prop := .char '$' ∉ pieces

theorem numbered_ofText (last : Nat) (text : String) :
    numbered last (ofText text) = text.toList := by
  unfold ofText
  induction text.toList with
  | nil => rfl
  | cons c rest ih => exact congrArg (c :: ·) ih

variable {last : Nat} {pieces : List Piece}

theorem Plain.ne {c : Char} (h : Plain (.char c :: pieces)) : c ≠ '$' := by
  rintro rfl
  exact h List.mem_cons_self

theorem Plain.tail {p : Piece} (h : Plain (p :: pieces)) : Plain pieces :=
  fun there => h (List.mem_cons_of_mem p there)

/-- After a value, the text goes on with a digit if and only if the pieces do. -/
theorem takeWhile_numbered_eq_nil_iff {v : SqlValue} (last : Nat) :
    (numbered last pieces).takeWhile Char.isDigit = [] ↔
      ∀ p ∈ pieces.head?, Apart (.value v) p := by
  cases pieces with
  | nil => simp [numbered]
  | cons p rest =>
      cases p with
      | char c =>
          rw [numbered, List.takeWhile_cons]
          cases digit : c.isDigit <;> simp [Apart, digit]
      | value w =>
          rw [numbered, List.takeWhile_cons, if_neg (by decide)]
          simp [Apart]

/-- The numbers of a text count up if and only if no digit follows a value. -/
theorem numbers_numbered_iff (plain : Plain pieces) :
    ∀ last, numbers (numbered last pieces) = countUp (last + 1) (values pieces).length ↔
      pieces.IsChain Apart := by
  induction pieces with
  | nil => exact fun last => ⟨fun _ => .nil, fun _ => rfl⟩
  | cons p rest ih =>
      intro last
      cases p with
      | char c =>
          have free : ∀ q ∈ rest.head?, Apart (.char c) q := fun _ _ => trivial
          rw [numbered, numbers, if_neg plain.ne, values, ih plain.tail, List.isChain_cons]
          exact ⟨fun chain => ⟨free, chain⟩, fun chain => chain.2⟩
      | value v =>
          have digits : ∀ c ∈ (toString (last + 1)).toList, c.isDigit = true :=
            fun _ => isDigit_of_mem_toString
          have counted : countUp (last + 1) (values (.value v :: rest)).length =
              (toString (last + 1)).toList :: countUp (last + 1 + 1) (values rest).length := by
            rw [values, List.length_cons, countUp, List.range'_succ, List.map_cons]
            rfl
          rw [numbered, numbers, if_pos rfl, List.takeWhile_append_of_pos digits,
            numbers_digits_append digits, counted, List.cons.injEq, ih plain.tail,
            List.isChain_cons, ← takeWhile_numbered_eq_nil_iff (last + 1),
            List.append_right_eq_self]

/-- Where no digit follows a value, the numbers can be taken out again. -/
theorem erase_numbered (plain : Plain pieces) (apart : pieces.IsChain Apart) :
    ∀ last inside, (inside = true → Separate pieces) →
      erase inside (numbered last pieces) = pieces.map mark := by
  induction pieces with
  | nil => exact fun _ _ _ => rfl
  | cons p rest ih =>
      intro last inside separate
      obtain ⟨next, chain⟩ := List.isChain_cons.1 apart
      cases p with
      | char c =>
          have other : (inside && c.isDigit) = false := by
            cases inside with
            | false => rfl
            | true => exact separate rfl _ rfl (.value default)
          rw [numbered, erase, if_neg plain.ne, other, if_neg Bool.false_ne_true,
            ih plain.tail chain last false fun set => absurd set Bool.false_ne_true]
          rfl
      | value v =>
          have separate : Separate rest := by
            intro q there before
            cases before with
            | char _ => trivial
            | value _ =>
                have beside := next q there
                cases q with
                | char c => exact beside
                | value _ => trivial
          rw [numbered, erase, if_pos rfl,
            erase_digits_append (fun _ => isDigit_of_mem_toString),
            ih plain.tail chain (last + 1) true fun _ => separate]
          rfl

/-! ### Pieces side by side -/

theorem Separate.append {a b : List Piece} (ha : Separate a) (hb : Separate b) :
    Separate (a ++ b) := by
  cases a with
  | nil => exact hb
  | cons p rest => exact ha

theorem separate_nil : Separate [] := fun _ there => nomatch there

theorem separate_cons {c : Char} (h : c.isDigit = false) (rest : List Piece) :
    Separate (.char c :: rest) := by
  intro p there before
  obtain rfl : Piece.char c = p := Option.some.inj there
  cases before with
  | char _ => trivial
  | value _ => exact h

/-- A text can stand after a value if its first character is no digit. -/
theorem separate_ofText {text : String} (h : text.toList.head?.any Char.isDigit = false) :
    Separate (ofText text) := by
  unfold ofText
  cases chars : text.toList with
  | nil => exact separate_nil
  | cons c rest =>
      rw [chars] at h
      exact separate_cons h _

theorem isChain_append_iff {a b : List Piece} (separate : Separate b) :
    (a ++ b).IsChain Apart ↔ a.IsChain Apart ∧ b.IsChain Apart := by
  rw [List.isChain_append]
  exact ⟨fun h => ⟨h.1, h.2.1⟩, fun h => ⟨h.1, h.2, fun p _ q there => separate q there p⟩⟩

/-- A text can stand before any piece. -/
theorem isChain_ofText_append_iff (text : String) {pieces : List Piece} :
    (ofText text ++ pieces).IsChain Apart ↔ pieces.IsChain Apart := by
  unfold ofText
  induction text.toList with
  | nil => rfl
  | cons c rest ih =>
      rw [List.map_cons, List.cons_append, List.isChain_cons, ih]
      exact and_iff_right fun _ _ => trivial

end Piece

/-! ## Values in the places of question marks -/

namespace Piece

theorem place_cons_of_ne {c : Char} (ne : c ≠ '?') (rest : List Char) (vs : List SqlValue) :
    place (c :: rest) vs = .char c :: place rest vs := by
  cases vs with
  | nil => rfl
  | cons v vs => rw [place, if_neg ne]

/-- A text with as many question marks as values, taken apart from the left. -/
theorem place_cases {c : Char} {rest : List Char} {vs : List SqlValue}
    (fits : (c :: rest).count '?' = vs.length) :
    (c ≠ '?' ∧ rest.count '?' = vs.length ∧ place (c :: rest) vs = .char c :: place rest vs) ∨
      ∃ v vs', c = '?' ∧ vs = v :: vs' ∧ rest.count '?' = vs'.length ∧
        place (c :: rest) vs = .value v :: place rest vs' := by
  by_cases mark : c = '?'
  · subst mark
    cases vs with
    | nil => simp at fits
    | cons v vs => exact .inr ⟨v, vs, rfl, rfl, by simpa using fits, by rw [place, if_pos rfl]⟩
  · rw [List.count_cons_of_ne mark] at fits
    exact .inl ⟨mark, fits, place_cons_of_ne mark rest vs⟩

theorem map_mark_place {cs : List Char} :
    ∀ {vs : List SqlValue}, cs.count '?' = vs.length → (place cs vs).map mark = cs := by
  induction cs with
  | nil => exact fun _ => rfl
  | cons c rest ih =>
      intro vs fits
      rcases place_cases fits with ⟨-, fits, same⟩ | ⟨v, vs, rfl, rfl, fits, same⟩ <;>
        · rw [same, List.map_cons, ih fits]
          rfl

/-- Values stand apart from digits as the question marks of the text do. -/
theorem isChain_place_iff {cs : List Char} :
    ∀ {vs : List SqlValue}, cs.count '?' = vs.length →
      ((place cs vs).IsChain Apart ↔ cs.IsChain fun a b => a = '?' → b.isDigit = false) := by
  induction cs with
  | nil => exact fun _ => ⟨fun _ => .nil, fun _ => .nil⟩
  | cons c rest ih =>
      intro vs fits
      rcases place_cases fits with ⟨ne, fits, same⟩ | ⟨v, vs, rfl, rfl, fits, same⟩
      · rw [same, List.isChain_cons, List.isChain_cons, ih fits]
        exact and_congr_left fun _ => ⟨fun _ _ _ same => absurd same ne, fun _ _ _ => trivial⟩
      · have next : (∀ p ∈ (place rest vs).head?, Apart (.value v) p) ↔
            ∀ d ∈ rest.head?, '?' = '?' → d.isDigit = false := by
          cases rest with
          | nil => simp [place]
          | cons d more =>
              rcases place_cases fits with ⟨-, -, same⟩ | ⟨w, ws, rfl, rfl, -, same⟩
              · simp [same, Apart]
              · simp only [same, List.head?_cons, Option.mem_some_iff, forall_eq']
                exact ⟨fun _ _ => by decide, fun _ => trivial⟩
        rw [same, List.isChain_cons, List.isChain_cons, ih fits, next]

theorem plain_cons {p : Piece} {rest : List Piece} (ne : p ≠ .char '$') (plain : Plain rest) :
    Plain (p :: rest) := by
  intro there
  rcases List.mem_cons.1 there with same | there
  · exact ne same.symm
  · exact plain there

theorem plain_place {cs : List Char} (plain : '$' ∉ cs) :
    ∀ vs : List SqlValue, Plain (place cs vs) := by
  induction cs with
  | nil => exact fun _ => List.not_mem_nil
  | cons c rest ih =>
      rw [List.mem_cons, not_or] at plain
      obtain ⟨ne, plain⟩ := plain
      have kept : Piece.char c ≠ .char '$' := fun same => ne (Piece.char.inj same).symm
      intro vs
      cases vs with
      | nil => exact plain_cons kept (ih plain [])
      | cons v vs =>
          rw [place]
          split
          · exact plain_cons (by simp only [ne_eq, reduceCtorEq, not_false_eq_true]) (ih plain vs)
          · exact plain_cons kept (ih plain (v :: vs))

end Piece

end EventJournal

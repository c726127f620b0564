import EventJournal.Proofs.Sql.Placeholders

/-!
# How the conditions of a selection are read

The database reads the conditions of a selection from their text: parentheses first, then
`AND`, then `OR`. Here the text is cut into tokens (`Sql.tokens?`), which are evaluated from
left to right with one `Sql.Level` for each parenthesis that is open (`Sql.evaluate?`). The
reader knows the texts of the conditions in their order. Where a parenthesis opens, it looks
for the one that closes it, and takes the text between the two for the next condition if it
is that; otherwise it reads on behind the parenthesis. What a condition says stays closed to
it, an `OR` of its own included.

So a condition must not close a parenthesis that it has not opened, nor leave one open: its
text has to be `Sql.Balanced`. The numbers of values make no difference to that.

## Main results

* `Sql.tokens?_group` — a group of conditions is one token for each of them, with the
  connective between them.
* `Select.conditions_meet` — the conditions hold if one of the first group does, where there
  are any, and all of the second.
-/

namespace EventJournal

namespace Sql

/-! ## Parentheses -/

/-- How many parentheses are open after a character, unless it closes one that is not. -/
def nest (depth : Nat) (c : Char) : Option Nat :=
  if c = '(' then some (depth + 1)
  else if c = ')' then if depth = 0 then none else some (depth - 1)
  else some depth

/-- How many are open after a text. -/
def nestAll (depth : Nat) (text : List Char) : Option Nat := text.foldlM nest depth

/-- The text closes the parentheses that it opens, and no others. -/
def Balanced (text : List Char) : Prop := nestAll 0 text = some 0

instance : DecidablePred Balanced := fun text =>
  inferInstanceAs (Decidable (nestAll 0 text = some 0))

/-- The text up to the parenthesis that closes one which is open around it. -/
def enclosed? : Nat → List Char → Option (List Char)
  | _, [] => none
  | depth, c :: rest =>
      match nest depth c with
      | none => some []
      | some depth => (enclosed? depth rest).map (c :: ·)

theorem nestAll_cons (depth : Nat) (c : Char) (rest : List Char) :
    nestAll depth (c :: rest) = (nest depth c).bind (nestAll · rest) := List.foldlM_cons

theorem nestAll_append (depth : Nat) (a b : List Char) :
    nestAll depth (a ++ b) = (nestAll depth a).bind (nestAll · b) := List.foldlM_append

/-- A text without parentheses leaves the depth. -/
theorem nestAll_plain {text : List Char} (plain : ∀ c ∈ text, c ≠ '(' ∧ c ≠ ')') (depth : Nat) :
    nestAll depth text = some depth := by
  induction text with
  | nil => rfl
  | cons c rest ih =>
      obtain ⟨⟨opens, closes⟩, others⟩ := List.forall_mem_cons.1 plain
      rw [nestAll_cons, nest, if_neg opens, if_neg closes]
      exact ih others

/-- More parentheses may be open around a character than it knows of. -/
theorem nest_add {depth after : Nat} {c : Char} (h : nest depth c = some after) (more : Nat) :
    nest (depth + more) c = some (after + more) := by
  unfold nest at *
  grind

theorem nestAll_add {text : List Char} {depth after : Nat} (h : nestAll depth text = some after)
    (more : Nat) : nestAll (depth + more) text = some (after + more) := by
  induction text generalizing depth with
  | nil =>
      obtain rfl : depth = after := Option.some.inj h
      rfl
  | cons c rest ih =>
      rw [nestAll_cons, Option.bind_eq_some_iff] at h
      obtain ⟨next, step, h⟩ := h
      rw [nestAll_cons, nest_add step]
      exact ih h

theorem Balanced.append {a b : List Char} (ha : Balanced a) (hb : Balanced b) :
    Balanced (a ++ b) := by
  unfold Balanced at *
  rw [nestAll_append, ha]
  exact hb

/-- A text in parentheses. -/
def parenthesised (text : List Char) : List Char := '(' :: (text ++ [')'])

theorem Balanced.parenthesised {text : List Char} (h : Balanced text) :
    Balanced (parenthesised text) := by
  have inside : nestAll 1 text = some 1 := nestAll_add h 1
  have opened : nestAll 0 (Sql.parenthesised text) = nestAll 1 (text ++ [')']) := rfl
  unfold Balanced
  rw [opened, nestAll_append, inside]
  rfl

/-- The parenthesis before a balanced text is closed by the one after it. -/
theorem enclosed?_append {text : List Char} {depth : Nat} (h : nestAll depth text = some 0)
    (rest : List Char) : enclosed? depth (text ++ ')' :: rest) = some text := by
  induction text generalizing depth with
  | nil =>
      obtain rfl : depth = 0 := Option.some.inj h
      rfl
  | cons c more ih =>
      rw [nestAll_cons, Option.bind_eq_some_iff] at h
      obtain ⟨next, step, h⟩ := h
      rw [List.cons_append, enclosed?, step]
      dsimp only
      rw [ih h, Option.map_some]

/-! ## Tokens -/

/-- What conditions are put together from. -/
inductive Token where
  | opening
  | closing
  | conjunction
  | alternative
  /-- The condition with the number, in its parentheses. -/
  | condition (number : Nat)
  deriving DecidableEq

/-- The tokens of a text, if it can be read, after the given number of characters. Of the
conditions with the given texts so many have been read before. -/
def tokens? (conditions : List (List Char)) : (skip seen : Nat) → List Char → Option (List Token)
  | _, _, [] => some []
  | skip + 1, seen, _ :: rest => tokens? conditions skip seen rest
  | 0, seen, c :: rest =>
      if c = '(' then
        match enclosed? 0 rest with
        | none => none
        | some inner =>
            if conditions[seen]? = some inner then
              (tokens? conditions (inner.length + 1) (seen + 1) rest).map (.condition seen :: ·)
            else (tokens? conditions 0 seen rest).map (.opening :: ·)
      else if c = ')' then (tokens? conditions 0 seen rest).map (.closing :: ·)
      else if " AND ".toList.isPrefixOf (c :: rest) then
        (tokens? conditions 4 seen rest).map (.conjunction :: ·)
      else if " OR ".toList.isPrefixOf (c :: rest) then
        (tokens? conditions 3 seen rest).map (.alternative :: ·)
      else none

section

variable {conditions : List (List Char)} {seen : Nat}

theorem tokens?_skip (skipped rest : List Char) :
    tokens? conditions skipped.length seen (skipped ++ rest) = tokens? conditions 0 seen rest := by
  induction skipped with
  | nil => rfl
  | cons c more ih => exact ih

/-- The next condition. -/
theorem tokens?_condition {text : List Char} (next : conditions[seen]? = some text)
    (balanced : Balanced text) (rest : List Char) :
    tokens? conditions 0 seen (parenthesised text ++ rest) =
      (tokens? conditions 0 (seen + 1) rest).map (.condition seen :: ·) := by
  have form : parenthesised text ++ rest = '(' :: (text ++ ')' :: rest) := by
    rw [parenthesised, List.cons_append, List.append_assoc, List.singleton_append]
  have past : (text ++ ')' :: rest) = (text ++ [')']) ++ rest := by
    rw [List.append_assoc, List.singleton_append]
  have length : text.length + 1 = (text ++ [')']).length := by
    rw [List.length_append, List.length_singleton]
  rw [form, tokens?, if_pos rfl, enclosed?_append balanced rest]
  dsimp only
  rw [if_pos next, past, length, tokens?_skip]

/-- A parenthesis around something else than the next condition. -/
theorem tokens?_opening {text : List Char} (other : conditions[seen]? ≠ some text)
    (balanced : Balanced text) (rest : List Char) :
    tokens? conditions 0 seen ('(' :: (text ++ ')' :: rest)) =
      (tokens? conditions 0 seen (text ++ ')' :: rest)).map (.opening :: ·) := by
  rw [tokens?, if_pos rfl, enclosed?_append balanced rest]
  dsimp only
  rw [if_neg other]

theorem tokens?_closing (rest : List Char) :
    tokens? conditions 0 seen (')' :: rest) =
      (tokens? conditions 0 seen rest).map (.closing :: ·) := rfl

/-- The words between conditions, each with its token. -/
inductive Connective : List Char → Token → Prop
  | and : Connective " AND ".toList .conjunction
  | or : Connective " OR ".toList .alternative

theorem Connective.balanced {word : List Char} {token : Token} (h : Connective word token) :
    Balanced word := by
  cases h <;> decide

theorem Connective.tokens? {word : List Char} {token : Token} (h : Connective word token)
    (rest : List Char) :
    tokens? conditions 0 seen (word ++ rest) =
      (tokens? conditions 0 seen rest).map (token :: ·) := by
  cases h <;> rfl

end

/-! ## Groups -/

/-- Texts in parentheses, with a word between them. -/
def group (word : List Char) (texts : List (List Char)) : List Char :=
  List.intercalate word (texts.map parenthesised)

theorem group_singleton (word text : List Char) : group word [text] = parenthesised text :=
  List.intercalate_singleton

theorem group_cons_cons (word text next : List Char) (rest : List (List Char)) :
    group word (text :: next :: rest) =
      parenthesised text ++ word ++ group word (next :: rest) := by
  unfold group
  rw [List.map_cons, List.map_cons, List.intercalate_cons_cons]

theorem balanced_group {word : List Char} {texts : List (List Char)} (between : Balanced word)
    (balanced : ∀ text ∈ texts, Balanced text) : Balanced (group word texts) := by
  induction texts with
  | nil => rfl
  | cons text rest ih =>
      obtain ⟨first, others⟩ := List.forall_mem_cons.1 balanced
      cases rest with
      | nil =>
          rw [group_singleton]
          exact first.parenthesised
      | cons next rest =>
          rw [group_cons_cons]
          exact (first.parenthesised.append between).append (ih others)

/-- A group is longer than the first of its texts. -/
theorem group_ne_first (word text : List Char) (rest : List (List Char)) :
    group word (text :: rest) ≠ text := by
  intro same
  have longer : text.length < (group word (text :: rest)).length := by
    cases rest with
    | nil =>
        rw [group_singleton, parenthesised, List.length_cons, List.length_append]
        omega
    | cons next rest =>
        rw [group_cons_cons, parenthesised, List.append_assoc, List.length_append,
          List.length_cons, List.length_append]
        omega
  rw [same] at longer
  exact Nat.lt_irrefl _ longer

/-- The tokens of so many conditions from one on, with a connective between them. -/
def groupTokens (token : Token) (first size : Nat) : List Token :=
  ((List.range' first size).map Token.condition).intersperse token

theorem groupTokens_one (token : Token) (first : Nat) :
    groupTokens token first (0 + 1) = [.condition first] := by
  rw [groupTokens, List.range'_one, List.map_singleton, List.intersperse_singleton]

theorem groupTokens_cons_cons (token : Token) (first size : Nat) :
    groupTokens token first (size + 1 + 1) =
      .condition first :: token :: groupTokens token (first + 1) (size + 1) := by
  unfold groupTokens
  rw [List.range'_succ, List.range'_succ, List.map_cons, List.map_cons,
    List.intersperse_cons_cons]

/-- A group of conditions is one token for each of them, with the connective between them. -/
theorem tokens?_group {word : List Char} {token : Token} (between : Connective word token)
    (before after : List (List Char)) {texts : List (List Char)} (ne : texts ≠ [])
    (balanced : ∀ text ∈ texts, Balanced text) (rest : List Char) :
    tokens? (before ++ texts ++ after) 0 before.length (group word texts ++ rest) =
      (tokens? (before ++ texts ++ after) 0 (before.length + texts.length) rest).map
        (groupTokens token before.length texts.length ++ ·) := by
  induction texts generalizing before with
  | nil => exact absurd rfl ne
  | cons text more ih =>
      obtain ⟨first, others⟩ := List.forall_mem_cons.1 balanced
      have next : (before ++ text :: more ++ after)[before.length]? = some text := by
        rw [List.append_assoc, List.getElem?_append_right (Nat.le_refl _), Nat.sub_self]
        rfl
      cases more with
      | nil =>
          rw [group_singleton, tokens?_condition next first]
          rfl
      | cons text' more =>
          -- the texts after the first, which goes to those before them
          have onward := ih (before ++ [text]) (List.cons_ne_nil _ _) others
          rw [List.append_assoc before [text], List.singleton_append, List.length_append,
            List.length_singleton] at onward
          have size : before.length + 1 + (text' :: more).length =
              before.length + (text :: text' :: more).length := by
            rw [List.length_cons, List.length_cons, List.length_cons]
            omega
          rw [group_cons_cons, List.append_assoc (parenthesised text ++ word),
            List.append_assoc (parenthesised text), tokens?_condition next first,
            between.tokens?, onward, size, Option.map_map, Option.map_map]
          refine congrArg (Option.map · _) (funext fun tokens => ?_)
          have short : (text' :: more).length = more.length + 1 := rfl
          have long : (text :: text' :: more).length = more.length + 1 + 1 := rfl
          rw [long, short, groupTokens_cons_cons]
          rfl

/-! ## Evaluation -/

/-- What has been read of the conditions since a parenthesis was opened. -/
structure Level where
  /-- One of the terms holds that were read to their end. -/
  earlier : Bool := false
  /-- All conditions hold that were read of the present term. -/
  term : Bool := true

namespace Level

def value (l : Level) : Bool := l.earlier || l.term

/-- One more condition of the present term. -/
def meet (l : Level) (holds : Bool) : Level := { l with term := l.term && holds }

/-- The present term ends, and another begins. -/
def next (l : Level) : Level := ⟨l.earlier || l.term, true⟩

end Level

/-- Whether the conditions hold. A conjunction goes on with the present term and an
alternative ends it; a parenthesis is read on a level of its own, and what it comes to is one
condition of the level around it. Operands and connectives must take turns. -/
def evaluate? (truth : Nat → Bool) :
    (outer : List Level) → (here : Level) → (operand : Bool) → List Token → Option Bool
  | [], here, false, [] => some here.value
  | outer, here, true, .condition number :: rest =>
      evaluate? truth outer (here.meet (truth number)) false rest
  | outer, here, true, .opening :: rest => evaluate? truth (here :: outer) {} true rest
  | around :: outer, here, false, .closing :: rest =>
      evaluate? truth outer (around.meet here.value) false rest
  | outer, here, false, .conjunction :: rest => evaluate? truth outer here true rest
  | outer, here, false, .alternative :: rest => evaluate? truth outer here.next true rest
  | _, _, _, _ => none

/-- Whether a text of conditions holds, if each of them does or does not. -/
def holds? (truth : Nat → Bool) (conditions : List (List Char)) (text : List Char) :
    Option Bool :=
  (tokens? conditions 0 0 text).bind (evaluate? truth [] {} true)

section

variable (truth : Nat → Bool) (outer : List Level)

/-- All conditions of a group. -/
theorem evaluate?_all (first size : Nat) (rest : List Token) (here : Level) :
    evaluate? truth outer here true (groupTokens .conjunction first (size + 1) ++ rest) =
      evaluate? truth outer (here.meet ((List.range' first (size + 1)).all truth)) false rest := by
  induction size generalizing first here with
  | zero =>
      rw [List.range'_one, List.all_cons, List.all_nil, Bool.and_true, groupTokens_one,
        List.singleton_append, evaluate?]
  | succ size ih =>
      rw [groupTokens_cons_cons, List.cons_append, List.cons_append, evaluate?, evaluate?, ih,
        List.range'_succ (n := size + 1), List.all_cons, Level.meet, Level.meet, Level.meet,
        Bool.and_assoc]

/-- The conditions of a group, of which one is enough. -/
theorem evaluate?_any (first size : Nat) (here : Level) :
    ∃ here' : Level,
      here'.value = (here.earlier || here.term && truth first ||
        (List.range' (first + 1) size).any truth) ∧
      ∀ rest, evaluate? truth outer here true
          (groupTokens .alternative first (size + 1) ++ rest) =
        evaluate? truth outer here' false rest := by
  induction size generalizing first here with
  | zero =>
      refine ⟨here.meet (truth first), ?_, fun rest => ?_⟩
      · rw [List.range'_zero, List.any_nil, Bool.or_false]
        rfl
      · rw [groupTokens_one, List.singleton_append, evaluate?]
  | succ size ih =>
      obtain ⟨here', value, same⟩ := ih (first + 1) (here.meet (truth first)).next
      refine ⟨here', ?_, fun rest => ?_⟩
      · rw [value, List.range'_succ, List.any_cons, Bool.or_assoc]
        rfl
      · rw [groupTokens_cons_cons, List.cons_append, List.cons_append, evaluate?, evaluate?]
        exact same rest

/-- The first group in parentheses. -/
theorem evaluate?_any_enclosed (first size : Nat) (rest : List Token) (here : Level) :
    evaluate? truth outer here true
        (.opening :: (groupTokens .alternative first (size + 1) ++ .closing :: rest)) =
      evaluate? truth outer (here.meet ((List.range' first (size + 1)).any truth)) false rest := by
  obtain ⟨here', value, same⟩ := evaluate?_any truth (here :: outer) first size {}
  rw [evaluate?, same, evaluate?, value, List.range'_succ, List.any_cons]
  rfl

/-- The second group in parentheses. -/
theorem evaluate?_all_enclosed (first size : Nat) (rest : List Token) (here : Level) :
    evaluate? truth outer here true
        (.opening :: (groupTokens .conjunction first (size + 1) ++ .closing :: rest)) =
      evaluate? truth outer (here.meet ((List.range' first (size + 1)).all truth)) false rest := by
  rw [evaluate?, evaluate?_all, evaluate?]
  rfl

end

/-- A text in parentheses of its own is read on a level of its own. -/
theorem tokens?_enclosed_group {word : List Char} {token : Token}
    (between : Connective word token) (before after : List (List Char))
    {texts : List (List Char)} (ne : texts ≠ []) (balanced : ∀ text ∈ texts, Balanced text)
    (rest : List Char) :
    tokens? (before ++ texts ++ after) 0 before.length
        (parenthesised (group word texts) ++ rest) =
      (tokens? (before ++ texts ++ after) 0 (before.length + texts.length) rest).map
        (fun tokens => .opening ::
          (groupTokens token before.length texts.length ++ .closing :: tokens)) := by
  obtain ⟨text, more, rfl⟩ := List.exists_cons_of_ne_nil ne
  have next : (before ++ text :: more ++ after)[before.length]? = some text := by
    rw [List.append_assoc, List.getElem?_append_right (Nat.le_refl _), Nat.sub_self]
    rfl
  have other : (before ++ text :: more ++ after)[before.length]? ≠
      some (group word (text :: more)) := by
    rw [next]
    exact fun same => group_ne_first word text more (Option.some.inj same).symm
  have form : parenthesised (group word (text :: more)) ++ rest =
      '(' :: (group word (text :: more) ++ ')' :: rest) := by
    rw [parenthesised, List.cons_append, List.append_assoc, List.singleton_append]
  rw [form, tokens?_opening other (balanced_group between.balanced balanced),
    tokens?_group between before after ne balanced, tokens?_closing, Option.map_map, Option.map_map]
  rfl

end Sql

/-! ## The text of a selection -/

namespace Piece

/-- The number of a value neither opens nor closes a parenthesis, and a question mark neither. -/
theorem nestAll_numbered {cs : List Char} :
    ∀ {vs : List SqlValue} (last depth : Nat), cs.count '?' = vs.length →
      Sql.nestAll depth (numbered last (place cs vs)) = Sql.nestAll depth cs := by
  induction cs with
  | nil => exact fun _ _ _ => rfl
  | cons c rest ih =>
      intro vs last depth fits
      rcases place_cases fits with ⟨-, fits, same⟩ | ⟨v, vs, rfl, rfl, fits, same⟩
      · rw [same, numbered, Sql.nestAll_cons, Sql.nestAll_cons]
        exact Option.bind_congr fun next _ => ih last next fits
      · have number : ∀ d ∈ '$' :: (toString (last + 1)).toList, d ≠ '(' ∧ d ≠ ')' := by
          refine List.forall_mem_cons.2 ⟨by decide, fun d there => ?_⟩
          have digit := Placeholder.isDigit_of_mem_toString there
          constructor <;>
            · rintro rfl
              exact absurd digit (by decide)
        have split : numbered last (.value v :: place rest vs) =
            ('$' :: (toString (last + 1)).toList) ++ numbered (last + 1) (place rest vs) := rfl
        rw [same, split, Sql.nestAll_append, Sql.nestAll_plain number, Sql.nestAll_cons]
        exact ih (last + 1) depth fits

end Piece

namespace Fragment

/-- The texts of fragments, one after the other, where so many values come before them. -/
def texts : Nat → List Fragment → List (List Char)
  | _, [] => []
  | last, f :: rest => Piece.numbered last f.pieces :: texts (last + f.values.length) rest

theorem length_texts (fragments : List Fragment) :
    ∀ last, (texts last fragments).length = fragments.length := by
  induction fragments with
  | nil => exact fun _ => rfl
  | cons f rest ih => exact fun last => congrArg (· + 1) (ih _)

theorem texts_append (a b : List Fragment) :
    ∀ last, texts last (a ++ b) =
      texts last a ++ texts (last + (a.flatMap values).length) b := by
  induction a with
  | nil => exact fun _ => rfl
  | cons f rest ih =>
      intro last
      rw [List.cons_append, texts, texts, ih, List.flatMap_cons, List.length_append,
        Nat.add_assoc, List.cons_append]

theorem texts_ne_nil {fragments : List Fragment} (ne : fragments ≠ []) (last : Nat) :
    texts last fragments ≠ [] := by
  rw [← List.length_pos_iff, length_texts]
  exact List.length_pos_iff.2 ne

theorem balanced_texts {fragments : List Fragment} :
    ∀ {last : Nat}, (∀ f ∈ fragments, Sql.Balanced f.text.toList) →
      ∀ text ∈ texts last fragments, Sql.Balanced text := by
  induction fragments with
  | nil => exact fun _ text there => nomatch there
  | cons f rest ih =>
      intro last balanced
      obtain ⟨first, others⟩ := List.forall_mem_cons.1 balanced
      refine List.forall_mem_cons.2 ⟨?_, ih others⟩
      exact (Piece.nestAll_numbered last 0 f.fits).trans first

/-- A condition in its parentheses, as pieces. -/
def enclosedPieces (f : Fragment) : List Piece := .char '(' :: (f.pieces ++ [.char ')'])

theorem numbered_enclosedPieces (last : Nat) (f : Fragment) :
    Piece.numbered last f.enclosedPieces = Sql.parenthesised (Piece.numbered last f.pieces) := by
  rw [enclosedPieces, Piece.numbered, Piece.numbered_append]
  rfl

theorem values_enclosedPieces (f : Fragment) : Piece.values f.enclosedPieces = f.values := by
  rw [enclosedPieces, Piece.values, Piece.values_append, values_pieces]
  exact List.append_nil _

theorem group_singleton (connective : String) (f : Fragment) :
    group connective [f] = f.enclosedPieces := List.intercalate_singleton

theorem group_cons_cons (connective : String) (f g : Fragment) (rest : List Fragment) :
    group connective (f :: g :: rest) =
      f.enclosedPieces ++ Piece.ofText connective ++ group connective (g :: rest) := by
  unfold group
  rw [List.map_cons, List.map_cons, List.intercalate_cons_cons]
  rfl

/-- The text of a group. -/
theorem numbered_group (connective : String) (fragments : List Fragment) (last : Nat) :
    Piece.numbered last (group connective fragments) =
      Sql.group connective.toList (texts last fragments) := by
  induction fragments generalizing last with
  | nil => rfl
  | cons f rest ih =>
      cases rest with
      | nil => rw [group_singleton, numbered_enclosedPieces, texts, texts, Sql.group_singleton]
      | cons g more =>
          have split : texts last (f :: g :: more) = Piece.numbered last f.pieces ::
              Piece.numbered (last + f.values.length) g.pieces ::
                texts (last + f.values.length + g.values.length) more := rfl
          rw [group_cons_cons, Piece.numbered_append, Piece.numbered_append,
            numbered_enclosedPieces, Piece.numbered_ofText, Piece.values_append,
            Piece.values_ofText, List.append_nil, values_enclosedPieces, ih, split,
            Sql.group_cons_cons]
          rfl

theorem values_group (connective : String) (fragments : List Fragment) :
    Piece.values (group connective fragments) = fragments.flatMap values := by
  induction fragments with
  | nil => rfl
  | cons f rest ih =>
      cases rest with
      | nil =>
          rw [group_singleton, values_enclosedPieces]
          exact (List.append_nil _).symm
      | cons g more =>
          rw [group_cons_cons, Piece.values_append, Piece.values_append, values_enclosedPieces,
            Piece.values_ofText, List.append_nil, ih, List.flatMap_cons (x := f)]

/-- Some of the conditions hold that are numbered from the given number on. -/
def anyHolds (truth : Nat → Bool) (first : Nat) (fragments : List Fragment) : Bool :=
  (List.range' first fragments.length).any truth

/-- All of them hold. -/
def allHold (truth : Nat → Bool) (first : Nat) (fragments : List Fragment) : Bool :=
  (List.range' first fragments.length).all truth

section

variable (last : Nat) (truth : Nat → Bool) {anyOf allOf : List Fragment}

/-- A group that stands alone is cut into its conditions. -/
theorem tokens?_alone {word : List Char} {token : Sql.Token} (between : Sql.Connective word token)
    {fragments : List Fragment} (ne : fragments ≠ [])
    (balanced : ∀ f ∈ fragments, Sql.Balanced f.text.toList) :
    Sql.tokens? (texts last fragments) 0 0 (Sql.group word (texts last fragments)) =
      some (Sql.groupTokens token 0 fragments.length) := by
  have read := Sql.tokens?_group between [] [] (texts_ne_nil ne last) (balanced_texts balanced) []
  rw [List.append_nil, List.append_nil, List.nil_append, length_texts] at read
  refine read.trans ?_
  rw [Sql.tokens?, Option.map_some, List.append_nil]
  rfl

/-- Alternatives alone. -/
theorem holds?_anyOf (ne : anyOf ≠ []) (balanced : ∀ f ∈ anyOf, Sql.Balanced f.text.toList) :
    Sql.holds? truth (texts last anyOf) (Sql.group " OR ".toList (texts last anyOf)) =
      some (anyHolds truth 0 anyOf) := by
  obtain ⟨size, length⟩ := Nat.exists_eq_add_one_of_ne_zero (List.length_pos_iff.2 ne).ne'
  obtain ⟨here, value, same⟩ := Sql.evaluate?_any truth [] 0 size {}
  have evaluated := same []
  rw [List.append_nil, Sql.evaluate?, value] at evaluated
  rw [Sql.holds?, tokens?_alone last .or ne balanced, Option.bind_some, length, evaluated,
    anyHolds, length, List.range'_succ, List.any_cons]
  rfl

/-- Requirements alone. -/
theorem holds?_allOf (ne : allOf ≠ []) (balanced : ∀ f ∈ allOf, Sql.Balanced f.text.toList) :
    Sql.holds? truth (texts last allOf) (Sql.group " AND ".toList (texts last allOf)) =
      some (allHold truth 0 allOf) := by
  obtain ⟨size, length⟩ := Nat.exists_eq_add_one_of_ne_zero (List.length_pos_iff.2 ne).ne'
  have evaluated := Sql.evaluate?_all truth [] 0 size [] {}
  rw [List.append_nil, Sql.evaluate?] at evaluated
  rw [Sql.holds?, tokens?_alone last .and ne balanced, Option.bind_some, length, evaluated,
    allHold, length]
  rfl

/-- Alternatives and requirements, each group in parentheses. -/
theorem holds?_both (neAny : anyOf ≠ []) (neAll : allOf ≠ [])
    (balancedAny : ∀ f ∈ anyOf, Sql.Balanced f.text.toList)
    (balancedAll : ∀ f ∈ allOf, Sql.Balanced f.text.toList) :
    let second := last + (anyOf.flatMap values).length
    Sql.holds? truth (texts last (anyOf ++ allOf))
        (Sql.parenthesised (Sql.group " OR ".toList (texts last anyOf)) ++ " AND ".toList ++
          Sql.parenthesised (Sql.group " AND ".toList (texts second allOf))) =
      some (anyHolds truth 0 anyOf && allHold truth anyOf.length allOf) := by
  intro second
  obtain ⟨m, lengthAny⟩ := Nat.exists_eq_add_one_of_ne_zero (List.length_pos_iff.2 neAny).ne'
  obtain ⟨n, lengthAll⟩ := Nat.exists_eq_add_one_of_ne_zero (List.length_pos_iff.2 neAll).ne'
  have first := Sql.tokens?_enclosed_group .or [] (texts second allOf) (texts_ne_nil neAny last)
    (balanced_texts balancedAny)
  have rest := Sql.tokens?_enclosed_group .and (texts last anyOf) [] (texts_ne_nil neAll second)
    (balanced_texts balancedAll) []
  rw [List.append_nil, List.append_nil, length_texts, length_texts] at rest
  simp only [List.nil_append, length_texts, List.length_nil, Nat.zero_add] at first
  rw [Sql.holds?, texts_append, List.append_assoc, first, Sql.Connective.and.tokens?, rest,
    Sql.tokens?, Option.map_some, Option.map_some, Option.map_some, Option.bind_some, lengthAny,
    lengthAll, Sql.evaluate?_any_enclosed, Sql.evaluate?, Sql.evaluate?_all_enclosed,
    Sql.evaluate?, anyHolds, allHold, lengthAny, lengthAll]
  rfl

/-- What stands between the source of a selection and its order. -/
theorem conditions_read (some : anyOf ++ allOf ≠ [])
    (balanced : ∀ f ∈ anyOf ++ allOf, Sql.Balanced f.text.toList) :
    ∃ text, Piece.numbered last (conditions anyOf allOf) = " WHERE ".toList ++ text ∧
      ∀ truth, Sql.holds? truth (texts last (anyOf ++ allOf)) text =
        .some ((anyOf.isEmpty || anyHolds truth 0 anyOf) && allHold truth anyOf.length allOf) := by
  obtain ⟨balancedAny, balancedAll⟩ := List.forall_mem_append.1 balanced
  cases anyOf with
  | nil =>
      cases allOf with
      | nil => exact absurd rfl some
      | cons g others =>
          refine ⟨_, ?_, fun truth => holds?_allOf last truth (List.cons_ne_nil _ _) balancedAll⟩
          rw [conditions, Piece.numbered_append, Piece.numbered_ofText, Piece.values_ofText,
            List.length_nil, Nat.add_zero, numbered_group, List.nil_append]
  | cons f rest =>
      cases allOf with
      | nil =>
          refine ⟨Sql.group " OR ".toList (texts last (f :: rest)), ?_, fun truth => ?_⟩
          · rw [conditions, Piece.numbered_append, Piece.numbered_ofText, Piece.values_ofText,
              List.length_nil, Nat.add_zero, numbered_group]
          · rw [List.append_nil, holds?_anyOf last truth (List.cons_ne_nil _ _) balancedAny,
              List.isEmpty_cons, Bool.false_or, allHold, List.length_nil, List.range'_zero,
              List.all_nil, Bool.and_true]
      | cons g others =>
          refine ⟨_, ?_, fun truth => holds?_both last truth (List.cons_ne_nil _ _)
            (List.cons_ne_nil _ _) balancedAny balancedAll⟩
          rw [conditions]
          simp only [Piece.numbered_append, Piece.numbered_ofText, Piece.values_append,
            Piece.values_ofText, List.nil_append, List.append_nil, List.length_nil, Nat.add_zero,
            numbered_group, values_group]
          simp only [Sql.parenthesised, List.append_assoc, List.cons_append]
          rfl

end

end Fragment

namespace Select

/-- The text of a selection where so many values come before it: of the whole statement if
there are none, and else of a member of a union. -/
def textFrom (last : Nat) (s : Select) : List Char := Piece.numbered last s.pieces

/-- The selection up to its conditions. -/
def bare (s : Select) : Select := { columns := s.columns, source := s.source, joins := s.joins }

theorem pieces_eq (s : Select) :
    s.pieces = s.bare.pieces ++ Fragment.conditions s.anyOf s.allOf ++
      Piece.ofText (tail s.order s.limit s.offset) := by
  obtain ⟨columns, source, joins, anyOf, allOf, order, limit, offset⟩ := s
  have ends : tail [] none none = "" := rfl
  unfold bare pieces Fragment.conditions
  rw [ends]
  simp [Piece.ofText]

theorem textFrom_zero (s : Select) : s.textFrom 0 = s.sql.toList := String.toList_ofList.symm

/-- The text of a selection from its conditions on. -/
theorem textFrom_eq (last : Nat) (s : Select) :
    s.textFrom last = s.bare.textFrom last ++
      Piece.numbered (last + s.bare.values.length) (Fragment.conditions s.anyOf s.allOf) ++
        (tail s.order s.limit s.offset).toList := by
  unfold textFrom
  rw [pieces_eq, Piece.numbered_append, Piece.numbered_append, Piece.numbered_ofText]
  rfl

/-- The conditions hold if one of the first group does, where there are any, and all of the
second. The conditions are numbered through both groups. -/
def Meets (s : Select) (truth : Nat → Bool) : Prop :=
  (s.anyOf = [] ∨ ∃ number < s.anyOf.length, truth number = true) ∧
    ∀ number < s.allOf.length, truth (s.anyOf.length + number) = true

theorem meets_iff (s : Select) (truth : Nat → Bool) :
    ((s.anyOf.isEmpty || Fragment.anyHolds truth 0 s.anyOf) &&
      Fragment.allHold truth s.anyOf.length s.allOf) = true ↔ s.Meets truth := by
  unfold Meets Fragment.anyHolds Fragment.allHold
  rw [Bool.and_eq_true, Bool.or_eq_true, List.isEmpty_iff, List.any_eq_true, List.all_eq_true]
  refine and_congr (or_congr_right (exists_congr fun number => ?_)) ⟨?_, ?_⟩
  · rw [List.mem_range'_1]
    simp
  · intro all number small
    exact all _ (List.mem_range'_1.2 ⟨Nat.le_add_right _ _, Nat.add_lt_add_left small _⟩)
  · intro all number there
    obtain ⟨least, most⟩ := List.mem_range'_1.1 there
    have place : s.anyOf.length + (number - s.anyOf.length) = number := Nat.add_sub_cancel' least
    exact place ▸ all (number - s.anyOf.length) (by omega)

/-- **The conditions of a selection mean what they are meant to.** Between the selection up to
its conditions and its order, the text has a part if and only if there are conditions. Read
with the condition texts as they stand there, it holds if and only if one of the first group
does, where there are any, and all of the second. -/
theorem conditions_meet (s : Select)
    (balanced : ∀ f ∈ s.anyOf ++ s.allOf, Sql.Balanced f.text.toList) :
    s.sql.toList = s.textFrom 0 ∧
      ∀ last, ∃ part, s.textFrom last =
          s.bare.textFrom last ++ part ++ (tail s.order s.limit s.offset).toList ∧
        (part = [] ↔ s.anyOf = [] ∧ s.allOf = []) ∧
        (part ≠ [] → ∃ text, part = " WHERE ".toList ++ text ∧
          ∀ truth, ∃ value,
            Sql.holds? truth
              (Fragment.texts (last + s.bare.values.length) (s.anyOf ++ s.allOf)) text =
                some value ∧
            (value = true ↔ s.Meets truth)) := by
  refine ⟨s.textFrom_zero.symm, fun last => ⟨_, textFrom_eq last s, ?_⟩⟩
  by_cases none : s.anyOf ++ s.allOf = []
  · obtain ⟨noneAny, noneAll⟩ := List.append_eq_nil_iff.1 none
    have empty : Fragment.conditions s.anyOf s.allOf = [] := by
      rw [noneAny, noneAll]
      rfl
    rw [empty]
    exact ⟨⟨fun _ => ⟨noneAny, noneAll⟩, fun _ => rfl⟩, fun part => absurd rfl part⟩
  · obtain ⟨text, form, read⟩ :=
      Fragment.conditions_read (last + s.bare.values.length) none balanced
    have nonempty : Piece.numbered (last + s.bare.values.length)
        (Fragment.conditions s.anyOf s.allOf) ≠ [] := by
      rw [form]
      exact List.append_ne_nil_of_left_ne_nil (by decide) _
    refine ⟨⟨fun part => absurd part nonempty, fun both => ?_⟩, fun _ => ⟨text, form, ?_⟩⟩
    · exact absurd (List.append_eq_nil_iff.2 both) none
    · exact fun truth => ⟨_, read truth, s.meets_iff truth⟩

/-- Conditions with alternatives and parentheses of their own, in both groups. -/
def guarded : Select where
  source := .table "t"
  joins := [⟨"JOIN u ON u.a = ?", [.int 1], rfl⟩]
  anyOf := [⟨"b = ? OR c = ?", [.int 2, .int 3], rfl⟩, ⟨"(d) AND e", [], rfl⟩]
  allOf := [⟨"f = ANY(?) OR g", [.texts []], rfl⟩, .never]

theorem guarded_conditions_meet :
    (∀ f ∈ guarded.anyOf ++ guarded.allOf, Sql.Balanced f.text.toList) ∧
      guarded.sql = "SELECT * FROM t JOIN u ON u.a = $1 " ++
        "WHERE ((b = $2 OR c = $3) OR ((d) AND e)) AND ((f = ANY($4) OR g) AND (FALSE))" ∧
      ∃ part, guarded.sql.toList = guarded.bare.textFrom 0 ++ part ++ "".toList ∧
        ∃ text, part = " WHERE ".toList ++ text ∧
          ∀ truth, ∃ value,
            Sql.holds? truth ["b = $2 OR c = $3".toList, "(d) AND e".toList,
              "f = ANY($4) OR g".toList, "FALSE".toList] text = some value ∧
            (value = true ↔ guarded.Meets truth) := by
  have balanced : ∀ f ∈ guarded.anyOf ++ guarded.allOf, Sql.Balanced f.text.toList := by decide
  obtain ⟨whole, parts⟩ := conditions_meet guarded balanced
  obtain ⟨part, split, none, some⟩ := parts 0
  have there : part ≠ [] := fun empty => absurd (none.1 empty).1 (by decide)
  exact ⟨balanced, by decide, part, whole.trans split, some there⟩

end Select

end EventJournal

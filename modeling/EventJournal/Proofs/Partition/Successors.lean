import Mathlib.Data.Char
import Mathlib.Data.Prod.Lex
import Mathlib.Data.List.Lex
import Mathlib.Order.Monotone.Basic
import EventJournal.Partition.TableName

/-!
# Successors of names

Names are ordered by their length, and names of the same length by their characters from the
left (`TableName.rank`). The successor of a name comes after it: read from the right end, either
a character is followed by the next of its class, and what is to the left of it stays, or the
characters to the left of it are followed by something greater, or the name grows. So a chain
of successors never comes back to a name.

A name is cut at its last run of letters and digits (`TableName.LastRun`). Its successor has
another run in the place of that one, with characters of the same classes, and maybe one more
in front, of the class of the first; everything else of the name stays.

## Main results

* `TableName.rank_lt_successor`, `TableName.nth_injective` — no name comes twice.
* `TableName.LastRun.toList_successor`, `TableName.classes_nextRun` — the form of a successor.
* `TableName.successor_follows` — a successor comes later, and has the form of the name.
-/

namespace EventJournal.TableName

/-! ## Characters -/

/-- What holds of all of the first characters holds of a character among them. -/
theorem forall_ascii {P : Char → Prop} (all : ∀ n < 128, P (Char.ofNat n)) {c : Char}
    (small : c.toNat < 128) : P c := by
  have there := all c.toNat small
  rwa [Char.ofNat_toNat] at there

theorem isAlphanum_eq (c : Char) : c.isAlphanum = (c.isUpper || c.isLower || c.isDigit) := rfl

theorem toNat_lt_of_isAlphanum {c : Char} (h : c.isAlphanum = true) : c.toNat < 128 := by
  have upTo : ∀ last : Char, last.toNat < 128 → c.val ≤ last.val → c.toNat < 128 :=
    fun last small h => Nat.lt_of_le_of_lt (UInt32.le_iff_toNat_le.1 h) small
  rw [isAlphanum_eq, Bool.or_eq_true, Bool.or_eq_true] at h
  rcases h with (upper | lower) | digit
  · exact upTo 'Z' (by decide) (of_decide_eq_true upper).2
  · exact upTo 'z' (by decide) (of_decide_eq_true (Bool.and_eq_true_iff.1 lower).2)
  · exact upTo '9' (by decide) (of_decide_eq_true (Bool.and_eq_true_iff.1 digit).2)

/-- The classes of letters and digits. -/
inductive CharClass where
  | digit
  | lower
  | upper
  deriving DecidableEq

/-- The class of a letter or digit. -/
def classOf? (c : Char) : Option CharClass :=
  if c.isDigit then some .digit
  else if c.isLower then some .lower
  else if c.isUpper then some .upper
  else none

/-- A character that does not go around is followed by a greater one. -/
theorem lt_bump {c next : Char} (h : c.isAlphanum = true) (step : bump c = (next, false)) :
    c < next := by
  have all : ∀ n < 128, (Char.ofNat n).isAlphanum = true → (bump (Char.ofNat n)).2 = false →
      Char.ofNat n < (bump (Char.ofNat n)).1 := by
    decide
  have up := forall_ascii
    (P := fun c => c.isAlphanum = true → (bump c).2 = false → c < (bump c).1) all
    (toNat_lt_of_isAlphanum h) h
  rw [step] at up
  exact up rfl

/-- A character is followed by one of its class, and where it goes around, one of its class is
put in front. -/
theorem classOf?_bump {c next : Char} {around : Bool} (h : c.isAlphanum = true)
    (step : bump c = (next, around)) :
    classOf? next = classOf? c ∧ (around = true → classOf? (carry next) = classOf? c) := by
  have all : ∀ n < 128, (Char.ofNat n).isAlphanum = true →
      classOf? (bump (Char.ofNat n)).1 = classOf? (Char.ofNat n) ∧
      ((bump (Char.ofNat n)).2 = true →
        classOf? (carry (bump (Char.ofNat n)).1) = classOf? (Char.ofNat n)) := by
    decide
  have keeps := forall_ascii
    (P := fun c => c.isAlphanum = true → classOf? (bump c).1 = classOf? c ∧
      ((bump c).2 = true → classOf? (carry (bump c).1) = classOf? c))
    all (toNat_lt_of_isAlphanum h) h
  rwa [step] at keeps

/-! ## The order of names -/

/-- The place of a name: longer names come later, and names of the same length in the order of
their characters. -/
def rank (name : String) : ℕ ×ₗ List Char := toLex (name.toList.length, name.toList)

/-- The place of a name that is read from its right end. -/
def rankRight (chars : List Char) : ℕ ×ₗ List Char := toLex (chars.length, chars.reverse)

theorem rank_ofList_reverse (chars : List Char) :
    rank (String.ofList chars.reverse) = rankRight chars := by
  rw [rank, String.toList_ofList, List.length_reverse]
  rfl

theorem append_lt_append_of_lt {a b : List Char} (length : a.length = b.length) (h : a < b)
    (x y : List Char) : a ++ x < b ++ y := by
  induction a generalizing b with
  | nil =>
      rw [List.eq_nil_of_length_eq_zero length.symm] at h
      exact absurd h (List.not_lt_nil [])
  | cons c a ih =>
      cases b with
      | nil => cases length
      | cons d b =>
          rw [List.cons_append, List.cons_append, List.cons_lt_cons_iff]
          rcases List.cons_lt_cons_iff.1 h with less | ⟨same, less⟩
          · exact .inl less
          · exact .inr ⟨same, ih (Nat.succ.inj length) less⟩

variable {a b : List Char}

/-- What is to the left decides. -/
theorem rankRight_cons_lt_cons (h : rankRight a < rankRight b) (c d : Char) :
    rankRight (c :: a) < rankRight (d :: b) := by
  unfold rankRight at *
  rw [Prod.Lex.toLex_lt_toLex] at *
  rcases h with shorter | ⟨length, less⟩
  · exact .inl (Nat.succ_lt_succ shorter)
  · refine .inr ⟨congrArg Nat.succ length, ?_⟩
    rw [List.reverse_cons, List.reverse_cons]
    exact append_lt_append_of_lt (by simpa using length) less _ _

/-- Where it is the same, the character at the right end does. -/
theorem rankRight_cons_lt_cons_self {c d : Char} (h : c < d) (a : List Char) :
    rankRight (c :: a) < rankRight (d :: a) := by
  unfold rankRight
  rw [Prod.Lex.toLex_lt_toLex]
  refine .inr ⟨rfl, ?_⟩
  rw [List.reverse_cons, List.reverse_cons]
  exact List.append_left_lt (List.cons_lt_cons_iff.2 (.inl h))

theorem rankRight_lt_of_length (h : a.length < b.length) : rankRight a < rankRight b := by
  unfold rankRight
  rw [Prod.Lex.toLex_lt_toLex]
  exact .inl h

/-! ## Runs -/

section

variable {c next d : Char} {rest : List Char}

/-- A character that does not go around. -/
theorem bumpRun_of_stays (step : bump c = (next, false)) (rest : List Char) :
    bumpRun (c :: rest) = next :: rest := by
  unfold bumpRun
  rw [step]

/-- One that goes around at the left end of its run. -/
theorem bumpRun_of_ends (step : bump c = (next, true))
    (stop : ∀ d ∈ rest.head?, d.isAlphanum = false) :
    bumpRun (c :: rest) = next :: carry next :: rest := by
  unfold bumpRun
  rw [step]
  cases rest with
  | nil => rfl
  | cons d rest =>
      dsimp only
      rw [stop d rfl]
      rfl

/-- One that goes around within its run. -/
theorem bumpRun_of_carries (step : bump c = (next, true)) (alnum : d.isAlphanum = true)
    (rest : List Char) : bumpRun (c :: d :: rest) = next :: bumpRun (d :: rest) := by
  rw [bumpRun, step]
  dsimp only
  rw [if_pos alnum]

end

/-- What is to the left of a run stays. -/
theorem bumpRun_append {c : Char} {run rest : List Char}
    (alnum : ∀ d ∈ run, d.isAlphanum = true) (stop : ∀ d ∈ rest.head?, d.isAlphanum = false) :
    bumpRun (c :: run ++ rest) = bumpRun (c :: run) ++ rest := by
  induction run generalizing c with
  | nil =>
      rw [List.cons_append, List.nil_append]
      rcases step : bump c with ⟨next, _ | _⟩
      · rw [bumpRun_of_stays step, bumpRun_of_stays step]
        rfl
      · rw [bumpRun_of_ends step stop, bumpRun_of_ends step (by simp)]
        rfl
  | cons d run ih =>
      obtain ⟨first, others⟩ := List.forall_mem_cons.1 alnum
      rcases step : bump c with ⟨next, _ | _⟩
      · rw [List.cons_append, bumpRun_of_stays step, bumpRun_of_stays step]
        rfl
      · rw [List.cons_append, List.cons_append, bumpRun_of_carries step first,
          bumpRun_of_carries step first, List.cons_append]
        exact congrArg _ (ih others)

/-- Each position of a run keeps its class, and what is put to the left of it has the class of
the leftmost one. -/
theorem classes_bumpRun {c : Char} {run : List Char}
    (alnum : ∀ d ∈ c :: run, d.isAlphanum = true) :
    (bumpRun (c :: run)).map classOf? = (c :: run).map classOf? ∨
      (bumpRun (c :: run)).map classOf? =
        (c :: run ++ (c :: run).getLast?.toList).map classOf? := by
  induction run generalizing c with
  | nil =>
      rcases step : bump c with ⟨next, _ | _⟩ <;>
        obtain ⟨same, grown⟩ := classOf?_bump (alnum c List.mem_cons_self) step
      · rw [bumpRun_of_stays step]
        exact .inl (congrArg (· :: []) same)
      · rw [bumpRun_of_ends step (by simp)]
        exact .inr (congrArg₂ (fun x y => [x, y]) same (grown rfl))
  | cons d run ih =>
      obtain ⟨first, others⟩ := List.forall_mem_cons.1 alnum
      rcases step : bump c with ⟨next, _ | _⟩ <;> have same := (classOf?_bump first step).1
      · rw [bumpRun_of_stays step]
        exact .inl (congrArg (· :: (d :: run).map classOf?) same)
      · rw [bumpRun_of_carries step (others d List.mem_cons_self), List.getLast?_cons_cons,
          List.cons_append, List.map_cons, List.map_cons, List.map_cons, same]
        exact (ih others).imp (congrArg _) (congrArg _)

/-- A run of letters and digits, read from its right end. -/
theorem exists_reverse_eq_cons {first : Char} {rest : List Char}
    (alnum : ∀ c ∈ first :: rest, c.isAlphanum = true) :
    ∃ c run, (first :: rest).reverse = c :: run ∧ ∀ d ∈ c :: run, d.isAlphanum = true := by
  obtain ⟨c, run, read⟩ :=
    List.exists_cons_of_ne_nil (List.reverse_ne_nil_iff.2 (List.cons_ne_nil first rest))
  refine ⟨c, run, read, fun d there => ?_⟩
  rw [← read, List.mem_reverse] at there
  exact alnum d there

/-- The successor of a run, read from the left. -/
def nextRun (run : List Char) : List Char := (bumpRun run.reverse).reverse

/-- The successor of a run has the same classes of characters, or one more in front, of the class
of the first. -/
theorem classes_nextRun {first : Char} {rest : List Char}
    (alnum : ∀ c ∈ first :: rest, c.isAlphanum = true) :
    (nextRun (first :: rest)).map classOf? = (first :: rest).map classOf? ∨
      (nextRun (first :: rest)).map classOf? = (first :: first :: rest).map classOf? := by
  obtain ⟨c, run, read, alnum'⟩ := exists_reverse_eq_cons alnum
  have last : (c :: run).getLast? = some first := by
    rw [← read, List.getLast?_reverse, List.head?_cons]
  have back : (c :: run).reverse = first :: rest := by rw [← read, List.reverse_reverse]
  unfold nextRun
  rw [read, List.map_reverse]
  refine (classes_bumpRun alnum').imp (fun same => ?_) fun same => ?_
  · rw [same, ← List.map_reverse, back]
  · rw [same, ← List.map_reverse, last, List.reverse_append, back]
    rfl

theorem length_nextRun {first : Char} {rest : List Char}
    (alnum : ∀ c ∈ first :: rest, c.isAlphanum = true) :
    (nextRun (first :: rest)).length = (first :: rest).length ∨
      (nextRun (first :: rest)).length = (first :: rest).length + 1 := by
  refine (classes_nextRun alnum).imp (fun same => ?_) fun grown => ?_
  · simpa only [List.length_map] using congrArg List.length same
  · simpa only [List.length_map, List.length_cons] using congrArg List.length grown

/-- No class comes to a run that was not there before. -/
theorem exists_class_of_mem_nextRun {first d : Char} {rest : List Char}
    (alnum : ∀ c ∈ first :: rest, c.isAlphanum = true) (there : d ∈ nextRun (first :: rest)) :
    ∃ e ∈ first :: rest, classOf? e = classOf? d := by
  have image : classOf? d ∈ (nextRun (first :: rest)).map classOf? := List.mem_map_of_mem there
  rcases classes_nextRun alnum with same | grown
  · rw [same] at image
    exact List.mem_map.1 image
  · rw [grown] at image
    obtain ⟨e, there, same⟩ := List.mem_map.1 image
    exact ⟨e, (List.mem_cons.1 there).elim (· ▸ List.mem_cons_self) id, same⟩

/-! ## Successors come later -/

/-- A run of letters and digits is followed by a later one. -/
theorem rankRight_lt_bumpRun {c : Char} {rest : List Char} (h : c.isAlphanum = true) :
    rankRight (c :: rest) < rankRight (bumpRun (c :: rest)) := by
  induction rest generalizing c with
  | nil =>
      rcases step : bump c with ⟨next, _ | _⟩
      · rw [bumpRun_of_stays step]
        exact rankRight_cons_lt_cons_self (lt_bump h step) []
      · rw [bumpRun_of_ends step (by simp)]
        exact rankRight_lt_of_length (Nat.lt_succ_self _)
  | cons d rest ih =>
      rcases step : bump c with ⟨next, _ | _⟩
      · rw [bumpRun_of_stays step]
        exact rankRight_cons_lt_cons_self (lt_bump h step) _
      · cases alnum : d.isAlphanum with
        | true =>
            rw [bumpRun_of_carries step alnum]
            exact rankRight_cons_lt_cons (ih alnum) _ _
        | false =>
            rw [bumpRun_of_ends step (by simp [alnum])]
            exact rankRight_lt_of_length (Nat.lt_succ_self _)

theorem rankRight_lt_bumpName {chars next : List Char} (h : bumpName chars = some next) :
    rankRight chars < rankRight next := by
  induction chars generalizing next with
  | nil => cases h
  | cons c rest ih =>
      unfold bumpName at h
      split at h
      · rename_i alnum
        obtain rfl := Option.some.inj h
        exact rankRight_lt_bumpRun alnum
      · obtain ⟨rest', found, rfl⟩ := Option.map_eq_some_iff.1 h
        exact rankRight_cons_lt_cons (ih found) _ _

/-- The successor of a name comes after it. -/
theorem rank_lt_successor (name : String) : rank name < rank (successor name) := by
  have read : rank name = rankRight name.toList.reverse := by
    rw [← rank_ofList_reverse, List.reverse_reverse, String.ofList_toList]
  unfold successor
  split
  · rename_i next found
    rw [read, rank_ofList_reverse]
    exact rankRight_lt_bumpName found
  · unfold rank
    rw [Prod.Lex.toLex_lt_toLex, String.toList_append]
    refine .inl ?_
    rw [List.length_append]
    exact Nat.lt_add_of_pos_right (by decide)

/-- The name after so many steps from a name. -/
def nth (name : String) (steps : Nat) : String := successor^[steps] name

theorem nth_succ (name : String) (steps : Nat) :
    nth name (steps + 1) = successor (nth name steps) := Function.iterate_succ_apply' _ _ _

/-- No name comes twice among the successors of a name. -/
theorem nth_injective (name : String) : Function.Injective (nth name) := by
  have mono : StrictMono fun steps => rank (nth name steps) := by
    refine strictMono_nat_of_lt_succ fun steps => ?_
    rw [nth_succ]
    exact rank_lt_successor _
  exact fun a b same => mono.injective (congrArg rank same)

/-! ## The form of a successor -/

/-- A text is cut at its last run of letters and digits. -/
structure LastRun (text before : List Char) (first : Char) (rest after : List Char) : Prop where
  parts : text = before ++ (first :: rest) ++ after
  alnum : ∀ c ∈ first :: rest, c.isAlphanum = true
  /-- The run is not part of a longer one. -/
  stop : ∀ c ∈ before.getLast?, c.isAlphanum = false
  plain : ∀ c ∈ after, c.isAlphanum = false

theorem plain_of_not_exists {text : List Char} (h : ¬∃ c ∈ text, c.isAlphanum = true) :
    ∀ c ∈ text, c.isAlphanum = false :=
  fun c there => Bool.eq_false_iff.2 fun alnum => h ⟨c, there, alnum⟩

theorem exists_lastRun {text : List Char} (h : ∃ c ∈ text, c.isAlphanum = true) :
    ∃ before first rest after, LastRun text before first rest after := by
  induction text with
  | nil => simp at h
  | cons c text ih =>
      by_cases later : ∃ d ∈ text, d.isAlphanum = true
      · obtain ⟨before, first, rest, after, cut⟩ := ih later
        -- the character is in the run only if nothing stands between them
        cases before with
        | cons b before =>
            refine ⟨c :: b :: before, first, rest, after, congrArg _ cut.parts, cut.alnum, ?_,
              cut.plain⟩
            rw [List.getLast?_cons_cons]
            exact cut.stop
        | nil =>
            cases alnum : c.isAlphanum with
            | true =>
                exact ⟨[], c, first :: rest, after, congrArg _ cut.parts,
                  List.forall_mem_cons.2 ⟨alnum, cut.alnum⟩, cut.stop, cut.plain⟩
            | false =>
                exact ⟨[c], first, rest, after, congrArg _ cut.parts, cut.alnum,
                  by simpa using alnum, cut.plain⟩
      · obtain ⟨d, there, alnum⟩ := h
        obtain rfl : d = c :=
          (List.mem_cons.1 there).resolve_right fun there => later ⟨d, there, alnum⟩
        exact ⟨[], d, [], text, rfl, List.forall_mem_singleton.2 alnum, by simp,
          plain_of_not_exists later⟩

theorem bumpName_append_of_plain {plain : List Char} (h : ∀ c ∈ plain, c.isAlphanum = false)
    (chars : List Char) : bumpName (plain ++ chars) = (bumpName chars).map (plain ++ ·) := by
  induction plain with
  | nil => exact Option.map_id_apply.symm
  | cons c plain ih =>
      obtain ⟨first, others⟩ := List.forall_mem_cons.1 h
      rw [List.cons_append, bumpName, first, if_neg Bool.false_ne_true, ih others, Option.map_map]
      rfl

/-- Only the last run of a name is another one in its successor. -/
theorem LastRun.toList_successor {name : String} {before rest after : List Char} {first : Char}
    (cut : LastRun name.toList before first rest after) :
    (successor name).toList = before ++ nextRun (first :: rest) ++ after := by
  obtain ⟨c, run, read, alnum⟩ := exists_reverse_eq_cons cut.alnum
  obtain ⟨alnum, others⟩ := List.forall_mem_cons.1 alnum
  have found : bumpName name.toList.reverse =
      some (after.reverse ++ (bumpRun (c :: run) ++ before.reverse)) := by
    rw [cut.parts, List.reverse_append, List.reverse_append, read, bumpName_append_of_plain
      fun d there => cut.plain d (List.mem_reverse.1 there)]
    rw [List.cons_append, bumpName, if_pos alnum, ← List.cons_append, bumpRun_append others
      (List.head?_reverse ▸ cut.stop), Option.map_some]
  rw [successor, found, nextRun, read]
  dsimp only
  rw [String.toList_ofList, List.reverse_append, List.reverse_append, List.reverse_reverse,
    List.reverse_reverse]

/-- A name without letters and digits gets a letter. -/
theorem successor_of_plain {name : String} (plain : ∀ c ∈ name.toList, c.isAlphanum = false) :
    successor name = name ++ "a" := by
  have none : bumpName name.toList.reverse = none := by
    rw [← List.append_nil name.toList.reverse, bumpName_append_of_plain
      fun c there => plain c (List.mem_reverse.1 there)]
    rfl
  rw [successor, none]

/-- A successor has at most one character more. -/
theorem length_successor_le (name : String) :
    (successor name).toList.length ≤ name.toList.length + 1 := by
  by_cases some : ∃ c ∈ name.toList, c.isAlphanum = true
  · obtain ⟨before, first, rest, after, cut⟩ := exists_lastRun some
    have run := length_nextRun cut.alnum
    rw [cut.toList_successor, cut.parts]
    simp only [List.length_append]
    omega
  · rw [successor_of_plain (plain_of_not_exists some), String.toList_append, List.length_append]
    rfl

/-- **A successor comes later, and has the form of the name.** It is longer, or as long and
greater, so that no name comes twice in a chain of successors. If a name has letters or digits,
all outside of their last run stays, and each position of the run keeps its class; at most one
character is put in front of the run, of the class of its first. A name without any gets a
letter. -/
theorem successor_follows (name : String) :
    rank name < rank (successor name) ∧
      Function.Injective (nth name) ∧
      (successor name).toList.length ≤ name.toList.length + 1 ∧
      ((∃ c ∈ name.toList, c.isAlphanum = true) →
        ∃ before first rest after grown, LastRun name.toList before first rest after ∧
          (successor name).toList = before ++ grown ++ after ∧
          (grown.map classOf? = (first :: rest).map classOf? ∨
            grown.map classOf? = (first :: first :: rest).map classOf?)) ∧
      ((∀ c ∈ name.toList, c.isAlphanum = false) → successor name = name ++ "a") := by
  refine ⟨rank_lt_successor name, nth_injective name, length_successor_le name, fun some => ?_,
    successor_of_plain⟩
  obtain ⟨before, first, rest, after, cut⟩ := exists_lastRun some
  exact ⟨before, first, rest, after, nextRun (first :: rest), cut, cut.toList_successor,
    classes_nextRun cut.alnum⟩

/-- A run of which every position goes around, behind another run and in front of other
characters. -/
example : successor "é9_Zz9-ü" = "é9_AAa0-ü" := by decide

end EventJournal.TableName

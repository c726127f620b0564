import EventJournal.Proofs.Partition.Successors

/-!
# Names of tables

A table is named for the level of its partition: a stem, an underscore, and digits and
lower-case letters. What stands behind the underscore is the last run of letters and digits of
the name, so that successors change nothing else, and they keep it digits and lower-case
letters.

## Main results

* `TableName.IsOfLevel.successor` — the successor of a level's name is one.
* `TableName.IsOfLevel.unique` — a name belongs to one level.
* `TableName.isSuffix_digest` — digests of keys are digits and letters.
-/

namespace EventJournal.TableName

/-! ## The names of a level -/

/-- A digit or a lower-case letter. -/
def IsSmall (c : Char) : Prop := c.isDigit = true ∨ c.isLower = true

instance : DecidablePred IsSmall := fun c =>
  inferInstanceAs (Decidable (c.isDigit = true ∨ c.isLower = true))

theorem IsSmall.isAlphanum {c : Char} (h : IsSmall c) : c.isAlphanum = true := by
  rw [isAlphanum_eq]
  rcases h with digit | lower
  · rw [digit, Bool.or_true]
  · rw [lower, Bool.or_true, Bool.true_or]

theorem isSmall_iff {c : Char} :
    IsSmall c ↔ classOf? c = some .digit ∨ classOf? c = some .lower := by
  unfold IsSmall classOf?
  cases c.isDigit <;> cases c.isLower <;> simp

/-- Digits and lower-case letters, and at least one. -/
def IsSuffix (text : String) : Prop := text.toList ≠ [] ∧ ∀ c ∈ text.toList, IsSmall c

instance : DecidablePred IsSuffix := fun text =>
  -- character by character, and not for all characters there are
  haveI := List.decidableBAll IsSmall text.toList
  inferInstanceAs (Decidable (text.toList ≠ [] ∧ ∀ c ∈ text.toList, IsSmall c))

/-- The text is a name for the table of a partition at the level. -/
def IsOfLevel (level : PartitionLevel) (name : String) : Prop :=
  ∃ suffix, IsSuffix suffix ∧ name = candidate level suffix

theorem toList_candidate (level : PartitionLevel) (suffix : String) :
    (candidate level suffix).toList = level.tableStem.toList ++ '_' :: suffix.toList := by
  rw [candidate, String.toList_append, String.toList_append, List.append_assoc]
  rfl

variable {level : PartitionLevel} {name : String}

/-- The successor of a run of small characters is one. -/
theorem isSmall_nextRun {first : Char} {rest : List Char}
    (small : ∀ c ∈ first :: rest, IsSmall c) : ∀ d ∈ nextRun (first :: rest), IsSmall d := by
  intro d there
  obtain ⟨c, before, same⟩ :=
    exists_class_of_mem_nextRun (fun c there => (small c there).isAlphanum) there
  rw [isSmall_iff, ← same]
  exact isSmall_iff.1 (small c before)

/-- The last run of a level's name is what stands behind the underscore. -/
theorem lastRun_candidate {suffix : String} {first : Char} {rest : List Char}
    (read : suffix.toList = first :: rest) (small : ∀ c ∈ first :: rest, IsSmall c) :
    LastRun (candidate level suffix).toList (level.tableStem.toList ++ ['_']) first rest [] where
  parts := by
    rw [toList_candidate, read, List.append_nil, List.append_assoc]
    rfl
  alnum := fun c there => (small c there).isAlphanum
  stop := by
    rw [List.getLast?_append_cons]
    intro c last
    obtain rfl := Option.some.inj last
    decide
  plain := by simp

/-- The successor of a level's name is one. -/
theorem IsOfLevel.successor (h : IsOfLevel level name) : IsOfLevel level (successor name) := by
  obtain ⟨suffix, ⟨ne, small⟩, rfl⟩ := h
  obtain ⟨first, rest, read⟩ := List.exists_cons_of_ne_nil ne
  rw [read] at small
  have cut : LastRun (candidate level suffix).toList _ first rest [] := lastRun_candidate read small
  have length := length_nextRun cut.alnum
  refine ⟨String.ofList (nextRun (first :: rest)), ⟨?_, ?_⟩, ?_⟩
  · rw [String.toList_ofList]
    exact List.ne_nil_of_length_pos (by simp only [List.length_cons] at length; omega)
  · rw [String.toList_ofList]
    exact isSmall_nextRun small
  · apply String.toList_inj.1
    rw [cut.toList_successor, toList_candidate, String.toList_ofList, List.append_nil,
      List.append_assoc]
    rfl

theorem IsOfLevel.nth (h : IsOfLevel level name) (steps : Nat) :
    IsOfLevel level (nth name steps) := by
  induction steps with
  | zero => exact h
  | succ steps ih =>
      rw [nth_succ]
      exact ih.successor

theorem IsOfLevel.head? (h : IsOfLevel level name) :
    name.toList.head? = level.tableStem.toList.head? := by
  obtain ⟨suffix, -, rfl⟩ := h
  rw [toList_candidate]
  cases level <;> rfl

/-- A name belongs to one level. -/
theorem IsOfLevel.unique {other : PartitionLevel} (h : IsOfLevel level name)
    (h' : IsOfLevel other name) : level = other := by
  have apart : ∀ level other : PartitionLevel,
      level.tableStem.toList.head? = other.tableStem.toList.head? → level = other := by
    intro level other
    cases level <;> cases other <;> decide
  exact apart level other (h.head?.symm.trans h'.head?)

/-- A text that is an identifier without quotes around it: it begins with a lower-case letter,
and has only such, digits and underscores. -/
def IsIdentifier (text : String) : Prop :=
  (text.toList.head?.any Char.isLower = true) ∧ ∀ c ∈ text.toList, IsSmall c ∨ c = '_'

theorem IsOfLevel.isIdentifier (h : IsOfLevel level name) : IsIdentifier name := by
  constructor
  · rw [h.head?]
    cases level <;> decide
  · have all : level.tableStem.toList.all (fun c => IsSmall c ∨ c = '_') = true := by
      cases level <;> decide
    have stem : ∀ c ∈ level.tableStem.toList, IsSmall c ∨ c = '_' :=
      fun c there => of_decide_eq_true (List.all_eq_true.1 all c there)
    obtain ⟨suffix, ⟨-, small⟩, rfl⟩ := h
    rw [toList_candidate]
    exact List.forall_mem_append.2 ⟨stem, List.forall_mem_cons.2
      ⟨.inr rfl, fun c there => .inl (small c there)⟩⟩

/-- A digest of a key is cut from hexadecimal digits. -/
theorem isSuffix_digest (key : PartitionKey) : IsSuffix (digest key) := by
  have digits : ∀ n < 16, IsSmall (Nat.digitChar n) := by decide
  unfold IsSuffix digest
  rw [String.toList_ofList]
  constructor
  · intro none
    have length := congrArg List.length none
    simp [Digest.Sha256.hexDigest, Digest.Sha256.digest, Digest.Sha256.bigEndian] at length
  · intro c there
    obtain ⟨byte, -, there⟩ := List.mem_flatMap.1 (List.mem_of_mem_take there)
    have small : byte.toNat < 256 := byte.toNat_lt
    rcases List.mem_cons.1 there with rfl | there
    · exact digits _ (by omega)
    · rw [List.mem_singleton.1 there]
      exact digits _ (by omega)

end EventJournal.TableName

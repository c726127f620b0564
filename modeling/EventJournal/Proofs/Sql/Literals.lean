import EventJournal.Database.Statement
import EventJournal.Proofs.Partition.Names

/-!
# Literals in the definitions of partitions

The bound of a partition is the one text of a caller that stands in a statement. The database
reads a statement from left to right: a quote opens a literal, and the next quote that is not
doubled closes it (`Sql.scan?`). So a literal is read back as the text that it was made from,
whatever quotes are in it, as long as no quote follows it; and in the definition of a partition
a parenthesis does.

The names of the table and of its parent stand in the definition as they are. They have no
quotes if they are names that the catalog makes (`PartitionTable.IsProper`).

## Main results

* `Sql.scan?_literal` — a literal is read back.
* `PartitionTable.definition_read` — the definition of a partition has one literal, which is
  the bound.
-/

namespace EventJournal

namespace Sql

/-! ## Reading literals -/

/-- A part of a statement: a character outside of literals, or a literal. -/
inductive Lexeme where
  | code (c : Char)
  | literal (text : List Char)
  deriving DecidableEq

/-- Where a reader of a statement is. -/
inductive ScanState where
  | outside
  /-- In a literal, of which the text has been read. -/
  | inside (text : List Char)
  /-- Behind a quote in a literal. -/
  | atQuote (text : List Char)

/-- The parts of a statement; a literal that is not closed cannot be read. -/
def scan? : ScanState → List Char → Option (List Lexeme)
  | .outside, [] => some []
  | .outside, c :: rest =>
      if c = '\'' then scan? (.inside []) rest else (scan? .outside rest).map (.code c :: ·)
  | .inside _, [] => none
  | .inside text, c :: rest =>
      if c = '\'' then scan? (.atQuote text) rest else scan? (.inside (text ++ [c])) rest
  | .atQuote text, [] => some [.literal text]
  | .atQuote text, c :: rest =>
      if c = '\'' then scan? (.inside (text ++ [c])) rest
      else (scan? .outside rest).map fun more => .literal text :: .code c :: more

/-- A text without literals. -/
def code (text : String) : List Lexeme := text.toList.map .code

/-- The literals among the parts of a statement. -/
def literals : List Lexeme → List (List Char)
  | [] => []
  | .code _ :: rest => literals rest
  | .literal text :: rest => text :: literals rest

theorem literals_code_append (text : String) (rest : List Lexeme) :
    literals (code text ++ rest) = literals rest := by
  unfold code
  induction text.toList with
  | nil => rfl
  | cons c more ih => exact ih

theorem scan?_append_of_plain {text : List Char} (plain : '\'' ∉ text) (rest : List Char) :
    scan? .outside (text ++ rest) = (scan? .outside rest).map (text.map .code ++ ·) := by
  induction text with
  | nil => exact Option.map_id_apply.symm
  | cons c more ih =>
      rw [List.mem_cons, not_or] at plain
      rw [List.cons_append, scan?, if_neg (Ne.symm plain.1), ih plain.2, Option.map_map]
      rfl

/-- The text of a literal is read with single quotes again. -/
theorem scan?_doubleQuotes (text rest : List Char) :
    ∀ before, scan? (.inside before) (doubleQuotes text ++ '\'' :: rest) =
      scan? (.atQuote (before ++ text)) rest := by
  induction text with
  | nil =>
      intro before
      rw [doubleQuotes, List.nil_append, scan?, if_pos rfl, List.append_nil]
  | cons c more ih =>
      intro before
      have onward := ih (before ++ [c])
      rw [List.append_assoc, List.singleton_append] at onward
      rw [doubleQuotes]
      split
      · rename_i quote
        rw [quote] at onward ⊢
        rw [List.cons_append, List.cons_append, scan?, if_pos rfl, scan?, if_pos rfl]
        exact onward
      · rename_i other
        rw [List.cons_append, scan?, if_neg other]
        exact onward

theorem toList_literal (text : String) :
    (literal text).toList = '\'' :: (doubleQuotes text.toList ++ ['\'']) := String.toList_ofList

/-- A literal is read back, unless a quote follows it. -/
theorem scan?_literal (text : String) {c : Char} (other : c ≠ '\'') (rest : List Char) :
    scan? .outside ((literal text).toList ++ c :: rest) =
      (scan? .outside (c :: rest)).map (.literal text.toList :: ·) := by
  rw [toList_literal, List.cons_append, List.append_assoc, List.singleton_append, scan?,
    if_pos rfl, scan?_doubleQuotes, List.nil_append, scan?, if_neg other, scan?, if_neg other,
    Option.map_map]
  rfl

/-- Different texts have different literals. -/
theorem literal_injective : Function.Injective literal := by
  intro a b same
  have read := scan?_literal a (c := ' ') (by decide) []
  rw [same, scan?_literal b (by decide)] at read
  exact String.toList_inj.1 (Lexeme.literal.inj (List.cons.inj (Option.some.inj read)).1).symm

end Sql

/-! ## Definitions of partitions -/

namespace TableName

theorem IsIdentifier.plain {name : String} (h : IsIdentifier name) : '\'' ∉ name.toList := by
  intro there
  exact absurd (h.2 _ there) (by decide)

end TableName

namespace PartitionTable

open Sql TableName

/-- The text is the name of a table that partitions of the level are parts of. -/
def IsParent (name : String) : PartitionLevel → Prop
  | .context => name = "events"
  | .streamName => IsOfLevel .context name
  | .eventType => IsOfLevel .streamName name

/-- The names of the table and of its parent are ones that the catalog makes. -/
def IsProper (t : PartitionTable) : Prop := IsOfLevel t.level t.name ∧ IsParent t.parent t.level

/-- How the partitions of a level are divided further. -/
def division : PartitionLevel → String
  | .context => " PARTITION BY LIST (stream_name)"
  | .streamName => " PARTITION BY LIST (type)"
  | .eventType => ""

variable {t : PartitionTable}

theorem IsProper.plain_parent (proper : t.IsProper) : '\'' ∉ t.parent.toList := by
  obtain ⟨-, parent⟩ := proper
  cases level : t.level <;> rw [level] at parent
  · have name : t.parent = "events" := parent
    rw [name]
    decide
  · exact (IsOfLevel.isIdentifier parent).plain
  · exact (IsOfLevel.isIdentifier parent).plain

theorem definition_eq (t : PartitionTable) :
    t.definition = "CREATE TABLE " ++ t.name ++ " PARTITION OF " ++ t.parent ++
      " FOR VALUES IN (" ++ literal t.bound ++ (")" ++ division t.level) := by
  unfold definition
  cases t.level <;> simp only [String.append_assoc] <;> rfl

theorem scan?_definition (proper : t.IsProper) :
    scan? .outside t.definition.toList =
      some (code ("CREATE TABLE " ++ t.name ++ " PARTITION OF " ++ t.parent ++
          " FOR VALUES IN (") ++
        .literal t.bound.toList :: code (")" ++ division t.level)) := by
  have name := proper.1.isIdentifier.plain
  have parent := proper.plain_parent
  have before : '\'' ∉ ("CREATE TABLE " ++ t.name ++ " PARTITION OF " ++ t.parent ++
      " FOR VALUES IN (").toList := by
    simp only [String.toList_append, List.mem_append, not_or]
    exact ⟨⟨⟨⟨by decide, name⟩, by decide⟩, parent⟩, by decide⟩
  have after : '\'' ∉ (division t.level).toList := by cases t.level <;> decide
  have closed : (")" ++ division t.level).toList = ')' :: (division t.level).toList :=
    String.toList_append
  have plain : '\'' ∉ ')' :: (division t.level).toList :=
    fun there => (List.mem_cons.1 there).elim (by decide) after
  have rest := scan?_append_of_plain plain []
  rw [List.append_nil, scan?, Option.map_some, List.append_nil] at rest
  rw [definition_eq, String.toList_append, String.toList_append, closed, List.append_assoc,
    scan?_append_of_plain before, scan?_literal _ (by decide), rest, code, code, closed]
  rfl

theorem literals_definition (proper : t.IsProper) :
    (scan? .outside t.definition.toList).map literals = some [t.bound.toList] := by
  have none : literals (code (")" ++ division t.level)) = [] := by
    rw [← List.append_nil (code _), literals_code_append, literals]
  rw [scan?_definition proper, Option.map_some, literals_code_append, literals, none]

/-- **A bound stays within its literal.** The definition of a partition is read as the text
that it is meant to be, with one literal in it, which is the bound. So different bounds have
different definitions, and different literals. -/
theorem definition_read (proper : t.IsProper) :
    scan? .outside t.definition.toList =
        some (code ("CREATE TABLE " ++ t.name ++ " PARTITION OF " ++ t.parent ++
            " FOR VALUES IN (") ++
          .literal t.bound.toList :: code (")" ++ division t.level)) ∧
      (∀ other : PartitionTable, other.IsProper → other.definition = t.definition →
        other.bound = t.bound) ∧
      Function.Injective literal := by
  refine ⟨scan?_definition proper, fun other proper' same => ?_, literal_injective⟩
  have read := literals_definition proper'
  rw [same, literals_definition proper] at read
  exact String.toList_inj.1 (List.singleton_inj.1 (Option.some.inj read)).symm

/-- A bound that is nothing but quotes and what would close a definition. -/
theorem quotes_read :
    let t : PartitionTable := ⟨"event_types_0a", "stream_names_zz", "'');--''", .eventType⟩
    t.IsProper ∧
      scan? .outside t.definition.toList =
        some (code "CREATE TABLE event_types_0a PARTITION OF stream_names_zz FOR VALUES IN (" ++
          .literal "'');--''".toList :: code ")") := by
  intro t
  have proper : t.IsProper :=
    ⟨⟨"0a", by decide, by decide⟩, ⟨"zz", by decide, by decide⟩⟩
  exact ⟨proper, (definition_read proper).1.trans (by decide)⟩

end PartitionTable

end EventJournal

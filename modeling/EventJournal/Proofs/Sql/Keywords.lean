import EventJournal.Database.Statement

/-!
# How texts open

A statement that changes rows of events or creates a partition is known by how its text
opens, without a look at the values: with one of five keywords. No other statement of the
journal opens with one of them.

## Main results

* `Statement.changeKeyword?_eq_some_iff` — the keyword a text opens with.
-/

namespace EventJournal

namespace Statement

/-- How the text of a statement opens that changes something. -/
def changeKeyword? : Statement → Option String
  | .insertEvent _ => some "INSERT INTO events "
  | .closeGap _ _ => some "UPDATE events "
  | .deleteEvent _ | .deleteStream _ => some "DELETE FROM events "
  | .createTable _ => some "CREATE TABLE "
  | .registerPartition _ _ => some "INSERT INTO partitions "
  | _ => none

def changeKeywords : List String :=
  ["INSERT INTO events ", "UPDATE events ", "DELETE FROM events ", "CREATE TABLE ",
    "INSERT INTO partitions "]

/-- The text opens with a keyword. -/
def Opens (keyword text : String) : Prop := keyword.toList <+: text.toList

theorem opens_append (keyword rest : String) : Opens keyword (keyword ++ rest) := by
  unfold Opens
  rw [String.toList_append]
  exact List.prefix_append _ _

theorem Opens.append {keyword text : String} (h : Opens keyword text) (rest : String) :
    Opens keyword (text ++ rest) := by
  unfold Opens
  rw [String.toList_append]
  exact h.trans (List.prefix_append _ _)

theorem Opens.literal {keyword text : String} (h : keyword.toList.isPrefixOf text.toList = true) :
    Opens keyword text :=
  List.isPrefixOf_iff_prefix.1 h

/-- A text opens with one keyword at most. -/
theorem Opens.unique {k l text : String} (hk : k ∈ changeKeywords) (hl : l ∈ changeKeywords)
    (h : Opens k text) (h' : Opens l text) : k = l := by
  have apart : ∀ k ∈ changeKeywords, ∀ l ∈ changeKeywords, k.toList <+: l.toList → k = l := by
    decide
  rcases List.prefix_or_prefix_of_prefix h h' with into | into
  · exact apart k hk l hl into
  · exact (apart l hl k hk into).symm

/-- The first two characters of other texts. -/
def otherBeginnings : List String := ["SE", "WI", "BE", "CO", "RO"]

theorem not_opens {text b : String} (hb : b ∈ otherBeginnings) (opens : Opens b text) {k : String}
    (hk : k ∈ changeKeywords) : ¬Opens k text := by
  have apart : ∀ b ∈ otherBeginnings, ∀ k ∈ changeKeywords,
      ¬b.toList <+: k.toList ∧ ¬k.toList <+: b.toList := by
    decide
  intro opens'
  rcases List.prefix_or_prefix_of_prefix opens opens' with into | into
  · exact (apart b hb k hk).1 into
  · exact (apart b hb k hk).2 into

end Statement

theorem Select.opens_sql (s : Select) : Statement.Opens "SE" s.sql := by
  obtain ⟨columns, source, joins, anyOf, allOf, order, limit, offset⟩ := s
  unfold Statement.Opens sql pieces Piece.ofText
  simp only [String.toList_append, String.toList_ofList, List.append_assoc, List.map_append]
  exact ⟨_, rfl⟩

theorem PartitionTable.opens_definition (t : PartitionTable) :
    Statement.Opens "CREATE TABLE " t.definition := by
  unfold definition
  simp only [String.append_assoc]
  exact Statement.opens_append _ _

namespace Statement

/-- The text of a statement opens with the keyword of what the statement changes, and with no
other. -/
theorem changeKeyword?_eq_some_iff {s : Statement} (known : ∀ text, s ≠ .schemaStep text)
    {k : String} (hk : k ∈ changeKeywords) : s.changeKeyword? = some k ↔ Opens k s.sql := by
  have same : ∀ {l : String}, l ∈ changeKeywords → Opens l s.sql →
      (some l = some k ↔ Opens k s.sql) := by
    intro l hl opens
    refine ⟨?_, fun opens' => congrArg some (Opens.unique hl hk opens opens')⟩
    rintro ⟨⟩
    exact opens
  have other : ∀ b ∈ otherBeginnings, Opens b s.sql → (none = some k ↔ Opens k s.sql) :=
    fun b hb opens => ⟨nofun, fun opens' => absurd opens' (not_opens hb opens hk)⟩
  have select : ∀ t : Select, s.sql = t.sql → (none = some k ↔ Opens k s.sql) :=
    fun t same => other "SE" (by decide) (same ▸ t.opens_sql)
  -- the texts are put together from literals, the first of which tells
  cases s with
  | begin => exact other "BE" (by decide) (.literal (by decide))
  | isolate isolation => exact other "SE" (by decide) (.append (.literal (by decide)) _)
  | commit => exact other "CO" (by decide) (.literal (by decide))
  | rollback => exact other "RO" (by decide) (.literal (by decide))
  | lockPositions mode => cases mode <;> exact other "SE" (by decide) (.literal (by decide))
  | lastRevision stream =>
      exact other "SE" (by decide) (.append (.append (.literal (by decide)) _) _)
  | eventTypeId type =>
      exact other "WI" (by decide) (.append (.append (.literal (by decide)) _) _)
  | insertEvent draft =>
      exact same (by decide) (.append (.append (.append (.literal (by decide +kernel)) _) _) _)
  | streamExists stream =>
      exact other "SE" (by decide) (.append (.append (.literal (by decide)) _) _)
  | readEvents query => exact select query.select rfl
  | readHeads direction first rest => exact select (HeadProbe.selectAll direction first rest) rfl
  | readTargets first rest => exact select (LinkBranch.selectAll first rest) rfl
  | reload address => exact select address.select rfl
  | countLater stream revision =>
      exact other "SE" (by decide) (.append (.append (.literal (by decide)) _) _)
  | deleteEvent address => exact same (by decide) (.append (.literal (by decide)) _)
  | closeGap stream revision =>
      exact same (by decide) (.append (.append (.literal (by decide +kernel)) _) _)
  | deleteStream stream => exact same (by decide) (.append (.literal (by decide)) _)
  | lastPosition => exact other "SE" (by decide) (.literal (by decide))
  | findPartition key => exact select key.select rfl
  | findLeaves query => exact select query.select rfl
  | partitionsById ids => exact other "SE" (by decide) (.append (.literal (by decide)) _)
  | allPartitions => exact other "SE" (by decide) (.literal (by decide +kernel))
  | tableNameTaken name => exact other "SE" (by decide) (.append (.literal (by decide)) _)
  | createTable table => exact same (by decide) table.opens_definition
  | registerPartition key table =>
      exact same (by decide) (.append (.literal (by decide +kernel)) _)
  | schemaStep text => exact absurd rfl (known text)
  | run selection => exact select selection rfl
  | selectPartitions selection => exact select selection rfl

end Statement

end EventJournal

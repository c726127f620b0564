import EventJournal.Proofs.Links
import EventJournal.Proofs.Sql.Layout
import EventJournal.Proofs.Transaction.Recording

/-!
# How the links of a list are resolved

The links of a list are grouped by the partitions that they name, the partitions are looked up,
the rows are fetched with one statement for all of them, and the list is put together again.
`Read.Resolution` is an account of that for any list and any answers: which statements are sent,
and what becomes of the events, each in its place (`Event.Resolved`). The statement for the rows is
told by its text and its values.

The account has a case that ends without a result. Where the catalog answers with a table that has
a question mark in its name, no statement can be written for it.

## Main results

* `LinkBranch.sql_selectAll`, `LinkBranch.values_selectAll` — the statement that fetches rows.
* `Read.resolved_merge` — what becomes of an event.
* `Read.resolveLinks_resolution` — the account of a resolution.
-/

namespace EventJournal

/-! ## The statement that fetches rows -/

theorem Piece.ofText_append (a b : String) :
    Piece.ofText (a ++ b) = Piece.ofText a ++ Piece.ofText b := by
  simp only [Piece.ofText, String.toList_append, List.map_append]

/-- A text without a question mark is left alone, whatever the values. -/
theorem Piece.place_append {text : List Char} (plain : '?' ∉ text) (rest : List Char)
    (values : List SqlValue) :
    Piece.place (text ++ rest) values = text.map Piece.char ++ Piece.place rest values := by
  induction text with
  | nil => rfl
  | cons c text ih =>
      obtain ⟨other, plain⟩ := not_or.1 (mt List.mem_cons.2 plain)
      have same := ih plain
      cases values with
      | nil => exact congrArg (Piece.char c :: ·) same
      | cons v values =>
          rw [List.cons_append, Piece.place, if_neg (Ne.symm other), same]
          rfl

namespace LinkBranch

/-- The text of a branch that fetches rows of a table by the value with a number. -/
def text (table : String) (number : Nat) : String :=
  "SELECT " ++ Sql.qualifiedColumns table ++ " FROM " ++ table ++
    " WHERE (" ++ table ++ ".id = ANY($" ++ toString number ++ "))"

/-- The text of all branches. -/
def unionText (tables : List String) : String :=
  "SELECT * FROM ((" ++
    ") UNION ALL (".intercalate (tables.mapIdx fun place table => text table (place + 1)) ++
      ")) combined"

variable (branch : LinkBranch)

theorem pieces_condition :
    (Fragment.onTable branch.table ".id = ANY(?)" [.uuids branch.ids] branch.plain rfl).pieces =
      Piece.ofText (branch.table ++ ".id = ANY(") ++ [.value (.uuids branch.ids), .char ')'] := by
  have rest : Piece.place ".id = ANY(?)".toList [.uuids branch.ids] =
      Piece.ofText ".id = ANY(" ++ [.value (.uuids branch.ids), .char ')'] := rfl
  unfold Fragment.pieces Fragment.onTable
  dsimp only
  rw [String.toList_append, Piece.place_append branch.plain, rest, Piece.ofText_append,
    List.append_assoc]
  rfl

theorem pieces_select :
    branch.select.pieces =
      Piece.ofText ("SELECT " ++ Sql.qualifiedColumns branch.table ++ " FROM " ++ branch.table ++
        " WHERE (" ++ branch.table ++ ".id = ANY(") ++
      [.value (.uuids branch.ids), .char ')', .char ')'] := by
  have opening : Piece.ofText " WHERE (" = Piece.ofText " WHERE " ++ [.char '('] := rfl
  have nothing : Piece.ofText (Select.tail [] none none) = [] := rfl
  unfold select Select.pieces Select.sourcePieces Fragment.conditions Fragment.group
  dsimp only
  rw [List.map_singleton, pieces_condition, nothing]
  simp only [Piece.ofText_append, opening, Select.columnList, String.intercalate_singleton,
    List.intercalate_singleton, List.flatMap_nil, List.append_nil, List.append_assoc,
    List.cons_append, List.nil_append]

theorem numbered_select (last : Nat) :
    Piece.numbered last branch.select.pieces = (text branch.table (last + 1)).toList := by
  rw [pieces_select, Piece.numbered_append, Piece.numbered_ofText, Piece.values_ofText]
  unfold text
  simp only [Piece.numbered, Nat.add_zero, List.length_nil, String.toList_append,
    List.append_assoc]
  rfl

theorem values_select : Piece.values branch.select.pieces = [.uuids branch.ids] := by
  rw [pieces_select, Piece.values_append, Piece.values_ofText]
  rfl

/-- The branches from a number on. -/
theorem numbered_members (first : LinkBranch) (rest : List LinkBranch) (last : Nat) :
    Piece.numbered last (first.select.pieces ++ Select.memberPieces (rest.map select)) =
      (") UNION ALL (".intercalate (((first :: rest).map (·.table)).mapIdx fun place table =>
        text table (last + place + 1))).toList := by
  induction rest generalizing first last with
  | nil =>
      simp only [List.map_nil, Select.memberPieces, List.append_nil, List.map_cons,
        List.mapIdx_cons, List.mapIdx_nil, String.intercalate_singleton]
      exact numbered_select first last
  | cons next rest ih =>
      have shift : ∀ place, last + 1 + place = last + (place + 1) := fun _ => by omega
      have one : (Piece.values first.select.pieces).length = 1 := by rw [values_select]; rfl
      rw [List.map_cons, Select.memberPieces, List.append_assoc, Piece.numbered_append,
        Piece.numbered_append, Piece.values_ofText, one, Piece.numbered_ofText, List.length_nil,
        Nat.add_zero, ih next (last + 1), numbered_select]
      simp only [List.map_cons, List.mapIdx_cons, String.intercalate_cons_cons,
        String.toList_append, List.append_assoc, shift, Nat.add_zero]

theorem values_members (first : LinkBranch) (rest : List LinkBranch) :
    Piece.values (first.select.pieces ++ Select.memberPieces (rest.map select)) =
      (first :: rest).map fun branch => .uuids branch.ids := by
  induction rest generalizing first with
  | nil =>
      rw [List.map_nil, Select.memberPieces, List.append_nil, values_select]
      rfl
  | cons next rest ih =>
      rw [List.map_cons, Select.memberPieces, List.append_assoc, Piece.values_append,
        Piece.values_append, Piece.values_ofText, ih next, values_select]
      rfl

theorem pieces_selectAll (first : LinkBranch) (rest : List LinkBranch) :
    (selectAll first rest).pieces =
      Piece.ofText "SELECT * FROM ((" ++
        (first.select.pieces ++ Select.memberPieces (rest.map select)) ++
        Piece.ofText ")) combined" := by
  have opening : Piece.ofText "SELECT * FROM ((" =
      Piece.ofText ("SELECT " ++ Select.columnList [] ++ " FROM ") ++ Piece.ofText "((" := rfl
  have nothing : Piece.ofText (Select.tail [] none none) = [] := rfl
  unfold selectAll
  rw [Select.pieces, Select.sourcePieces, opening, nothing]
  simp only [Fragment.conditions, List.flatMap_nil, List.append_nil, List.append_assoc]

/-- The text that fetches rows from tables. -/
theorem sql_selectAll (first : LinkBranch) (rest : List LinkBranch) :
    (selectAll first rest).sql = unionText ((first :: rest).map (·.table)) := by
  rw [← String.toList_inj, Select.toList_sql, pieces_selectAll, List.append_assoc,
    Piece.numbered_append, Piece.numbered_append, Piece.values_ofText, Piece.numbered_ofText,
    Piece.numbered_ofText, List.length_nil, numbered_members]
  unfold unionText
  simp only [String.toList_append, Nat.zero_add, List.append_assoc]

/-- The values by which it fetches them. -/
theorem values_selectAll (first : LinkBranch) (rest : List LinkBranch) :
    (selectAll first rest).values = (first :: rest).map fun branch => .uuids branch.ids := by
  rw [Select.values, pieces_selectAll, Piece.values_append, Piece.values_append, values_members,
    Piece.values_ofText, Piece.values_ofText, List.nil_append, List.append_nil]

end LinkBranch

/-! ## What links ask for -/

theorem nodup_eraseDups {α : Type} [BEq α] [LawfulBEq α] : ∀ items : List α, items.eraseDups.Nodup
  | [] => List.nodup_nil
  | item :: rest => by
      rw [List.eraseDups_cons]
      refine List.nodup_cons.2 ⟨fun there => ?_, nodup_eraseDups _⟩
      have other := (List.mem_filter.1 (List.mem_eraseDups.1 there)).2
      simp at other
termination_by items => items.length
decreasing_by exact Nat.lt_succ_of_le (List.length_filter_le _ _)

/-- The event is a link that refers to the row. -/
structure Event.LinksTo (event : Event) (row : StoredEvent) : Prop where
  link : event.isLink = true
  id : event.linkId = some row.id
  position : event.linkGlobalPosition = some row.globalPosition

/-- What becomes of an event by the rows that are answered: a row that it refers to takes its
place and has it as its link, or it stays as it is because it refers to none of them. -/
inductive Event.Resolved (rows : List StoredEvent) (event : Event) : Event → Prop
  | found {row : StoredEvent} (there : row ∈ rows) (links : event.LinksTo row) :
      Resolved rows event { row.toEvent with link := some event }
  | kept (none : ∀ row ∈ rows, ¬event.LinksTo row) : Resolved rows event event

namespace Read

open EventJournal.Action

/-- The identifiers of the originals in a partition, in the order of their links. -/
def idsIn (events : List Event) (partition : Int64) : List Uuid :=
  events.filterMap fun event =>
    if event.isLink && event.linkPartitionId = some partition then event.linkId else none

/-- The partitions that links of a list name, each once. -/
structure Asks (events : List Event) (ids : List Int64) : Prop where
  distinct : ids.Nodup
  named : ∀ id, id ∈ ids ↔
    ∃ event ∈ events, event.isLink = true ∧ event.linkPartitionId = some id

/-- The statement fetches, of each partition that is found and was asked for, the rows with the
identifiers that links into it have. -/
structure Fetches (events : List Event) (ids : List Int64) (partitions : List Partition)
    (statement : Statement) : Prop where
  nonempty : ∃ p ∈ partitions, p.id ∈ ids
  text : statement.sql =
    LinkBranch.unionText ((partitions.filter (·.id ∈ ids)).map (·.tableName))
  values : ∀ drawn, statement.values drawn =
    (partitions.filter (·.id ∈ ids)).map fun p => .uuids (idsIn events p.id)

/-- What is said when the links of a list are resolved, and what the outcome is. -/
inductive Resolution (events : List Event) : List Exchange → Except Abort (List Event) → Prop
  /-- No link names a partition. -/
  | idle (none : ∀ event ∈ events, event.isLink = true → event.linkPartitionId = none) :
      Resolution events [] (.ok events)
  /-- The catalog does not answer. -/
  | unlisted {ids : List Int64} (some : ids ≠ []) (asks : Asks events ids) (e : DbError) :
      Resolution events [⟨.partitionsById ids, .error e⟩] (.error (.error e.toJournalError))
  /-- None of the partitions is found. -/
  | absent {ids : List Int64} {partitions : List Partition} (some : ids ≠ [])
      (asks : Asks events ids) (none : ∀ p ∈ partitions, p.id ∉ ids) :
      Resolution events [⟨.partitionsById ids, .ok partitions⟩] (.ok events)
  /-- No statement can be written for one of the partitions. -/
  | misfit {ids : List Int64} {partitions : List Partition} {p : Partition} (some : ids ≠ [])
      (asks : Asks events ids) (member : p ∈ partitions) (asked : p.id ∈ ids)
      (odd : '?' ∈ p.tableName.toList) :
      Resolution events [⟨.partitionsById ids, .ok partitions⟩] (.error .misfit)
  /-- The rows are not answered. -/
  | unfetched {ids : List Int64} {partitions : List Partition} {first : LinkBranch}
      {rest : List LinkBranch} (asks : Asks events ids)
      (fetches : Fetches events ids partitions (.readTargets first rest)) (e : DbError) :
      Resolution events
        [⟨.partitionsById ids, .ok partitions⟩, ⟨.readTargets first rest, .error e⟩]
        (.error (.error e.toJournalError))
  /-- Each event is resolved in its place. -/
  | resolved {ids : List Int64} {partitions : List Partition} {first : LinkBranch}
      {rest : List LinkBranch} {rows : List StoredEvent} {events' : List Event}
      (asks : Asks events ids)
      (fetches : Fetches events ids partitions (.readTargets first rest))
      (resolved : List.Forall₂ (Event.Resolved rows) events events') :
      Resolution events
        [⟨.partitionsById ids, .ok partitions⟩, ⟨.readTargets first rest, .ok rows⟩]
        (.ok events')

variable {events : List Event} {rows : List StoredEvent} {event : Event}

theorem idsIn_ofEvents (events : List Event) (partition : Int64) :
    LinkTarget.idsIn (LinkTarget.ofEvents events) partition = idsIn events partition := by
  unfold LinkTarget.idsIn LinkTarget.ofEvents idsIn
  rw [List.filterMap_filterMap]
  refine List.filterMap_congr fun event _ => ?_
  cases event.isLink with
  | false => rfl
  | true =>
      cases event.linkPartitionId <;> cases event.linkId <;> simp

theorem exists_linkId (links : event.isLink = true) : ∃ id, event.linkId = some id := by
  unfold Event.isLink at links
  exact Option.isSome_iff_exists.1 (Bool.and_eq_true_iff.1 links).2

theorem asks_partitions (events : List Event) :
    Asks events (LinkTarget.partitions (LinkTarget.ofEvents events)) := by
  refine ⟨nodup_eraseDups _, fun partition => ?_⟩
  simp only [LinkTarget.mem_partitions, LinkTarget.mem_ofEvents]
  constructor
  · rintro ⟨id, event, member, links, -, named⟩
    exact ⟨event, member, links, named⟩
  · rintro ⟨event, member, links, named⟩
    obtain ⟨id, refers⟩ := exists_linkId links
    exact ⟨id, event, member, links, refers, named⟩

/-- The tables to ask are those of the partitions that were asked for. -/
theorem tables_eq (events : List Event) (partitions : List Partition) :
    tables (LinkTarget.ofEvents events) partitions =
      (partitions.filter (·.id ∈ LinkTarget.partitions (LinkTarget.ofEvents events))).map
        fun p => (p.tableName, idsIn events p.id) := by
  induction partitions with
  | nil => rfl
  | cons p rest ih =>
      have asked : LinkTarget.idsIn (LinkTarget.ofEvents events) p.id = [] ↔
          p.id ∉ LinkTarget.partitions (LinkTarget.ofEvents events) := by
        simp only [LinkTarget.mem_partitions, ← LinkTarget.mem_idsIn, not_exists,
          List.eq_nil_iff_forall_not_mem]
      unfold tables at ih ⊢
      rw [List.filterMap_cons, ih, List.filter_cons]
      by_cases member : p.id ∈ LinkTarget.partitions (LinkTarget.ofEvents events)
      · rw [if_pos (decide_eq_true member), List.map_cons, ← idsIn_ofEvents]
        split
        · rename_i none
          split at none
          · exact absurd member (asked.1 ‹_›)
          · cases none
        · rename_i some
          split at some
          · cases some
          · cases some
            rfl
      · rw [if_neg (by simpa using member), asked.2 member]

/-! ## What becomes of an event -/

theorem mem_of_target?_eq_some {row : StoredEvent} (h : target? rows event = some row) :
    row ∈ rows ∧ event.LinksTo row := by
  unfold target? at h
  split at h
  · rename_i links
    split at h
    · rename_i id position refers placed
      have meets := List.find?_some h
      simp only [Bool.and_eq_true, decide_eq_true_eq] at meets
      obtain ⟨rfl, rfl⟩ := meets
      exact ⟨List.mem_reverse.1 (List.mem_of_find?_eq_some h), links, refers, placed⟩
    · cases h
  · cases h

theorem not_linksTo_of_target?_eq_none (h : target? rows event = none) :
    ∀ row ∈ rows, ¬event.LinksTo row := by
  rintro row there ⟨links, refers, placed⟩
  unfold target? at h
  rw [if_pos links, refers, placed] at h
  have other := List.find?_eq_none.1 h row (List.mem_reverse.2 there)
  simp at other

theorem resolved_merge (rows : List StoredEvent) (event : Event) :
    event.Resolved rows (merge rows event) := by
  unfold merge
  cases found : target? rows event with
  | some row =>
      obtain ⟨there, links⟩ := mem_of_target?_eq_some found
      exact .found there links
  | none => exact .kept (not_linksTo_of_target?_eq_none found)

/-! ## The account -/

theorem map_of_build? {tables : List (String × List Uuid)} {branches : List LinkBranch}
    (built : tables.mapM (fun (table, ids) => LinkBranch.build? table ids) = some branches) :
    branches.map (fun branch => (branch.table, branch.ids)) = tables := by
  induction tables generalizing branches with
  | nil =>
      cases built
      rfl
  | cons first rest ih =>
      obtain ⟨table, ids⟩ := first
      rw [List.mapM_cons] at built
      dsimp only at built
      by_cases odd : '?' ∈ table.toList
      · rw [LinkBranch.build?, dif_neg (not_not.2 odd)] at built
        cases built
      · rw [LinkBranch.build?, dif_pos odd] at built
        cases others : rest.mapM fun (table, ids) => LinkBranch.build? table ids with
        | none =>
            rw [others] at built
            cases built
        | some branches =>
            rw [others] at built
            cases built
            exact congrArg _ (ih others)

theorem fetches_of_branches {ids : List Int64} {partitions : List Partition} {first : LinkBranch}
    {rest : List LinkBranch}
    (made : (first :: rest).map (fun branch => (branch.table, branch.ids)) =
      (partitions.filter (·.id ∈ ids)).map fun p => (p.tableName, idsIn events p.id)) :
    Fetches events ids partitions (.readTargets first rest) := by
  have tables := congrArg (List.map Prod.fst) made
  have asked := congrArg (List.map Prod.snd) made
  rw [List.map_map, List.map_map] at tables asked
  refine ⟨?_, ?_, fun drawn => ?_⟩
  · cases among : partitions.filter (·.id ∈ ids) with
    | nil =>
        rw [among] at made
        cases made
    | cons p _ =>
        obtain ⟨member, asked⟩ := List.mem_filter.1 (among ▸ List.mem_cons_self : p ∈ _)
        exact ⟨p, member, of_decide_eq_true asked⟩
  · exact (LinkBranch.sql_selectAll first rest).trans (congrArg LinkBranch.unionText tables)
  · have bound := congrArg (List.map SqlValue.uuids) asked
    rw [List.map_map, List.map_map] at bound
    exact (LinkBranch.values_selectAll first rest).trans bound

variable {δ σ : Type} {db : Database δ}

theorem ends_resolveLinks_recording (events : List Event) (s : σ) (d : δ) :
    Ends db.recording (resolveLinks events) s (d, [])
      (fun shown _ x => Resolution events x.2 (.ok shown))
      (fun cause _ x => Resolution events x.2 (.error cause)) := by
  have asks := asks_partitions events
  have tables := tables_eq events
  unfold resolveLinks
  rw [ends_bind]
  cases ids : LinkTarget.partitions (LinkTarget.ofEvents events) with
  | nil =>
      rw [ids] at asks
      have none : ∀ event ∈ events, event.isLink = true → event.linkPartitionId = none := by
        intro event member links
        by_contra some
        obtain ⟨id, named⟩ := Option.ne_none_iff_exists'.1 some
        exact List.not_mem_nil ((asks.named id).2 ⟨event, member, links, named⟩)
      refine (ends_pure ([] : List Partition)).2 ?_
      exact (ends_pure events).2 (Resolution.idle none)
  | cons id others =>
      have some : id :: others ≠ [] := List.cons_ne_nil _ _
      rw [ids] at asks
      simp only [ids] at tables
      refine Ends.ask_recording (fun partitions d => ?_) fun e _ => .unlisted some asks e
      have tables := tables partitions
      -- a branch cannot be built, there are none, or there is one for each table
      split
      · rename_i missing
        rw [branches?_eq] at missing
        obtain ⟨table, there, odd⟩ := exists_build?_eq_none missing
        rw [tables] at there
        obtain ⟨p, among, rfl⟩ := List.mem_map.1 there
        obtain ⟨member, asked⟩ := List.mem_filter.1 among
        exact (ends_abort _).2 (.misfit some asks member (of_decide_eq_true asked) odd)
      · rename_i built
        rw [branches?_eq] at built
        have made := map_of_build? built
        rw [tables, List.map_nil] at made
        have nothing := List.filter_eq_nil_iff.1 (List.map_eq_nil_iff.1 made.symm)
        exact (ends_pure events).2
          (.absent some asks fun p member asked => nothing p member (decide_eq_true asked))
      · rename_i first rest built
        rw [branches?_eq] at built
        have made := map_of_build? built
        rw [tables] at made
        have fetches := fetches_of_branches made
        rw [ends_bind]
        refine Ends.ask_recording (fun rows d => ?_) fun e _ => .unfetched asks fetches e
        refine (ends_pure _).2 (.resolved asks fetches ?_)
        exact List.forall₂_map_right_iff.2
          (List.forall₂_same.2 fun event _ => resolved_merge rows event)

/-- The rows that are answered to the statement that fetches them. -/
def fetchedIn (said : List Exchange) : List StoredEvent :=
  said.flatMap fun e =>
    match e.statement, e.answer with
    | .readTargets _ _, .ok rows => rows
    | _, _ => []

/-- Whatever has been said, each event is resolved in its place by the rows that were answered. -/
theorem Resolution.forall₂_resolved {said : List Exchange} {events' : List Event}
    (h : Resolution events said (.ok events')) :
    List.Forall₂ (Event.Resolved (fetchedIn said)) events events' := by
  have nothing : List.Forall₂ (Event.Resolved []) events events :=
    List.forall₂_same.2 fun _ _ => .kept fun _ none => nomatch none
  cases h with
  | idle => exact nothing
  | absent => exact nothing
  | @resolved _ _ _ _ rows _ _ _ resolved =>
      rw [show fetchedIn _ = rows ++ [] from rfl, List.append_nil]
      exact resolved

/-- **How the links of a list are resolved**, whatever the list is and whatever is answered: the
statements are those of the account, and where there is a result, each event is resolved in its
place. -/
theorem resolveLinks_resolution (db : Database δ) (events : List Event) (s : σ) (d : δ) :
    let said := ((resolveLinks events).start s).exchanges db d
    ∃ result s' d', (resolveLinks events).runOn db s d = ((result, s'), d') ∧
      Resolution events said result ∧
      ∀ events', result = .ok events' →
        List.Forall₂ (Event.Resolved (fetchedIn said)) events events' := by
  intro said
  rcases run : (resolveLinks events).runOn db s d with ⟨⟨result, s'⟩, d'⟩
  have account := Ends.of_recording (Q := fun result said => Resolution events said result)
    (ends_resolveLinks_recording events s d) run
  exact ⟨result, s', d', rfl, account, fun events' shown => (shown ▸ account).forall₂_resolved⟩

/-- A link is not resolved, although its row is stored and its partition is found, because there is
no statement for the table of that. -/
theorem odd_table_misfits :
    let link : Event :=
      { type := linkType, linkId := some ⟨0⟩, linkPartitionId := some 1,
        linkGlobalPosition := some 3 }
    link.LinksTo (Journal.orderRow 0 3) ∧
    ((resolveLinks [link] : Action Unit _).runOn
        (.ofTables [⟨1, "sales", some "order", some "placed", "orders?"⟩]) ()
        [Journal.orderRow 0 3]).1.1 = .error .misfit :=
  ⟨⟨by decide, rfl, rfl⟩, rfl⟩

end Read

end EventJournal

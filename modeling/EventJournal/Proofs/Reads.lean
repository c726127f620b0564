import EventJournal.Journal
import EventJournal.Proofs.Ends
import EventJournal.Proofs.Paging
import EventJournal.Proofs.Query.Texts
import EventJournal.Proofs.Query.Wanted

/-!
# Reads return what is asked for

A database `Reads` a table if it answers the two statements of a read as their texts say. A
read without the resolution of links then shows the rows that it wants, in the order of its
stream and no more of them than its limit.

## Main results

* `Journal.read_shows` — how a read ends.
-/

namespace EventJournal

/-- The database answers reads from a table of events, which it leaves as it is. -/
structure Database.Reads {δ : Type} (db : Database δ) (table : δ → List StoredEvent) : Prop where
  readEvents (q : EventQuery) (d : δ) (counts : 0 ≤ q.limit) : ∃ answer d',
    db.answer (.readEvents q) d = (.ok answer, d') ∧ q.select.Answers (table d) answer ∧
      table d' = table d
  streamExists (stream : Stream) (d : δ) : ∃ d',
    db.answer (.streamExists stream) d = (.ok [(table d).any (·.liesIn stream)], d') ∧
      table d' = table d

namespace EventQuery

/-- The rows with which a query is answered; those of the same place stay in the order of the
table. -/
def respond (q : EventQuery) (rows : List StoredEvent) : List StoredEvent :=
  ((((q.joined rows).filter fun pair => q.selects pair.row).mergeSort fun a b =>
    q.direction.reaches (q.order.place b.row) (q.order.place a.row)).take
      q.limit.toInt.toNat).map q.shown

theorem answers_respond {q : EventQuery} (counts : 0 ≤ q.limit) (rows : List StoredEvent) :
    q.select.Answers rows (q.respond rows) := by
  refine (answers_select_iff q rows _).2 ⟨counts, _, List.mergeSort_perm _ _, ?_, rfl⟩
  refine List.pairwise_mergeSort ?_ ?_ _
  · exact fun a b c ab bc => Direction.reaches_trans ab bc
  · exact fun a b => q.direction.reaches_total (q.order.place a.row) (q.order.place b.row)

end EventQuery

/-- A table that does not change, and nothing besides. -/
def Database.ofRows : Database (List StoredEvent) where
  answer
    | .readEvents query, rows => (.ok (query.respond rows), rows)
    | .streamExists stream, rows => (.ok [rows.any (·.liesIn stream)], rows)
    | s, rows => (.ok s.shape.nothing, rows)

theorem Database.reads_ofRows : Database.ofRows.Reads id where
  readEvents _ rows counts := ⟨_, rows, rfl, EventQuery.answers_respond counts rows, rfl⟩
  streamExists _ rows := ⟨rows, rfl, rfl⟩

namespace Read

open EventJournal.Action

instance (stream : Stream) (rows : List StoredEvent) : Decidable (Missing stream rows) :=
  inferInstanceAs (Decidable (_ ∧ _))

/-- All rows that the read of a stream wants, in the order of the stream. -/
structure Wanted (stream : Stream) (options : ReadOptions) (rows all : List StoredEvent) :
    Prop where
  those : all.Perm (rows.filter (options.Wants stream ·))
  sorted : all.Pairwise fun a b =>
    options.direction.reaches ((orderOf stream).place b) ((orderOf stream).place a) = true

variable {δ σ : Type} {db : Database δ} {table : δ → List StoredEvent} {stream : Stream}
  {options : ReadOptions} {query : EventQuery}

/-- A stream without rows has none to show. -/
theorem Wanted.eq_nil {rows all : List StoredEvent} (h : Wanted stream options rows all)
    (missing : Missing stream rows) : all = [] := by
  refine List.eq_nil_iff_forall_not_mem.2 fun row there => ?_
  obtain ⟨stored, wants⟩ := List.mem_filter.1 (h.those.mem_iff.1 there)
  exact List.any_eq_false.1 missing.2 row stored
    ((of_decide_eq_true wants).ofStream missing.1)

theorem runOn_streamExists (reads : db.Reads table) (stream : Stream) (s : σ) (d : δ) :
    ∃ d', table d' = table d ∧ (streamExists stream).runOn db s d =
      ((.ok ((table d).any (·.liesIn stream)), s), d') := by
  obtain ⟨d', answered, same⟩ := reads.streamExists stream d
  refine ⟨d', same, ?_⟩
  unfold streamExists
  rw [runOn_bind, runOn_ask, answered]
  rfl

/-- A read has the rows that its query is answered with, unless there are none and none of its
stream. -/
theorem runOn_rows (reads : db.Reads table)
    (asked : EventQuery.ofOptions stream options = .ok query) (s : σ) (d : δ) :
    ∃ answer d', query.select.Answers (table d) answer ∧ table d' = table d ∧
      (rows stream options).runOn db s d =
        ((if answer.isEmpty = true ∧ Missing stream (table d) then
            .error (.error (.streamNotFound stream))
          else .ok answer, s), d') := by
  have counts : 0 ≤ query.limit := (ofOptions_eq_ok asked).2.2.1 ▸ options.limit_nonneg
  obtain ⟨answer, d₁, answered, answers, same⟩ := reads.readEvents query d counts
  have asks : (rows stream options).runOn db s d =
      (if answer.isEmpty && stream.isRegular then do
        if ← streamExists stream then pure answer else fail (.streamNotFound stream)
      else pure answer : Action σ (List StoredEvent)).runOn db s d₁ := by
    unfold rows
    rw [asked, runOn_bind, runOn_check]
    dsimp only [Except.mapError]
    rw [runOn_bind, runOn_ask, answered]
    rfl
  rw [asks]
  by_cases ask : (answer.isEmpty && stream.isRegular) = true
  · obtain ⟨empty, regular⟩ := Bool.and_eq_true_iff.1 ask
    obtain ⟨d₂, same', exists_⟩ := runOn_streamExists reads stream s d₁
    refine ⟨answer, d₂, answers, same'.trans same, ?_⟩
    rw [if_pos ask, runOn_bind, exists_, same]
    cases there : (table d).any (·.liesIn stream) with
    | true =>
        have known : ¬(answer.isEmpty = true ∧ Missing stream (table d)) :=
          fun missing => Bool.noConfusion (there.symm.trans missing.2.2)
        rw [if_neg known]
        rfl
    | false =>
        have missing : answer.isEmpty = true ∧ Missing stream (table d) :=
          ⟨empty, regular, there⟩
        rw [if_pos missing]
        rfl
  · refine ⟨answer, d₁, answers, same, ?_⟩
    have there : ¬(answer.isEmpty = true ∧ Missing stream (table d)) :=
      fun missing => ask (Bool.and_eq_true_iff.2 ⟨missing.1, missing.2.1⟩)
    rw [if_neg ask, if_neg there, runOn_pure]

/-- A read without the resolution of links has the first rows of those that it wants. -/
theorem runOn_rows_plain (reads : db.Reads table) (plain : options.resolveLinks = false)
    (asked : EventQuery.ofOptions stream options = .ok query) (s : σ) (d : δ) :
    ∃ all d', Wanted stream options (table d) all ∧ table d' = table d ∧
      (rows stream options).runOn db s d =
        ((if Missing stream (table d) then .error (.error (.streamNotFound stream))
          else .ok (all.take options.limit.toInt.toNat), s), d') := by
  obtain ⟨order, direction, limit, -⟩ := ofOptions_eq_ok asked
  obtain ⟨answer, d', answers, same, ends⟩ := runOn_rows reads asked s d
  obtain ⟨all, those, sorted, rfl⟩ :=
    EventQuery.exists_of_answers ((resolveLinks_of_ofOptions asked).trans plain) answers
  rw [EventQuery.selects_of_ofOptions asked] at those
  rw [order, direction] at sorted
  have wanted : Wanted stream options (table d) all := ⟨those, sorted⟩
  refine ⟨all, d', wanted, same, ?_⟩
  have empty : ((all.take query.limit.toInt.toNat).isEmpty = true ∧ Missing stream (table d)) ↔
      Missing stream (table d) := by
    refine and_iff_right_of_imp fun missing => ?_
    rw [wanted.eq_nil missing, List.take_nil]
    rfl
  rw [ends, if_congr empty rfl rfl, limit]

/-- What the rows of a read are shown as: what the middlewares make of them, in order. -/
def display (chain : MiddlewareChain) (rows : List StoredEvent) :
    Except JournalError (List Event) :=
  MiddlewareChain.outcome (chain.deserializeAll (rows.map StoredEvent.toEvent))

/-- Without a middleware, rows are shown as they are. -/
theorem display_nil (rows : List StoredEvent) :
    display [] rows = .ok (rows.map StoredEvent.toEvent) := by
  rw [display, MiddlewareChain.outcome_deserializeAll, List.mapM_map]
  exact List.mapM_pure

end Read

namespace Journal

open EventJournal.Action

variable {δ : Type} {db : Database δ} {table : δ → List StoredEvent}

theorem wants_withLimit_iff {j : Journal} {options : ReadOptions} {stream : Stream}
    {row : StoredEvent} : (j.withLimit options).Wants stream row ↔ options.Wants stream row := by
  rw [ReadOptions.wants_iff, ReadOptions.wants_iff, withLimit]
  split <;> rfl

theorem wanted_withLimit {j : Journal} {options : ReadOptions} {stream : Stream}
    {rows all : List StoredEvent} (h : Read.Wanted stream (j.withLimit options) rows all) :
    Read.Wanted stream options rows all := by
  have direction : (j.withLimit options).direction = options.direction := by
    unfold withLimit
    split <;> rfl
  obtain ⟨those, sorted⟩ := h
  simp only [wants_withLimit_iff] at those
  exact ⟨those, direction ▸ sorted⟩

/-- How a read ends. A system stream that is not known is refused before anything is sent. A
stream without rows is not found, and a read fails so for no other reason of its own; of any
other stream the first rows that are wanted are shown. -/
theorem read_shows (reads : db.Reads table) (j : Journal) (stream : Stream)
    {options : ReadOptions} (plain : options.resolveLinks = false) (cache : LeafCache) (d : δ) :
    (stream.isSystem = true ∧ stream.streamName ≠ "$streams" →
      (j.read stream options).start cache = .done
        (.error (.error (.invalidRequest ("unknown system stream " ++ stream.streamName))),
          cache)) ∧
    (¬(stream.isSystem = true ∧ stream.streamName ≠ "$streams") →
      ∃ all found result d', Read.Wanted stream options (table d) all ∧
        found = all.take (j.withLimit options).limit.toInt.toNat ∧ table d' = table d ∧
        (j.read stream options).runOn db cache d = ((result, cache), d') ∧
        (¬Read.Missing stream (table d) →
          result = (Read.display j.chain found).mapError .error) ∧
        (result = .error (.error (.streamNotFound stream)) ↔
          Read.Missing stream (table d) ∨
            Read.display j.chain found = .error (.streamNotFound stream))) := by
  constructor
  · rintro ⟨system, unknown⟩
    have refused : EventQuery.ofOptions stream (j.withLimit options) =
        .error (.unknownSystemStream stream.streamName) := by
      unfold EventQuery.ofOptions
      rw [show stream.kind = .system from of_decide_eq_true system]
      exact if_neg unknown
    unfold read Read.rows
    rw [refused]
    rfl
  · intro known
    obtain ⟨query, asked⟩ := EventQuery.ofOptions_of_known known (j.withLimit options)
    obtain ⟨all, d', wanted, same, rows⟩ :=
      Read.runOn_rows_plain reads ((j.resolveLinks_withLimit options).trans plain) asked cache d
    have chosen := wanted_withLimit wanted
    by_cases missing : Read.Missing stream (table d)
    · rw [if_pos missing] at rows
      refine ⟨all, _, .error (.error (.streamNotFound stream)), d', chosen, rfl, same, ?_,
        fun there => absurd missing there, iff_of_true rfl (.inl missing)⟩
      unfold read
      rw [runOn_bind, rows]
    · rw [if_neg missing] at rows
      refine ⟨all, _, _, d', chosen, rfl, same, ?_, fun _ => rfl, ?_⟩
      · unfold read
        rw [runOn_bind, rows]
        exact runOn_check db cache d' _
      · cases Read.display j.chain (all.take (j.withLimit options).limit.toInt.toNat) with
        | ok events => simp [Except.mapError, missing]
        | error cause => simp [Except.mapError, missing]

/-- The last of three rows is read, from its revision on. -/
theorem read_shows_last_order :
    Database.ofRows.Reads id ∧
      ((read { nameTries := 0 } ⟨"sales", "order", "1", .regular⟩
        { fromRevision := some 2 }).runOn Database.ofRows {}
          [orderRow 0 3, orderRow 1 4, orderRow 2 9]).1.1 = .ok [(orderRow 2 9).toEvent] := by
  have regular : ¬((⟨"sales", "order", "1", .regular⟩ : Stream).isSystem = true ∧
      "order" ≠ "$streams") := by
    decide
  obtain ⟨all, found, result, rows, wanted, rfl, -, ends, shows, -⟩ :=
    (@read_shows _ _ _ Database.reads_ofRows { nameTries := 0 }
      ⟨"sales", "order", "1", .regular⟩ { fromRevision := some 2 } rfl {}
      [orderRow 0 3, orderRow 1 4, orderRow 2 9]).2 regular
  have those := wanted.those
  rw [← EventQuery.selects_of_ofOptions rfl] at those
  have last : all = [orderRow 2 9] := List.perm_singleton.1 those
  have there : ¬Read.Missing ⟨"sales", "order", "1", .regular⟩
      [orderRow 0 3, orderRow 1 4, orderRow 2 9] := by
    decide
  refine ⟨Database.reads_ofRows, ?_⟩
  rw [ends, shows there, last]
  rfl

end Journal

end EventJournal

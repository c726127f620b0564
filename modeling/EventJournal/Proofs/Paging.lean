import EventJournal.Proofs.Paging.Cursor
import EventJournal.Proofs.Passes
import EventJournal.Proofs.Table.Calls

/-!
# Long reads show every row once

A long read over a table that does not change shows the rows that its query selects, all
of them and in order, cut into pages of the limit. The invariant of the read is that its
cursor stands at the rows that are left (`Read.Stands`); each page takes the first of them
and leaves the others. Whatever ends the read early, a failed statement or a middleware
that refuses an event, is its last item, and nothing is asked after it.

A page shows its rows, or with the resolution of links for each row that refers to another
one that other with the row inside (`Read.Page`). The cursor does not depend on it.

## Main results

* `Read.ends_pageAt` — what the page at a cursor shows and where the cursor stands after it.
* `Read.ends_pages` — the visits of a read from a cursor on.
* `Journal.readPages_shows_rows` — the items of a long read.
-/

namespace EventJournal

namespace EventTable

variable {c : Circumstances} {fault : Nat → Option DbError} {t u v : EventTable}

/-- Statements were sent, none of which failed or changed the rows. -/
structure Quiet (fault : Nat → Option DbError) (t u : EventTable) : Prop where
  visible : u.visible = t.visible
  clock : t.clock ≤ u.clock
  answered : ∀ number, t.clock ≤ number → number < u.clock → fault number = none

/-- Of the statements that were sent the last one failed, and no other. -/
def Broke (fault : Nat → Option DbError) (t : EventTable) (e : DbError) (u : EventTable) : Prop :=
  ∃ last, Quiet fault t last ∧ fault last.clock = some e ∧ u = last.tick

theorem Quiet.refl (fault : Nat → Option DbError) (t : EventTable) : Quiet fault t t :=
  ⟨rfl, Nat.le_refl _, fun _ _ _ => by omega⟩

theorem Quiet.trans (h : Quiet fault t u) (k : Quiet fault u v) : Quiet fault t v where
  visible := k.visible.trans h.visible
  clock := Nat.le_trans h.clock k.clock
  answered number from_ below := by
    by_cases early : number < u.clock
    · exact h.answered number from_ early
    · exact k.answered number (by omega) below

theorem Quiet.tick (answered : fault t.clock = none) : Quiet fault t t.tick where
  visible := rfl
  clock := Nat.le_succ _
  answered number from_ below := by
    obtain rfl : number = t.clock := Nat.le_antisymm (Nat.le_of_lt_succ below) from_
    exact answered

theorem Quiet.broke (h : Quiet fault t u) {e : DbError} (k : Broke fault u e v) :
    Broke fault t e v := by
  obtain ⟨last, quiet, failed, rfl⟩ := k
  exact ⟨last, h.trans quiet, failed, rfl⟩

/-- A statement that leaves the rows alone is answered, or it is the first to fail. -/
theorem ends_ask_quiet {σ : Type} {s : σ} {statement : Statement}
    (h : leavesRows statement = true) :
    Action.Ends (database c) (Action.ask statement) s t
      (fun answer _ u => answer = c.reading t.clock t.visible statement ∧ Quiet c.fault t u)
      (fun cause _ u => ∃ e : DbError, cause = .error e.toJournalError ∧ Broke c.fault t e u) := by
  refine ends_ask_of_leavesRows h (fun answered => ⟨rfl, .tick answered⟩) fun e failed => ?_
  exact ⟨e, rfl, t, .refl _ t, failed, rfl⟩

end EventTable

namespace MiddlewareChain

/-- A chain that refuses none of the events of a read gives as many back. -/
theorem length_of_outcome_deserializeAll {chain : MiddlewareChain} {events events' : List Event}
    (h : outcome (chain.deserializeAll events) = .ok events') : events'.length = events.length := by
  rw [outcome_deserializeAll, mapM_eq_ok_iff] at h
  exact h.length_eq.symm

end MiddlewareChain

namespace Read

open EventTable EventJournal.Action

variable {σ : Type} {c : Circumstances} {fault : Nat → Option DbError} {s : σ}
  {t u v : EventTable} {chain : MiddlewareChain} {stream : Stream} {options : ReadOptions}

/-! ## What a page shows -/

/-- The events of a page, made from rows: of each row the event that it stands for or, with
the resolution of links, the event it refers to. -/
def Page (chain : MiddlewareChain) (resolve : Bool) (rows : List StoredEvent)
    (outcome : Except JournalError (List Event)) : Prop :=
  ∃ targets, (resolve = false → targets = []) ∧
    MiddlewareChain.outcome (chain.deserializeAll
      (rows.map fun row => merge targets row.toEvent)) = outcome

/-- A page has an event for each row. -/
theorem Page.length_eq {resolve : Bool} {rows : List StoredEvent} {events : List Event}
    (h : Page chain resolve rows (.ok events)) : events.length = rows.length := by
  obtain ⟨targets, -, shown⟩ := h
  rw [MiddlewareChain.length_of_outcome_deserializeAll shown, List.length_map]

/-- Why a read stops before its end, with the rows of the page that it was to show next. -/
inductive Stops (fault : Nat → Option DbError) (chain : MiddlewareChain) (stream : Stream)
    (resolve : Bool) (t : EventTable) (rows : List StoredEvent) : JournalError → EventTable → Prop
  /-- A statement has failed. -/
  | failed {e : DbError} {u : EventTable} (broke : Broke fault t e u) :
      Stops fault chain stream resolve t rows e.toJournalError u
  /-- A stream without rows is read. -/
  | missing {u : EventTable} (quiet : Quiet fault t u) (missing : Missing stream t.visible)
      (none : rows = []) : Stops fault chain stream resolve t rows (.streamNotFound stream) u
  /-- A middleware refuses an event of the page. -/
  | refused {cause : JournalError} {u : EventTable} (quiet : Quiet fault t u)
      (refused : Page chain resolve rows (.error cause)) :
      Stops fault chain stream resolve t rows cause u

theorem Stops.after {resolve : Bool} {rows : List StoredEvent} {cause : JournalError}
    (quiet : Quiet fault t u) (h : Stops fault chain stream resolve u rows cause v) :
    Stops fault chain stream resolve t rows cause v := by
  cases h with
  | failed broke => exact .failed (quiet.broke broke)
  | missing quiet' missing none =>
      exact .missing (quiet.trans quiet') (quiet.visible ▸ missing) none
  | refused quiet' refused => exact .refused (quiet.trans quiet') refused

/-- The last statement of a read has asked for the leaves that the links among its events
name, and was answered with a table whose name cannot stand in a statement. -/
def Unspeakable (c : Circumstances) (t : EventTable) (events : List Event) (u : EventTable) :
    Prop :=
  ∃ asked, Quiet c.fault t asked ∧ c.fault asked.clock = none ∧ u = asked.tick ∧
    ∃ partition ∈ (c.reading asked.clock asked.visible (.partitionsById
        (LinkTarget.partitions (LinkTarget.ofEvents events))) : List Partition),
      '?' ∈ partition.tableName.toList

theorem Unspeakable.after {events : List Event} (quiet : Quiet c.fault t u)
    (h : Unspeakable c u events v) : Unspeakable c t events v := by
  obtain ⟨asked, quiet', heard, last, odd⟩ := h
  exact ⟨asked, quiet.trans quiet', heard, last, odd⟩

/-! ## Rows -/

/-- Whether a stream exists is asked without harm. -/
theorem ends_streamExists :
    Ends (database c.truthful) (streamExists stream) s t
      (fun found _ u => found = t.visible.any (·.liesIn stream) ∧ Quiet c.fault t u)
      (fun cause _ u => ∃ e : DbError, cause = .error e.toJournalError ∧ Broke c.fault t e u) := by
  unfold streamExists
  rw [ends_bind]
  refine (ends_ask_quiet rfl).mono ?_ fun _ _ _ h => h
  intro answer s u got
  obtain ⟨rfl, quiet⟩ := got
  rw [Circumstances.reading_streamExists]
  refine Ends.one (fun found rest same => ?_) fun none => nomatch none
  cases same
  exact ⟨rfl, quiet⟩

/-- The rows of a read, of which an existing stream may have none. -/
theorem ends_rows {query : EventQuery} (asked : EventQuery.ofOptions stream options = .ok query)
    (plain : query.resolveLinks = false) :
    Ends (database c.truthful) (rows stream options) s t
      (fun found _ u => found = query.answer t.visible ∧ Quiet c.fault t u ∧
        (found = [] → ¬Missing stream t.visible))
      (fun cause _ u => ∃ error, cause = .error error ∧
        ((∃ e : DbError, error = e.toJournalError ∧ Broke c.fault t e u) ∨
          error = .streamNotFound stream ∧ Missing stream t.visible ∧ Quiet c.fault t u ∧
            query.answer t.visible = [])) := by
  unfold rows
  rw [asked, ends_bind, ends_check_ok, ends_bind]
  apply Ends.mono (ends_ask_quiet rfl)
  · intro found s u got
    obtain ⟨rfl, quiet⟩ := got
    rw [Circumstances.reading_readEvents _ _ _ plain]
    split
    · rename_i empty
      obtain ⟨none, regular⟩ := Bool.and_eq_true_iff.1 empty
      rw [ends_bind]
      apply Ends.mono ends_streamExists
      · intro there s v got
        obtain ⟨rfl, quiet'⟩ := got
        rw [quiet.visible]
        split
        · rename_i there
          rw [ends_pure]
          refine ⟨rfl, quiet.trans quiet', fun _ missing => ?_⟩
          exact Bool.noConfusion (there.symm.trans missing.2)
        · rename_i absent
          rw [ends_fail]
          exact ⟨_, rfl, .inr ⟨rfl, ⟨regular, Bool.eq_false_iff.2 absent⟩,
            quiet.trans quiet', List.isEmpty_iff.1 none⟩⟩
      · intro cause s v got
        obtain ⟨e, rfl, broke⟩ := got
        exact ⟨_, rfl, .inl ⟨e, rfl, quiet.broke broke⟩⟩
    · rename_i other
      rw [ends_pure]
      refine ⟨rfl, quiet, fun none missing => other ?_⟩
      rw [none, missing.1]
      rfl
  · intro cause s u got
    obtain ⟨e, rfl, broke⟩ := got
    exact ⟨_, rfl, .inl ⟨e, rfl, broke⟩⟩

/-! ## Links -/

theorem exists_build?_eq_none {branches : List (String × List Uuid)}
    (h : branches.mapM (fun (table, ids) => LinkBranch.build? table ids) = none) :
    ∃ branch ∈ branches, '?' ∈ branch.1.toList := by
  induction branches with
  | nil => cases h
  | cons branch rest ih =>
      obtain ⟨table, ids⟩ := branch
      rw [List.mapM_cons] at h
      dsimp only at h
      by_cases plain : '?' ∈ table.toList
      · exact ⟨(table, ids), List.mem_cons_self, plain⟩
      · have built : LinkBranch.build? table ids = some ⟨table, ids, plain⟩ := dif_pos plain
        have others : rest.mapM (fun (table, ids) => LinkBranch.build? table ids) = none := by
          cases found : rest.mapM (fun (table, ids) => LinkBranch.build? table ids) with
          | none => rfl
          | some others =>
              rw [built, found] at h
              cases h
        obtain ⟨other, there, odd⟩ := ih others
        exact ⟨other, List.mem_cons_of_mem _ there, odd⟩

/-- Branches are missing only where a table has a name that cannot stand in a statement. -/
theorem exists_of_branches?_eq_none {targets : List LinkTarget} {partitions : List Partition}
    (h : branches? targets partitions = none) :
    ∃ partition ∈ partitions, '?' ∈ partition.tableName.toList := by
  obtain ⟨branch, there, odd⟩ := exists_build?_eq_none h
  obtain ⟨partition, there, made⟩ := List.mem_filterMap.1 there
  refine ⟨partition, there, ?_⟩
  split at made
  · cases made
  · cases made
    exact odd

theorem map_merge_nil (events : List Event) : events.map (merge []) = events := by
  have none : ∀ event, merge [] event = event := by
    intro event
    unfold merge target?
    cases event.isLink with
    | false => rfl
    | true => cases event.linkId <;> cases event.linkGlobalPosition <;> rfl
  rw [funext none, List.map_id']

/-- The resolution of links puts events in the place of others and asks without harm. -/
theorem ends_resolveLinks (events : List Event) :
    Ends (database c.truthful) (resolveLinks events) s t
      (fun resolved _ u => (∃ targets, resolved = events.map (merge targets)) ∧ Quiet c.fault t u)
      (fun cause _ u => (∃ e : DbError, cause = .error e.toJournalError ∧ Broke c.fault t e u) ∨
        cause = .misfit ∧ Unspeakable c t events u) := by
  have found : Ends (database c.truthful)
      (Catalog.findByIds (LinkTarget.partitions (LinkTarget.ofEvents events))) s t
      (fun partitions _ u => Quiet c.fault t u ∧
        ((∃ partition ∈ partitions, '?' ∈ partition.tableName.toList) →
          Unspeakable c t events u))
      (fun cause _ u => ∃ e : DbError, cause = .error e.toJournalError ∧ Broke c.fault t e u) := by
    cases named : LinkTarget.partitions (LinkTarget.ofEvents events) with
    | nil => exact (ends_pure []).2 ⟨.refl _ t, fun ⟨_, there, _⟩ => nomatch there⟩
    | cons id ids =>
        unfold Catalog.findByIds Unspeakable
        rw [named]
        refine ends_ask_of_leavesRows rfl (fun heard => ?_) fun e failed => ?_
        · exact ⟨.tick heard, fun odd => ⟨t, .refl _ t, heard, rfl, odd⟩⟩
        · exact ⟨e, rfl, t, .refl _ t, failed, rfl⟩
  unfold resolveLinks
  rw [ends_bind]
  refine found.mono ?_ fun _ _ _ h => .inl h
  intro partitions s u got
  obtain ⟨quiet, odd⟩ := got
  split
  · rename_i none
    rw [ends_abort]
    exact .inr ⟨rfl, odd (exists_of_branches?_eq_none none)⟩
  · rw [ends_pure]
    exact ⟨⟨[], (map_merge_nil events).symm⟩, quiet⟩
  · rw [ends_bind]
    apply Ends.mono (ends_ask_quiet rfl)
    · intro targets s v got
      obtain ⟨rfl, quiet'⟩ := got
      rw [ends_pure]
      exact ⟨⟨_, rfl⟩, quiet.trans quiet'⟩
    · intro cause s v got
      obtain ⟨e, rfl, broke⟩ := got
      exact .inl ⟨e, rfl, quiet.broke broke⟩

/-! ## A page -/

/-- What a page finds where rows are left: the first of them, and the cursor moves to the
others. -/
def Finds (chain : MiddlewareChain) (stream : Stream) (options : ReadOptions)
    (rows left : List StoredEvent) : Option (List Event × PageCursor) → Prop
  | none => left = [] ∧ ¬Missing stream rows
  | some (events, next) =>
      left ≠ [] ∧
        Page chain options.resolveLinks (left.take options.limit.toInt.toNat) (.ok events) ∧
          Stands stream options rows (left.drop options.limit.toInt.toNat) next

/-- How a page aborts where rows are left. -/
def Aborts (c : Circumstances) (chain : MiddlewareChain) (stream : Stream) (options : ReadOptions)
    (t : EventTable) (left : List StoredEvent) (cause : Abort) (u : EventTable) : Prop :=
  (∃ error, cause = .error error ∧ Stops c.fault chain stream options.resolveLinks t
    (left.take options.limit.toInt.toNat) error u) ∨
  cause = .misfit ∧ options.resolveLinks = true ∧ left ≠ [] ∧
    Unspeakable c t ((left.take options.limit.toInt.toNat).map StoredEvent.toEvent) u

theorem Aborts.after {left : List StoredEvent} {cause : Abort} (quiet : Quiet c.fault t u)
    (h : Aborts c chain stream options u left cause v) :
    Aborts c chain stream options t left cause v := by
  rcases h with ⟨error, same, stops⟩ | ⟨misfit, resolve, more, odd⟩
  · exact .inl ⟨error, same, stops.after quiet⟩
  · exact .inr ⟨misfit, resolve, more, odd.after quiet⟩

/-- A page is shown, once the events that take the place of its rows are known, or a
middleware refuses one of them. -/
theorem ends_shown {rows left targets : List StoredEvent} {next : PageCursor} (more : left ≠ [])
    (plain : options.resolveLinks = false → targets = [])
    (stands : Stands stream options rows (left.drop options.limit.toInt.toNat) next)
    (quiet : Quiet c.fault t u) :
    Ends (database c.truthful)
      (do
        let events ← check (MiddlewareChain.outcome (chain.deserializeAll
          ((left.take options.limit.toInt.toNat).map fun row => merge targets row.toEvent)))
        pure (some (events, next))) s u
      (fun found _ v => Quiet c.fault t v ∧ Finds chain stream options rows left found)
      (fun cause _ v => Aborts c chain stream options t left cause v) := by
  rw [ends_bind]
  refine Ends.check (fun events shown => ?_) fun cause refused => ?_
  · rw [ends_pure]
    exact ⟨quiet, more, ⟨targets, plain, shown⟩, stands⟩
  · exact .inl ⟨cause, rfl, .refused quiet ⟨targets, plain, refused⟩⟩

/-- The rows of a page are shown, with the events that they refer to in their place if
links are resolved. -/
theorem ends_resolved {rows left : List StoredEvent} {next : PageCursor} (more : left ≠ [])
    (stands : Stands stream options rows (left.drop options.limit.toInt.toNat) next)
    (quiet : Quiet c.fault t u) :
    Ends (database c.truthful)
      (do
        let events := (left.take options.limit.toInt.toNat).map StoredEvent.toEvent
        let events ← if options.resolveLinks then resolveLinks events else pure events
        let events ← check (MiddlewareChain.outcome (chain.deserializeAll events))
        pure (some (events, next))) s u
      (fun found _ v => Quiet c.fault t v ∧ Finds chain stream options rows left found)
      (fun cause _ v => Aborts c chain stream options t left cause v) := by
  dsimp only
  split
  · rename_i resolve
    rw [ends_bind]
    apply Ends.mono (ends_resolveLinks _)
    · intro events s v got
      obtain ⟨⟨targets, rfl⟩, quiet'⟩ := got
      rw [List.map_map]
      have plain : options.resolveLinks = false → targets = [] := by simp [resolve]
      exact ends_shown more plain stands (quiet.trans quiet')
    · intro cause s v got
      rcases got with ⟨e, rfl, broke⟩ | ⟨rfl, odd⟩
      · exact .inl ⟨_, rfl, .failed (quiet.broke broke)⟩
      · exact .inr ⟨rfl, resolve, more, odd.after quiet⟩
  · rw [ends_bind, ends_pure, ← map_merge_nil (List.map _ _), List.map_map]
    exact ends_shown more (fun _ => rfl) stands quiet

theorem firstPlace_of_backward (unbound : explicitStart stream options = none)
    (backward : options.direction = .backward) :
    (firstPlace stream options : Action σ _) = (do
      let last ← rows stream { options with maxCount := 1, resolveLinks := false }
      pure (last.head?.map (placeOf stream))) := by
  unfold firstPlace
  split
  · rename_i told
    exact nomatch unbound.symm.trans told
  · rename_i forward
    exact nomatch backward.symm.trans forward
  · rfl

section

variable {known : EventQuery} (readable : EventQuery.ofOptions stream options = .ok known)
  (pageable : Pageable stream t.visible) (positive : 0 < options.limit.toInt)

include readable pageable positive

/-- A page that begins at a place shows the first rows there or beyond. -/
theorem ends_page {place : Int64} (fits : Fits stream place) :
    Ends (database c.truthful) (page chain stream options place) s t
      (fun found _ u => Quiet c.fault t u ∧
        Finds chain stream options t.visible (rowsFrom stream options t.visible place.toInt) found)
      (fun cause _ u => Aborts c chain stream options t
        (rowsFrom stream options t.visible place.toInt) cause u) := by
  obtain ⟨pageOf, query, built, asked, plain, answer⟩ := pageable.answer_page readable fits
  unfold page
  rw [built, ends_bind, ends_check_ok, ends_bind]
  apply Ends.mono (ends_rows asked plain)
  · intro found s u got
    obtain ⟨same, quiet, present⟩ := got
    rw [answer] at same
    subst same
    split
    · rename_i none
      have empty := List.getLast?_eq_none_iff.1 none
      rw [ends_pure]
      refine ⟨quiet, ?_, present empty⟩
      rcases List.take_eq_nil_iff.1 empty with zero | empty
      · omega
      · exact empty
    · rename_i last there
      obtain ⟨next, moved, stands⟩ := pageable.stands_after positive there
      rw [moved]
      dsimp only
      have more : rowsFrom stream options t.visible place.toInt ≠ [] :=
        List.ne_nil_of_mem (List.mem_of_mem_take (List.mem_of_getLast? there))
      exact ends_resolved more stands quiet
  · intro cause s u got
    obtain ⟨error, rfl, ⟨e, rfl, broke⟩ | ⟨rfl, missing, quiet, none⟩⟩ := got
    · exact .inl ⟨_, rfl, .failed broke⟩
    · exact .inl ⟨_, rfl, .missing quiet missing (answer.symm.trans none)⟩

/-- A backward read that is not told where to begin asks for the first row of all. -/
theorem ends_pageAt_probed (unbound : explicitStart stream options = none)
    (backward : options.direction = .backward) :
    Ends (database c.truthful) (pageAt chain stream options .start) s t
      (fun found _ u => Quiet c.fault t u ∧
        Finds chain stream options t.visible (matching stream options t.visible) found)
      (fun cause _ u => Aborts c chain stream options t (matching stream options t.visible)
        cause u) := by
  obtain ⟨query, asked⟩ := exists_ofOptions readable
    { options with maxCount := 1, resolveLinks := false }
  have answer := pageable.answer_probe asked unbound
  unfold pageAt
  rw [firstPlace_of_backward unbound backward, ends_bind, ends_bind]
  apply Ends.mono (ends_rows asked (resolveLinks_of_ofOptions asked))
  · intro found s u got
    obtain ⟨same, quiet, present⟩ := got
    rw [answer] at same
    subst same
    rw [ends_pure]
    cases order : matching stream options t.visible with
    | nil =>
        rw [order] at present
        refine (ends_pure none).2 ?_
        exact ⟨quiet, rfl, present rfl⟩
    | cons first others =>
        have fits := pageable.fits_of_mem (order ▸ List.mem_cons_self)
        have begins := pageable.rowsFrom_first order
        rw [← toInt_placeOf, order, ← quiet.visible] at begins
        apply Ends.mono (ends_page readable (quiet.visible ▸ pageable) positive fits)
        · intro found s v got
          obtain ⟨quiet', finds⟩ := got
          rw [begins, quiet.visible] at finds
          exact ⟨quiet.trans quiet', finds⟩
        · rintro cause s v aborts
          rw [begins] at aborts
          exact aborts.after quiet
  · intro cause s u got
    obtain ⟨error, rfl, ⟨e, rfl, broke⟩ | ⟨rfl, missing, quiet, none⟩⟩ := got
    · exact .inl ⟨_, rfl, .failed broke⟩
    · refine .inl ⟨_, rfl, .missing quiet missing ?_⟩
      rw [answer, List.take_eq_nil_iff] at none
      rw [none.resolve_left Nat.one_ne_zero, List.take_nil]

/-- The page at a cursor shows the first of the rows that are left. -/
theorem ends_pageAt {left : List StoredEvent} {cursor : PageCursor}
    (stands : Stands stream options t.visible left cursor) :
    Ends (database c.truthful) (pageAt chain stream options cursor) s t
      (fun found _ u => Quiet c.fault t u ∧ Finds chain stream options t.visible left found)
      (fun cause _ u => Aborts c chain stream options t left cause u) := by
  cases cursor with
  | done => exact (ends_pure none).2 ⟨.refl _ t, stands⟩
  | «at» place =>
      obtain ⟨fits, rfl⟩ := stands
      exact ends_page readable pageable positive fits
  | start =>
      obtain rfl : left = _ := stands
      cases told : explicitStart stream options with
      | some place =>
          unfold pageAt firstPlace
          rw [told, start_of_explicit told]
          exact ends_page readable pageable positive (fits_of_explicitStart told)
      | none =>
          rw [start_of_none told]
          cases direction : options.direction with
          | backward => exact ends_pageAt_probed readable pageable positive told direction
          | forward =>
              have fits : Fits stream 0 := fun _ => by decide
              have begins := pageable.rowsFrom_zero direction
              unfold pageAt firstPlace
              rw [told, direction, ← begins]
              exact ends_page readable pageable positive fits

end

/-! ## All pages -/

/-- The items of a read that is asked for a number of them where pages of rows are left. -/
inductive Visits (fault : Nat → Option DbError) (chain : MiddlewareChain) (stream : Stream)
    (resolve : Bool) : Nat → List (List StoredEvent) → EventTable →
      List (Except JournalError (List Event)) → EventTable → Prop
  | enough {chunks : List (List StoredEvent)} {t : EventTable} :
      Visits fault chain stream resolve 0 chunks t [] t
  | ended {count : Nat} {t u : EventTable} (quiet : Quiet fault t u)
      (present : ¬Missing stream t.visible) :
      Visits fault chain stream resolve (count + 1) [] t [] u
  | page {count : Nat} {rows : List StoredEvent} {chunks : List (List StoredEvent)}
      {events : List Event} {items : List (Except JournalError (List Event))}
      {t u v : EventTable} (quiet : Quiet fault t u)
      (shown : Page chain resolve rows (.ok events))
      (rest : Visits fault chain stream resolve count chunks u items v) :
      Visits fault chain stream resolve (count + 1) (rows :: chunks) t (.ok events :: items) v
  | stopped {count : Nat} {chunks : List (List StoredEvent)} {cause : JournalError}
      {t u : EventTable} (stops : Stops fault chain stream resolve t (chunks.headD []) cause u) :
      Visits fault chain stream resolve (count + 1) chunks t [.error cause] u

/-- The read is over after an error. -/
theorem runOn_pages_done (count : Nat) (db : Database EventTable) (s : σ) (t : EventTable) :
    (pages chain stream options count .done).runOn db s t = ((.ok [], s), t) := by
  cases count <;> rfl

/-- A read from a cursor on visits the pages of the rows that are left. -/
theorem ends_pages {known : EventQuery}
    (readable : EventQuery.ofOptions stream options = .ok known)
    (positive : 0 < options.limit.toInt) (count : Nat) :
    ∀ {left : List StoredEvent} {chunks : List (List StoredEvent)} {cursor : PageCursor} {s : σ}
      {t : EventTable}, Pageable stream t.visible →
      Stands stream options t.visible left cursor →
      Paged options.limit.toInt.toNat left chunks →
      Ends (database c.truthful) (pages chain stream options count cursor) s t
        (fun items _ u => Visits c.fault chain stream options.resolveLinks count chunks t items u)
        (fun cause _ u => cause = .misfit ∧ options.resolveLinks = true ∧
          ∃ rows ∈ chunks.take count, Unspeakable c t (rows.map StoredEvent.toEvent) u) := by
  induction count with
  | zero => exact fun _ _ _ => (ends_pure []).2 .enough
  | succ count ih =>
      intro left chunks cursor s t pageable stands paged
      unfold pages nextPage
      rw [ends_bind, ends_bind, ends_outcome]
      apply Ends.mono (ends_pageAt readable pageable positive stands)
      · rintro (_ | ⟨events, next⟩) s u ⟨quiet, finds⟩
        · obtain ⟨rfl, present⟩ := finds
          rw [paged.eq_nil]
          simp only [ends_pure]
          exact .ended quiet present
        · obtain ⟨more, shown, stands⟩ := finds
          obtain ⟨rest, rfl, others⟩ := paged.exists_cons more
          rw [← quiet.visible] at pageable stands
          simp only [ends_pure, ends_bind]
          refine (ih pageable stands others).mono ?_ ?_
          · intro items s v visits
            exact .page quiet shown visits
          · rintro cause s v ⟨rfl, resolve, page, among, odd⟩
            exact ⟨rfl, resolve, page, List.mem_cons_of_mem _ among, odd.after quiet⟩
      · intro cause s u got
        rcases got with ⟨error, rfl, stops⟩ | ⟨rfl, resolve, more, odd⟩
        · simp only [ends_pure, ends_bind, ends_of_runOn_ok (runOn_pages_done count _ s u)]
          refine .stopped ?_
          cases left with
          | nil =>
              rw [paged.eq_nil]
              rwa [List.take_nil] at stops
          | cons row rows =>
              obtain ⟨rest, rfl, -⟩ := paged.exists_cons (List.cons_ne_nil row rows)
              exact stops
        · obtain ⟨rest, rfl, -⟩ := paged.exists_cons more
          simp only [ends_abort]
          exact ⟨trivial, resolve, _, List.mem_cons_self, odd⟩

/-! ## The items of a read -/

/-- The pages show the first of some chunks of rows, page by page and row by row. -/
def Shown (chain : MiddlewareChain) (resolve : Bool) (chunks : List (List StoredEvent))
    (pages : List (List Event)) : Prop :=
  ∀ (number : Nat) (events : List Event), pages[number]? = some events →
    ∃ rows, chunks[number]? = some rows ∧ events.length = rows.length ∧
      Page chain resolve rows (.ok events)

theorem Shown.nil (resolve : Bool) (chunks : List (List StoredEvent)) :
    Shown chain resolve chunks [] := by
  intro number events there
  rw [List.getElem?_nil] at there
  cases there

theorem Shown.cons {resolve : Bool} {rows : List StoredEvent} {chunks : List (List StoredEvent)}
    {events : List Event} {pages : List (List Event)}
    (shown : Page chain resolve rows (.ok events)) (h : Shown chain resolve chunks pages) :
    Shown chain resolve (rows :: chunks) (events :: pages) := by
  intro number events' there
  cases number with
  | zero =>
      cases there
      exact ⟨rows, rfl, shown.length_eq, shown⟩
  | succ number => exact h number events' there

/-- A read that is asked for a number of items displays chunks of rows: so many pages, if
there are as many, without harm, or pages up to a failure. A read to the end of a stream
without rows fails. -/
def Displays (fault : Nat → Option DbError) (chain : MiddlewareChain) (stream : Stream)
    (resolve : Bool) (count : Nat) (chunks : List (List StoredEvent)) (t : EventTable)
    (items : List (Except JournalError (List Event))) (u : EventTable) : Prop :=
  ∃ pages, Shown chain resolve chunks pages ∧
    (items = pages.map .ok ∧ pages.length = min count chunks.length ∧ Quiet fault t u ∧
        (chunks.length < count → ¬Missing stream t.visible) ∨
      ∃ cause, items = pages.map .ok ++ [.error cause] ∧ pages.length < count ∧
        Stops fault chain stream resolve t (chunks[pages.length]?.getD []) cause u)

theorem Visits.displays {resolve : Bool} {count : Nat} {chunks : List (List StoredEvent)}
    {items : List (Except JournalError (List Event))}
    (h : Visits fault chain stream resolve count chunks t items u) :
    Displays fault chain stream resolve count chunks t items u := by
  induction h with
  | enough =>
      refine ⟨[], .nil _ _, .inl ⟨rfl, (Nat.zero_min _).symm, .refl _ _, ?_⟩⟩
      exact fun more => absurd more (Nat.not_lt_zero _)
  | ended quiet present =>
      exact ⟨[], .nil _ _, .inl ⟨rfl, (Nat.min_zero _).symm, quiet, fun _ => present⟩⟩
  | stopped stops =>
      refine ⟨[], .nil _ _, .inr ⟨_, rfl, Nat.succ_pos _, ?_⟩⟩
      rwa [List.length_nil, ← List.head?_eq_getElem?, ← List.headD_eq_head?_getD]
  | page quiet shown rest ih =>
      obtain ⟨pages, shows, ended⟩ := ih
      refine ⟨_ :: pages, .cons shown shows, ?_⟩
      rcases ended with ⟨rfl, length, quiet', present⟩ | ⟨cause, rfl, less, stops⟩
      · refine .inl ⟨rfl, ?_, quiet.trans quiet', ?_⟩
        · simp only [List.length_cons, length]
          omega
        · intro more
          rw [← quiet.visible]
          exact present (Nat.lt_of_succ_lt_succ more)
      · exact .inr ⟨cause, rfl, Nat.succ_lt_succ less, stops.after quiet⟩

end Read

namespace Journal

theorem limit_withLimit (j : Journal) (options : ReadOptions) :
    (j.withLimit options).limit =
      if 0 < options.maxCount then options.maxCount
      else if 0 < j.config.maxCount then j.config.maxCount
      else 1000 := by
  unfold withLimit ReadOptions.limit
  split
  · rfl
  · rfl

theorem limit_withLimit_pos (j : Journal) (options : ReadOptions) :
    0 < (j.withLimit options).limit.toInt := by
  rw [limit_withLimit]
  have positive : ∀ {count : Int64}, 0 < count → 0 < count.toInt := Int64.lt_iff_toInt_lt.1
  split
  · exact positive ‹_›
  · split
    · exact positive ‹_›
    · decide

theorem resolveLinks_withLimit (j : Journal) (options : ReadOptions) :
    (j.withLimit options).resolveLinks = options.resolveLinks := by
  unfold withLimit
  split <;> rfl

/-- A long read goes over the same rows whether links are resolved or not. -/
theorem ordered_resolving {rows : List StoredEvent} (j : Journal) {stream : Stream}
    {options : ReadOptions} {query query' : EventQuery} {resolve : Bool}
    (pageable : Read.Pageable stream rows)
    (readable : EventQuery.ofOptions stream (j.withLimit options) = .ok query)
    (readable' : EventQuery.ofOptions stream
      (j.withLimit { options with resolveLinks := resolve }) = .ok query') :
    query'.ordered rows = query.ordered rows := by
  rw [pageable.ordered_eq readable, pageable.ordered_eq readable']
  unfold withLimit
  split <;> rfl

/-- A long read over rows that do not change shows all that it selects, in order and page
by page, however many items are asked for and whether links are resolved or not. It ends
early at the first failure, which is its last item, and sends nothing after it. Beside that
it can end without items if the catalog answers the read for the links of a page with a table
whose name cannot stand in a statement. -/
theorem readPages_shows_rows {c : Circumstances} {t : EventTable} (j : Journal) {stream : Stream}
    {options : ReadOptions} {query : EventQuery}
    (readable : EventQuery.ofOptions stream (j.withLimit options) = .ok query)
    (pageable : Read.Pageable stream t.visible) :
    ∃ chunks, Read.Paged (j.withLimit options).limit.toInt.toNat (query.ordered t.visible) chunks ∧
      ∀ (resolve : Bool) (count : Nat) (cache : LeafCache),
        Action.Ends (EventTable.database c.truthful)
          (j.readPages stream { options with resolveLinks := resolve } count) cache t
          (fun items _ u => Read.Displays c.fault j.chain stream resolve count chunks t items u)
          (fun cause _ u => cause = .misfit ∧ resolve = true ∧
            ∃ rows ∈ chunks.take count,
              Read.Unspeakable c t (rows.map StoredEvent.toEvent) u) := by
  have enough : 0 < (j.withLimit options).limit.toInt.toNat := by
    have := j.limit_withLimit_pos options
    omega
  obtain ⟨chunks, paged⟩ := Read.Paged.exists enough (query.ordered t.visible)
  refine ⟨chunks, paged, fun resolve count cache => ?_⟩
  have resolves := j.resolveLinks_withLimit { options with resolveLinks := resolve }
  obtain ⟨query', readable'⟩ := Read.exists_ofOptions readable
    (j.withLimit { options with resolveLinks := resolve })
  rw [← j.ordered_resolving pageable readable readable', pageable.ordered_eq readable',
    limit_withLimit, ← limit_withLimit j { options with resolveLinks := resolve }] at paged
  have stands : Read.Stands stream (j.withLimit { options with resolveLinks := resolve }) t.visible
      _ .start := rfl
  have positive := j.limit_withLimit_pos { options with resolveLinks := resolve }
  apply Action.Ends.mono (Read.ends_pages readable' positive count pageable stands paged)
  · intro items cache' u visits
    rw [resolves] at visits
    exact visits.displays
  · intro cause cache' u got
    obtain ⟨rfl, resolving, odd⟩ := got
    exact ⟨rfl, resolves.symm.trans resolving, odd⟩

/-- A row of the stream of an order, under a revision and a position. -/
def orderRow (revision : Int32) (position : Int64) : StoredEvent where
  id := ⟨0⟩
  type := "placed"
  globalPosition := position
  context := "sales"
  streamName := "order"
  streamId := "1"
  streamRevision := revision
  data := .null
  metadata := .null
  linkId := none
  linkPartitionId := none
  linkGlobalPosition := none
  createdAt := ⟨⟨2024, 1, 1⟩, 0, 0, 0, 0⟩

/-- Three rows are read in pages of two, with the resolution of links and without. -/
theorem readPages_shows_orders :
    let stream : Stream := ⟨"sales", "order", "1", .regular⟩
    let t : EventTable := { stored := [orderRow 0 3, orderRow 1 4, orderRow 2 9] }
    ∃ chunks, Read.Paged 2 [orderRow 0 3, orderRow 1 4, orderRow 2 9] chunks ∧
      ∀ (resolve : Bool) (count : Nat) (cache : LeafCache),
        Action.Ends (EventTable.database Circumstances.calm.truthful)
          (readPages { nameTries := 0 } stream { maxCount := 2, resolveLinks := resolve } count)
          cache t
          (fun items _ u =>
            Read.Displays Circumstances.calm.fault [] stream resolve count chunks t items u)
          (fun _ _ _ => False) := by
  intro stream t
  have pageable : Read.Pageable stream t.visible := by
    refine ⟨?_, ?_, ?_⟩
    · unfold EventQuery.Distinct
      decide
    · decide
    · decide
  have readable : EventQuery.ofOptions stream (withLimit { nameTries := 0 } { maxCount := 2 }) =
      .ok (.ofStream stream { maxCount := 2 }) := rfl
  have ordered : (EventQuery.ofStream stream { maxCount := 2 }).ordered t.visible =
      [orderRow 0 3, orderRow 1 4, orderRow 2 9] :=
    List.mergeSort_of_pairwise (by decide)
  obtain ⟨chunks, paged, displays⟩ :=
    readPages_shows_rows (c := Circumstances.calm) { nameTries := 0 } readable pageable
  rw [ordered] at paged
  refine ⟨chunks, paged, fun resolve count cache => ?_⟩
  refine (displays resolve count cache).mono (fun _ _ _ shown => shown) ?_
  -- the catalog answers without rows
  rintro _ _ _ ⟨-, -, _, -, _, -, -, -, _, there, -⟩
  exact List.not_mem_nil there

end Journal

end EventJournal

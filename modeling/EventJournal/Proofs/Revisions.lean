import EventJournal.Proofs.Table.Appends
import EventJournal.Proofs.Table.Changes

/-!
# Revisions are numbered without gaps

No index of the table holds the revisions of a stream apart, and a deletion leaves a gap
between its two statements. The invariant `Numbered` of all rows nevertheless survives
every unit of work: positions ascend in the order of insertion, none is above the last
one drawn, and the revisions of every stream count up from zero in that order.

The list of revisions of a stream is `CountsFrom 0`; an append puts the next number at its
end, and a deletion takes one number out and lowers the ones after it (`CountsFrom.lower`).

## Main results

* `establishes_append`, `establishes_delete`, `establishes_deleteStream` — the units of
  work keep the rows numbered.
* `revisions_without_gaps` — the revisions of every stream after any changes.
-/

namespace EventJournal

/-! ## Counting up -/

/-- The numbers count up by one from the given one. -/
def CountsFrom : Int → List Int32 → Prop
  | _, [] => True
  | first, number :: rest => number.toInt = first ∧ CountsFrom (first + 1) rest

namespace CountsFrom

theorem append_iff {first : Int} {numbers others : List Int32} :
    CountsFrom first (numbers ++ others) ↔
      CountsFrom first numbers ∧ CountsFrom (first + numbers.length) others := by
  induction numbers generalizing first with
  | nil => simp [CountsFrom]
  | cons number rest ih =>
      have shift : first + 1 + (rest.length : Int) = first + (number :: rest).length := by
        simp only [List.length_cons]
        omega
      rw [List.cons_append, CountsFrom, CountsFrom, ih, shift, and_assoc]

theorem bounds {first : Int} {numbers : List Int32} (h : CountsFrom first numbers) :
    ∀ number ∈ numbers, first ≤ number.toInt ∧ number.toInt < first + numbers.length := by
  induction numbers generalizing first with
  | nil => exact fun _ there => nomatch there
  | cons number rest ih =>
      obtain ⟨same, counts⟩ := h
      intro other there
      rcases List.mem_cons.1 there with rfl | there
      · simp only [List.length_cons]
        omega
      · have := ih counts other there
        simp only [List.length_cons]
        omega

/-- The numbers are determined by the first one and how many there are. -/
theorem map_toInt {first : Int} {numbers : List Int32} (h : CountsFrom first numbers) :
    numbers.map (·.toInt) = (List.range numbers.length).map fun i : Nat => first + i := by
  induction numbers generalizing first with
  | nil => rfl
  | cons number rest ih =>
      rw [List.map_cons, List.length_cons, List.range_succ_eq_map, List.map_cons, List.map_map,
        h.1, ih h.2]
      simp only [Int.natCast_zero, Int.add_zero, List.cons.injEq, true_and]
      refine List.map_congr_left fun i _ => ?_
      simp only [Function.comp_apply]
      omega

theorem pairwise {first : Int} {numbers : List Int32} (h : CountsFrom first numbers) :
    numbers.Pairwise (· < ·) := by
  induction numbers generalizing first with
  | nil => exact .nil
  | cons number rest ih =>
      obtain ⟨same, counts⟩ := h
      refine .cons (fun other there => ?_) (ih counts)
      have := counts.bounds other there
      rw [Int32.lt_iff_toInt_lt]
      omega

/-- A revision above zero is lowered without loss. -/
theorem toInt_sub_one {number : Int32} (h : 0 < number.toInt) :
    (number - 1).toInt = number.toInt - 1 := by
  have upper := number.toInt_lt
  rw [Int32.toInt_sub, Int32.toInt_one]
  exact Int.bmod_eq_of_le (by omega) (by omega)

theorem lower {first : Int} {numbers : List Int32} (h : CountsFrom (first + 1) numbers)
    (nonneg : 0 ≤ first) : CountsFrom first (numbers.map (· - 1)) := by
  induction numbers generalizing first with
  | nil => trivial
  | cons number rest ih =>
      obtain ⟨same, counts⟩ := h
      refine ⟨?_, ih counts (by omega)⟩
      rw [toInt_sub_one (by omega)]
      omega

end CountsFrom

namespace EventTable

/-! ## The invariant -/

/-- The rows of a stream, in the order of their insertion. -/
def ofStream (stream : Stream) (rows : List StoredEvent) : List StoredEvent :=
  rows.filter (·.liesIn stream)

/-- The revisions of a stream, in the order of their insertion. -/
def revisions (stream : Stream) (rows : List StoredEvent) : List Int32 :=
  (ofStream stream rows).map (·.streamRevision)

/-- Rows whose positions ascend up to the last one drawn, and the revisions of every
stream with them, one by one from zero. -/
structure Numbered (rows : List StoredEvent) (lastDrawn : Nat) : Prop where
  ascending : rows.Pairwise fun a b => a.globalPosition < b.globalPosition
  drawn : ∀ row ∈ rows, row.globalPosition.toInt ≤ lastDrawn
  counted : ∀ stream, CountsFrom 0 (revisions stream rows)

theorem Numbered.nil (lastDrawn : Nat) : Numbered [] lastDrawn :=
  ⟨.nil, fun _ there => (nomatch there), fun _ => trivial⟩

theorem Numbered.apart {rows : List StoredEvent} {lastDrawn : Nat} (h : Numbered rows lastDrawn) :
    EventQuery.Distinct .position rows :=
  h.ascending.imp fun less => Int.ne_of_lt (Int64.lt_iff_toInt_lt.1 less)

/-- Positions drawn by others do no harm. -/
theorem Numbered.mono {rows : List StoredEvent} {lastDrawn later : Nat}
    (h : Numbered rows lastDrawn) (le : lastDrawn ≤ later) : Numbered rows later where
  ascending := h.ascending
  drawn row there := by
    have := h.drawn row there
    omega
  counted := h.counted

/-- What spares the stored rows keeps them numbered. -/
theorem Holds.spared {t u : EventTable} (h : Holds Numbered t) (spared : Spared t u) :
    Holds Numbered u := by
  unfold Holds
  rw [spared.stored]
  exact h.mono spared.drawn

variable {rows : List StoredEvent} {lastDrawn : Nat}

theorem pairwise_newestFirst (rows : List StoredEvent) :
    (rows.mergeSort fun a b => decide (b.streamRevision ≤ a.streamRevision)).Pairwise
      fun a b => decide (b.streamRevision ≤ a.streamRevision) = true := by
  refine List.pairwise_mergeSort ?_ ?_ rows
  · intro a b c ab bc
    simp only [decide_eq_true_eq, Int32.le_iff_toInt_le] at *
    omega
  · intro a b
    simp only [Bool.or_eq_true, decide_eq_true_eq, Int32.le_iff_toInt_le]
    omega

/-- The last revision of a stream is one less than the number of its rows. -/
theorem Numbered.lastRevision (h : Numbered rows lastDrawn) (stream : Stream) :
    ((Circumstances.lastRevision stream rows).head? = none ∧ ofStream stream rows = []) ∨
      ∃ last, (Circumstances.lastRevision stream rows).head? = some last ∧
        last.toInt + 1 = (ofStream stream rows).length := by
  have sorted := pairwise_newestFirst (ofStream stream rows)
  have same := List.mergeSort_perm (ofStream stream rows) fun a b : StoredEvent =>
    decide (b.streamRevision ≤ a.streamRevision)
  have counted := h.counted stream
  unfold Circumstances.lastRevision
  rw [revisions] at counted
  rw [← ofStream]
  cases sort : (ofStream stream rows).mergeSort fun a b : StoredEvent =>
      decide (b.streamRevision ≤ a.streamRevision) with
  | nil =>
      rw [sort] at same
      exact .inl ⟨rfl, List.nil_perm.1 same⟩
  | cons first rest =>
      rw [sort] at same sorted
      refine .inr ⟨first.streamRevision, rfl, ?_⟩
      have there := same.mem_iff.1 List.mem_cons_self
      have bound := (counted.bounds _ (List.mem_map_of_mem there)).2
      rw [List.length_map] at bound
      -- the last row inserted has the revision before the number of rows
      obtain ⟨before, last, split⟩ := (List.eq_nil_or_concat (ofStream stream rows)).resolve_left
        (List.ne_nil_of_mem there)
      have reached : last.streamRevision ≤ first.streamRevision := by
        rcases List.mem_cons.1 (same.mem_iff.2 (split ▸ by simp : last ∈ ofStream stream rows))
          with rfl | later
        · exact Int32.le_refl _
        · exact of_decide_eq_true ((List.pairwise_cons.1 sorted).1 last later)
      rw [split, List.concat_eq_append, List.map_append, CountsFrom.append_iff] at counted
      have top := counted.2.1
      rw [Int32.le_iff_toInt_le] at reached
      rw [split, List.concat_eq_append] at bound ⊢
      simp only [List.length_map, List.length_append, List.length_singleton] at top bound ⊢
      omega

/-- The first free revision of a stream is the number of its rows. -/
theorem Numbered.next (h : Numbered rows lastDrawn) {stream : Stream} {first : Int32}
    (free : Revision.next? (Circumstances.lastRevision stream rows).head? = some first) :
    first.toInt = (ofStream stream rows).length := by
  rcases h.lastRevision stream with ⟨none, empty⟩ | ⟨last, some, length⟩
  · rw [none] at free
    cases free
    rw [empty]
    rfl
  · rw [some] at free
    rw [Revision.toInt_of_advance? free, ← length]
    rfl

theorem ofStream_append (stream : Stream) (rows others : List StoredEvent) :
    ofStream stream (rows ++ others) = ofStream stream rows ++ ofStream stream others :=
  List.filter_append rows others

/-- Two streams with a row in common have all rows in common. -/
theorem liesIn_congr {stream other : Stream} {row : StoredEvent} (h : row.liesIn stream = true)
    (h' : row.liesIn other = true) (r : StoredEvent) : r.liesIn stream = r.liesIn other := by
  obtain ⟨context, name, id⟩ := StoredEvent.liesIn_iff.1 h
  obtain ⟨context', name', id'⟩ := StoredEvent.liesIn_iff.1 h'
  unfold StoredEvent.liesIn
  rw [← context, ← name, ← id, context', name', id']

theorem ofStream_congr {stream other : Stream} {row : StoredEvent}
    (h : row.liesIn stream = true) (h' : row.liesIn other = true) (rows : List StoredEvent) :
    ofStream stream rows = ofStream other rows :=
  List.filter_congr fun r _ => liesIn_congr h h' r

/-! ## Appending -/

/-- A row with the next revision of its stream, under a position not drawn before. -/
theorem Numbered.insert (h : Numbered rows lastDrawn) {stream : Stream} {row : StoredEvent}
    {position : Nat} (above : lastDrawn < position) (same : row.globalPosition.toInt = position)
    (lies : row.liesIn stream = true)
    (next : row.streamRevision.toInt = (ofStream stream rows).length) :
    Numbered (rows ++ [row]) position := by
  constructor
  · refine List.pairwise_append.2 ⟨h.ascending, List.pairwise_singleton _ _, ?_⟩
    intro earlier there new fresh
    obtain rfl := List.mem_singleton.1 fresh
    have := h.drawn earlier there
    rw [Int64.lt_iff_toInt_lt, same]
    omega
  · intro earlier there
    rcases List.mem_append.1 there with there | fresh
    · have := h.drawn earlier there
      omega
    · obtain rfl := List.mem_singleton.1 fresh
      omega
  · intro other
    have counted := h.counted other
    unfold revisions at counted ⊢
    rw [ofStream_append, List.map_append, CountsFrom.append_iff]
    refine ⟨counted, ?_⟩
    by_cases mine : row.liesIn other = true
    · have only : ofStream other [row] = [row] := List.filter_cons_of_pos mine
      rw [only, ofStream_congr mine lies, List.length_map]
      exact ⟨by rw [Int.zero_add]; exact next, trivial⟩
    · have none : ofStream other [row] = [] := List.filter_cons_of_neg mine
      rw [none]
      trivial

/-- Rows with the next revisions of a stream, under positions not drawn before. -/
theorem Numbered.grow {stream : Stream} {first : Int} {events : List Event}
    {added : List StoredEvent} {later : Nat}
    (held : StoredEvent.HoldAll stream first events added) (h : Numbered rows lastDrawn)
    (next : first = (ofStream stream rows).length) (drawn : Drawn lastDrawn added later) :
    Numbered (rows ++ added) later := by
  induction held generalizing rows lastDrawn with
  | nil revision =>
      rw [List.append_nil]
      exact h.mono drawn
  | cons holds rest ih =>
      obtain ⟨position, above, same, drawn⟩ := drawn
      have inserted := h.insert above same holds.place (holds.revision.trans next)
      have only : ofStream stream [_] = [_] := List.filter_cons_of_pos holds.place
      rw [List.append_cons]
      refine ih inserted ?_ drawn
      rw [ofStream_append, only, List.length_append, List.length_singleton]
      omega

open EventJournal.Action

variable {c : Circumstances} {σ : Type}

/-- An append keeps the rows numbered. -/
theorem establishes_append (chain : MiddlewareChain) (transform : EventTransform)
    (batch : Batch) : Establishes c.truthful Numbered (Batch.append chain transform batch) := by
  intro s t works
  obtain ⟨rows, there, numbered⟩ := works.working
  apply Ends.mono (ends_append chain transform batch there)
  · intro events s u got
    obtain ⟨added, appended⟩ := got
    have grown := appended.grown
    obtain ⟨prepared, first, -, free, held⟩ := appended.held
    rw [lastRead, Circumstances.reading_lastRevision, visible_of_working there] at free
    refine ⟨works.holds.spared grown.spared, _, grown.working, ?_⟩
    rw [visible_of_working there]
    exact Numbered.grow held numbered (numbered.next free) grown.drawn
  · exact fun _ _ _ spared => works.holds.spared spared

/-! ## Deleting -/

theorem moveUp_of_isLater {stream : Stream} {revision : Int32} {row : StoredEvent}
    (h : row.isLater stream revision = true) :
    (row.moveUp stream revision).streamRevision = row.streamRevision - 1 := by
  rw [StoredEvent.moveUp, if_pos h]

theorem moveUp_of_not_isLater {stream : Stream} {revision : Int32} {row : StoredEvent}
    (h : ¬row.isLater stream revision = true) : row.moveUp stream revision = row := by
  rw [StoredEvent.moveUp, if_neg h]

theorem globalPosition_moveUp (stream : Stream) (revision : Int32) (row : StoredEvent) :
    (row.moveUp stream revision).globalPosition = row.globalPosition := by
  unfold StoredEvent.moveUp
  split <;> rfl

theorem liesIn_moveUp (stream other : Stream) (revision : Int32) (row : StoredEvent) :
    (row.moveUp other revision).liesIn stream = row.liesIn stream := by
  unfold StoredEvent.moveUp
  split <;> rfl

/-- To close a gap changes revisions and nothing else. -/
theorem revisions_moveUp (stream other : Stream) (revision : Int32) (rows : List StoredEvent) :
    revisions stream (rows.map (·.moveUp other revision)) =
      (ofStream stream rows).map fun row => (row.moveUp other revision).streamRevision := by
  unfold revisions ofStream
  rw [List.filter_map, List.map_map]
  simp only [Function.comp_def, liesIn_moveUp]

/-- Where a number is taken out and the rows after it are moved up, the revisions count
on: the rows before have smaller revisions and stay. -/
theorem countsFrom_closeGap {before after : List StoredEvent} {row : StoredEvent}
    (counted : CountsFrom 0 (before.map (·.streamRevision) ++
      row.streamRevision :: after.map (·.streamRevision)))
    (mine : ∀ r ∈ after, r.liesIn row.stream = true) :
    CountsFrom 0 (before.map (fun r => (r.moveUp row.stream row.streamRevision).streamRevision) ++
      after.map fun r => (r.moveUp row.stream row.streamRevision).streamRevision) := by
  obtain ⟨low, same, high⟩ := CountsFrom.append_iff.1 counted
  rw [List.length_map] at same high
  have kept : before.map (fun r => (r.moveUp row.stream row.streamRevision).streamRevision) =
      before.map (·.streamRevision) := by
    refine List.map_congr_left fun r there => ?_
    have bound := (low.bounds _ (List.mem_map_of_mem there)).2
    rw [List.length_map] at bound
    rw [moveUp_of_not_isLater]
    simp only [StoredEvent.isLater, Bool.and_eq_true, decide_eq_true_eq, Int32.lt_iff_toInt_lt]
    omega
  have lowered : after.map (fun r => (r.moveUp row.stream row.streamRevision).streamRevision) =
      (after.map (·.streamRevision)).map (· - 1) := by
    rw [List.map_map]
    refine List.map_congr_left fun r there => ?_
    have bound := (high.bounds _ (List.mem_map_of_mem there)).1
    rw [moveUp_of_isLater]
    · rfl
    · simp only [StoredEvent.isLater, Bool.and_eq_true, decide_eq_true_eq, Int32.lt_iff_toInt_lt]
      exact ⟨mine r there, by omega⟩
  rw [kept, lowered, CountsFrom.append_iff, List.length_map]
  exact ⟨low, high.lower (by omega)⟩

/-- Without one row, and with the gap closed that it leaves, the rows are numbered. -/
theorem Numbered.remove {before after : List StoredEvent} {row : StoredEvent}
    (h : Numbered (before ++ row :: after) lastDrawn) :
    Numbered ((before ++ after).map (·.moveUp row.stream row.streamRevision)) lastDrawn := by
  have sub : (before ++ after).Sublist (before ++ row :: after) :=
    (List.Sublist.refl before).append (List.sublist_cons_self row after)
  constructor
  · rw [List.pairwise_map]
    simp only [globalPosition_moveUp]
    exact h.ascending.sublist sub
  · intro moved mapped
    obtain ⟨r, there, rfl⟩ := List.mem_map.1 mapped
    rw [globalPosition_moveUp]
    exact h.drawn r (sub.subset there)
  · intro stream
    have counted := h.counted stream
    rw [revisions_moveUp]
    unfold revisions at counted
    by_cases mine : row.liesIn stream = true
    · rw [ofStream_append, List.map_append] at counted ⊢
      rw [show ofStream stream (row :: after) = row :: ofStream stream after from
        List.filter_cons_of_pos mine, List.map_cons] at counted
      refine countsFrom_closeGap counted fun r there => ?_
      rw [← liesIn_congr mine row.liesIn_stream]
      exact (List.mem_filter.1 there).2
    · rw [ofStream_append, show ofStream stream (row :: after) = ofStream stream after from
        List.filter_cons_of_neg mine, ← ofStream_append] at counted
      refine (List.map_congr_left fun r there => ?_) ▸ counted
      -- a row that is moved lies in the stream of the deleted row
      rw [moveUp_of_not_isLater]
      intro later
      rw [StoredEvent.isLater, Bool.and_eq_true] at later
      rw [liesIn_congr (List.mem_filter.1 there).2 later.1] at mine
      exact mine row.liesIn_stream

/-- A deletion of an event keeps the rows numbered, whatever copy of it the caller has. -/
theorem establishes_delete (limit : Int64) (force : Bool) (event : Event) :
    Establishes c.truthful Numbered (Event.delete limit force event) := by
  intro s t works
  obtain ⟨rows, there, numbered⟩ := works.working
  unfold Event.delete
  cases event.address? with
  | none => exact (ends_fail _).2 works.holds
  | some address =>
      simp only [ends_bind]
      refine ends_ask_of_leavesRows rfl (fun _ => ?_) fun _ _ => works.holds
      simp only [Circumstances.reading_reload, visible_of_working there]
      split
      · exact (ends_pure false).2 works.tick
      · rename_i row others found
        have member : row ∈ rows :=
          (List.mem_filter.1 (found ▸ List.mem_cons_self : row ∈ List.filter _ rows)).1
        obtain ⟨before, after, rfl⟩ := List.append_of_mem member
        simp only [ends_bind, ends_pure]
        refine ends_ask_of_leavesRows rfl (fun _ => ?_) fun _ _ => works.holds
        refine Ends.one (fun count _ _ => ?_) fun _ => works.holds
        refine Ends.check (fun _ _ => ?_) fun _ _ => works.holds
        refine ends_ask_of_write (t := t.tick.tick) (by simp) (fun _ _ => ⟨_, rfl⟩) there
          (fun _ => ?_) fun _ => works.holds
        rw [StoredEvent.filter_isAt numbered.apart]
        refine ends_ask_of_write (by simp) (fun _ _ => ⟨_, rfl⟩) rfl (fun _ => ?_)
          fun _ => works.holds
        exact ⟨works.holds, _, rfl, numbered.remove⟩

/-- Without the rows of a stream, the rows are numbered. -/
theorem Numbered.clear (h : Numbered rows lastDrawn) (stream : Stream) :
    Numbered (rows.filter (!·.liesIn stream)) lastDrawn where
  ascending := h.ascending.sublist List.filter_sublist
  drawn row there := h.drawn row (List.mem_filter.1 there).1
  counted other := by
    have counted := h.counted other
    unfold revisions ofStream at counted ⊢
    rw [List.filter_filter]
    by_cases shared : ∃ row : StoredEvent, row.liesIn other = true ∧ row.liesIn stream = true
    · obtain ⟨row, mine, cleared⟩ := shared
      rw [List.filter_eq_nil_iff.2 fun r _ => by simp [liesIn_congr mine cleared r]]
      trivial
    · have untouched : ∀ r ∈ rows, (r.liesIn other && !r.liesIn stream) = r.liesIn other := by
        intro r _
        cases lies : r.liesIn other with
        | false => rfl
        | true => simpa using fun cleared => shared ⟨r, lies, cleared⟩
      rw [List.filter_congr untouched]
      exact counted

/-- A deletion of a stream keeps the rows numbered. -/
theorem establishes_deleteStream (stream : Stream) :
    Establishes c.truthful Numbered (Stream.delete stream) := by
  intro s t works
  obtain ⟨rows, there, numbered⟩ := works.working
  unfold Stream.delete
  split
  · simp only [ends_bind, ends_pure]
    refine ends_ask_of_write (by simp) (fun _ _ => ⟨_, rfl⟩) there (fun _ => ?_)
      fun _ => works.holds
    exact ⟨works.holds, _, rfl, numbered.clear stream⟩
  · exact (ends_fail _).2 works.holds

/-! ## All changes -/

/-- The rows of a stream, ordered by revision. -/
def byRevision (stream : Stream) (rows : List StoredEvent) : List StoredEvent :=
  (ofStream stream rows).mergeSort fun a b => a.streamRevision ≤ b.streamRevision

/-- Rows lie in order already. -/
theorem Numbered.byRevision_eq (h : Numbered rows lastDrawn) (stream : Stream) :
    byRevision stream rows = ofStream stream rows := by
  refine List.mergeSort_of_pairwise ?_
  refine (List.pairwise_map.1 (h.counted stream).pairwise).imp ?_
  intro a b less
  exact decide_eq_true (Int32.le_of_lt less)

/-- After any changes by any journals, whatever fails on the way, the revisions of every
stream are the numbers from zero on, and its rows have ascending positions when they are
ordered by revision. -/
theorem revisions_without_gaps (c : Circumstances) (changes : List (Journal × Change))
    (cache : LeafCache) (stream : Stream) :
    let rows := byRevision stream
      ((Change.performAll changes).runOn (database c.truthful) cache {}).2.stored
    rows.map (·.streamRevision.toInt) = (List.range rows.length).map (fun n : Nat => (n : Int)) ∧
      rows.Pairwise fun a b => a.globalPosition < b.globalPosition := by
  have numbered : Holds Numbered
      ((Change.performAll changes).runOn (database c.truthful) cache {}).2 :=
    (ends_performAll_holds establishes_append establishes_delete establishes_deleteStream changes
      cache {} (Numbered.nil 0)).database
  intro rows
  rw [show rows = _ from numbered.byRevision_eq stream]
  constructor
  · have counted := (numbered.counted stream).map_toInt
    unfold revisions at counted
    rw [List.map_map, List.length_map] at counted
    simpa [Function.comp_def] using counted
  · exact List.Pairwise.sublist List.filter_sublist numbered.ascending

end EventTable

end EventJournal

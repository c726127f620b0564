import EventJournal.Database.Script
import EventJournal.Delete
import EventJournal.Proofs.Query.Meaning

/-!
# A database of event rows

An `EventTable` executes the statements that change events as their texts say, on a list
of rows in the order of their insertion. An open transaction works on rows of its own,
which take the place of the stored ones at the commit; a transaction that is neither
committed nor rolled back is given up when the next one begins. Positions are drawn in
ascending order, and a rollback does not give them back.

What the outer world decides is a parameter, `Circumstances`, indexed by the number of the
statement: which statements fail and how, whether a commit that is answered with a lost
connection has taken effect, which positions other sessions draw, which identifiers and
times are given to new rows, and how statements are answered that change no rows. A
statement that is answered with an error has no effect, but for such a commit.

`Circumstances.truthful` are circumstances in which the rows themselves answer for them.

## Main results

* `EventTable.answer_cases` — a statement does what it means, or fails.
* `EventTable.answer_commit`, `EventTable.answer_insertEvent` — what that is for the two
  statements that are more than a function of rows.
-/

namespace EventJournal

namespace StoredEvent

theorem liesIn_stream (row : StoredEvent) : row.liesIn row.stream = true := by
  simp [liesIn, stream]

/-- The row has the place of an address, whatever its identifier. -/
def isAt (address : EventAddress) (row : StoredEvent) : Bool :=
  row.context = address.stream.context && row.streamName = address.stream.streamName &&
    row.type = address.type && row.globalPosition = address.globalPosition

theorem isAt_address (row : StoredEvent) : row.isAt row.address = true := by
  simp [isAt, address, stream]

/-- Positions tell rows apart, so no other row has the place of a row. -/
theorem filter_isAt {before after : List StoredEvent} {row : StoredEvent}
    (apart : EventQuery.Distinct .position (before ++ row :: after)) :
    (before ++ row :: after).filter (!·.isAt row.address) = before ++ after := by
  obtain ⟨-, later, across⟩ := List.pairwise_append.1 apart
  obtain ⟨first, -⟩ := List.pairwise_cons.1 later
  have other : ∀ r : StoredEvent, EventOrder.position.place r ≠ EventOrder.position.place row →
      (!r.isAt row.address) = true := by
    intro r apart
    have positions : r.globalPosition ≠ row.globalPosition :=
      fun same => apart (congrArg Int64.toInt same)
    simp [isAt, address, positions]
  have low : before.filter (!·.isAt row.address) = before :=
    List.filter_eq_self.2 fun r there => other r (across r there row List.mem_cons_self)
  have high : after.filter (!·.isAt row.address) = after :=
    List.filter_eq_self.2 fun r there => other r (first r there).symm
  rw [List.filter_append, List.filter_cons_of_neg (by simp [isAt_address]), low, high]

/-- The row comes after a revision of a stream. -/
def isLater (stream : Stream) (revision : Int32) (row : StoredEvent) : Bool :=
  row.liesIn stream && revision < row.streamRevision

/-- The row with its revision lowered by one, if it comes after a revision of a stream. -/
def moveUp (stream : Stream) (revision : Int32) (row : StoredEvent) : StoredEvent :=
  if row.isLater stream revision then { row with streamRevision := row.streamRevision - 1 }
  else row

/-- The row of a draft, with what the database fills in. -/
def filled (draft : EventDraft) (drawn : Uuid) (position : Nat) (time : Instant) : StoredEvent :=
  { ofDraft draft drawn with globalPosition := Int64.ofNat position, createdAt := time }

theorem toInt_globalPosition_filled {position : Nat} (fits : position ≤ Int64.maxValue.toInt)
    (draft : EventDraft) (drawn : Uuid) (time : Instant) :
    (filled draft drawn position time).globalPosition.toInt = position := by
  have top : Int64.maxValue.toInt = 2 ^ 63 - 1 := rfl
  exact Int64.toInt_ofNat_of_lt (by omega)

end StoredEvent

/-- What the outer world does at the statement of each number. -/
structure Circumstances where
  /-- The error that the statement is answered with. -/
  fault : Nat → Option DbError
  /-- A commit that is answered with a lost connection has taken effect. -/
  landed : Nat → Bool
  /-- How many positions were drawn by others since the last one. -/
  skipped : Nat → Nat
  drawn : Nat → Uuid
  time : Nat → Instant
  /-- The answers to statements that change no rows, by the rows they see. -/
  reading : Nat → List StoredEvent → (s : Statement) → s.Answer

/-- An answer without rows. -/
def AnswerShape.nothing : (shape : AnswerShape) → shape.Carrier
  | .unit => ()
  | .rowsAffected => 0
  | .events | .partitions | .int32s | .int64s | .bools => []

namespace Circumstances

/-- Nothing fails, and no one else is there. -/
def calm : Circumstances where
  fault _ := none
  landed _ := false
  skipped _ := 0
  drawn number := ⟨BitVec.ofNat 128 number⟩
  time _ := ⟨⟨2024, 1, 1⟩, 0, 0, 0, 0⟩
  reading _ _ s := s.shape.nothing

/-- The same, and types of events have an identifier. -/
def calmWithTypes : Circumstances :=
  { calm with
    reading := fun
      | _, _, .eventTypeId _ => [1]
      | _, _, s => s.shape.nothing }

/-- The last revision of a stream, if it has one. -/
def lastRevision (stream : Stream) (rows : List StoredEvent) : List Int32 :=
  (((rows.filter (·.liesIn stream)).mergeSort
    fun a b => b.streamRevision ≤ a.streamRevision).take 1).map (·.streamRevision)

/-- The rows answer for what concerns them, as the texts of the statements say. A query that
puts other events in the place of rows is left to the outer world. -/
def truthful (c : Circumstances) : Circumstances where
  fault := c.fault
  landed := c.landed
  skipped := c.skipped
  drawn := c.drawn
  time := c.time
  reading now rows
    | .lastRevision stream => lastRevision stream rows
    | .streamExists stream => [rows.any (·.liesIn stream)]
    | .readEvents query =>
        if query.resolveLinks then c.reading now rows (.readEvents query) else query.answer rows
    | .reload address => rows.filter fun row => row.isAt address && row.id = address.id
    | .countLater stream revision => [Int64.ofNat (rows.countP (·.isLater stream revision))]
    | s => c.reading now rows s

section

variable (c : Circumstances) (now : Nat) (rows : List StoredEvent)

@[simp] theorem reading_lastRevision (stream : Stream) :
    c.truthful.reading now rows (.lastRevision stream) = lastRevision stream rows := rfl

@[simp] theorem reading_streamExists (stream : Stream) :
    c.truthful.reading now rows (.streamExists stream) = [rows.any (·.liesIn stream)] := rfl

theorem reading_readEvents {query : EventQuery} (plain : query.resolveLinks = false) :
    c.truthful.reading now rows (.readEvents query) = query.answer rows :=
  if_neg (Bool.eq_false_iff.1 plain)

@[simp] theorem reading_reload (address : EventAddress) :
    c.truthful.reading now rows (.reload address) =
      rows.filter fun row => row.isAt address && row.id = address.id := rfl

end

end Circumstances

structure EventTable where
  /-- The rows as of the last commit. -/
  stored : List StoredEvent := []
  /-- The rows as an open transaction sees them. -/
  working : Option (List StoredEvent) := none
  /-- The last position drawn, and zero before any. -/
  lastDrawn : Nat := 0
  /-- The number of statements so far. -/
  clock : Nat := 0
  /-- By how many rows the stored ones have grown at commits that were answered with an
  error. -/
  unacknowledged : Nat := 0

namespace EventTable

/-- The rows that a statement sees. -/
def visible (t : EventTable) : List StoredEvent := t.working.getD t.stored

/-- The table with the rows replaced that a statement sees. -/
def write (t : EventTable) (rows : List StoredEvent) : EventTable :=
  match t.working with
  | some _ => { t with working := some rows }
  | none => { t with stored := rows }

def tick (t : EventTable) : EventTable := { t with clock := t.clock + 1 }

/-- The error of a sequence without further numbers. -/
def sequenceExhausted : DbError :=
  .database (some "2200H") "nextval: reached maximum value of sequence"

/-- Adds the row of a draft, under the next position. -/
def insert (c : Circumstances) (now : Nat) (t : EventTable) (draft : EventDraft) :
    Except DbError (List StoredEvent) × EventTable :=
  let position := t.lastDrawn + 1 + c.skipped now
  if position ≤ Int64.maxValue.toInt then
    let row := StoredEvent.filled draft (c.drawn now) position (c.time now)
    (.ok [row], { t.write (t.visible ++ [row]) with lastDrawn := position })
  else (.error sequenceExhausted, t)

/-- The rows of the open transaction take the place of the stored ones. -/
def commit (t : EventTable) : EventTable := { t with stored := t.visible, working := none }

/-- A commit whose answer is lost. -/
def commitUnheard (t : EventTable) : EventTable :=
  { t.commit with
    unacknowledged := t.unacknowledged + (t.visible.length - t.stored.length) }

/-- What a statement means where it does not fail. -/
def perform (c : Circumstances) (now : Nat) (t : EventTable) :
    (s : Statement) → Except DbError s.Answer × EventTable
  | .begin => (.ok (), { t with working := some t.stored })
  | .commit => (.ok (), t.commit)
  | .rollback => (.ok (), { t with working := none })
  | .insertEvent draft => t.insert c now draft
  | .deleteEvent address => (.ok (), t.write (t.visible.filter (!·.isAt address)))
  | .closeGap stream revision => (.ok (), t.write (t.visible.map (·.moveUp stream revision)))
  | .deleteStream stream =>
      (.ok (t.visible.countP (·.liesIn stream)), t.write (t.visible.filter (!·.liesIn stream)))
  | s => (.ok (c.reading now t.visible s), t)

/-- What a statement leaves behind that is answered with an error. -/
def afterFault (c : Circumstances) (now : Nat) (t : EventTable) (e : DbError) :
    Statement → EventTable
  | .commit => if e.isConnectionLoss && c.landed now then t.commitUnheard else t
  | _ => t

/-- The database. -/
def database (c : Circumstances) : Database EventTable where
  answer s t :=
    match c.fault t.clock with
    | none => t.tick.perform c t.clock s
    | some e => (.error e, t.tick.afterFault c t.clock e s)

/-! ## Rows -/

@[simp] theorem stored_tick (t : EventTable) : t.tick.stored = t.stored := rfl

@[simp] theorem working_tick (t : EventTable) : t.tick.working = t.working := rfl

@[simp] theorem lastDrawn_tick (t : EventTable) : t.tick.lastDrawn = t.lastDrawn := rfl

@[simp] theorem visible_tick (t : EventTable) : t.tick.visible = t.visible := rfl

theorem visible_of_working {t : EventTable} {rows : List StoredEvent}
    (h : t.working = some rows) : t.visible = rows := by
  rw [visible, h, Option.getD_some]

theorem write_of_working {t : EventTable} {rows : List StoredEvent} (h : t.working = some rows)
    (rows' : List StoredEvent) : t.write rows' = { t with working := some rows' } := by
  rw [write, h]

/-! ## Statements -/

section

variable {c : Circumstances} {t : EventTable}

/-- A statement does what it means, or fails. -/
theorem answer_cases (c : Circumstances) (s : Statement) (t : EventTable) :
    (database c).answer s t = t.tick.perform c t.clock s ∨
      ∃ e, (database c).answer s t = (.error e, t.tick.afterFault c t.clock e s) := by
  unfold database
  dsimp only
  split
  · exact .inl rfl
  · exact .inr ⟨_, rfl⟩

theorem afterFault_of_ne {now : Nat} {e : DbError} {s : Statement} (h : s ≠ .commit) :
    t.afterFault c now e s = t := by
  unfold afterFault
  split
  · exact absurd rfl h
  · rfl

/-- A commit stores the rows of the transaction or does nothing; the former also where the
answer is lost. -/
theorem answer_commit (c : Circumstances) (t : EventTable) :
    (database c).answer .commit t = (.ok (), t.tick.commit) ∨
      ∃ e, (database c).answer .commit t = (.error e, t.tick) ∨
        e.isConnectionLoss = true ∧
          (database c).answer .commit t = (.error e, t.tick.commitUnheard) := by
  rcases answer_cases c .commit t with done | ⟨e, failed⟩
  · exact .inl done
  · refine .inr ⟨e, ?_⟩
    rw [failed]
    unfold afterFault
    dsimp only
    split
    · rename_i landed
      exact .inr ⟨(Bool.and_eq_true_iff.1 landed).1, rfl⟩
    · exact .inl rfl

/-- A row is inserted under a position not drawn before, or nothing happens. -/
theorem answer_insertEvent (c : Circumstances) (draft : EventDraft) (t : EventTable) :
    (∃ drawn position time, t.lastDrawn < position ∧ position ≤ Int64.maxValue.toInt ∧
      (database c).answer (.insertEvent draft) t =
        (.ok [.filled draft drawn position time],
          { t.tick.write (t.visible ++ [.filled draft drawn position time]) with
            lastDrawn := position })) ∨
      ∃ e, (database c).answer (.insertEvent draft) t = (.error e, t.tick) := by
  rcases answer_cases c (.insertEvent draft) t with done | ⟨e, failed⟩
  · rw [done]
    unfold perform insert
    dsimp only
    split
    · rename_i fits
      exact .inl ⟨_, _, _, by rw [lastDrawn_tick]; omega, fits, rfl⟩
    · exact .inr ⟨_, rfl⟩
  · exact .inr ⟨e, failed⟩

/-- The statement leaves the rows of events and the transaction as they are. -/
def leavesRows : Statement → Bool
  | .begin | .commit | .rollback | .insertEvent _ | .deleteEvent _ | .closeGap _ _
  | .deleteStream _ => false
  | _ => true

theorem perform_of_leavesRows {s : Statement} (h : leavesRows s = true) (c : Circumstances)
    (now : Nat) (t : EventTable) : t.perform c now s = (.ok (c.reading now t.visible s), t) := by
  cases s <;> first | rfl | cases h

/-- Such a statement is answered, or fails, and time passes. -/
theorem answer_of_leavesRows {s : Statement} (h : leavesRows s = true) (c : Circumstances)
    (t : EventTable) :
    (database c).answer s t =
      (match c.fault t.clock with
        | none => .ok (c.reading t.clock t.visible s)
        | some e => .error e, t.tick) := by
  have ne : s ≠ .commit := by
    rintro rfl
    cases h
  unfold database
  dsimp only
  cases c.fault t.clock with
  | none => exact perform_of_leavesRows h c t.clock t.tick
  | some e => exact congrArg (Prod.mk _) (afterFault_of_ne ne)

theorem snd_answer_of_leavesRows {s : Statement} (h : leavesRows s = true) (c : Circumstances)
    (t : EventTable) : ((database c).answer s t).2 = t.tick := by
  rw [answer_of_leavesRows h]

end

end EventTable

end EventJournal

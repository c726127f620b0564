import EventJournal.Proofs.Interleaving
import EventJournal.Proofs.Sends
import EventJournal.Proofs.Table

/-!
# A table of events that clients share

A `SharedTable` executes the statements of many clients that append events, or ask for the
last position. The rows of an open transaction become visible to the others at its commit.
Positions are drawn from one sequence that only ascends, whatever becomes of the rows. A
lock has a key and two sides: the exclusive side waits until nobody else holds the lock, the
shared side while somebody else holds it exclusively. It is held until the transaction ends.

A transaction sees the rows that are visible when a statement is executed, if it is read
committed; if it is serializable, it keeps to the rows that were visible at its first
statement. Before it has said which of the two it is, it counts as serializable.

What the outer world decides are the same `Circumstances` as for one client: faults may
strike any statement, also one that waits. A lost connection ends the transaction, and so
does a failed commit, which may have taken effect if its answer is lost.

## Main results

* `SharedTable.answer_moves` — all that a statement can do to the table.
* `SharedTable.Moves.mem_rows`, `SharedTable.Moves.mem_pending` — where rows come from.
-/

namespace EventJournal

/-- A lock that is held, on a key that statements name. -/
structure Lock where
  client : Nat
  key : Int64
  mode : LockMode

/-- The transaction of a client. -/
structure Session where
  isOpen : Bool := false
  isolation : Isolation := .serializable
  /-- The rows that a serializable transaction keeps to, once it has sent a statement. -/
  snapshot : Option (List StoredEvent) := none
  /-- The rows it has inserted. -/
  pending : List StoredEvent := []

structure SharedTable where
  /-- The rows that are visible to all. -/
  rows : List StoredEvent := []
  /-- The last position drawn, and zero before any. -/
  lastDrawn : Nat := 0
  locks : List Lock := []
  session : Nat → Session := fun _ => {}
  /-- The number of statements so far, those that had to wait included. -/
  clock : Nat := 0

namespace SharedTable

variable (t : SharedTable) (client : Nat)

/-- The rows inserted by the open transaction of a client. -/
def pending : List StoredEvent := (t.session client).pending

/-- The rows that a client sees. -/
def seen : List StoredEvent := (t.session client).snapshot.getD t.rows ++ t.pending client

/-- The highest position that a client sees, and zero if it sees no rows. -/
def lastSeen : Int64 := ((t.seen client).map (·.globalPosition)).max?.getD 0

def tick : SharedTable := { t with clock := t.clock + 1 }

/-- Another state of a client's transaction. -/
def put (session : Session) : SharedTable :=
  { t with session := Function.update t.session client session }

/-- A serializable transaction keeps to the rows that are visible when it sends its first
statement. -/
def pin (s : Statement) : SharedTable :=
  let session := t.session client
  if session.isOpen && session.isolation = .serializable && session.snapshot.isNone && !s.isFrame
  then t.put client { session with snapshot := some t.rows } else t

/-- The end of a client's transaction, or the begin of the next one. Its locks are
released. -/
def leave (isOpen : Bool) : SharedTable :=
  { t.put client { isOpen } with locks := t.locks.filter (·.client ≠ client) }

/-- A transaction ends, and its rows become visible. -/
def commit : SharedTable := { t.leave client false with rows := t.rows ++ t.pending client }

/-- A lock has to be waited for. -/
def isBlocked (key : Int64) (mode : LockMode) : Bool :=
  t.locks.any fun lock =>
    lock.client ≠ client && lock.key = key && (mode = .exclusive || lock.mode = .exclusive)

/-- Takes a lock. Outside of a transaction it is released at once. -/
def acquire (key : Int64) (mode : LockMode) : SharedTable :=
  if (t.session client).isOpen then { t with locks := ⟨client, key, mode⟩ :: t.locks } else t

/-- A row under a new position. Outside of a transaction it is visible at once. -/
def add (row : StoredEvent) (position : Nat) : SharedTable :=
  let session := t.session client
  if session.isOpen then
    { t.put client { session with pending := session.pending ++ [row] } with lastDrawn := position }
  else { t with rows := t.rows ++ [row], lastDrawn := position }

/-- Adds the row of a draft, under the next position. -/
def insert (c : Circumstances) (now : Nat) (draft : EventDraft) :
    Except DbError (List StoredEvent) × SharedTable :=
  let position := t.lastDrawn + 1 + c.skipped now
  if position ≤ Int64.maxValue.toInt then
    let row := StoredEvent.filled draft (c.drawn now) position (c.time now)
    (.ok [row], t.add client row position)
  else (.error EventTable.sequenceExhausted, t)

/-- What a statement means where it does not fail. -/
def perform (c : Circumstances) (now : Nat) :
    (s : Statement) → Option (Except DbError s.Answer) × SharedTable
  | .begin => (some (.ok ()), t.leave client true)
  | .isolate isolation => (some (.ok ()), t.put client { t.session client with isolation })
  | .commit => (some (.ok ()), t.commit client)
  | .rollback => (some (.ok ()), t.leave client false)
  | .lockPositions mode =>
      if t.isBlocked client positionLockKey mode then (none, t)
      else (some (.ok ()), t.acquire client positionLockKey mode)
  | .insertEvent draft =>
      let (answer, t) := t.insert client c now draft
      (some answer, t)
  | .lastPosition => (some (.ok [t.lastSeen client]), t)
  | s => (some (.ok (c.reading now (t.seen client) s)), t)

/-- What a statement leaves behind that is answered with an error. -/
def afterFault (c : Circumstances) (now : Nat) (e : DbError) : Statement → SharedTable
  | .commit =>
      if e.isConnectionLoss && c.landed now then t.commit client else t.leave client false
  | _ => if e.isConnectionLoss then t.leave client false else t

/-- The database. -/
def database (c : Circumstances) : SharedDatabase SharedTable where
  answer client s t :=
    let before := t.tick.pin client s
    match c.fault t.clock with
    | none => before.perform client c t.clock s
    | some e => (some (.error e), before.afterFault client c t.clock e s)

/-! ## What a statement can do -/

/-- A statement of a client takes one of these courses. -/
inductive Moves (t : SharedTable) (client : Nat) (s : Statement) : SharedTable → Prop
  | stays : Moves t client s t
  | changes {session : Session} (same : session.pending = t.pending client) :
      Moves t client s (t.put client session)
  | leaves (isOpen : Bool) : Moves t client s (t.leave client isOpen)
  | commits : Moves t client s (t.commit client)
  | acquires {mode : LockMode} (free : t.isBlocked client positionLockKey mode = false) :
      Moves t client s (t.acquire client positionLockKey mode)
  | adds {draft : EventDraft} {position : Nat} (inserts : s = .insertEvent draft) (drawn : Uuid)
      (time : Instant) (later : t.lastDrawn < position)
      (fits : position ≤ Int64.maxValue.toInt) :
      Moves t client s (t.add client (.filled draft drawn position time) position)

theorem perform_moves (c : Circumstances) (now : Nat) (s : Statement) :
    t.Moves client s (t.perform client c now s).2 := by
  cases s with
  | begin => exact .leaves true
  | isolate isolation => exact .changes rfl
  | commit => exact .commits
  | rollback => exact .leaves false
  | lockPositions mode =>
      unfold perform
      dsimp only
      split
      · exact .stays
      · rename_i free
        exact .acquires (Bool.eq_false_iff.2 free)
  | insertEvent draft =>
      unfold perform insert
      dsimp only
      split
      · rename_i fits
        exact .adds rfl _ _ (by omega) fits
      · exact .stays
  | _ => exact .stays

theorem afterFault_moves (c : Circumstances) (now : Nat) (e : DbError) (s : Statement) :
    t.Moves client s (t.afterFault client c now e s) := by
  unfold afterFault
  split <;> split
  · exact .commits
  · exact .leaves false
  · exact .leaves false
  · exact .stays

theorem pin_moves (s : Statement) : t.Moves client s (t.pin client s) := by
  unfold pin
  dsimp only
  split
  · exact .changes rfl
  · exact .stays

/-- A statement does what it does after the transaction has been pinned. -/
theorem answer_moves (c : Circumstances) (s : Statement) :
    (t.tick.pin client s).Moves client s ((database c).answer client s t).2 := by
  unfold database
  dsimp only
  split
  · exact perform_moves _ _ _ _ _
  · exact afterFault_moves _ _ _ _ _ _

/-! ## Transactions of the clients -/

section

variable {t client} {other : Nat} {session : Session} {s : Statement}

@[simp] theorem session_put : (t.put client session).session client = session :=
  Function.update_self ..

theorem session_put_of_ne (h : other ≠ client) :
    (t.put client session).session other = t.session other :=
  Function.update_of_ne h ..

/-- Another client's transaction is not touched. -/
theorem Moves.session_of_ne {u : SharedTable} (moves : t.Moves client s u) (h : other ≠ client) :
    u.session other = t.session other := by
  cases moves with
  | stays => rfl
  | changes same => exact session_put_of_ne h
  | leaves isOpen => exact session_put_of_ne h
  | commits => exact session_put_of_ne h
  | acquires free =>
      unfold acquire
      split <;> rfl
  | adds inserts drawn time later fits =>
      unfold add
      dsimp only
      split
      · exact session_put_of_ne h
      · rfl

theorem pin_of_isFrame (h : s.isFrame = true) : t.pin client s = t := by
  unfold pin
  simp [h]

theorem isOpen_pin : ((t.pin client s).session client).isOpen = (t.session client).isOpen := by
  unfold pin
  dsimp only
  split
  · rw [session_put]
  · rfl

theorem locks_pin : (t.pin client s).locks = t.locks := by
  unfold pin
  dsimp only
  split <;> rfl

theorem session_acquire (key : Int64) (mode : LockMode) :
    (t.acquire client key mode).session = t.session := by
  unfold acquire
  split <;> rfl

theorem subset_locks_acquire (key : Int64) (mode : LockMode) :
    t.locks ⊆ (t.acquire client key mode).locks := by
  unfold acquire
  split
  · exact List.subset_cons_self _ _
  · exact fun _ there => there

theorem mem_locks_acquire {key : Int64} {mode : LockMode}
    (isOpen : (t.session client).isOpen = true) :
    ⟨client, key, mode⟩ ∈ (t.acquire client key mode).locks := by
  unfold acquire
  rw [if_pos isOpen]
  exact List.mem_cons_self

theorem isOpen_add {row : StoredEvent} {position : Nat}
    (isOpen : (t.session client).isOpen = true) :
    ((t.add client row position).session client).isOpen = true := by
  unfold add
  dsimp only
  rw [if_pos isOpen]
  show ((t.put client _).session client).isOpen = true
  rw [session_put]
  exact isOpen

/-! ## Rows and positions -/

variable {row : StoredEvent} {u : SharedTable}

theorem pending_put (session : Session) :
    (t.put client session).pending = Function.update t.pending client session.pending :=
  Function.comp_update Session.pending t.session client session

/-- The end of a transaction leaves the rows that others have inserted. -/
theorem mem_pending_leave {isOpen : Bool} (there : row ∈ (t.leave client isOpen).pending other) :
    other ≠ client ∧ row ∈ t.pending other := by
  change row ∈ (t.put client { isOpen }).pending other at there
  rw [pending_put] at there
  by_cases mine : other = client
  · subst mine
    rw [Function.update_self] at there
    cases there
  · rw [Function.update_of_ne mine] at there
    exact ⟨mine, there⟩

theorem mem_rows_add {new : StoredEvent} {position : Nat}
    (there : row ∈ (t.add client new position).rows) : row ∈ t.rows ∨ row = new := by
  unfold add at there
  dsimp only at there
  split at there
  · exact .inl there
  · simpa using there

theorem mem_pending_add {new : StoredEvent} {position : Nat}
    (there : row ∈ (t.add client new position).pending other) :
    row ∈ t.pending other ∨ other = client ∧ row = new := by
  unfold add at there
  dsimp only at there
  split at there
  · change row ∈ (t.put client _).pending other at there
    rw [pending_put] at there
    by_cases mine : other = client
    · subst mine
      rw [Function.update_self] at there
      rcases List.mem_append.1 there with old | added
      · exact .inl old
      · exact .inr ⟨rfl, List.mem_singleton.1 added⟩
    · rw [Function.update_of_ne mine] at there
      exact .inl there
  · exact .inl there

theorem lastDrawn_add (new : StoredEvent) (position : Nat) :
    (t.add client new position).lastDrawn = position := by
  unfold add
  dsimp only
  split <;> rfl

theorem locks_add (new : StoredEvent) (position : Nat) :
    (t.add client new position).locks = t.locks := by
  unfold add
  dsimp only
  split <;> rfl

theorem lastDrawn_acquire (key : Int64) (mode : LockMode) :
    (t.acquire client key mode).lastDrawn = t.lastDrawn := by
  unfold acquire
  split <;> rfl

theorem Moves.lastDrawn_le (moves : t.Moves client s u) : t.lastDrawn ≤ u.lastDrawn := by
  cases moves with
  | acquires free => exact Nat.le_of_eq (lastDrawn_acquire _ _).symm
  | adds inserts drawn time later fits =>
      rw [lastDrawn_add]
      exact Nat.le_of_lt later
  | _ => exact Nat.le_refl _

/-- The position of the row was drawn between the two tables. -/
def New (t u : SharedTable) (row : StoredEvent) : Prop :=
  t.lastDrawn < row.globalPosition.toInt ∧ row.globalPosition.toInt ≤ u.lastDrawn

theorem new_add {draft : EventDraft} {drawn : Uuid} {time : Instant} {position : Nat}
    (later : t.lastDrawn < position) (fits : position ≤ Int64.maxValue.toInt) :
    New t (t.add client (.filled draft drawn position time) position)
      (.filled draft drawn position time) := by
  unfold New
  rw [StoredEvent.toInt_globalPosition_filled fits, lastDrawn_add]
  omega

/-- A row that is visible was so before, or the client had inserted it, or it is new. -/
theorem Moves.mem_rows (moves : t.Moves client s u) (there : row ∈ u.rows) :
    row ∈ t.rows ∨ row ∈ t.pending client ∨ New t u row := by
  cases moves with
  | stays => exact .inl there
  | changes same => exact .inl there
  | leaves isOpen => exact .inl there
  | commits =>
      rcases List.mem_append.1 there with visible | pending
      · exact .inl visible
      · exact .inr (.inl pending)
  | acquires free =>
      unfold acquire at there
      split at there <;> exact .inl there
  | adds inserts drawn time later fits =>
      rcases mem_rows_add there with old | rfl
      · exact .inl old
      · exact .inr (.inr (new_add later fits))

/-- A row that a transaction has inserted was there before, or it is new and the statement
an insertion. -/
theorem Moves.mem_pending (moves : t.Moves client s u) (there : row ∈ u.pending other) :
    row ∈ t.pending other ∨
      New t u row ∧ other = client ∧ ∃ draft, s = .insertEvent draft := by
  cases moves with
  | stays => exact .inl there
  | changes same =>
      rw [pending_put, same, Function.update_eq_self] at there
      exact .inl there
  | leaves isOpen => exact .inl (mem_pending_leave there).2
  | commits =>
      have there : row ∈ (t.leave client false).pending other := there
      exact .inl (mem_pending_leave there).2
  | acquires free =>
      unfold acquire at there
      split at there <;> exact .inl there
  | adds inserts drawn time later fits =>
      rcases mem_pending_add there with old | ⟨mine, rfl⟩
      · exact .inl old
      · exact .inr ⟨new_add later fits, mine, _, inserts⟩

/-- A lock is held on to, or it is released with all the rows that its holder has inserted. -/
theorem Moves.mem_locks (moves : t.Moves client s u) {lock : Lock} (there : lock ∈ t.locks) :
    lock ∈ u.locks ∨ lock.client = client ∧ u.pending client = [] := by
  have released : ∀ isOpen, lock ∈ (t.leave client isOpen).locks ∨
      lock.client = client ∧ (t.leave client isOpen).pending client = [] := by
    intro isOpen
    by_cases mine : lock.client = client
    · refine .inr ⟨mine, ?_⟩
      show (t.put client { isOpen }).pending client = []
      rw [pending_put, Function.update_self]
    · exact .inl (List.mem_filter.2 ⟨there, decide_eq_true mine⟩)
  cases moves with
  | stays => exact .inl there
  | changes same => exact .inl there
  | leaves isOpen => exact released isOpen
  | commits => exact released false
  | acquires free =>
      refine .inl ?_
      unfold acquire
      split
      · exact List.mem_cons_of_mem _ there
      · exact there
  | adds inserts drawn time later fits =>
      rw [locks_add]
      exact .inl there

end

end SharedTable

end EventJournal

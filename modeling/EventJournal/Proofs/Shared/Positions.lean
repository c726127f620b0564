import EventJournal.Proofs.Shared.Table

/-!
# Positions and locks of a shared table

Writers draw positions in one order and commit in another, so the highest position that is
visible may be overtaken by a lower one. Two invariants of a shared table say when it is
not. Whoever has inserted rows that are not visible yet holds the shared side of the lock
on the global position, and whoever holds the exclusive side is alone with it (`Sound`). So
nobody has such rows while the exclusive side is held, and whatever is drawn later lies
above the positions that are visible then (`Final`).

## Main results

* `SharedTable.Sound.answer` — statements keep a table sound, if rows are inserted under
  the lock.
* `SharedTable.Sound.final` — a position read under the exclusive side of the lock is final.
* `SharedTable.Final.answer` — what is final stays final, whatever anybody sends.
-/

namespace EventJournal

namespace SharedTable

variable {t u : SharedTable} {client : Nat} {s : Statement} {p : Int64}
  {shown : List StoredEvent} {row : StoredEvent}

/-! ## Locks -/

/-- Whoever has inserted rows that are not visible yet holds the shared side of the lock on
the global position, and whoever holds the exclusive side of a lock holds it alone. No
position is above the last one drawn. -/
structure Sound (t : SharedTable) : Prop where
  drawn : ∀ row ∈ t.rows, row.globalPosition.toInt ≤ t.lastDrawn
  drawn_pending : ∀ client, ∀ row ∈ t.pending client, row.globalPosition.toInt ≤ t.lastDrawn
  guarded : ∀ client, ∀ row ∈ t.pending client, ⟨client, positionLockKey, .shared⟩ ∈ t.locks
  apart : ∀ lock ∈ t.locks, lock.mode = .exclusive →
    ∀ other ∈ t.locks, other.key = lock.key → other.client = lock.client

theorem Sound.empty : Sound {} where
  drawn _ there := nomatch there
  drawn_pending _ _ there := nomatch there
  guarded _ _ there := nomatch there
  apart _ there := nomatch there

/-- A lock that has not to be waited for stands beside no lock of another client on the
same key, unless both are shared. -/
theorem shared_of_free {key : Int64} {mode : LockMode} (free : t.isBlocked client key mode = false)
    {lock : Lock} (there : lock ∈ t.locks) (ne : lock.client ≠ client) (same : lock.key = key) :
    mode ≠ .exclusive ∧ lock.mode ≠ .exclusive := by
  have passed := List.any_eq_false.1 free lock there
  simpa [ne, same] using passed

theorem Moves.apart (moves : t.Moves client s u) (h : Sound t) :
    ∀ lock ∈ u.locks, lock.mode = .exclusive →
      ∀ other ∈ u.locks, other.key = lock.key → other.client = lock.client := by
  have released : ∀ lock ∈ t.locks.filter (·.client ≠ client), lock.mode = .exclusive →
      ∀ other ∈ t.locks.filter (·.client ≠ client), other.key = lock.key →
        other.client = lock.client := by
    intro lock there exclusive other held same
    exact h.apart lock (List.mem_filter.1 there).1 exclusive other (List.mem_filter.1 held).1 same
  cases moves with
  | stays => exact h.apart
  | changes same => exact h.apart
  | leaves isOpen => exact released
  | commits => exact released
  | acquires free =>
      unfold acquire
      split
      · -- of the two locks, each is the new one or an old one
        intro lock there exclusive other held same
        rcases List.mem_cons.1 there with rfl | there <;>
          rcases List.mem_cons.1 held with rfl | held
        · rfl
        · by_cases mine : other.client = client
          · exact mine
          · exact absurd exclusive (shared_of_free free held mine same).1
        · by_cases mine : lock.client = client
          · exact mine.symm
          · exact absurd exclusive (shared_of_free free there mine same.symm).2
        · exact h.apart lock there exclusive other held same
      · exact h.apart
  | adds inserts drawn time later fits =>
      rw [locks_add]
      exact h.apart

/-- Every course that a statement can take keeps the table sound, if rows are inserted
under the shared side of the lock. -/
theorem Sound.moves (h : Sound t) (moves : t.Moves client s u)
    (locked : ∀ draft, s = .insertEvent draft → ⟨client, positionLockKey, .shared⟩ ∈ t.locks) :
    Sound u where
  drawn row there := by
    have le := moves.lastDrawn_le
    rcases moves.mem_rows there with old | old | new
    · have := h.drawn row old
      omega
    · have := h.drawn_pending client row old
      omega
    · exact new.2
  drawn_pending other row there := by
    have le := moves.lastDrawn_le
    rcases moves.mem_pending there with old | ⟨new, -⟩
    · have := h.drawn_pending other row old
      omega
    · exact new.2
  guarded other row there := by
    have held : ⟨other, positionLockKey, .shared⟩ ∈ t.locks := by
      rcases moves.mem_pending there with old | ⟨-, rfl, draft, inserts⟩
      · exact h.guarded other row old
      · exact locked draft inserts
    rcases moves.mem_locks held with kept | ⟨rfl, none⟩
    · exact kept
    · rw [none] at there
      cases there
  apart := moves.apart h

/-! ## Finality -/

/-- Among the rows that are visible or will be, those up to a position have been shown. -/
structure Final (p : Int64) (shown : List StoredEvent) (t : SharedTable) : Prop where
  settled : ∀ row ∈ t.rows, row.globalPosition ≤ p → row ∈ shown
  above : ∀ client, ∀ row ∈ t.pending client, p < row.globalPosition
  passed : p.toInt ≤ t.lastDrawn

/-- What is drawn later lies above. -/
theorem Final.moves (h : Final p shown t) (moves : t.Moves client s u) : Final p shown u := by
  have passed := h.passed
  have new_above : ∀ row, New t u row → p < row.globalPosition := by
    intro row new
    have later := new.1
    rw [Int64.lt_iff_toInt_lt]
    omega
  constructor
  · intro row there le
    rcases moves.mem_rows there with old | old | new
    · exact h.settled row old le
    · exact absurd le (Int64.not_le.2 (h.above client row old))
    · exact absurd le (Int64.not_le.2 (new_above row new))
  · intro other row there
    rcases moves.mem_pending there with old | ⟨new, -⟩
    · exact h.above other row old
    · exact new_above row new
  · have le := moves.lastDrawn_le
    omega

/-- The highest position that a client sees is not above one that bounds them all. -/
theorem lastSeen_le {bound : Nat}
    (h : ∀ row ∈ t.seen client, row.globalPosition.toInt ≤ bound) :
    (t.lastSeen client).toInt ≤ bound := by
  have choice : Std.MaxEqOr Int64 := by
    refine ⟨fun a b => ?_⟩
    by_cases le : a ≤ b
    · exact .inr (if_pos le)
    · exact .inl (if_neg le)
  unfold lastSeen
  cases found : ((t.seen client).map (·.globalPosition)).max? with
  | none =>
      show (0 : Int64).toInt ≤ bound
      simp
  | some position =>
      obtain ⟨row, there, rfl⟩ := List.mem_map.1 (List.max?_mem found)
      exact h row there

/-- A transaction that is read committed and has inserted nothing. -/
def reading : Session := { isOpen := true, isolation := .readCommitted }

theorem pin_of_reading (h : t.session client = reading) : t.pin client s = t := by
  unfold pin
  simp [h, reading]

/-- What a client sees that holds the exclusive side of the lock, read committed, is final. -/
theorem Sound.final (h : Sound t) (session : t.session client = reading)
    (held : ⟨client, positionLockKey, .exclusive⟩ ∈ t.locks) :
    Final (t.lastSeen client) t.rows t where
  settled row there _ := there
  above other row there := by
    -- whoever has rows that are not visible holds the lock too, and nobody else does
    have alone := h.apart _ held rfl _ (h.guarded other row there) rfl
    have alone : other = client := alone
    subst alone
    unfold pending at there
    rw [session] at there
    cases there
  passed := by
    refine lastSeen_le fun row there => h.drawn row ?_
    unfold seen pending at there
    rw [session] at there
    simpa [reading] using there

/-! ## Statements -/

variable {c : Circumstances}

theorem Sound.answer (h : Sound t)
    (locked : ∀ draft, s = .insertEvent draft → ⟨client, positionLockKey, .shared⟩ ∈ t.locks) :
    Sound ((database c).answer client s t).2 := by
  have ticked : Sound t.tick := ⟨h.drawn, h.drawn_pending, h.guarded, h.apart⟩
  refine (ticked.moves (pin_moves t.tick client s) locked).moves (answer_moves t client c s) ?_
  rw [locks_pin]
  exact locked

theorem Final.answer (h : Final p shown t) (client : Nat)
    (s : Statement) : Final p shown ((database c).answer client s t).2 := by
  have ticked : Final p shown t.tick := ⟨h.settled, h.above, h.passed⟩
  exact (ticked.moves (pin_moves t.tick client s)).moves (answer_moves t client c s)

end SharedTable

end EventJournal

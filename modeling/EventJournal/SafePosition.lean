import EventJournal.Transaction

/-!
# The safe position

Global positions are drawn in order but become visible in any order: while one append is
under way, a later one may already be done. Every append holds the shared side of a lock
from before it draws a position until it ends. Taking the exclusive side therefore waits
for all of them, and the highest position that is visible then is final: no event with a
position up to it will appear later.

The transaction is read committed, so that the highest position is read from what is
visible after the wait.
-/

namespace EventJournal.SafePosition

variable {σ : Type}

/-- Reads the safe position, within a transaction. -/
def read : Action σ Int64 := do
  let _ ← Action.ask (.lockPositions .exclusive)
  let rows : List Int64 ← Action.ask .lastPosition
  Action.one rows

/-- The position up to which no more events will appear. -/
def find : Action σ Int64 := Action.inTransaction .readCommitted read

end EventJournal.SafePosition

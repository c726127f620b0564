import EventJournal.Transaction

/-!
# The rows of a read

A read sends one query. Where a stream is read and has no rows to show, a second query
tells a stream without such events from one that does not exist.
-/

namespace EventJournal.Read

variable {σ : Type}

/-- Some event lies in the stream. -/
def streamExists (stream : Stream) : Action σ Bool := do
  let rows : List Bool ← Action.ask (.streamExists stream)
  Action.one rows

/-- The rows of a read. That there are none is an error if the stream does not exist. -/
def rows (stream : Stream) (options : ReadOptions) : Action σ (List StoredEvent) := do
  let query ← Action.check (EventQuery.ofOptions stream options)
  let rows : List StoredEvent ← Action.ask (.readEvents query)
  if rows.isEmpty && stream.isRegular then
    if ← streamExists stream then pure rows else Action.fail (.streamNotFound stream)
  else pure rows

end EventJournal.Read

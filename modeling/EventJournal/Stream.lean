import EventJournal.Json.Decode

/-!
# Streams and stream filters

A stream is named by a context, a stream name and a stream id. It is never created:
it exists once an event has been appended to it. Besides regular streams there are the
stream of all events and the system streams, read-only views with a reserved name.

A `StreamFilter` describes streams by any of the three parts. Only three of the eight
combinations mean something; `StreamFilter.scope?` names what they select and takes
empty parts for absent ones.
-/

namespace EventJournal

/-- What a stream stands for. -/
inductive StreamKind where
  /-- The events of one stream. -/
  | regular
  /-- Every event of the journal. -/
  | all
  /-- A derived view. -/
  | system
  deriving DecidableEq, Repr, Inhabited

/-- A stream. The parts that a kind has no use for are empty. -/
structure Stream where
  context : String
  streamName : String
  streamId : String
  kind : StreamKind := .regular
  deriving DecidableEq, Repr, Inhabited

/-- A description of streams by some of their parts. -/
structure StreamFilter where
  context : Option String := none
  streamName : Option String := none
  streamId : Option String := none
  deriving DecidableEq, Repr, Inhabited

/-- The streams that a description selects. -/
inductive StreamScope where
  | context (context : String)
  | streamName (context streamName : String)
  | stream (context streamName streamId : String)
  deriving DecidableEq, Repr

namespace StreamFilter

/-- A part of a description, unless it is absent or empty. -/
def present (part : Option String) : Option String := part.filter (· ≠ "")

/-- What the description selects; none for a combination of parts without meaning, such
as a stream id without a stream name. -/
def scope? (f : StreamFilter) : Option StreamScope :=
  match present f.context, present f.streamName, present f.streamId with
  | some c, some n, some i => some (.stream c n i)
  | some c, some n, none => some (.streamName c n)
  | some c, none, none => some (.context c)
  | _, _, _ => none

def toJson (f : StreamFilter) : Json :=
  .object [
    ("context", .ofOption .text f.context),
    ("stream_name", .ofOption .text f.streamName),
    ("stream_id", .ofOption .text f.streamId)]

def ofJson? (json : Json) : Option StreamFilter :=
  match json.fields? ["context", "stream_name", "stream_id"] 3 with
  | some [context, streamName, streamId] => do
      some {
        context := ← Json.optional Json.asText context
        streamName := ← Json.optional Json.asText streamName
        streamId := ← Json.optional Json.asText streamId }
  | _ => none

end StreamFilter

namespace StreamScope

/-- The name of a kind of scope. -/
def label : StreamScope → String
  | .context _ => "context"
  | .streamName _ _ => "stream_name"
  | .stream _ _ _ => "stream"

end StreamScope

namespace Stream

/-- The stream of all events. -/
def all : Stream := ⟨"", "", "", .all⟩

/-- A system stream. -/
def system (name : String) : Stream := ⟨"", name, "", .system⟩

/-- The system stream that holds the first event of every stream. -/
def streams : Stream := system "$streams"

def isAll (s : Stream) : Bool := s.kind = .all

def isSystem (s : Stream) : Bool := s.kind = .system

def isRegular (s : Stream) : Bool := s.kind = .regular

/-- A regular stream needs all three parts, a system stream a reserved name. -/
def isValid (s : Stream) : Bool :=
  match s.kind with
  | .regular => s.context ≠ "" && s.streamName ≠ "" && s.streamId ≠ ""
  | .all => true
  | .system => s.streamName.toList.head? = some '$'

/-- The description that selects exactly this stream. -/
def toFilter (s : Stream) : StreamFilter := ⟨some s.context, some s.streamName, some s.streamId⟩

/-- The stream as messages name it. -/
def label (s : Stream) : String :=
  match s.kind with
  | .regular => s.context ++ "/" ++ s.streamName ++ "/" ++ s.streamId
  | .all => "$all"
  | .system => s.streamName

end Stream

namespace StreamKind

def label : StreamKind → String
  | .regular => "regular"
  | .all => "all"
  | .system => "system"

def ofJson? : Json → Option StreamKind :=
  Json.choice? [("regular", .regular), ("all", .all), ("system", .system)]

end StreamKind

namespace Stream

def toJson (s : Stream) : Json :=
  .object [
    ("context", .text s.context),
    ("stream_name", .text s.streamName),
    ("stream_id", .text s.streamId),
    ("kind", .text s.kind.label)]

def ofJson? (json : Json) : Option Stream :=
  match json.fields? ["context", "stream_name", "stream_id", "kind"] 3 with
  | some [context, streamName, streamId, kind] => do
      some {
        context := ← Json.required Json.asText context
        streamName := ← Json.required Json.asText streamName
        streamId := ← Json.required Json.asText streamId
        kind := ← Json.withDefault .regular StreamKind.ofJson? kind }
  | _ => none

end Stream

end EventJournal

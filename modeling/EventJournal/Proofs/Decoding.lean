import EventJournal.Event
import EventJournal.ExpectedRevision
import EventJournal.Partition
import EventJournal.Proofs.Decoding.Instant
import EventJournal.Proofs.Decoding.Uuid
import EventJournal.ReadOptions

/-!
# Decoding undoes encoding

Events, streams, descriptions of streams, read options, expected revisions and partitions
are written as JSON and read back as what they were. A record is written with each of its
names once, so its fields are found again whatever stands beside them (`fields?_object`);
an optional field keeps apart what is absent and what is present because no value that is
present is written as `null` (`optional_ofOption`). An event nests in the link of another,
and the proof for events is an induction on that nesting.

A point in time is a date and a time of day, and not every such pair exists. An event is
`Dated` when its own time and those of its links exist; nothing else is asked of it.
-/

namespace EventJournal

namespace Json

/-! ## Fields of a record -/

theorem lookup_cons_of_ne {name key : String} (h : key ≠ name) (value : Json)
    (rest : List (String × Json)) : lookup name ((key, value) :: rest) = lookup name rest := by
  simp [lookup, h]

theorem lookup_append {name : String} {members : List (String × Json)}
    (h : name ∉ members.map (·.1)) (rest : List (String × Json)) :
    lookup name (members ++ rest) = lookup name rest := by
  induction members with
  | nil => rfl
  | cons entry members ih =>
      simp only [List.map_cons, List.mem_cons, not_or] at h
      rw [List.cons_append, lookup_cons_of_ne (Ne.symm h.1), ih h.2]

/-- Names that are used once find the values they stand before, whatever follows. -/
theorem map_lookup {members : List (String × Json)} (h : (members.map (·.1)).Nodup)
    (rest : List (String × Json)) :
    (members.map (·.1)).map (lookup · (members ++ rest)) = members.map (some ·.2) := by
  induction members with
  | nil => rfl
  | cons entry members ih =>
      obtain ⟨key, value⟩ := entry
      simp only [List.map_cons, List.nodup_cons] at h
      have hOthers : ∀ name ∈ members.map (·.1),
          lookup name ((key, value) :: (members ++ rest)) = lookup name (members ++ rest) :=
        by
        intro name hName
        have hNe : key ≠ name := by
          intro hEq
          exact h.1 (by simpa [hEq] using hName)
        exact lookup_cons_of_ne hNe value _
      rw [List.cons_append, List.map_cons, List.map_cons, List.map_congr_left hOthers, ih h.2]
      simp [lookup]

/-- A record written with each of its names once gives its fields back. -/
theorem fields?_object {names : List String} {members : List (String × Json)} {least : Nat}
    (hNames : names = members.map (·.1)) (h : names.Nodup) :
    fields? names least (.object members) = some (members.map (some ·.2)) := by
  subst hNames
  have hValues := map_lookup h []
  rw [List.append_nil] at hValues
  rw [fields?, hValues]

/-! ## Values -/

@[simp]
theorem asInt32_toInt (n : Int32) : asInt32 (.int n.toInt) = some n := by
  have hRange : Int32.minValue.toInt ≤ n.toInt ∧ n.toInt ≤ Int32.maxValue.toInt :=
    ⟨n.minValue_le_toInt, n.toInt_le⟩
  simp only [asInt32, hRange, and_self, if_true, Int32.ofInt_toInt]

@[simp]
theorem asInt64_toInt (n : Int64) : asInt64 (.int n.toInt) = some n := by
  have hRange : Int64.minValue.toInt ≤ n.toInt ∧ n.toInt ≤ Int64.maxValue.toInt :=
    ⟨n.minValue_le_toInt, n.toInt_le⟩
  simp only [asInt64, hRange, and_self, if_true, Int64.ofInt_toInt]

theorem asOption_of_ne_null {α : Type} {decode : Json → Option α} {json : Json}
    (h : json ≠ .null) : asOption decode json = (decode json).map some := by
  cases json <;> first | rfl | contradiction

/-- An optional field is read as it was written if no value is written as `null`. -/
theorem optional_ofOption {α : Type} {encode : α → Json} {decode : Json → Option α}
    {value : Option α} (hNull : ∀ a, encode a ≠ .null)
    (hDecode : ∀ a ∈ value, decode (encode a) = some a) :
    optional decode (some (ofOption encode value)) = some value := by
  cases value with
  | none => rfl
  | some a => simp [optional, ofOption, asOption_of_ne_null (hNull a), hDecode a rfl]

theorem asList_ofList {α : Type} {encode : α → Json} {decode : Json → Option α}
    (h : ∀ a, decode (encode a) = some a) (values : List α) :
    asList decode (ofList encode values) = some values := by
  induction values with
  | nil => rfl
  | cons a values ih => simp_all [asList, ofList]

end Json

/-! ## Optional fields -/

theorem optional_text (part : Option String) :
    Json.optional Json.asText (some (.ofOption .text part)) = some part :=
  Json.optional_ofOption (by simp) (fun _ _ => rfl)

theorem optional_int32 (n : Option Int32) :
    Json.optional Json.asInt32 (some (.ofOption (fun n => .int n.toInt) n)) = some n :=
  Json.optional_ofOption (by simp) (fun _ _ => Json.asInt32_toInt _)

theorem optional_int64 (n : Option Int64) :
    Json.optional Json.asInt64 (some (.ofOption (fun n => .int n.toInt) n)) = some n :=
  Json.optional_ofOption (by simp) (fun _ _ => Json.asInt64_toInt _)

theorem Uuid.ofJson?_toJson (u : Uuid) : ofJson? u.toJson = some u := by
  simp [ofJson?, toJson, Json.asText, parse?_render]

theorem Instant.ofJson?_toJson {t : Instant} (h : t.isValid) : ofJson? t.toJson = some t := by
  simp [ofJson?, toJson, Json.asText, parse?_render h]

theorem optional_uuid (u : Option Uuid) :
    Json.optional Uuid.ofJson? (some (.ofOption Uuid.toJson u)) = some u :=
  Json.optional_ofOption (by simp [Uuid.toJson]) (fun u _ => u.ofJson?_toJson)

theorem optional_instant {t : Option Instant} (h : ∀ time ∈ t, time.isValid) :
    Json.optional Instant.ofJson? (some (.ofOption Instant.toJson t)) = some t :=
  Json.optional_ofOption (by simp [Instant.toJson]) (fun time hTime =>
    Instant.ofJson?_toJson (h time hTime))

/-! ## Records without nesting -/

theorem StreamFilter.ofJson?_toJson (f : StreamFilter) : ofJson? f.toJson = some f := by
  rw [ofJson?, toJson, Json.fields?_object]
  · simp [optional_text]
  · rfl
  · decide

theorem Stream.ofJson?_toJson (s : Stream) : ofJson? s.toJson = some s := by
  have hKind : StreamKind.ofJson? (.text s.kind.label) = some s.kind := by
    cases s.kind <;> rfl
  rw [ofJson?, toJson, Json.fields?_object]
  · simp [Json.required, Json.asText, Json.withDefault, hKind]
  · rfl
  · decide

theorem ReadFilter.ofJson?_toJson (f : ReadFilter) : ofJson? f.toJson = some f := by
  have hStreams := Json.asList_ofList StreamFilter.ofJson?_toJson f.streams
  have hTypes : Json.asList Json.asText (.ofList Json.text f.eventTypes) = some f.eventTypes :=
    Json.asList_ofList (fun _ => by rw [Json.asText]) f.eventTypes
  rw [ofJson?, toJson, Json.fields?_object]
  · simp [Json.withDefault, hStreams, hTypes]
  · rfl
  · decide

theorem ReadOptions.ofJson?_toJson (o : ReadOptions) : ofJson? o.toJson = some o := by
  have hDirection : Direction.ofJson? (.text o.direction.label) = some o.direction := by
    cases o.direction <;> rfl
  rw [ofJson?, toJson, Json.fields?_object]
  · simp [Json.required, Json.asBool, hDirection, optional_int32, optional_int64,
      ReadFilter.ofJson?_toJson]
  · rfl
  · decide

theorem Partition.ofJson?_toJson (p : Partition) : ofJson? p.toJson = some p := by
  rw [ofJson?, toJson, Json.fields?_object]
  · simp [Json.required, Json.asText, optional_text]
  · rfl
  · decide

theorem ExpectedRevision.ofJson?_toJson (expected : ExpectedRevision) :
    ofJson? expected.toJson = some expected := by
  cases expected with
  | any => rfl
  | noStream => rfl
  | streamExists => rfl
  | exact revision => simp [ofJson?, toJson]

/-! ## Events -/

namespace Event

/-- The time of the event exists, and so do the times of the links it nests. -/
inductive Dated : Event → Prop where
  | intro {e : Event} (time : ∀ t ∈ e.createdAt, t.isValid)
      (link : ∀ inner ∈ e.link, Dated inner) : Dated e

theorem toJson_eq (e : Event) : e.toJson = .object (e.members ++ linkMembers e.link) := by
  cases e
  rw [toJson]

theorem ofFields?_members {e : Event} (h : ∀ t ∈ e.createdAt, t.isValid) :
    ofFields? (e.members.map (some ·.2)) e.link = some e := by
  cases e
  simp [ofFields?, members, Json.required, Json.asText, optional_text, optional_int32,
    optional_int64, optional_uuid, optional_instant h]

theorem map_fst_members (e : Event) : e.members.map (·.1) = fieldNames := rfl

/-- The fields are found under their names, whether or not a link follows. -/
theorem lookup_members (e : Event) (rest : List (String × Json)) :
    fieldNames.map (Json.lookup · (e.members ++ rest)) = e.members.map (some ·.2) := by
  have hNames : (e.members.map (·.1)).Nodup := by
    rw [map_fst_members]
    decide
  exact Json.map_lookup hNames rest

theorem linkMember?_of_ne {name : String} (h : name ≠ "link") (value : Json)
    (rest : List (String × Json)) : linkMember? ((name, value) :: rest) = linkMember? rest := by
  cases value <;> simp [linkMember?, h]

theorem linkMember?_members (e : Event) (rest : List (String × Json)) :
    linkMember? (e.members ++ rest) = linkMember? rest := by
  simp [members, linkMember?_of_ne]

/-- An event is read again with its links, at any depth of nesting. -/
theorem ofJson?_toJson {e : Event} (h : e.Dated) : ofJson? e.toJson = some e := by
  induction h with
  | @intro e hTime _ ih =>
      have hLink : linkMember? (linkMembers e.link) = some e.link := by
        cases hInner : e.link with
        | none => rfl
        | some inner =>
            have hRead := ih inner hInner
            rw [toJson_eq] at hRead
            simp [linkMembers, toJson_eq, linkMember?, hRead]
      rw [toJson_eq, ofJson?, linkMember?_members, hLink, lookup_members, Option.bind_eq_bind,
        Option.bind_some, ofFields?_members hTime]

/-- The member for the link is there exactly if the event has a link. -/
theorem member?_link (e : Event) : e.toJson.member? "link" = e.link.map toJson := by
  have hNames : "link" ∉ e.members.map (·.1) := by
    rw [map_fst_members]
    decide
  rw [toJson_eq, Json.member?, Json.lookup_append hNames]
  cases e.link with
  | none => rfl
  | some inner => simp [linkMembers, Json.lookup]

end Event

/-- **Decoding undoes encoding.** Nothing is asked of a value but that its times exist; the
member for the link of an event is written exactly where there is a link. -/
theorem decoding_undoes_encoding :
    (∀ e : Event, e.Dated → Event.ofJson? e.toJson = some e) ∧
    (∀ e : Event, e.toJson.member? "link" = e.link.map Event.toJson) ∧
    (∀ s : Stream, Stream.ofJson? s.toJson = some s) ∧
    (∀ f : StreamFilter, StreamFilter.ofJson? f.toJson = some f) ∧
    (∀ o : ReadOptions, ReadOptions.ofJson? o.toJson = some o) ∧
    (∀ x : ExpectedRevision, ExpectedRevision.ofJson? x.toJson = some x) ∧
    (∀ p : Partition, Partition.ofJson? p.toJson = some p) :=
  ⟨fun _ => Event.ofJson?_toJson, Event.member?_link, Stream.ofJson?_toJson,
    StreamFilter.ofJson?_toJson, ReadOptions.ofJson?_toJson, ExpectedRevision.ofJson?_toJson,
    Partition.ofJson?_toJson⟩

/-- A link event as it stood in a stream, resolved twice: a payload that is `null`, a leap
second with nine digits of fraction, and absent parts beside empty ones. -/
def resolvedTwice : Event where
  id := some ⟨0x00112233445566778899aabbccddeeff⟩
  type := "opened"
  context := some ""
  data := .null
  createdAt := some ⟨⟨2016, 12, 31⟩, 23, 59, 60, 123456789⟩
  link := some {
    type := linkType
    globalPosition := some (-1)
    linkId := some ⟨0⟩
    createdAt := some ⟨⟨0, 2, 29⟩, 0, 0, 0, 1000000⟩
    link := some { type := "", streamRevision := some Int32.minValue } }

theorem decoding_undoes_encoding_resolvedTwice :
    resolvedTwice.Dated ∧ Event.ofJson? resolvedTwice.toJson = some resolvedTwice := by
  have hDated : resolvedTwice.Dated := by
    refine .intro (by simp [resolvedTwice]; decide) ?_
    rintro middle ⟨⟩
    refine .intro (by simp; decide) ?_
    rintro inner ⟨⟩
    exact .intro (by simp) (by simp)
  exact ⟨hDated, decoding_undoes_encoding.1 resolvedTwice hDated⟩

end EventJournal

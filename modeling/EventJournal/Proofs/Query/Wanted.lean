import EventJournal.Proofs.Query.Meaning
import Mathlib.Tactic.MkIffOfInductiveProp

/-!
# What a read wants

What a stream and the options of a read ask of a row, told without the query that the read
is turned into. A regular stream is read by revision, and descriptions of other streams and
a position do not matter; the other streams are read by position, a revision does not
matter, and where streams are described a row must be of one of them.

## Main results

* `StreamFilter.describes_iff` — the descriptions with a meaning are those that describe.
* `EventQuery.ofOptions_selects_iff` — the query of a read selects what the read wants.
-/

namespace EventJournal

namespace StreamFilter

/-- A part of a description is given; an empty one is not. -/
def Gives (part : Option String) (text : String) : Prop := part = some text ∧ text ≠ ""

theorem present_eq_some_iff {part : Option String} {text : String} :
    present part = some text ↔ Gives part text := by
  rw [present, Option.filter_eq_some_iff, decide_eq_true_eq, Gives]

/-- A context is given, no stream id is given without a stream name, and the row has what is
given. -/
def Describes (f : StreamFilter) (row : StoredEvent) : Prop :=
  Gives f.context row.context ∧
    (∀ name ∈ f.streamName, name ≠ "" → row.streamName = name) ∧
    ∀ id ∈ f.streamId, id ≠ "" → row.streamId = id ∧ ∃ name ∈ f.streamName, name ≠ ""

instance (f : StreamFilter) (row : StoredEvent) : Decidable (f.Describes row) :=
  inferInstanceAs (Decidable ((_ ∧ _) ∧ _ ∧ _))

/-- The descriptions with a meaning are those that describe. -/
theorem describes_iff {f : StreamFilter} {row : StoredEvent} :
    f.Describes row ↔ ∃ scope, f.scope? = some scope ∧ scope.admits row = true := by
  have parts : f.Describes row ↔ (∃ context, present f.context = some context ∧
        row.context = context) ∧
      (∀ name, present f.streamName = some name → row.streamName = name) ∧
      ∀ id, present f.streamId = some id →
        row.streamId = id ∧ ∃ name, present f.streamName = some name := by
    simp only [present_eq_some_iff, Gives, Describes, Option.mem_def, and_imp, exists_eq_right']
  rw [parts, scope?]
  cases present f.context with
  | none => simp
  | some context =>
      cases present f.streamName with
      | none => cases present f.streamId <;> simp [StreamScope.admits, @eq_comm _ context]
      | some name =>
          cases present f.streamId <;>
            simp [StreamScope.admits, StoredEvent.liesIn_iff, @eq_comm _ context]

end StreamFilter

namespace ReadFilter

/-- No streams are described, or the row is of one that is. -/
def Covers (filter : ReadFilter) (row : StoredEvent) : Prop :=
  filter.streams = [] ∨ ∃ f ∈ filter.streams, f.Describes row

instance (filter : ReadFilter) (row : StoredEvent) : Decidable (filter.Covers row) :=
  inferInstanceAs (Decidable (_ ∨ _))

/-- No types are listed, or the row has one that is. -/
def Lists (filter : ReadFilter) (row : StoredEvent) : Prop :=
  filter.eventTypes = [] ∨ row.type ∈ filter.eventTypes

instance (filter : ReadFilter) (row : StoredEvent) : Decidable (filter.Lists row) :=
  inferInstanceAs (Decidable (_ ∨ _))

end ReadFilter

namespace ReadOptions

theorem limit_nonneg (options : ReadOptions) : 0 ≤ options.limit := by
  unfold limit
  split
  · exact Int64.le_of_lt ‹_›
  · decide

/-- What the read of a stream asks of a row. -/
@[mk_iff]
structure Wants (options : ReadOptions) (stream : Stream) (row : StoredEvent) : Prop where
  ofType : options.filter.Lists row
  ofStream : stream.isRegular = true → row.liesIn stream = true
  fromRevision : stream.isRegular = true → options.fromRevision.all (fun revision =>
    options.direction.reaches row.streamRevision.toInt revision.toInt) = true
  ofStreams : stream.isRegular = false → options.filter.Covers row
  fromPosition : stream.isRegular = false → options.fromPosition.all (fun position =>
    options.direction.reaches row.globalPosition.toInt position.toInt) = true
  /-- A system stream has the first event of every stream. -/
  first : stream.isSystem = true → row.streamRevision = 0

instance (options : ReadOptions) (stream : Stream) (row : StoredEvent) :
    Decidable (options.Wants stream row) :=
  decidable_of_iff _ (wants_iff options stream row).symm

end ReadOptions

namespace EventQuery

variable {stream : Stream} {options : ReadOptions} {query : EventQuery}

theorem typeConditions_admit_iff {types : List String} {row : StoredEvent} :
    (typeConditions types).all (·.admits row) = true ↔ types = [] ∨ row.type ∈ types := by
  cases types with
  | nil => simp [typeConditions]
  | cons type rest => simp [typeConditions, EventCondition.admits]

/-- Where streams are described, a row is selected that is of one of them. -/
theorem covers_iff {filter : ReadFilter} {row : StoredEvent} :
    filter.Covers row ↔
      (filter.scopes.isEmpty || filter.scopes.any (·.admits row)) = true ∧
        (noScope filter).all (·.admits row) = true := by
  have scopes : filter.scopes.any (·.admits row) = true ↔
      ∃ f ∈ filter.streams, f.Describes row := by
    simp only [ReadFilter.scopes, List.any_eq_true, List.mem_filterMap, StreamFilter.describes_iff]
    constructor
    · rintro ⟨scope, ⟨f, there, means⟩, admits⟩
      exact ⟨f, there, scope, means, admits⟩
    · rintro ⟨f, there, scope, means, admits⟩
      exact ⟨scope, ⟨f, there, means⟩, admits⟩
  rw [ReadFilter.Covers, ← scopes]
  cases means : filter.scopes with
  | nil =>
      cases there : filter.streams with
      | nil => simp [noScope, means, there]
      | cons f rest => simp [noScope, means, there, EventCondition.admits]
  | cons scope rest =>
      have some : filter.streams ≠ [] := by
        intro none
        rw [ReadFilter.scopes, none] at means
        cases means
      simp [noScope, means, some]

theorem all_admits_map {α : Type} {part : Option α} {condition : α → EventCondition}
    {row : StoredEvent} :
    (part.toList.map condition).all (·.admits row) =
      part.all fun a => (condition a).admits row := by
  cases part with
  | none => rfl
  | some a => exact Bool.and_true _

theorem ofStream_selects_iff {row : StoredEvent} :
    (ofStream stream options).selects row = true ↔ row.liesIn stream = true ∧
      options.fromRevision.all (fun revision =>
        options.direction.reaches row.streamRevision.toInt revision.toInt) = true ∧
      options.filter.Lists row := by
  simp only [selects, ofStream, List.isEmpty_nil, Bool.true_or, Bool.true_and, List.all_cons,
    List.all_append, Bool.and_eq_true, all_admits_map, typeConditions_admit_iff,
    EventCondition.admits_revisionFrom]
  rfl

theorem ofFilter_selects_iff {extra : List EventCondition} {row : StoredEvent} :
    (ofFilter extra options).selects row = true ↔
      extra.all (·.admits row) = true ∧ options.filter.Covers row ∧
      options.fromPosition.all (fun position =>
        options.direction.reaches row.globalPosition.toInt position.toInt) = true ∧
      options.filter.Lists row := by
  simp only [selects, ofFilter, List.all_append, Bool.and_eq_true, all_admits_map,
    typeConditions_admit_iff, EventCondition.admits_positionFrom, covers_iff, ReadFilter.Lists,
    and_assoc]
  exact and_left_comm

/-- There is a query for each stream but a system stream that is not known. -/
theorem ofOptions_of_known (known : ¬(stream.isSystem = true ∧ stream.streamName ≠ "$streams"))
    (options : ReadOptions) : ∃ query, ofOptions stream options = .ok query := by
  unfold ofOptions
  split
  · exact ⟨_, rfl⟩
  · exact ⟨_, rfl⟩
  · rename_i system
    exact ⟨_, if_pos (Decidable.not_not.1 fun other => known ⟨decide_eq_true system, other⟩)⟩

/-- The query of a read selects what the read wants. -/
theorem ofOptions_selects_iff (h : ofOptions stream options = .ok query) (row : StoredEvent) :
    query.selects row = true ↔ options.Wants stream row := by
  obtain ⟨context, name, id, kind⟩ := stream
  cases kind with
  | regular =>
      cases h
      rw [ofStream_selects_iff]
      constructor
      · rintro ⟨lies, bound, type⟩
        exact ⟨type, fun _ => lies, fun _ => bound, nofun, nofun, nofun⟩
      · exact fun wants => ⟨wants.ofStream rfl, wants.fromRevision rfl, wants.ofType⟩
  | all =>
      cases h
      rw [ofFilter_selects_iff]
      constructor
      · rintro ⟨-, covers, bound, type⟩
        exact ⟨type, nofun, nofun, fun _ => covers, fun _ => bound, nofun⟩
      · exact fun wants => ⟨rfl, wants.ofStreams rfl, wants.fromPosition rfl, wants.ofType⟩
  | system =>
      have known : query = ofFilter [.firstOfStream] options := by
        unfold ofOptions at h
        dsimp only at h
        split at h
        · exact (Except.ok.inj h).symm
        · cases h
      rw [known, ofFilter_selects_iff]
      have first : [EventCondition.firstOfStream].all (·.admits row) = true ↔
          row.streamRevision = 0 := by
        simp [EventCondition.admits]
      rw [first]
      constructor
      · rintro ⟨first, covers, bound, type⟩
        exact ⟨type, nofun, nofun, fun _ => covers, fun _ => bound, fun _ => first⟩
      · exact fun wants =>
          ⟨wants.first rfl, wants.ofStreams rfl, wants.fromPosition rfl, wants.ofType⟩

theorem selects_of_ofOptions (h : ofOptions stream options = .ok query) :
    query.selects = fun row => decide (options.Wants stream row) :=
  funext fun row => Bool.eq_iff_iff.2 ((ofOptions_selects_iff h row).trans decide_eq_true_iff.symm)

end EventQuery

end EventJournal

import EventJournal.Proofs.Sends
import EventJournal.Proofs.Writes

/-!
# What a link names

A link names its original by identifier and position, and the leaf that holds it. The leaves are
looked up before the transaction, for one original after the other, and are handed on under the
identifiers of the originals. Nothing keeps those apart: where two originals have one identifier,
both links name the leaf of the later one (`Event.namesake`).

That is told here of a call that returns: the events it has inserted are the links as the chain
has shaped them, and they name the leaves of their own originals exactly if originals with the same
identifier lie in the same leaf. A call with an original that cannot be linked to begins no
transaction.

## Main results

* `Journal.ends_locate_recording` — what is handed on under an identifier.
* `Journal.ends_appendWith_recording` — what a call has inserted that returns.
* `Journal.linkTo_names_leaves_iff` — the links that are made.
-/

namespace EventJournal

open EventJournal.Action

/-! ## Leaves of events -/

/-- The database tells which leaves there are, and does not change them when it is asked. -/
def Database.Locates {δ : Type} (db : Database δ) (leaves : δ → LeafKey → Option Partition) :
    Prop :=
  ∀ key d, ∃ rows d', db.answer (.findPartition key.toPartitionKey) d = (.ok rows, d') ∧
    rows.head? = leaves d key ∧ leaves d' = leaves d

/-- The leaves that are kept are leaves that there are. -/
def LeafCache.Agrees (cache : LeafCache) (leaves : LeafKey → Option Partition) : Prop :=
  ∀ key leaf, cache.find? key = some leaf → leaves key = some leaf

theorem LeafCache.Agrees.insert {cache : LeafCache} {leaves : LeafKey → Option Partition}
    {key : LeafKey} {leaf : Partition} (agrees : cache.Agrees leaves)
    (there : leaves key = some leaf) : (cache.insert key leaf).Agrees leaves := by
  intro other kept found
  by_cases same : other = key
  · subst other
    rw [LeafCache.find?_insert_self] at found
    rw [there, found]
  · rw [LeafCache.find?_insert_of_ne same] at found
    exact agrees other kept found

namespace Event

/-- What the leaf of an event holds, if the event has a place. -/
def leafKey? (event : Event) : Option LeafKey :=
  match event.context, event.streamName with
  | some context, some streamName => some ⟨context, streamName, event.type⟩
  | _, _ => none

/-- The identifier of the leaf that holds an event. -/
def leafId? (leaves : LeafKey → Option Partition) (event : Event) : Option Int64 :=
  (event.leafKey?.bind leaves).map (·.id)

/-- Links may be made to the event: it is stored, it is no link, and there is a leaf for it. -/
structure Linkable (leaves : LeafKey → Option Partition) (event : Event) : Prop where
  persisted : event.isPersisted = true
  original : event.isLink = false
  held : (event.leafId? leaves).isSome = true

/-- The link to an original that names a partition. -/
def linkInto (original : Event) (partitionId : Option Int64) : Event where
  type := linkType
  linkId := original.id
  linkPartitionId := partitionId
  linkGlobalPosition := original.globalPosition

/-- The last of the originals that has the identifier of an event. -/
def namesake (originals : List Event) (event : Event) : Event :=
  (originals.reverse.find? (·.id = event.id)).getD event

variable {originals : List Event} {event other : Event} {leaves : LeafKey → Option Partition}

theorem leafId?_of_place {context streamName : String} (hcontext : event.context = some context)
    (hname : event.streamName = some streamName) :
    event.leafId? leaves = (leaves ⟨context, streamName, event.type⟩).map (·.id) := by
  unfold leafId? leafKey?
  rw [hcontext, hname]
  rfl

/-- An event that nothing can be looked up for has no identifier or no leaf. -/
theorem lacks_of_bare
    (bare : ∀ id context streamName, event.id = some id → event.context = some context →
      event.streamName = some streamName → False) :
    event.id = none ∨ event.leafId? leaves = none := by
  cases named : event.id with
  | none => exact .inl rfl
  | some id =>
      refine .inr ?_
      unfold leafId? leafKey?
      split
      · rename_i context streamName hcontext hname
        exact (bare id context streamName named hcontext hname).elim
      · rfl

theorem find?_namesake (member : event ∈ originals) :
    originals.reverse.find? (·.id = event.id) = some (event.namesake originals) := by
  have found : (originals.reverse.find? (·.id = event.id)).isSome = true :=
    List.find?_isSome.2 ⟨event, List.mem_reverse.2 member, decide_eq_true rfl⟩
  obtain ⟨last, there⟩ := Option.isSome_iff_exists.1 found
  rw [namesake, there, Option.getD_some]

theorem namesake_mem (member : event ∈ originals) : event.namesake originals ∈ originals :=
  List.mem_reverse.1 (List.mem_of_find?_eq_some (find?_namesake member))

theorem id_namesake (member : event ∈ originals) : (event.namesake originals).id = event.id := by
  simpa using List.find?_some (find?_namesake member)

theorem namesake_congr (member : event ∈ originals) (member' : other ∈ originals)
    (same : event.id = other.id) : event.namesake originals = other.namesake originals := by
  have found := find?_namesake member
  rw [same, find?_namesake member'] at found
  exact (Option.some.inj found).symm

/-- All links name the leaves of their own originals exactly if originals with the same identifier
lie in the same leaf. -/
theorem map_linkInto_namesake_iff :
    (originals.map fun o => o.linkInto ((o.namesake originals).leafId? leaves)) =
        (originals.map fun o => o.linkInto (o.leafId? leaves)) ↔
      ∀ a ∈ originals, ∀ b ∈ originals, a.id = b.id → a.leafId? leaves = b.leafId? leaves := by
  rw [List.map_inj_left]
  constructor
  · intro own a ha b hb same
    have here : (a.namesake originals).leafId? leaves = a.leafId? leaves :=
      congrArg Event.linkPartitionId (own a ha)
    have there : (b.namesake originals).leafId? leaves = b.leafId? leaves :=
      congrArg Event.linkPartitionId (own b hb)
    rw [← here, ← there, namesake_congr ha hb same]
  · intro agree o ho
    rw [agree _ (namesake_mem ho) o ho (id_namesake ho)]

end Event

/-! ## The leaves that are handed on -/

namespace Journal

variable {δ : Type} {db : Database δ} {leaves : δ → LeafKey → Option Partition}
  {cache : LeafCache} {d : δ} {said : List Exchange}

/-- The record goes on with nothing but lookups. -/
def LooksUp (said said' : List Exchange) : Prop :=
  ∃ asked : List Exchange, said' = said ++ asked ∧ ∀ e ∈ asked, e.statement.isLookup = true

theorem LooksUp.refl (said : List Exchange) : LooksUp said said :=
  ⟨[], (List.append_nil said).symm, List.forall_mem_nil _⟩

theorem LooksUp.trans {said said' said'' : List Exchange} (h : LooksUp said said')
    (h' : LooksUp said' said'') : LooksUp said said'' := by
  obtain ⟨asked, rfl, lookups⟩ := h
  obtain ⟨asked', rfl, lookups'⟩ := h'
  exact ⟨asked ++ asked', List.append_assoc _ _ _, List.forall_mem_append.2 ⟨lookups, lookups'⟩⟩

/-- A leaf is found if there is one. -/
theorem ends_findLeaf_recording (locates : db.Locates leaves) (agrees : cache.Agrees (leaves d))
    (key : LeafKey) (said : List Exchange) :
    Ends db.recording (Catalog.findLeaf key) cache (d, said)
      (fun found cache' x => found = leaves d key ∧ leaves x.1 = leaves d ∧
        cache'.Agrees (leaves d) ∧ LooksUp said x.2)
      (fun _ _ _ => False) := by
  unfold Catalog.findLeaf
  simp only [ends_bind, ends_state]
  split
  · rename_i leaf kept
    exact (ends_pure _).2 ⟨(agrees key leaf kept).symm, rfl, agrees, .refl said⟩
  · obtain ⟨rows, d', answered, first, same⟩ := locates key d
    unfold Catalog.findPartition
    simp only [ends_bind, ends_pure]
    refine (ends_ask_of_ok (Database.answer_recording answered said)).2 ?_
    have asked : LooksUp said (said ++ [⟨.findPartition key.toPartitionKey, .ok rows⟩]) :=
      ⟨_, rfl, List.forall_mem_singleton.2 rfl⟩
    rw [first]
    split
    · rename_i leaf there
      simp only [ends_bind, ends_modify, ends_pure]
      exact ⟨trivial, same, agrees.insert there, asked⟩
    · simp only [ends_pure]
      exact ⟨trivial, same, agrees, asked⟩

/-- The partition that is known of an identifier after the originals have been looked up: that of
the last original that has it, and else the one that was known before. -/
def lastLeafId (leaves : LeafKey → Option Partition) (originals : List Event)
    (known : PartitionsById) (id : Uuid) : Option Int64 :=
  match originals.reverse.find? (·.id = some id) with
  | some original => original.leafId? leaves
  | none => known.lookup id

theorem lastLeafId_cons {event : Event} {originals : List Event} {known : PartitionsById}
    {leaves : LeafKey → Option Partition} {name : Uuid} {partitionId : Int64}
    (named : event.id = some name) (held : event.leafId? leaves = some partitionId) (id : Uuid) :
    lastLeafId leaves originals ((name, partitionId) :: known) id =
      lastLeafId leaves (event :: originals) known id := by
  unfold lastLeafId
  rw [List.reverse_cons, List.find?_append]
  cases originals.reverse.find? (·.id = some id) with
  | some original => rfl
  | none =>
      by_cases same : id = name
      · subst same
        simp [named, held]
      · have other : (id == name) = false := by simpa using same
        simp [named, List.lookup_cons, other, Ne.symm same]

/-- Where all originals can be looked up, the leaf of the last one is known under an identifier.
Otherwise the call is refused. -/
theorem ends_locate_recording (locates : db.Locates leaves) (originals : List Event) :
    ∀ (known : PartitionsById) (cache : LeafCache) (d : δ) (said : List Exchange),
      cache.Agrees (leaves d) →
      Ends db.recording (locate known originals) cache (d, said)
        (fun partitions _ x =>
          (∀ original ∈ originals, original.id.isSome = true ∧
            (original.leafId? (leaves d)).isSome = true) ∧
          (∀ id, partitions.lookup id = lastLeafId (leaves d) originals known id) ∧
          LooksUp said x.2)
        (fun cause _ x =>
          (∃ original ∈ originals, original.id = none ∨ original.leafId? (leaves d) = none) ∧
          (∃ text, cause = .error (.invalidRequest text)) ∧ LooksUp said x.2) := by
  -- what is known before is general, because the first original is known when the rest is looked up
  induction originals with
  | nil =>
      intro known cache d said agrees
      exact (ends_pure known).2 ⟨List.forall_mem_nil _, fun _ => rfl, .refl said⟩
  | cons event rest ih =>
      intro known cache d said agrees
      unfold locate
      split
      · rename_i id context streamName named hcontext hname
        have placed : event.leafId? (leaves d) = _ := Event.leafId?_of_place hcontext hname
        rw [ends_bind]
        refine (ends_findLeaf_recording locates agrees _ said).mono ?_ fun _ _ _ never => never.elim
        rintro _ cache' ⟨d', said'⟩ ⟨rfl, same, agrees', looked⟩
        dsimp only at same looked
        split
        · rename_i leaf there
          have held : event.leafId? (leaves d) = some leaf.id := by
            rw [placed, there, Option.map_some]
          rw [← same] at agrees'
          refine (ih ((id, leaf.id) :: known) cache' d' said' agrees').mono ?_ ?_
          · rintro partitions _ x ⟨located, known', looked'⟩
            rw [same] at located known'
            refine ⟨List.forall_mem_cons.2 ⟨⟨by rw [named]; rfl, by rw [held]; rfl⟩, located⟩,
              fun other => ?_, looked.trans looked'⟩
            rw [known', lastLeafId_cons named held]
          · rintro cause _ x ⟨⟨original, member, lacks⟩, refused, looked'⟩
            rw [same] at lacks
            exact ⟨⟨original, List.mem_cons_of_mem _ member, lacks⟩, refused, looked.trans looked'⟩
        · rename_i none
          refine (ends_fail _).2 ⟨⟨event, List.mem_cons_self, .inr ?_⟩, ⟨_, rfl⟩, looked⟩
          rw [placed, none, Option.map_none]
      · rename_i bare
        exact (ends_fail _).2
          ⟨⟨event, List.mem_cons_self, Event.lacks_of_bare bare⟩, ⟨_, rfl⟩, .refl said⟩

/-! ## The links that are made -/

/-- What has been said at last is that the events, as the transform and the chain have shaped
them, are inserted one after the other and committed. What the chain makes of the answered rows
is shown. -/
def Committed (chain : MiddlewareChain) (transform : EventTransform) (stream : Stream)
    (events shown : List Event) (said : List Exchange) : Prop :=
  ∃ front revisions shaped steps rows,
    said = front ++ (Batch.opening stream revisions ++ steps ++ [⟨.commit, .ok ()⟩]) ∧
    List.Forall₂ (fun event shaped => chain.shape transform event = .ok shaped) events shaped ∧
    Batch.Inserts stream (Revision.number revisions.head? + 1) shaped steps rows ∧
    List.Forall₂ (fun row event => chain.unshape row.toEvent = .ok event) rows shown

/-- A call that returns has committed its batch. -/
theorem ends_appendWith_recording (j : Journal) (transform : EventTransform) (batch : Batch)
    (cache : LeafCache) (x : δ × List Exchange) :
    Ends db.recording (j.appendWith transform batch) cache x
      (fun shown _ x => Committed j.chain transform batch.stream batch.events shown x.2)
      (fun _ _ _ => True) := by
  unfold appendWith transact
  refine Ends.transact_of_attempts ?_ cache x
  rintro s ⟨d, said⟩
  rw [ends_inTransaction]
  refine Ends.ask_recording (fun _ d => ?_) fun _ _ => trivial
  refine Ends.ask_recording (fun _ d => ?_) fun _ _ => trivial
  unfold Batch.append
  rw [ends_bind]
  refine Ends.check (fun _ _ => ?_) fun _ _ => trivial
  rw [ends_bind]
  refine Ends.ask_recording (fun _ d => ?_) fun _ _ => trivial
  rw [ends_bind]
  refine Ends.ask_recording (fun revisions d => ?_) fun _ _ => trivial
  refine (Batch.ends_append_told j.chain transform batch revisions s d _).mono ?_
    fun _ _ _ _ => trivial
  rintro shown s ⟨d, _⟩ ⟨-, shaped, steps, rows, shapes, inserts, reads, rfl⟩
  refine Ends.ask_recording (fun _ d => ?_) fun _ _ => trivial
  refine ⟨said, revisions, shaped, steps, rows, ?_, Batch.prepare_eq_ok_iff.1 shapes, inserts,
    Batch.outcome_deserializeAll_rows.1 reads⟩
  simp [Batch.opening, Exchange.isolated, Exchange.locked, Exchange.lastRead]

theorem linkable_of_checkTargets {events : List Event} (h : checkTargets events = .ok ()) :
    ∀ event ∈ events, event.isPersisted = true ∧ event.isLink = false := by
  induction events with
  | nil => exact List.forall_mem_nil _
  | cons event rest ih =>
      unfold checkTargets at h
      split at h
      · cases h
      · rename_i persisted
        split at h
        · cases h
        · rename_i original
          exact List.forall_mem_cons.2 ⟨⟨by simpa using persisted, by simpa using original⟩, ih h⟩

theorem refused_of_checkTargets {events : List Event} {cause : JournalError}
    (h : checkTargets events = .error cause) :
    (∃ event ∈ events, event.isPersisted = false ∨ event.isLink = true) ∧
      ∃ text, cause = .invalidRequest text := by
  induction events with
  | nil => cases h
  | cons event rest ih =>
      unfold checkTargets at h
      split at h
      · rename_i bare
        cases h
        exact ⟨⟨event, List.mem_cons_self, .inl (by simpa using bare)⟩, _, rfl⟩
      · split at h
        · rename_i link
          cases h
          exact ⟨⟨event, List.mem_cons_self, .inr link⟩, _, rfl⟩
        · obtain ⟨⟨other, member, lacks⟩, refused⟩ := ih h
          exact ⟨⟨other, List.mem_cons_of_mem _ member, lacks⟩, refused⟩

/-- The link to an original names the leaf of the last original with its identifier. -/
theorem linkFor_eq_ok {leaves : LeafKey → Option Partition} {originals : List Event}
    {partitions : PartitionsById} {original : Event}
    (linkable : ∀ original ∈ originals, original.Linkable leaves)
    (known : ∀ id, partitions.lookup id = lastLeafId leaves originals [] id)
    (member : original ∈ originals) :
    linkFor partitions original =
      .ok (original.linkInto ((original.namesake originals).leafId? leaves)) := by
  have persisted := (linkable original member).persisted
  unfold Event.isPersisted at persisted
  obtain ⟨hid, hposition⟩ := Bool.and_eq_true_iff.1 persisted
  obtain ⟨id, named⟩ := Option.isSome_iff_exists.1 hid
  obtain ⟨position, placed⟩ := Option.isSome_iff_exists.1 hposition
  have last := Event.find?_namesake member
  obtain ⟨leafId, held⟩ := Option.isSome_iff_exists.1
    (linkable _ (Event.namesake_mem member)).held
  rw [named] at last
  have found : partitions.lookup id = some leafId := by
    rw [known, lastLeafId, last]
    exact held
  unfold linkFor LinkDraft.target LinkDraft.inPartition LinkDraft.build
  simp only [named, placed, Option.bind_some, found]
  rw [held, Event.linkInto, named, placed]
  rfl

/-- The links to originals, as they are made. -/
def linksTo (leaves : LeafKey → Option Partition) (originals : List Event) : List Event :=
  originals.map fun original => original.linkInto ((original.namesake originals).leafId? leaves)

/-- To commit originals as links is to commit the links. -/
theorem Committed.links {leaves : LeafKey → Option Partition} {originals shown : List Event}
    {partitions : PartitionsById} {chain : MiddlewareChain} {stream : Stream}
    (h : Committed chain (linkFor partitions) stream originals shown said)
    (linkable : ∀ original ∈ originals, original.Linkable leaves)
    (known : ∀ id, partitions.lookup id = lastLeafId leaves originals [] id) :
    Committed chain .ok stream (linksTo leaves originals) shown said := by
  obtain ⟨front, revisions, shaped, steps, rows, ended, shapes, inserts, reads⟩ := h
  refine ⟨front, revisions, shaped, steps, rows, ended, ?_, inserts, reads⟩
  rw [linksTo, List.forall₂_map_left_iff]
  have made := (List.forall₂_and_left _ _).2
    ⟨fun _ member => linkFor_eq_ok linkable known member, shapes⟩
  refine made.imp fun original event both => ?_
  rw [← both.2, MiddlewareChain.shape, MiddlewareChain.shape, both.1]

theorem ends_linkTo_recording (locates : db.Locates leaves) (j : Journal) (targets : Batch)
    (agrees : cache.Agrees (leaves d)) :
    Ends db.recording (j.linkTo targets) cache (d, [])
      (fun shown _ x => (∀ original ∈ targets.events, original.Linkable (leaves d)) ∧
        Committed j.chain .ok targets.stream (linksTo (leaves d) targets.events) shown x.2)
      (fun cause _ x => (∃ original ∈ targets.events, ¬original.Linkable (leaves d)) →
        (∃ text, cause = .error (.invalidRequest text)) ∧
          ∀ e ∈ x.2, e.statement.isLookup = true) := by
  unfold linkTo
  rw [ends_bind]
  refine Ends.check (fun _ allowed => ?_) fun cause refused => ?_
  · have plain := linkable_of_checkTargets allowed
    rw [ends_bind]
    refine (ends_locate_recording locates targets.events [] cache d [] agrees).mono ?_ ?_
    · rintro partitions s x ⟨located, known, -⟩
      have linkable : ∀ original ∈ targets.events, original.Linkable (leaves d) :=
        fun original member =>
          ⟨(plain original member).1, (plain original member).2, (located original member).2⟩
      refine (ends_appendWith_recording j (linkFor partitions) targets s x).mono ?_ ?_
      · exact fun shown _ _ committed => ⟨linkable, committed.links linkable known⟩
      · rintro cause _ _ - ⟨original, member, lacks⟩
        exact absurd (linkable original member) lacks
    · rintro cause _ ⟨d', said⟩ ⟨-, refused, asked, same, lookups⟩ -
      exact ⟨refused, same ▸ lookups⟩
  · obtain ⟨-, text, rfl⟩ := refused_of_checkTargets refused
    exact fun _ => ⟨⟨text, rfl⟩, List.forall_mem_nil _⟩

/-- **What a link names.** A call to link to events is refused before a transaction is begun if one
of them is not stored, is a link or has no leaf. Otherwise, if it returns, then at last the links
to the events, as the chain shapes them, have been inserted one by one and committed: a link has
the type of links and no payloads, and names the identifier and the position of its original.
Each link also names the leaf of its original exactly if originals with the same identifier lie
in the same leaf, because otherwise it names the leaf of the last of them. -/
theorem linkTo_names_leaves_iff (locates : db.Locates leaves) (j : Journal) (targets : Batch)
    (agrees : cache.Agrees (leaves d)) :
    ∃ result cache' d', (j.linkTo targets).runOn db cache d = ((result, cache'), d') ∧
      let said := ((j.linkTo targets).start cache).exchanges db d
      let links := linksTo (leaves d) targets.events
      ((∃ original ∈ targets.events, ¬original.Linkable (leaves d)) →
        (∃ text, result = .error (.error (.invalidRequest text))) ∧
          ∀ e ∈ said, e.statement.isLookup = true) ∧
      (∀ shown, result = .ok shown →
        (∀ original ∈ targets.events, original.Linkable (leaves d)) ∧
        Committed j.chain .ok targets.stream links shown said) ∧
      ((links = targets.events.map fun original =>
          original.linkInto (original.leafId? (leaves d))) ↔
        ∀ a ∈ targets.events, ∀ b ∈ targets.events, a.id = b.id →
          a.leafId? (leaves d) = b.leafId? (leaves d)) := by
  have ends := ends_linkTo_recording locates j targets agrees
  rcases run : (j.linkTo targets).runOn db cache d with ⟨⟨result, cache'⟩, d'⟩
  refine ⟨result, cache', d', rfl, ?_⟩
  intro said links
  have recorded := runOn_recording run
  refine ⟨fun lacks => ?_, fun shown returned => ?_, Event.map_linkInto_namesake_iff⟩
  · cases result with
    | ok shown =>
        obtain ⟨original, member, unfit⟩ := lacks
        exact absurd (((ends_of_runOn_ok recorded).1 ends).1 original member) unfit
    | error cause =>
        obtain ⟨⟨text, rfl⟩, lookups⟩ := (ends_of_runOn_error recorded).1 ends lacks
        exact ⟨⟨text, rfl⟩, lookups⟩
  · subst returned
    exact (ends_of_runOn_ok recorded).1 ends

end Journal

/-! ## Reports of two orders -/

/-- The leaf of a key, as a transaction sees it. -/
def LeafTable.leafFor (t : LeafTable) (key : LeafKey) : Option Partition :=
  (t.visible.partitions.filter (·.key = key.toPartitionKey)).head?

theorem LeafTable.locates : LeafTable.database.Locates LeafTable.leafFor :=
  fun _ _ => ⟨_, _, rfl, rfl, rfl⟩

namespace Journal

/-- Links are made without a middleware. -/
def reporting : Journal where
  nameTries := 1

/-- Two orders of different types, under the given identifiers, are noted in a report. -/
def noted (first second : Uuid) : Batch where
  stream := ⟨"Report", "Noted", "all", .regular⟩
  events :=
    let order : Event :=
      { type := "A", context := some "Order", streamName := some "Created", streamId := some "1" }
    [{ order with id := some first, globalPosition := some 1 },
      { order with id := some second, globalPosition := some 2, type := "B" }]

/-- A leaf for each type of orders, and one for the links of the report. -/
def twoLeaves : LeafTable where
  stored :=
    { partitions := [⟨3, "Order", some "Created", some "A", "event_types_1"⟩,
        ⟨4, "Order", some "Created", some "B", "event_types_2"⟩,
        ⟨5, "Report", some "Noted", some linkType, "event_types_3"⟩] }

/-- Two orders with different identifiers are linked to by their own leaves. -/
theorem linkTo_names_two_leaves :
    LeafTable.database.Locates LeafTable.leafFor ∧
    LeafCache.Agrees {} twoLeaves.leafFor ∧
    ∃ shown, ((reporting.linkTo (noted ⟨1⟩ ⟨2⟩)).runOn LeafTable.database {} twoLeaves).1.1 =
        .ok shown ∧
      Committed [] .ok (noted ⟨1⟩ ⟨2⟩).stream
        [{ type := linkType, linkId := some ⟨1⟩, linkPartitionId := some 3,
            linkGlobalPosition := some 1 },
          { type := linkType, linkId := some ⟨2⟩, linkPartitionId := some 4,
            linkGlobalPosition := some 2 }]
        shown (((reporting.linkTo (noted ⟨1⟩ ⟨2⟩)).start {}).exchanges LeafTable.database
          twoLeaves) := by
  have agrees : LeafCache.Agrees {} twoLeaves.leafFor := nofun
  refine ⟨LeafTable.locates, agrees, ?_⟩
  obtain ⟨result, cache, t, run, -, committed, own⟩ :=
    linkTo_names_leaves_iff LeafTable.locates reporting (noted ⟨1⟩ ⟨2⟩) agrees
  have returns : ((reporting.linkTo (noted ⟨1⟩ ⟨2⟩)).runOn LeafTable.database {}
      twoLeaves).1.1.isOk = true := by decide +kernel
  rw [run] at returns ⊢
  cases result with
  | error cause => cases returns
  | ok shown =>
      have links := own.2 (by decide)
      refine ⟨shown, rfl, ?_⟩
      have made := (committed shown rfl).2
      rw [links] at made
      exact made

/-- Two orders with one identifier are both linked to by the leaf of the second one, although the
first one lies in another. -/
theorem namesakes_name_one_leaf :
    let orders := noted ⟨1⟩ ⟨1⟩
    (∀ order ∈ orders.events, order.Linkable twoLeaves.leafFor) ∧
    orders.events.map (·.leafId? twoLeaves.leafFor) = [some 3, some 4] ∧
    (((reporting.linkTo orders).runOn LeafTable.database {} twoLeaves).1.1.toOption.map
      (·.map fun link => (link.linkPartitionId, link.linkGlobalPosition))) =
        some [(some 4, some 1), (some 4, some 2)] := by
  refine ⟨?_, by decide, by decide +kernel⟩
  exact List.forall_mem_cons.2 ⟨⟨by decide, by decide, by decide⟩,
    List.forall_mem_singleton.2 ⟨by decide, by decide, by decide⟩⟩

end Journal

end EventJournal

import EventJournal.Proofs.Table.Appends

/-!
# How often an append stores its events

A commit whose answer is lost may have taken effect. The transaction loop cannot know and
runs the unit once more over a new connection, so that the events of the call may be
stored a second time although the call returns them once. How often they are stored is
therefore told together with the number of rows that were stored unheard: every commit
that takes effect stores one full copy of the batches, at most one of them unheard if the
call returns, and the events are stored once exactly if no row was stored unheard.

## Main results

* `EventTable.adds_append`, `EventTable.adds_appendAll` — what one run of a unit adds.
* `EventTable.Adds.ends_transact` — the copies that a call leaves behind.
* `EventTable.append_stores_once_iff` — when a call that returns has stored its events once.
-/

namespace EventJournal

/-! ## What is persisted -/

namespace Batch

/-- The rows hold the events of a batch as they are stored, each once, and the events are
what the middlewares make of the rows. -/
structure Persisted (chain : MiddlewareChain) (transform : EventTransform) (batch : Batch)
    (rows : List StoredEvent) (events : List Event) : Prop where
  stored : ∃ prepared first, prepare transform chain batch.events = .ok prepared ∧
    StoredEvent.HoldAll batch.stream first prepared rows
  returned : MiddlewareChain.outcome (chain.deserializeAll (rows.map StoredEvent.toEvent)) =
    .ok events

/-- The rows hold the events of batches, one batch after the other. -/
inductive AllPersisted (chain : MiddlewareChain) (transform : EventTransform) :
    List Batch → List StoredEvent → List (List Event) → Prop
  | nil : AllPersisted chain transform [] [] []
  | cons {batch : Batch} {rows : List StoredEvent} {events : List Event} {batches : List Batch}
      {others : List StoredEvent} {results : List (List Event)}
      (first : batch.Persisted chain transform rows events)
      (rest : AllPersisted chain transform batches others results) :
      AllPersisted chain transform (batch :: batches) (rows ++ others) (events :: results)

end Batch

namespace EventTable

open EventJournal.Action

/-! ## What one run of a unit adds -/

variable {c : Circumstances} {σ α : Type} {stored added : List StoredEvent} {count : Nat}
  {s : σ} {t : EventTable}

/-- The rows stored, and how many of them were stored unheard. -/
def AtRest (stored : List StoredEvent) (count : Nat) (t : EventTable) : Prop :=
  Keeps (fun rows _ unheard => rows = stored ∧ unheard = count) t

/-- A transaction is open that has added rows to the stored ones. -/
structure Adding (stored : List StoredEvent) (count : Nat) (added : List StoredEvent)
    (t : EventTable) : Prop where
  atRest : AtRest stored count t
  working : t.working = some (stored ++ added)

theorem AtRest.spared {u : EventTable} (h : AtRest stored count t) (spared : Spared t u) :
    AtRest stored count u :=
  ⟨spared.stored.trans h.1, spared.unacknowledged.trans h.2⟩

theorem Adding.grow {rows : List StoredEvent} {u : EventTable} (h : Adding stored count added t)
    (grown : Grown t rows u) : Adding stored count (added ++ rows) u where
  atRest := h.atRest.spared grown.spared
  working := by rw [grown.working, visible_of_working h.working, List.append_assoc]

/-- Each run of a unit adds rows that fit its result, or ends and adds none. -/
def Adds (c : Circumstances) (unit : Action σ α) (fits : α → List StoredEvent → Prop) : Prop :=
  ∀ stored count added s t, Adding stored count added t →
    Ends (database c) unit s t
      (fun value _ t => ∃ rows, fits value rows ∧ Adding stored count (added ++ rows) t)
      (fun _ _ t => AtRest stored count t)

theorem Appended.persisted {chain : MiddlewareChain} {transform : EventTransform} {batch : Batch}
    {events : List Event} {rows : List StoredEvent} {u : EventTable}
    (h : Appended c chain transform batch t events rows u) :
    batch.Persisted chain transform rows events := by
  obtain ⟨prepared, first, shaped, -, held⟩ := h.held
  exact ⟨⟨prepared, first.toInt, shaped, held⟩, h.returned⟩

/-- A run of an append adds one row for each event of the batch. -/
theorem adds_append (chain : MiddlewareChain) (transform : EventTransform) (batch : Batch) :
    Adds c (Batch.append chain transform batch : Action σ _)
      fun events rows => batch.Persisted chain transform rows events := by
  intro stored count added s t h
  apply Ends.mono (ends_append chain transform batch h.working)
  · intro events s u got
    obtain ⟨rows, appended⟩ := got
    exact ⟨rows, appended.persisted, h.grow appended.grown⟩
  · exact fun _ _ _ spared => h.atRest.spared spared

/-- A run of several appends adds the rows of one batch after the other. -/
theorem adds_appendAll (chain : MiddlewareChain) (transform : EventTransform)
    (batches : List Batch) :
    Adds c (Batch.appendAll chain transform batches : Action σ _)
      fun results rows => Batch.AllPersisted chain transform batches rows results := by
  unfold Batch.appendAll
  induction batches with
  | nil =>
      intro stored count added s t h
      rw [ends_mapM_nil]
      exact ⟨[], .nil, by rwa [List.append_nil]⟩
  | cons batch rest ih =>
      intro stored count added s t h
      rw [ends_mapM_cons]
      refine (adds_append chain transform batch stored count added s t h).mono ?_ fun _ _ _ h => h
      intro events s t got
      obtain ⟨rows, persisted, h⟩ := got
      refine (ih stored count (added ++ rows) s t h).mono ?_ fun _ _ _ h => h
      intro results s t got
      obtain ⟨others, all, h⟩ := got
      exact ⟨rows ++ others, .cons persisted all, by rwa [List.append_assoc] at h⟩

/-! ## What a call leaves behind -/

/-- Copies of rows that fit a result, up to a number of them. -/
def Copies (fits : α → List StoredEvent → Prop) (bound : Nat) (copies : List (List StoredEvent)) :
    Prop :=
  copies.length ≤ bound ∧ ∀ copy ∈ copies, ∃ value, fits value copy

/-- Copies were stored unheard, up to a number of them. -/
def Unheard (fits : α → List StoredEvent → Prop) (bound : Nat) (stored : List StoredEvent)
    (count : Nat) (t : EventTable) : Prop :=
  ∃ copies, Copies fits bound copies ∧
    AtRest (stored ++ copies.flatten) (count + copies.flatten.length) t

variable {fits : α → List StoredEvent → Prop} {bound : Nat}

theorem Copies.imp {β : Type} {suits : β → List StoredEvent → Prop}
    {copies : List (List StoredEvent)} (h : Copies fits bound copies)
    (suited : ∀ value rows, fits value rows → ∃ value, suits value rows) :
    Copies suits bound copies := by
  refine ⟨h.1, fun copy there => ?_⟩
  obtain ⟨value, good⟩ := h.2 copy there
  exact suited value copy good

theorem Unheard.none (h : AtRest stored count t) : Unheard fits bound stored count t :=
  ⟨[], ⟨Nat.zero_le _, fun _ there => nomatch there⟩, by simpa using h⟩

theorem Unheard.mono {larger : Nat} (h : Unheard fits bound stored count t)
    (le : bound ≤ larger) : Unheard fits larger stored count t := by
  obtain ⟨copies, ⟨few, good⟩, rest⟩ := h
  exact ⟨copies, ⟨Nat.le_trans few le, good⟩, rest⟩

theorem Adding.commit (h : Adding stored count added t) :
    AtRest (stored ++ added) count t.tick.commit :=
  ⟨visible_of_working h.working, h.atRest.2⟩

theorem Adding.commitUnheard (h : Adding stored count added t) :
    AtRest (stored ++ added) (count + added.length) t.tick.commitUnheard := by
  refine ⟨visible_of_working h.working, ?_⟩
  show t.unacknowledged + (t.visible.length - t.stored.length) = count + added.length
  rw [visible_of_working h.working, h.atRest.1, h.atRest.2, List.length_append]
  omega

/-- One attempt stores its rows or nothing; if it fails, it may have stored them unheard. -/
theorem Adds.ends_inTransaction {unit : Action σ α} (adds : Adds c unit fits)
    (h : AtRest stored count t) :
    Ends (database c) (inTransaction .serializable unit) s t
      (fun value _ t => ∃ rows, fits value rows ∧ AtRest (stored ++ rows) count t)
      (fun cause _ t => AtRest stored count t ∨ ∃ value rows text, fits value rows ∧
        cause = .error (.connectionLost text) ∧
        AtRest (stored ++ rows) (count + rows.length) t) := by
  refine Ends.mono (ends_inTransaction_of_unit
    (fun value t => ∃ rows, fits value rows ∧ Adding stored count rows t) ?_ h) ?_ ?_
  · intro s t fresh h
    refine (adds stored count [] s t ⟨h, ?_⟩).mono ?_ fun _ _ _ h => h
    · rw [fresh, List.append_nil]
      exact congrArg some h.1
    · intro value s t got
      obtain ⟨rows, good, adding⟩ := got
      exact ⟨adding.atRest, rows, good, adding⟩
  · intro value s _ got
    obtain ⟨t, ⟨rows, good, adding⟩, rfl⟩ := got
    exact ⟨rows, good, adding.commit⟩
  · intro cause s t got
    rcases got with h | ⟨value, t, text, ⟨rows, good, adding⟩, same, rfl⟩
    · exact .inl h
    · exact .inr ⟨value, rows, text, good, same, adding.commitUnheard⟩

/-- Every attempt whose commit takes effect leaves one copy behind. A call that returns has
stored the rows of its last attempt, and at most one copy before them. -/
theorem Adds.ends_transact {unit : Action LeafCache α} (adds : Adds c unit fits) (j : Journal)
    (s : LeafCache) (h : AtRest stored count t) :
    Ends (database c) (j.transact unit) s t
      (fun value _ t => ∃ copies rows, Copies fits 1 copies ∧ fits value rows ∧
        AtRest (stored ++ copies.flatten ++ rows) (count + copies.flatten.length) t)
      (fun _ _ t => Unheard fits 2 stored count t) := by
  refine Ends.attempts
    (fun _ reconnected _ t => Unheard fits reconnected.toNat stored count t) ?_ 1 false s t
    (Unheard.none h)
  intro attempt reconnected s t got
  obtain ⟨copies, ⟨few, good⟩, h⟩ := got
  have one : reconnected.toNat ≤ 1 := Bool.toNat_le reconnected
  apply Ends.mono (adds.ends_inTransaction h)
  · intro value s t got
    obtain ⟨rows, fit, h⟩ := got
    exact ⟨copies, rows, ⟨Nat.le_trans few one, good⟩, fit, h⟩
  · intro cause s t got
    rcases got with h | ⟨value, rows, text, fit, rfl, h⟩
    · -- nothing was stored by this attempt, and healing stores nothing
      have kept : Unheard fits reconnected.toNat stored count t := ⟨copies, ⟨few, good⟩, h⟩
      have ended : Unheard fits 2 stored count t := kept.mono (by omega)
      unfold Owed
      split
      · split
        · exact ended
        · exact kept
        · exact kept.mono one
        · apply Ends.mono (ends_healer_keeps j.catalogConfig _ _ s h)
          · exact fun _ _ _ h => ⟨copies, ⟨few, good⟩, h⟩
          · exact fun _ _ _ h => ⟨copies, ⟨by omega, good⟩, h⟩
      · exact ended
    · -- the answer to the commit is lost: a copy more, and the one reconnect is used up
      have more : Unheard fits (reconnected.toNat + 1) stored count t := by
        refine ⟨copies ++ [rows], ⟨by simpa using few, ?_⟩, ?_⟩
        · intro copy there
          rcases List.mem_append.1 there with there | there
          · exact good copy there
          · obtain rfl := List.mem_singleton.1 there
            exact ⟨value, fit⟩
        · rw [List.flatten_append, List.flatten_singleton, List.length_append,
            ← List.append_assoc, ← Nat.add_assoc]
          exact h
      unfold Owed
      dsimp only
      rw [Verdict.of_connectionLost]
      cases reconnected with
      | false => exact more
      | true => exact more

end EventTable

/-! ## Appends -/

/-- A call that appends. -/
inductive AppendCall where
  | append (transform : EventTransform) (batch : Batch)
  | appendMany (batches : List Batch)
  | linkTo (targets : Batch)

namespace AppendCall

def batches : AppendCall → List Batch
  | .append _ batch => [batch]
  | .appendMany batches => batches
  | .linkTo targets => [targets]

/-- The transform that the events of the call go through. -/
def Shapes : AppendCall → EventTransform → Prop
  | .append given _, transform => transform = given
  | .appendMany _, transform => transform = .ok
  | .linkTo _, transform => ∃ partitions, transform = linkFor partitions

/-- The events stored, batch by batch. -/
def perform (j : Journal) : AppendCall → Action LeafCache (List (List Event))
  | .append transform batch => do
      let events ← j.appendWith transform batch
      pure [events]
  | .appendMany batches => j.appendMany batches
  | .linkTo targets => do
      let events ← j.linkTo targets
      pure [events]

end AppendCall

namespace EventTable

open EventJournal.Action

variable {c : Circumstances} {t : EventTable}

/-- Rows that hold the events of batches, in the order of the batches. -/
def Fits (j : Journal) (transform : EventTransform) (batches : List Batch)
    (results : List (List Event)) (rows : List StoredEvent) : Prop :=
  Batch.AllPersisted j.chain transform batches rows results

/-- The rows of an append are those of its one batch. -/
theorem fits_singleton {j : Journal} {transform : EventTransform} {batch : Batch}
    {events : List Event} {rows : List StoredEvent}
    (h : batch.Persisted j.chain transform rows events) :
    Fits j transform [batch] [events] rows :=
  List.append_nil rows ▸ Batch.AllPersisted.cons h .nil

/-- The events of a call that returns are stored once, after at most one copy that was
stored unheard. -/
def Delivered (j : Journal) (transform : EventTransform) (batches : List Batch)
    (stored : List StoredEvent) (count : Nat) (results : List (List Event)) (t : EventTable) :
    Prop :=
  ∃ copies rows, Copies (Fits j transform batches) 1 copies ∧
    Fits j transform batches results rows ∧
      AtRest (stored ++ copies.flatten ++ rows) (count + copies.flatten.length) t

/-- A call without a result leaves behind what was stored unheard. -/
def Undelivered (j : Journal) (transform : EventTransform) (batches : List Batch)
    (stored : List StoredEvent) (count : Nat) (t : EventTable) : Prop :=
  Unheard (Fits j transform batches) 2 stored count t

theorem ends_appendWith (j : Journal) (transform : EventTransform) (batch : Batch)
    {stored : List StoredEvent} {count : Nat} (s : LeafCache) (h : AtRest stored count t) :
    Ends (database c) (j.appendWith transform batch) s t
      (fun events _ t => Delivered j transform [batch] stored count [events] t)
      (fun _ _ t => Undelivered j transform [batch] stored count t) := by
  apply Ends.mono ((adds_append j.chain transform batch).ends_transact j s h)
  · intro events s t got
    obtain ⟨copies, rows, few, persisted, h⟩ := got
    exact ⟨copies, rows, few.imp fun _ _ good => ⟨_, fits_singleton good⟩,
      fits_singleton persisted, h⟩
  · intro cause s t got
    obtain ⟨copies, few, h⟩ := got
    exact ⟨copies, few.imp fun _ _ good => ⟨_, fits_singleton good⟩, h⟩

theorem ends_appendCall (j : Journal) (call : AppendCall) {stored : List StoredEvent} {count : Nat}
    (s : LeafCache) (h : AtRest stored count t) :
    Ends (database c) (call.perform j) s t
      (fun results _ t => ∃ transform, call.Shapes transform ∧
        Delivered j transform call.batches stored count results t)
      (fun _ _ t => ∃ transform, call.Shapes transform ∧
        Undelivered j transform call.batches stored count t) := by
  cases call with
  | append transform batch =>
      simp only [AppendCall.perform, ends_bind, ends_pure]
      exact (ends_appendWith j transform batch s h).mono (fun _ _ _ h => ⟨transform, rfl, h⟩)
        fun _ _ _ h => ⟨transform, rfl, h⟩
  | appendMany batches =>
      exact ((adds_appendAll j.chain .ok batches).ends_transact j s h).mono
        (fun _ _ _ h => ⟨.ok, rfl, h⟩) fun _ _ _ h => ⟨.ok, rfl, h⟩
  | linkTo targets =>
      have untouched : ∀ t, AtRest stored count t → ∃ transform,
          AppendCall.Shapes (.linkTo targets) transform ∧
            Undelivered j transform [targets] stored count t :=
        fun t h => ⟨linkFor [], ⟨[], rfl⟩, .none h⟩
      simp only [AppendCall.perform, Journal.linkTo, ends_bind, ends_pure]
      refine Ends.check (fun _ _ => ?_) fun _ _ => untouched t h
      refine (ends_locate_keeps targets.events [] s t h).mono ?_ fun _ _ t h => untouched t h
      intro partitions s t h
      exact (ends_appendWith j (linkFor partitions) targets s h).mono
        (fun _ _ _ h => ⟨_, ⟨partitions, rfl⟩, h⟩) fun _ _ _ h => ⟨_, ⟨partitions, rfl⟩, h⟩

/-- A call that returns has stored its events once, and at most once more before that, in
full. They are stored exactly once if and only if no row was stored unheard. A call that
does not return has stored nothing but what was stored unheard. -/
theorem append_stores_once_iff (c : Circumstances) (j : Journal) (call : AppendCall)
    (s : LeafCache) (t : EventTable) :
    Ends (database c) (call.perform j) s t
      (fun results _ t' => ∃ transform unheard rows, call.Shapes transform ∧
        Fits j transform call.batches results rows ∧
        (unheard = [] ∨ ∃ others, Fits j transform call.batches others unheard) ∧
        t'.stored = t.stored ++ unheard ++ rows ∧
        t'.unacknowledged = t.unacknowledged + unheard.length ∧
        (t'.stored = t.stored ++ rows ↔ t'.unacknowledged = t.unacknowledged))
      (fun _ _ t' => ∃ transform copies, call.Shapes transform ∧
        Copies (Fits j transform call.batches) 2 copies ∧
        t'.stored = t.stored ++ copies.flatten ∧
        t'.unacknowledged = t.unacknowledged + copies.flatten.length) := by
  have start : AtRest t.stored t.unacknowledged t := ⟨rfl, rfl⟩
  apply Ends.mono (ends_appendCall j call s start)
  · intro results s t' got
    obtain ⟨transform, shapes, copies, rows, ⟨few, good⟩, fit, stored, count⟩ := got
    refine ⟨transform, copies.flatten, rows, shapes, fit, ?_, stored, count, ?_⟩
    · match copies, few with
      | [], _ => exact .inl rfl
      | [copy], _ =>
          obtain ⟨others, fit⟩ := good copy List.mem_cons_self
          exact .inr ⟨others, by rwa [List.flatten_singleton]⟩
    · rw [stored, count]
      constructor
      · intro once
        have := congrArg List.length once
        simp only [List.length_append] at this
        omega
      · intro none
        rw [List.length_eq_zero_iff.1 (by omega : copies.flatten.length = 0), List.append_nil]
  · intro cause s t' got
    obtain ⟨transform, shapes, copies, few, stored, count⟩ := got
    exact ⟨transform, copies, shapes, few, stored, count⟩

/-! ## An event stored twice -/

/-- The answer to the first commit of an append of one event is lost. -/
def lostAnswer : Circumstances :=
  { Circumstances.calm with
    fault := fun number => if number = 6 then some (.io "unexpected end of file") else none
    landed := fun _ => true
    reading := fun
      | _, _, .eventTypeId _ => [1]
      | _, _, s => s.shape.nothing }

/-- One event for an empty stream, without an expectation. -/
def oneEvent : Batch where
  stream := ⟨"sales", "order", "1", .regular⟩
  events := [{ type := "placed" }]

/-- The call returns one event, with revision one, and has stored two. -/
theorem oneEvent_stored_twice :
    let run := (Journal.append { nameTries := 0 } oneEvent).runOn
      (database lostAnswer.truthful) {} {}
    run.1.1.toOption.map (·.map (·.streamRevision)) = some [some 1] ∧
      run.2.stored.map (·.streamRevision) = [0, 1] := by
  decide +kernel

end EventTable

end EventJournal

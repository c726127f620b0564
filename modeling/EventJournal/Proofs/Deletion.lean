import EventJournal.Proofs.Atomicity
import EventJournal.Proofs.Paging
import EventJournal.Proofs.Revisions
import EventJournal.Proofs.Transaction.Conflicts
import EventJournal.Proofs.Transaction.Recording
import Mathlib.Data.List.Perm.Subperm

/-!
# The deletion of an event

The caller of a deletion has a copy of the event, which may have been taken before other
deletions have renumbered its stream. The row that it was taken from is found by what never
changes (`Event.Copies`). It goes, the rows of its stream with a larger revision are counted and
close up behind it (`StoredEvent.ClosesUp`), and nothing else in the table is touched, although
the four statements that do so pick their rows by different columns.

What a deletion does that returns is told in `EventJournal.Proofs.Table.Effects`. Here no
statement fails, so a deletion that does not return has been refused (`Event.Refusal`), for lack
of an address or for the number of rows that it would renumber, and the two accounts say together
when which is the case.

## Main results

* `EventTable.ends_delete_refused` — why a deletion fails where no statement does.
* `EventTable.deleteEvent_closes_up` — what becomes of the rows.
-/

namespace EventJournal

/-! ## Copies of rows -/

/-- The event lacks an identifier, a position or a part of its stream. -/
def Event.LacksAddress (event : Event) : Prop :=
  event.id = none ∨ event.globalPosition = none ∨ event.context = none ∨
    event.streamName = none ∨ event.streamId = none

/-- The event was taken from the row. Its revision and its stream id may be of another time. -/
structure Event.Copies (event : Event) (row : StoredEvent) : Prop where
  id : event.id = some row.id
  position : event.globalPosition = some row.globalPosition
  context : event.context = some row.context
  streamName : event.streamName = some row.streamName
  type : event.type = row.type

/-- What becomes of a row when another one is removed: if it comes after that in the same stream,
its revision is lowered by one. -/
structure StoredEvent.ClosesUp (removed old new : StoredEvent) : Prop where
  revision : new.streamRevision.toInt =
    old.streamRevision.toInt - if old.isLater removed.stream removed.streamRevision then 1 else 0
  rest : new = { old with streamRevision := new.streamRevision }

theorem StoredEvent.closesUp_moveUp (removed old : StoredEvent) :
    removed.ClosesUp old (old.moveUp removed.stream removed.streamRevision) := by
  unfold moveUp
  split
  · rename_i later
    refine ⟨?_, rfl⟩
    -- a later revision is not the least of all, so it is lowered without loss
    have above : removed.streamRevision < old.streamRevision := by
      simp only [isLater, Bool.and_eq_true, decide_eq_true_eq] at later
      exact later.2
    have lower := removed.streamRevision.le_toInt
    have upper := old.streamRevision.toInt_lt
    rw [Int32.lt_iff_toInt_lt] at above
    rw [if_pos later, Int32.toInt_sub, Int32.toInt_one]
    exact Int.bmod_eq_of_le (by omega) (by omega)
  · rename_i other
    exact ⟨by rw [if_neg other, Int.sub_zero], rfl⟩

namespace Event

variable {event : Event} {address : EventAddress} {row : StoredEvent}

theorem address?_eq_none_iff : event.address? = none ↔ event.LacksAddress := by
  unfold address? stream? LacksAddress
  cases event.id <;> cases event.globalPosition <;> cases event.context <;>
    cases event.streamName <;> cases event.streamId <;> simp

theorem stream?_of_address? (there : event.address? = some address) :
    event.stream? = some address.stream := by
  unfold address? at there
  split at there
  · rename_i stream _ _ placed _ _
    cases there
    exact placed
  · cases there

/-- A row is found again at the address of its copies. -/
theorem copies_iff (there : event.address? = some address) :
    event.Copies row ↔ row.isAt address = true ∧ row.id = address.id := by
  unfold address? at there
  split at there
  · rename_i stream id position placed hid hposition
    cases there
    unfold stream? at placed
    split at placed
    · rename_i context name streamId hcontext hname _
      cases placed
      simp only [StoredEvent.isAt, Bool.and_eq_true, decide_eq_true_eq]
      constructor
      · rintro ⟨ofId, ofPosition, ofContext, ofName, ofType⟩
        cases hid.symm.trans ofId
        cases hposition.symm.trans ofPosition
        cases hcontext.symm.trans ofContext
        cases hname.symm.trans ofName
        exact ⟨⟨⟨⟨rfl, rfl⟩, ofType.symm⟩, rfl⟩, rfl⟩
      · rintro ⟨⟨⟨⟨rfl, rfl⟩, ofType⟩, rfl⟩, rfl⟩
        exact ⟨hid, hposition, hcontext, hname, ofType.symm⟩
    · cases placed
  · cases there

/-- Positions tell rows apart, so an event was taken from one row at most. -/
theorem Copies.unique {rows : List StoredEvent} {other : StoredEvent}
    (apart : EventQuery.Distinct .position rows) (member : row ∈ rows) (member' : other ∈ rows)
    (h : event.Copies row) (h' : event.Copies other) : row = other :=
  apart.eq_of_place member member'
    (congrArg Int64.toInt (Option.some.inj (h.position.symm.trans h'.position)))

/-- Why a deletion is refused that no statement fails of. -/
inductive Refusal (limit : Int64) (force : Bool) (event : Event) (rows : List StoredEvent) :
    Abort → Prop
  | bare (lacks : event.address? = none) :
      Refusal limit force event rows (.error .eventNotPersisted)
  | tooMany {address : EventAddress} {row : StoredEvent} (there : event.address? = some address)
      (member : row ∈ rows) (found : row.isAt address = true ∧ row.id = address.id)
      (exceeds : limit <
        Int64.ofNat (rows.countP (·.isLater row.stream row.streamRevision)) ∧ force = false) :
      Refusal limit force event rows (.error (.tooManyRecordsToLock address.stream
        (Int64.ofNat (rows.countP (·.isLater row.stream row.streamRevision)))))

/-- A refusal ends the call: it is nothing that another attempt would mend. -/
theorem Refusal.isSignal {limit : Int64} {force : Bool} {rows : List StoredEvent}
    {cause : JournalError} (h : Refusal limit force event rows (.error cause)) :
    cause.isSignal = false := by
  cases h <;> rfl

/-- An event that has an address is only refused if it was taken from a row. -/
theorem Refusal.copied {limit : Int64} {force : Bool} {rows : List StoredEvent} {cause : Abort}
    (h : Refusal limit force event rows cause) (complete : ¬event.LacksAddress) :
    ∃ row ∈ rows, event.Copies row := by
  cases h with
  | bare lacks => exact absurd (address?_eq_none_iff.1 lacks) complete
  | tooMany there member found _ => exact ⟨_, member, (copies_iff there).2 found⟩

/-- It is then refused for the rows after that one. -/
theorem Refusal.exceeds {limit : Int64} {force : Bool} {rows : List StoredEvent} {cause : Abort}
    (h : Refusal limit force event rows cause) (complete : ¬event.LacksAddress)
    (apart : EventQuery.Distinct .position rows) (member : row ∈ rows) (copies : event.Copies row) :
    (limit < Int64.ofNat (rows.countP (·.isLater row.stream row.streamRevision)) ∧
      force = false) ∧
    ∃ stream, event.stream? = some stream ∧ cause = .error (.tooManyRecordsToLock stream
      (Int64.ofNat (rows.countP (·.isLater row.stream row.streamRevision)))) := by
  cases h with
  | bare lacks => exact absurd (address?_eq_none_iff.1 lacks) complete
  | tooMany there member' found exceeds =>
      cases copies.unique apart member member' ((copies_iff there).2 found)
      exact ⟨exceeds, _, stream?_of_address? there, rfl⟩

theorem checkRenumbering_eq_ok_iff {stream : Stream} {count limit : Int64} {force : Bool} :
    checkRenumbering stream count limit force = .ok () ↔ ¬(limit < count ∧ force = false) := by
  unfold checkRenumbering
  cases force <;> by_cases less : limit < count <;> simp [less]

theorem checkRenumbering_eq_error_iff {stream : Stream} {count limit : Int64} {force : Bool}
    {cause : JournalError} :
    checkRenumbering stream count limit force = .error cause ↔
      (limit < count ∧ force = false) ∧ cause = .tooManyRecordsToLock stream count := by
  unfold checkRenumbering
  cases force <;> by_cases less : limit < count <;> simp [less, eq_comm]

/-! ## Deletions -/

namespace Deletion

variable {limit : Int64} {force value : Bool} {rows rows' : List StoredEvent}

theorem complete (h : event.Deletion limit force rows value rows') : ¬event.LacksAddress := by
  rw [← address?_eq_none_iff]
  cases h with
  | missing there | deleted there =>
      rw [there]
      nofun

/-- The deletion finds nothing exactly if the event was taken from no row. -/
theorem missed_iff (h : event.Deletion limit force rows value rows') :
    value = false ↔ ∀ row ∈ rows, ¬event.Copies row := by
  cases h with
  | missing there none =>
      exact ⟨fun _ row member copies => none row member ((copies_iff there).1 copies), fun _ => rfl⟩
  | deleted there member found =>
      exact ⟨nofun, fun none => absurd ((copies_iff there).2 found) (none _ member)⟩

theorem stored_of_missed (h : event.Deletion limit force rows false rows') : rows' = rows := by
  cases h
  rfl

/-- The row that the event was taken from goes, and the others close up behind it. -/
theorem closes_up (h : event.Deletion limit force rows value rows')
    (apart : EventQuery.Distinct .position rows) (member : row ∈ rows) (copies : event.Copies row) :
    value = true ∧
    ¬(limit < Int64.ofNat (rows.countP (·.isLater row.stream row.streamRevision)) ∧
      force = false) ∧
    ∃ before after, rows = before ++ row :: after ∧
      List.Forall₂ row.ClosesUp (before ++ after) rows' := by
  cases h with
  | missing there none => exact absurd ((copies_iff there).1 copies) (none row member)
  | deleted there member' found allowed =>
      cases copies.unique apart member member' ((copies_iff there).2 found)
      refine ⟨rfl, checkRenumbering_eq_ok_iff.1 allowed, ?_⟩
      obtain ⟨before, after, rfl⟩ := List.append_of_mem member
      refine ⟨before, after, rfl, ?_⟩
      rw [StoredEvent.filter_isAt apart, List.forall₂_map_right_iff]
      exact List.forall₂_same.2 fun old _ => row.closesUp_moveUp old

end Deletion

end Event

/-- The same circumstances, but no statement fails. -/
def Circumstances.steady (c : Circumstances) : Circumstances :=
  { c with fault := fun _ => none, landed := fun _ => false }

namespace EventTable

open EventJournal.Action

variable {c : Circumstances} {σ : Type} {s : σ} {t : EventTable} {rows : List StoredEvent}

/-! ## The unit of a deletion -/

/-- Where no statement fails, a statement that leaves the rows alone is answered. -/
theorem ends_ask_steady {statement : Statement} (h : leavesRows statement = true)
    {ok : statement.Answer → σ → EventTable → Prop} {bad : Abort → σ → EventTable → Prop}
    (answered : ok (c.steady.truthful.reading t.clock t.visible statement) s t.tick) :
    Ends (database c.steady.truthful) (ask statement) s t ok bad := by
  refine ends_ask_of_leavesRows h (fun _ => answered) fun e fault => ?_
  cases fault

/-- Where no statement fails, a deletion fails because it is refused. -/
theorem ends_delete_refused (limit : Int64) (force : Bool) (event : Event)
    (there : t.working = some rows) :
    Ends (database c.steady.truthful) (event.delete limit force) s t (fun _ _ _ => True)
      (fun cause _ _ => event.Refusal limit force rows cause) := by
  have visible := visible_of_working there
  unfold Event.delete
  cases stored : event.address? with
  | none => exact (ends_fail _).2 (.bare stored)
  | some address =>
      simp only [ends_bind]
      refine ends_ask_steady rfl ?_
      simp only [Circumstances.reading_reload, visible]
      split
      · exact (ends_pure false).2 trivial
      · rename_i row others some
        have kept : row ∈ rows.filter fun row => row.isAt address && row.id = address.id := by
          rw [some]
          exact List.mem_cons_self
        obtain ⟨member, found⟩ := List.mem_filter.1 kept
        have found : row.isAt address = true ∧ row.id = address.id := by simpa using found
        have count : c.steady.truthful.reading t.tick.clock t.tick.visible
            (.countLater row.stream row.streamRevision) =
              [Int64.ofNat (rows.countP (·.isLater row.stream row.streamRevision))] := by
          rw [visible_tick, visible]
          rfl
        simp only [ends_bind, ends_pure]
        refine ends_ask_steady rfl ?_
        rw [count]
        -- the statements that change rows are answered, so only the check refuses
        refine (ends_check_ok _).2 (Ends.check (fun _ _ => ?_) fun cause refused => ?_)
        · exact (ends_ask_of_ok rfl).2 ((ends_ask_of_ok rfl).2 trivial)
        · obtain ⟨exceeds, rfl⟩ := Event.checkRenumbering_eq_error_iff.1 refused
          exact .tooMany stored member found exceeds

/-! ## The call -/

/-- Where no statement fails, a call fails as its unit does, if that is nothing to recover from. -/
theorem ends_transact_steady {α : Type} {unit : Action LeafCache α}
    {refuses : List StoredEvent → Abort → Prop}
    (final : ∀ rows cause, refuses rows (.error cause) → cause.isSignal = false)
    (refused : ∀ s t rows, t.working = some rows →
      Ends (database c.steady.truthful) unit s t (fun _ _ _ => True)
        (fun cause _ _ => refuses rows cause))
    (j : Journal) (s : LeafCache) (t : EventTable) :
    Ends (database c.steady.truthful) (j.transact unit) s t (fun _ _ _ => True)
      (fun cause _ _ => refuses t.stored cause) := by
  refine Ends.attempts (fun _ _ _ u => u = t) ?_ 1 false s t rfl
  rintro attempt reconnected s u same
  subst u
  rw [ends_inTransaction, ends_ask_of_ok rfl]
  refine ends_ask_steady rfl ?_
  refine (refused s _ t.stored rfl).mono (fun _ _ _ _ => (ends_ask_of_ok rfl).2 trivial) ?_
  intro cause s u refuse
  unfold Owed
  split
  · rw [Verdict.of_not_isSignal (final _ _ refuse)]
    exact refuse
  · exact refuse

/-- A call whose unit fails at once has sent nothing but the frame of a transaction. -/
theorem isFrame_of_transact_fail {α : Type} {cause : JournalError}
    (final : cause.isSignal = false) (j : Journal) (s : LeafCache) (t : EventTable) :
    ∀ e ∈ ((j.transact (fail cause : Action LeafCache α)).start s).exchanges
      (database c.steady.truthful) t, e.statement.isFrame = true := by
  have ends : Ends (database c.steady.truthful).recording
      (j.transact (fail cause : Action LeafCache α)) s (t, [])
      (fun _ _ x => ∀ e ∈ x.2, e.statement.isFrame = true)
      (fun _ _ x => ∀ e ∈ x.2, e.statement.isFrame = true) := by
    refine Ends.attempts (fun _ _ _ x => x = (t, [])) ?_ 1 false s _ rfl
    rintro attempt reconnected s _ rfl
    rw [ends_inTransaction, ends_ask_of_ok rfl, ends_ask_of_ok rfl, ends_fail]
    unfold Owed
    dsimp only
    rw [Verdict.of_not_isSignal final]
    -- what was said is the opening, the level and the rollback
    refine List.forall_mem_cons.2 ⟨rfl, List.forall_mem_cons.2 ⟨rfl, ?_⟩⟩
    exact List.forall_mem_singleton.2 rfl
  rcases run : (j.transact (fail cause : Action LeafCache α)).runOn (database c.steady.truthful) s t
    with ⟨⟨outcome, s'⟩, t'⟩
  exact Ends.of_recording (Q := fun _ said => ∀ e ∈ said, e.statement.isFrame = true) ends run

/-- Where no statement fails, a call deletes the event or refuses to. -/
theorem ends_deleteEvent_steady (c : Circumstances) (j : Journal) (event : Event) (force : Bool)
    (cache : LeafCache) (t : EventTable) :
    Ends (database c.steady.truthful) (j.deleteEvent event force) cache t
      (fun value _ u =>
        event.Deletion j.config.maxRecordsToLock force t.stored value u.stored)
      (fun cause _ u => u.stored = t.stored ∧
        event.Refusal j.config.maxRecordsToLock force t.stored cause) := by
  have performs : Performs c.steady.settled.truthful
      (event.delete j.config.maxRecordsToLock force : Action LeafCache Bool)
      (event.Deletion j.config.maxRecordsToLock force) := performs_delete _ force event
  have effect := performs.ends_transact j cache t
  have refused := ends_transact_steady (c := c) (fun _ _ => Event.Refusal.isSignal)
    (fun _ _ _ there => ends_delete_refused j.config.maxRecordsToLock force event there) j cache t
  exact (effect.and refused).mono (fun _ _ _ both => both.1) fun _ _ _ both => both

/-! ## What becomes of the rows -/

/-- Positions that are not negative tell no more rows apart than there are such positions. -/
theorem length_le_of_drawn (apart : EventQuery.Distinct .position rows)
    (drawn : ∀ row ∈ rows, 0 ≤ row.globalPosition.toInt) :
    rows.length ≤ Int64.maxValue.toInt.toNat + 1 := by
  have top : Int64.maxValue.toInt.toNat = 2 ^ 63 - 1 := rfl
  have distinct : (rows.map (·.globalPosition.toInt.toNat)).Nodup := by
    refine List.pairwise_map.2 (apart.imp_of_mem fun {a b} ha hb other same => other ?_)
    have := drawn a ha
    have := drawn b hb
    simp only [EventOrder.place]
    omega
  have below : rows.map (·.globalPosition.toInt.toNat) ⊆
      List.range (Int64.maxValue.toInt.toNat + 1) := by
    intro position there
    obtain ⟨row, member, rfl⟩ := List.mem_map.1 there
    have := row.globalPosition.toInt_lt
    have := drawn row member
    rw [List.mem_range]
    omega
  have le := (List.subperm_of_subset distinct below).length_le
  rwa [List.length_map, List.length_range] at le

/-- The rows after one of them are fewer than its positions, so the database counts them. -/
theorem toInt_countLater {row : StoredEvent} (apart : EventQuery.Distinct .position rows)
    (drawn : ∀ row ∈ rows, 0 ≤ row.globalPosition.toInt) (member : row ∈ rows) :
    (Int64.ofNat (rows.countP (·.isLater row.stream row.streamRevision))).toInt =
      rows.countP (·.isLater row.stream row.streamRevision) := by
  have others : rows.countP (·.isLater row.stream row.streamRevision) < rows.length := by
    refine Nat.lt_of_le_of_ne List.countP_le_length fun all => ?_
    have later := List.countP_eq_length.1 all row member
    simp [StoredEvent.isLater] at later
  have := length_le_of_drawn apart drawn
  have top : Int64.maxValue.toInt.toNat = 2 ^ 63 - 1 := rfl
  exact Int64.toInt_ofNat_of_lt (by omega)

/-- Over rows that positions tell apart, and where no statement fails, a deletion is refused of
an event without an address, before a statement with data is sent. It finds nothing exactly if
the event was taken from no row. Otherwise there is a number of rows after the row in its stream:
if that exceeds the limit, and the caller does not force the deletion, it is refused and says the
number, and else the row goes and exactly those rows close up behind it. The number is the one of
the database, and as positions are drawn from zero on, it is exact. -/
theorem deleteEvent_closes_up (c : Circumstances) (j : Journal) (event : Event) (force : Bool)
    (cache : LeafCache) (t : EventTable) (apart : EventQuery.Distinct .position t.stored) :
    ∃ result cache' t',
      (j.deleteEvent event force).runOn (database c.steady.truthful) cache t =
        ((result, cache'), t') ∧
      (event.LacksAddress →
        result = .error (.error (.invalidRequest "only persisted events can be deleted")) ∧
        t'.stored = t.stored ∧
        ∀ e ∈ ((j.deleteEvent event force).start cache).exchanges (database c.steady.truthful) t,
          e.statement.isFrame = true) ∧
      (¬event.LacksAddress →
        (result = .ok false ↔ ∀ row ∈ t.stored, ¬event.Copies row) ∧
        (result = .ok false → t'.stored = t.stored) ∧
        ∀ row ∈ t.stored, event.Copies row →
          let later := t.stored.countP (·.isLater row.stream row.streamRevision)
          let refused := j.config.maxRecordsToLock < Int64.ofNat later ∧ force = false
          (refused → t'.stored = t.stored ∧ ∃ stream, event.stream? = some stream ∧
            result = .error (.error (.tooManyRecordsToLock stream (Int64.ofNat later)))) ∧
          (¬refused → result = .ok true ∧ ∃ before after, t.stored = before ++ row :: after ∧
            List.Forall₂ row.ClosesUp (before ++ after) t'.stored) ∧
          ((∀ row ∈ t.stored, 0 ≤ row.globalPosition.toInt) →
            (Int64.ofNat later).toInt = later)) := by
  have ends := ends_deleteEvent_steady c j event force cache t
  rcases run : (j.deleteEvent event force).runOn (database c.steady.truthful) cache t with
    ⟨⟨result, cache'⟩, t'⟩
  refine ⟨result, cache', t', rfl, fun lacks => ?_, fun complete => ?_⟩
  · have bare := Event.address?_eq_none_iff.2 lacks
    -- the unit fails before it asks for anything
    have unit : j.deleteEvent event force = j.transact (fail .eventNotPersisted) := by
      rw [Journal.deleteEvent, Event.delete, bare]
    cases result with
    | ok value => exact absurd lacks ((ends_of_runOn_ok run).1 ends).complete
    | error cause =>
        obtain ⟨kept, refusal⟩ := (ends_of_runOn_error run).1 ends
        cases refusal with
        | bare =>
            refine ⟨rfl, kept, ?_⟩
            rw [unit]
            exact isFrame_of_transact_fail rfl j cache t
        | tooMany there => exact nomatch bare.symm.trans there
  · cases result with
    | ok value =>
        have deletion := (ends_of_runOn_ok run).1 ends
        refine ⟨?_, ?_, fun row member copies => ⟨fun refused => ?_, fun _ => ?_, fun drawn => ?_⟩⟩
        · rw [Except.ok.injEq, deletion.missed_iff]
        · rintro ⟨⟩
          exact deletion.stored_of_missed
        · exact absurd refused (deletion.closes_up apart member copies).2.1
        · obtain ⟨rfl, -, parts⟩ := deletion.closes_up apart member copies
          exact ⟨rfl, parts⟩
        · exact toInt_countLater apart drawn member
    | error cause =>
        obtain ⟨kept, refusal⟩ := (ends_of_runOn_error run).1 ends
        obtain ⟨source, there, taken⟩ := refusal.copied complete
        refine ⟨⟨nofun, fun none => absurd taken (none source there)⟩, nofun,
          fun row member copies => ⟨fun _ => ?_, fun allowed => ?_, fun drawn => ?_⟩⟩
        · obtain ⟨-, stream, placed, rfl⟩ := refusal.exceeds complete apart member copies
          exact ⟨kept, stream, placed, rfl⟩
        · exact absurd (refusal.exceeds complete apart member copies).1 allowed
        · exact toInt_countLater apart drawn member

/-- The second of three rows goes, of which the caller has a copy with an old revision. -/
theorem deleteEvent_closes_up_stale :
    let rows := [Journal.orderRow 0 3, Journal.orderRow 1 4, Journal.orderRow 2 9]
    let stale : Event := { (Journal.orderRow 1 4).toEvent with streamRevision := some 5 }
    EventQuery.Distinct .position rows ∧
    ∃ cache t', (({ nameTries := 0 } : Journal).deleteEvent stale false).runOn
        (database Circumstances.calm.steady.truthful) {} { stored := rows } =
          ((.ok true, cache), t') ∧
      List.Forall₂ (Journal.orderRow 1 4).ClosesUp [Journal.orderRow 0 3, Journal.orderRow 2 9]
        t'.stored := by
  intro rows stale
  have apart : EventQuery.Distinct .position rows := by
    unfold EventQuery.Distinct
    decide
  have complete : ¬stale.LacksAddress := by
    unfold Event.LacksAddress
    decide
  obtain ⟨result, cache, t', run, -, found⟩ := deleteEvent_closes_up Circumstances.calm
    { nameTries := 0 } stale false {} { stored := rows } apart
  have member : Journal.orderRow 1 4 ∈ rows := List.mem_cons_of_mem _ List.mem_cons_self
  obtain ⟨-, allowed, -⟩ := (found complete).2.2 _ member ⟨rfl, rfl, rfl, rfl, rfl⟩
  obtain ⟨rfl, before, after, parts, closed⟩ := allowed (by decide)
  refine ⟨apart, cache, t', run, ?_⟩
  -- the positions tell which of the three rows it is
  have positions := congrArg (·.map (·.globalPosition)) parts
  rcases before with _ | ⟨first, _ | ⟨second, _ | ⟨third, rest⟩⟩⟩
  · simp [rows, Journal.orderRow] at positions
  · cases parts
    exact closed
  · simp [rows, Journal.orderRow] at positions
  · simp [rows] at positions

end EventTable

end EventJournal

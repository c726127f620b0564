import EventJournal.Proofs.Contention.Attempts
import EventJournal.Proofs.Contention.SerialTable
import EventJournal.Proofs.Revisions

/-!
# Appends that contend for a stream

Any number of clients append to streams of one database that is serializable, in any order
of turns; others do what they like, as long as they delete nothing. An expectation that
names the end of the stream is met once: what the winner adds stays, so that the stream
never looks again as it is expected to (`Batch.Effect.admits_later`). That the transaction
of the winner has compared the stream with the expectation at its own turn, and not at that
of an attempt before it, is what its transcript says (`Transaction.Commits.effect`).

## Main results

* `Batch.Effect.admits_later` — an expectation of an end, once met, is never met again.
* `Contention.one_winner` — what the clients are told.
-/

namespace EventJournal

open EventJournal.Action

/-! ## The last revision of a stream -/

/-- The last revision is none below that of a row. -/
theorem Stream.le_lastIn {stream : Stream} {rows : List StoredEvent} {row : StoredEvent}
    (there : row ∈ rows) (lies : row.liesIn stream = true) :
    ∃ last, stream.lastIn rows = some last ∧ row.streamRevision ≤ last := by
  have sorted := EventTable.pairwise_newestFirst (rows.filter (·.liesIn stream))
  have same := List.mergeSort_perm (rows.filter (·.liesIn stream)) fun a b : StoredEvent =>
    decide (b.streamRevision ≤ a.streamRevision)
  have member := same.mem_iff.2 (List.mem_filter.2 ⟨there, lies⟩)
  unfold Stream.lastIn Circumstances.lastRevision
  cases sort : (rows.filter (·.liesIn stream)).mergeSort fun a b : StoredEvent =>
      decide (b.streamRevision ≤ a.streamRevision) with
  | nil =>
      rw [sort] at member
      cases member
  | cons first rest =>
      rw [sort] at member sorted
      refine ⟨first.streamRevision, rfl, ?_⟩
      rcases List.mem_cons.1 member with rfl | later
      · exact Int32.le_refl _
      · exact of_decide_eq_true ((List.pairwise_cons.1 sorted).1 row later)

/-! ## The rows of a batch -/

namespace StoredEvent.HoldAll

variable {stream : Stream} {first : Int} {events : List Event} {rows : List StoredEvent}

theorem length_eq (h : HoldAll stream first events rows) : rows.length = events.length := by
  induction h with
  | nil _ => rfl
  | cons _ _ ih => rw [List.length_cons, List.length_cons, ih]

theorem countsFrom (h : HoldAll stream first events rows) :
    CountsFrom first (rows.map (·.streamRevision)) := by
  induction h with
  | nil _ => trivial
  | cons holds _ ih => exact ⟨holds.revision, ih⟩

theorem liesIn (h : HoldAll stream first events rows) : ∀ row ∈ rows, row.liesIn stream = true := by
  induction h with
  | nil _ => exact fun _ there => nomatch there
  | cons holds _ ih => exact List.forall_mem_cons.2 ⟨holds.place, ih⟩

end StoredEvent.HoldAll

/-- The expectation names the end of the stream. -/
def ExpectedRevision.namesEnd : ExpectedRevision → Bool
  | .noStream | .exact _ => true
  | .any | .streamExists => false

theorem ExpectedRevision.admits_of_validate {expected : ExpectedRevision} {stream : Stream}
    {last : Option Int32} (valid : expected.validate stream last = .ok ()) :
    expected.admits last = true := by
  unfold validate at valid
  split at valid
  · assumption
  · cases valid

theorem ExpectedRevision.eq_of_admits_exact {r : Int32} {last : Option Int32}
    (h : (exact r).admits last = true) : last = some r := by
  cases last with
  | none => cases h
  | some old =>
      obtain rfl : r = old := of_decide_eq_true h
      rfl

namespace Batch.Effect

variable {chain : MiddlewareChain} {transform : EventTransform} {batch : Batch}
  {rows rows' later : List StoredEvent} {events : List Event}

/-- An expectation of an end, once met by a batch that adds an event, is never met again. -/
theorem admits_later (h : batch.Effect chain transform rows events rows')
    (names : batch.expected.namesEnd = true) (adds : batch.events ≠ []) (grown : rows' <+: later) :
    batch.expected.admits (batch.stream.lastIn later) = false := by
  obtain ⟨prepared, first, added, shaped, next, held, -, rfl⟩ := h.added
  have admitted := ExpectedRevision.admits_of_validate h.expected
  have length : added.length = batch.events.length :=
    held.length_eq.trans (mapM_eq_ok_iff.1 shaped).length_eq.symm
  obtain ⟨row, rest, rfl⟩ := List.exists_cons_of_ne_nil (l := added) (by
    rintro rfl
    exact adds (List.length_eq_zero_iff.1 length.symm))
  have kept : row ∈ later := grown.subset (List.mem_append_right rows List.mem_cons_self)
  obtain ⟨last, reached, above⟩ := Stream.le_lastIn kept (held.liesIn row List.mem_cons_self)
  -- the first row added has the first free revision, and no later end is below it
  have revision : row.streamRevision.toInt = first.toInt := held.countsFrom.1
  rw [reached]
  cases expected : batch.expected with
  | any => rw [expected] at names; cases names
  | streamExists => rw [expected] at names; cases names
  | noStream => rfl
  | exact r =>
      rw [expected] at admitted
      rw [ExpectedRevision.eq_of_admits_exact admitted] at next
      have after_r := Revision.toInt_of_advance? next
      refine decide_eq_false fun same => ?_
      rw [← same, Int32.le_iff_toInt_le] at above
      omega

/-- Two batches with one expectation of the end of one stream are not both appended, the first
of them with an event and the second one to rows that follow it. -/
theorem excludes {chain' : MiddlewareChain} {transform' : EventTransform} {other : Batch}
    {events' : List Event} {later' : List StoredEvent}
    (h : batch.Effect chain transform rows events rows')
    (k : other.Effect chain' transform' later events' later') (stream : batch.stream = other.stream)
    (expected : batch.expected = other.expected) (names : batch.expected.namesEnd = true)
    (adds : batch.events ≠ []) : ¬rows' <+: later := by
  intro grown
  have refused := h.admits_later names adds grown
  rw [stream, expected, ExpectedRevision.admits_of_validate k.expected] at refused
  exact Bool.false_ne_true refused.symm

/-- Where the last revision was expected, the rows added have the ones that follow it. -/
theorem revisions (h : batch.Effect chain transform rows events rows') {r : Int32}
    (expected : batch.expected = .exact r) :
    batch.stream.lastIn rows = some r ∧
      ∃ added, rows' = rows ++ added ∧ added.length = batch.events.length ∧
      (∀ row ∈ added, row.liesIn batch.stream = true) ∧
      CountsFrom (r.toInt + 1) (added.map (·.streamRevision)) ∧
      MiddlewareChain.outcome (chain.deserializeAll (added.map StoredEvent.toEvent)) =
        .ok events := by
  obtain ⟨prepared, first, added, shaped, next, held, returned, rfl⟩ := h.added
  have admitted := ExpectedRevision.admits_of_validate h.expected
  rw [expected] at admitted
  have was := ExpectedRevision.eq_of_admits_exact admitted
  have counts := held.countsFrom
  rw [was] at next
  rw [Revision.toInt_of_advance? next] at counts
  exact ⟨was, added, rfl, held.length_eq.trans (mapM_eq_ok_iff.1 shaped).length_eq.symm,
    held.liesIn, counts, returned⟩

end Batch.Effect

/-! ## The transactions of an append at their turn -/

namespace Transaction

variable {tx : Transaction} {rows rows' : List StoredEvent} {chain : MiddlewareChain}
  {transform : EventTransform} {batch : Batch}

/-- A transaction that commits an append has the effect of the append at its turn. -/
theorem Commits.effect {events : List Event}
    (h : tx.Commits (σ := LeafCache) (batch.append chain transform) events)
    (turns : tx.Turns rows rows') : batch.Effect chain transform rows events rows' := by
  obtain ⟨-, es, s, s', exchanges, frames, leads⟩ := h
  obtain ⟨c, t, u, there, replay, reached⟩ := turns
  rw [exchanges, Replay.cons_frame rfl] at replay
  obtain ⟨t', inside, last⟩ := replay.of_append
  have run : (batch.append chain transform).runOn (EventTable.database c.truthful) s t.tick =
      ((.ok events, s'), t') := inside.run frames leads
  obtain ⟨-, after, working, effect⟩ := (ends_of_runOn_ok run).1
    (EventTable.performs_append chain transform batch s t.tick rows there)
  -- the commit leaves the rows to work on as they are
  cases (Replay.cons_frame rfl).1 last
  have same : some after = some rows' := working.symm.trans reached
  cases same
  exact effect

/-- A transaction whose append is refused has been told the last revision at its turn. -/
theorem Refuses.validate {cause : Abort} (h : tx.Refuses batch cause)
    (turns : tx.Turns rows rows') :
    ∃ error, batch.expected.validate batch.stream (batch.stream.lastIn rows) = .error error ∧
      cause = .error error := by
  obtain ⟨-, revisions, error, answer, exchanges, refused, same⟩ := h
  obtain ⟨c, t, u, there, replay, -⟩ := turns
  rw [exchanges, Replay.cons_frame rfl, refusal, List.cons_append,
    Replay.cons_answered rfl] at replay
  obtain ⟨t', locked, replay⟩ := replay
  rw [List.cons_append, Replay.cons_answered rfl] at replay
  obtain ⟨t'', read, -⟩ := replay
  rw [EventTable.answer_of_leavesRows rfl] at locked read
  cases (Prod.mk.inj locked).2
  have told := (Prod.mk.inj read).1
  rw [EventTable.visible_tick, EventTable.visible_tick, EventTable.visible_of_working there] at told
  split at told
  · cases told
    exact ⟨error, refused, same⟩
  · cases told

/-- No statement of a refused append has failed. -/
theorem Refuses.not_failed {cause : Abort} (h : tx.Refuses batch cause) : tx.failed = false := by
  obtain ⟨-, revisions, error, answer, exchanges, -⟩ := h
  unfold failed
  rw [exchanges]
  rfl

end Transaction

/-! ## Serial orders -/

namespace Record.Serialized

variable {r : Record} {before after rows rows' : List StoredEvent} {order : List Transaction}
  {tx : Transaction}

/-- A transaction has a place in the order if it was committed or none of its statements has
failed. -/
theorem mem_order (h : r.Serialized before order after) (there : tx ∈ r.ended)
    (counts : tx.committed = true ∨ tx.failed = false) : tx ∈ order := by
  obtain ⟨others, same, out⟩ := h.accounted
  rcases List.mem_append.1 (same.mem_iff.1 there) with mine | other
  · exact mine
  · obtain ⟨undone, failed⟩ := out tx other
    rcases counts with committed | sound
    · exact absurd (undone.symm.trans committed) Bool.false_ne_true
    · exact absurd (sound.symm.trans failed) Bool.false_ne_true

theorem all_order {allowed : Statement → Prop} (h : r.Serialized before order after)
    (all : r.All allowed) : ∀ tx ∈ order, ∀ e ∈ tx.exchanges, allowed e.statement := by
  obtain ⟨others, same, -⟩ := h.accounted
  exact fun tx there => all.ended tx (same.mem_iff.2 (List.mem_append_left others there))

end Record.Serialized

/-! ## Clients -/

namespace Contention

/-- A call that appends a batch. -/
structure Appender where
  journal : Journal
  transform : EventTransform := .ok
  batch : Batch
  cache : LeafCache := {}

/-- Who takes turns on the database: one that appends, or one that does anything but take
events away. A client that appends several times is several of them. -/
inductive Client
  | appender (a : Appender)
  | bystander (program : Program (Except Abort (List Event)))
      (harmless : program.Sends (·.keepsEvents = true))

def Client.program : Client → Program (Except Abort (List Event))
  | .appender a =>
      ((a.journal.appendWith a.transform a.batch).start a.cache).bind fun ended => .done ended.1
  | .bystander program _ => program

namespace Appender

variable (a : Appender)

/-- The transactions behind the result of an append. -/
def Accounts (t : Transcript) : Except Abort (List Event) → Prop
  | .ok events => ∃ tx ∈ t.ended,
      tx.Commits (σ := LeafCache) (a.batch.append a.journal.chain a.transform) events
  | .error cause => t.KnowsRefusal a.journal.chain a.transform a.batch cause

theorem obeys (client : Nat) :
    (Client.appender a).program.Obeys (Transcript.protocol (·.keepsEvents = true)) a.Accounts
      { client } := by
  refine (obeys_of_ends (fun events t => a.Accounts t (.ok events))
    (fun cause t => a.Accounts t (.error cause)) fun oracle =>
      a.journal.ends_appendWith_transcript (s := a.cache) a.batch trivial).bind ?_
  intro t ended known
  obtain ⟨result, cache⟩ := ended
  cases result with
  | ok events => exact known
  | error cause => exact known

end Appender

/-- What is known of the result of a client. -/
def Client.Accounts (client : Client) (t : Transcript) (result : Except Abort (List Event)) :
    Prop :=
  match client with
  | .appender a => a.Accounts t result
  | .bystander _ _ => True

theorem Client.obeys (client : Client) (number : Nat) :
    client.program.Obeys (Transcript.protocol (·.keepsEvents = true)) client.Accounts
      { client := number } := by
  cases client with
  | appender a => exact a.obeys number
  | bystander program harmless => exact Transcript.obeys_of_sends harmless _

/-- The clients before their first turn. -/
def start {δ : Type} (clients : Nat → Client) (d : δ) : Crowd (Except Abort (List Event)) δ where
  program number := (clients number).program
  database := d

/-- A transaction of the client has its turn between the rows. -/
def Turn (before : List StoredEvent) (order : List Transaction) (after : List StoredEvent)
    (client : Nat) (rows rows' : List StoredEvent) : Prop :=
  ∃ earlier tx later, order = earlier ++ tx :: later ∧ tx.client = client ∧
    Serial before earlier rows ∧ Serial rows [tx] rows' ∧ Serial rows' later after

variable {δ : Type} {db : SharedDatabase δ} {d : δ} {clients : Nat → Client} {turns : List Nat}
  {before after : List StoredEvent} {order : List Transaction}

theorem obeys (clients : Nat → Client) (d : δ) (client : Nat) :
    ((start clients d).program client).Obeys (Transcript.protocol (·.keepsEvents = true))
      (clients client).Accounts { client } :=
  (clients client).obeys client

/-- The result of a client is backed by its transactions. -/
theorem accounts {client : Nat} {a : Appender} (mine : clients client = .appender a)
    {result : Except Abort (List Event)}
    (told : ((start clients d).run db turns).result? client = some result) :
    a.Accounts (((start clients d).record db turns).transcript client) result := by
  have accounts := (Crowd.run_recorded (obeys clients d) db turns).2 client result told
  rw [mine] at accounts
  exact accounts

/-- All that is sent keeps the events. -/
theorem keepsEvents : ((start clients d).record db turns).All (·.keepsEvents = true) :=
  (Crowd.run_recorded (obeys clients d) db turns).1

/-- An append that returns has a committed transaction in the order. -/
theorem exists_commits_of_ok
    (serialized : ((start clients d).record db turns).Serialized before order after)
    {client : Nat} {a : Appender} (mine : clients client = .appender a) {events : List Event}
    (told : ((start clients d).run db turns).result? client = some (.ok events)) :
    ∃ tx ∈ order, tx.client = client ∧
      tx.Commits (σ := LeafCache) (a.batch.append a.journal.chain a.transform) events := by
  obtain ⟨tx, there, commits⟩ := accounts mine told
  obtain ⟨there, owner⟩ := List.mem_filter.1 there
  exact ⟨tx, serialized.mem_order there (.inl commits.1), of_decide_eq_true owner, commits⟩

/-- Rows are only added from one turn to a later one. -/
theorem grows_between
    (serialized : ((start clients d).record db turns).Serialized before order after)
    {part : List Transaction} {rows rows' : List StoredEvent} (serial : Serial rows part rows')
    (within : part ⊆ order) : rows <+: rows' :=
  serial.grows fun tx there => serialized.all_order keepsEvents tx (within there)

/-- Two clients are not both told that their batches were appended, if both expect the same
end of one stream and add an event to it. -/
theorem eq_of_ok
    (serialized : ((start clients d).record db turns).Serialized before order after)
    {i j : Nat} {a b : Appender} {events events' : List Event} (first : clients i = .appender a)
    (second : clients j = .appender b) (stream : a.batch.stream = b.batch.stream)
    (expected : a.batch.expected = b.batch.expected) (names : a.batch.expected.namesEnd = true)
    (adds : a.batch.events ≠ []) (adds' : b.batch.events ≠ [])
    (told : ((start clients d).run db turns).result? i = some (.ok events))
    (told' : ((start clients d).run db turns).result? j = some (.ok events')) : i = j := by
  obtain ⟨x, there, rfl, commits⟩ := exists_commits_of_ok serialized first told
  obtain ⟨y, there', rfl, commits'⟩ := exists_commits_of_ok serialized second told'
  obtain ⟨earlier, later, rows, rows', split, start, turn, rest⟩ := serialized.serial.split there
  have effect := commits.effect (turn.turns_of_committed commits.1)
  rw [split] at there'
  rcases List.mem_append.1 there' with soon | there'
  · -- the transaction of the second client comes before that of the first one
    obtain ⟨_, between, seen, seen', same, -, turn', serial⟩ := start.split soon
    have effect' := commits'.effect (turn'.turns_of_committed commits'.1)
    have within : between ⊆ order := fun tx there => by simp [split, same, there]
    exact absurd (grows_between serialized serial within)
      (effect'.excludes effect stream.symm expected.symm (expected ▸ names) adds')
  · rcases List.mem_cons.1 there' with rfl | late
    · rfl
    · obtain ⟨between, _, seen, seen', same, serial, turn', -⟩ := rest.split late
      have effect' := commits'.effect (turn'.turns_of_committed commits'.1)
      have within : between ⊆ order := fun tx there => by simp [split, same, there]
      exact absurd (grows_between serialized serial within)
        (effect.excludes effect' stream expected names adds)

/-- Among any clients that append and others that take no events away, in any order of turns
on a database with a serial order: an expectation of the end of a stream lets one client win
that adds an event; the winner under the expected revision `r` has added rows under the
revisions after `r` at its turn; and a client that is refused is told the last revision that
the stream had at its turn, which was not the expected one. -/
theorem one_winner (db : SharedDatabase δ) (d : δ) (clients : Nat → Client) (turns : List Nat)
    {before after : List StoredEvent} {order : List Transaction}
    (serialized :
      ((start clients d).record db turns).Serialized before order after) :
    let x := (start clients d).run db turns
    (∀ i j a b events events', clients i = .appender a → clients j = .appender b →
      a.batch.stream = b.batch.stream → a.batch.expected = b.batch.expected →
      a.batch.expected.namesEnd = true → a.batch.events ≠ [] → b.batch.events ≠ [] →
      x.result? i = some (.ok events) → x.result? j = some (.ok events') → i = j) ∧
    (∀ i a events r, clients i = .appender a → a.batch.expected = .exact r →
      x.result? i = some (.ok events) →
      ∃ rows added, Turn before order after i rows (rows ++ added) ∧
        a.batch.stream.lastIn rows = some r ∧ added.length = a.batch.events.length ∧
        (∀ row ∈ added, row.liesIn a.batch.stream = true) ∧
        CountsFrom (r.toInt + 1) (added.map (·.streamRevision)) ∧
        MiddlewareChain.outcome
          (a.journal.chain.deserializeAll (added.map StoredEvent.toEvent)) = .ok events) ∧
    (∀ i a cause, clients i = .appender a → a.journal.chain.Candid a.transform →
      x.result? i = some (.error (.error cause)) → cause.isWrongExpectedVersion = true →
      ∃ rows, Turn before order after i rows rows ∧
        a.batch.expected.admits (a.batch.stream.lastIn rows) = false ∧
        cause = .wrongExpectedVersion a.batch.stream a.batch.expected
          (a.batch.stream.lastIn rows)) := by
  intro x
  refine ⟨?_, ?_, ?_⟩
  · intro i j a b events events' first second stream expected names adds adds' told told'
    exact eq_of_ok serialized first second stream expected names adds adds' told told'
  · intro i a events r mine expected told
    obtain ⟨tx, there, owner, commits⟩ := exists_commits_of_ok serialized mine told
    obtain ⟨earlier, later, rows, rows', split, first, turn, last⟩ := serialized.serial.split there
    have effect := commits.effect (turn.turns_of_committed commits.1)
    obtain ⟨was, added, rfl, length, lies, counts, returned⟩ := effect.revisions expected
    exact ⟨rows, added, ⟨earlier, tx, later, split, owner, first, turn, last⟩, was, length, lies,
      counts, returned⟩
  · intro i a cause mine candid told refused
    obtain ⟨tx, there, refuses⟩ := accounts mine told candid refused
    obtain ⟨there, owner⟩ := List.mem_filter.1 there
    obtain ⟨earlier, later, rows, rows', split, first, turn, last⟩ :=
      serialized.serial.split (serialized.mem_order there (.inr refuses.not_failed))
    obtain ⟨rfl, seen, turns⟩ := turn.turns_of_undone refuses.1
    obtain ⟨error, failed, same⟩ := refuses.validate turns
    cases same
    refine ⟨rows', ⟨earlier, tx, later, split, of_decide_eq_true owner, first, turn, last⟩, ?_⟩
    unfold ExpectedRevision.validate at failed
    split at failed
    · cases failed
    · rename_i unexpected
      cases failed
      exact ⟨eq_false_of_ne_true unexpected, rfl⟩

/-! ## Three writers of one stream -/

/-- The stream of an order. -/
def order7 : Stream := ⟨"sales", "order", "7", .regular⟩

/-- Two clients want to start the stream, and one to go on after its first event. -/
def threeWriters : Nat → Client
  | 0 => .appender {
      journal := { nameTries := 0 }
      batch := ⟨order7, [{ type := "placed" }], .noStream⟩ }
  | 1 => .appender {
      journal := { nameTries := 0 }
      batch := ⟨order7, [{ type := "imported" }], .noStream⟩ }
  | 2 => .appender {
      journal := { nameTries := 0 }
      batch := ⟨order7, [{ type := "paid" }, { type := "packed" }], .exact 0⟩ }
  | _ => .bystander (.done (.ok [])) trivial

/-- The seventh statement, a commit, meets a conflict. -/
def conflict : Circumstances :=
  { Circumstances.calmWithTypes with
    fault := fun number => if number = 6 then
        some (.database (some "40001") "could not serialize access")
      else none }

/-- The second client is the first to try, and has to try again. -/
def contended : List Nat :=
  [1, 0, 2] ++ List.replicate 6 1 ++ [0, 1] ++ List.replicate 6 0 ++ List.replicate 5 1 ++
    List.replicate 9 2

/-- How a client has ended, but for the events it is given. -/
def ending : Option (Except Abort (List Event)) → Option (Option Abort)
  | none => none
  | some (.ok _) => some none
  | some (.error cause) => some (some cause)

theorem exists_of_ending {result : Option (Except Abort (List Event))}
    (h : ending result = some none) : ∃ events, result = some (.ok events) := by
  match result, h with
  | some (.ok events), _ => exact ⟨events, rfl⟩

theorem eq_of_ending {result : Option (Except Abort (List Event))} {cause : Abort}
    (h : ending result = some (some cause)) : result = some (.error cause) := by
  match result, h with
  | some (.error _), h =>
      cases h
      rfl

/-- The client that meets the conflict has seen no stream, and is refused at its second attempt
by what the other one has added in between. -/
theorem one_winner_after_conflict :
    let record := (start threeWriters ({} : SerialTable)).record (SerialTable.database conflict)
      contended
    let x := (start threeWriters ({} : SerialTable)).run (SerialTable.database conflict) contended
    let after := x.database.table.stored
    record.Serialized [] record.ended after ∧ (∃ events, x.result? 0 = some (.ok events)) ∧
      (∀ j b events, threeWriters j = .appender b → order7 = b.batch.stream →
        .noStream = b.batch.expected → b.batch.events ≠ [] → x.result? j = some (.ok events) →
          0 = j) ∧
      (∃ rows added, Turn [] record.ended after 2 rows (rows ++ added) ∧
        order7.lastIn rows = some 0 ∧ added.length = 2 ∧
        CountsFrom 1 (added.map (·.streamRevision))) ∧
      x.result? 1 = some (.error (.error (.wrongExpectedVersion order7 .noStream (some 0)))) ∧
      ∃ rows, Turn [] record.ended after 1 rows rows ∧ order7.lastIn rows = some 0 := by
  intro record x after
  have serialized : record.Serialized [] record.ended after :=
    SerialTable.serialized conflict [] (fun client => (threeWriters client).program) contended
  obtain ⟨first, started⟩ : ∃ events, x.result? 0 = some (.ok events) :=
    exists_of_ending (by decide +kernel)
  obtain ⟨last, continued⟩ : ∃ events, x.result? 2 = some (.ok events) :=
    exists_of_ending (by decide +kernel)
  have lost : x.result? 1 =
      some (.error (.error (.wrongExpectedVersion order7 .noStream (some 0)))) :=
    eq_of_ending (by decide +kernel)
  obtain ⟨winner, revisions, refused⟩ :=
    one_winner (SerialTable.database conflict) ({} : SerialTable) threeWriters contended serialized
  refine ⟨serialized, ⟨first, started⟩, ?_, ?_, lost, ?_⟩
  · intro j b events mine stream expected adds told
    exact winner 0 j _ b first events rfl mine stream expected rfl (by simp) adds started told
  · obtain ⟨rows, added, turn, was, length, -, counts, -⟩ :=
      revisions 2 _ last 0 rfl rfl continued
    exact ⟨rows, added, turn, was, length, counts⟩
  · have candid : MiddlewareChain.Candid [] .ok := ⟨nofun, nofun, nofun⟩
    obtain ⟨rows, turn, -, same⟩ := refused 1 _ _ rfl candid lost rfl
    exact ⟨rows, turn, (JournalError.wrongExpectedVersion.inj same).2.2.symm⟩

end Contention

end EventJournal

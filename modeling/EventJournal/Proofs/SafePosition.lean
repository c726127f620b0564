import EventJournal.Proofs.SafePosition.Protocol
import EventJournal.Proofs.Shared.Positions

/-!
# The safe position is final

Any number of clients append to a journal or ask for the safe position, and take turns in
any order on a table that they share. `SharedTable.Fits` ties the phases of the protocol to
the table: what a client can know of its transaction is so. With it the locks are where they
have to be, and a position that has been read under the exclusive one is final.

## Main results

* `SharedTable.Fits.answer` — a client's knowledge of its transaction is right.
* `SafePosition.find_final` — no row with a position up to the safe one becomes visible
  later.
-/

namespace EventJournal

/-! ## What a phase says of the table -/

namespace SharedTable

open SafePosition

variable {c : Circumstances} {t u : SharedTable} {client : Nat} {s : Statement} {phase : Phase}

/-- What is true of the transaction of a client in a phase. -/
def Fits (t : SharedTable) (client : Nat) : Phase → Prop
  | .away | .knowing _ => True
  | .opened => t.session client = { isOpen := true }
  | .serializable => (t.session client).isOpen = true
  | .sharing =>
      (t.session client).isOpen = true ∧ ⟨client, positionLockKey, .shared⟩ ∈ t.locks
  | .readCommitted => t.session client = reading
  | .excluding => t.session client = reading ∧ ⟨client, positionLockKey, .exclusive⟩ ∈ t.locks

/-- What is true of a transaction stays true while it and its locks are left alone. -/
theorem Fits.mono (h : t.Fits client phase) (session : u.session client = t.session client)
    (locks : ∀ lock ∈ t.locks, lock.client = client → lock ∈ u.locks) : u.Fits client phase := by
  cases phase with
  | away => trivial
  | knowing p => trivial
  | opened => exact session.trans h
  | serializable => exact (congrArg Session.isOpen session).trans h
  | sharing => exact ⟨(congrArg Session.isOpen session).trans h.1, locks _ h.2 rfl⟩
  | readCommitted => exact session.trans h
  | excluding => exact ⟨session.trans h.1, locks _ h.2 rfl⟩

/-- A transaction that has said how it is kept apart is known as well after it is pinned. -/
theorem Fits.pin (h : t.Fits client phase) (ne : phase ≠ .opened) :
    (t.pin client s).Fits client phase := by
  cases phase with
  | away => trivial
  | knowing p => trivial
  | opened => exact absurd rfl ne
  | serializable => exact isOpen_pin.trans h
  | sharing =>
      refine ⟨isOpen_pin.trans h.1, ?_⟩
      rw [locks_pin]
      exact h.2
  | readCommitted =>
      rw [pin_of_reading h]
      exact h
  | excluding =>
      rw [pin_of_reading h.1]
      exact h

theorem Fits.tick (h : t.Fits client phase) : t.tick.Fits client phase :=
  h.mono rfl fun _ there _ => there

/-- A statement that belongs to no frame, takes no lock and inserts nothing does not touch
the transaction. -/
theorem Fits.perform_of_read {now : Nat} (h : t.Fits client phase) (value : s.Answer)
    (frame : s.isFrame = false) (lock : ∀ mode, s ≠ .lockPositions mode)
    (insert : ∀ draft, s ≠ .insertEvent draft) :
    ((t.pin client s).perform client c now s).2.Fits client (phase.after s value) := by
  have read : ∀ u : SharedTable, (u.perform client c now s).2 = u := by
    intro u
    cases s <;> first | rfl | exact (lock _ rfl).elim | exact (insert _ rfl).elim | cases frame
  rw [read]
  rcases Phase.after_cases frame lock phase value with ⟨same, ne⟩ | vague | ⟨p, vague⟩
  · rw [same]
    exact h.pin ne
  · rw [vague]
    trivial
  · rw [vague]
    trivial

/-- A lock that is taken is held. -/
theorem Fits.acquire (h : t.Fits client phase) (mode : LockMode) :
    ((t.pin client (.lockPositions mode)).acquire client positionLockKey mode).Fits client
      (phase.after (.lockPositions mode) ()) := by
  have kept : phase ≠ .opened →
      ((t.pin client (.lockPositions mode)).acquire client positionLockKey mode).Fits client
        phase := by
    intro ne
    refine (h.pin ne).mono (congrFun (session_acquire _ _) client) fun lock there _ => ?_
    exact subset_locks_acquire _ _ there
  cases phase with
  | away => trivial
  | opened => trivial
  | serializable =>
      have isOpen := kept nofun
      cases mode with
      | shared =>
          refine ⟨isOpen, mem_locks_acquire (isOpen_pin.trans h)⟩
      | exclusive => exact isOpen
  | readCommitted =>
      have session := kept nofun
      cases mode with
      | shared => exact session
      | exclusive =>
          refine ⟨session, mem_locks_acquire (isOpen_pin.trans ?_)⟩
          exact congrArg Session.isOpen (h : t.session client = reading)
  | sharing => exact kept nofun
  | excluding => exact kept nofun
  | knowing p => trivial

/-- An insertion keeps the shared side of the lock. -/
theorem Fits.insert {now : Nat} {draft : EventDraft} (h : t.Fits client .sharing) :
    (t.insert client c now draft).2.Fits client .sharing := by
  unfold SharedTable.insert
  dsimp only
  split
  · refine ⟨isOpen_add h.1, ?_⟩
    rw [locks_add]
    exact h.2
  · exact h

/-- A statement that does not fail leaves its client's transaction as the next phase says. -/
theorem Fits.perform {now : Nat} {value : s.Answer} (h : t.Fits client phase)
    (allows : protocol.allows phase s)
    (told : ((t.pin client s).perform client c now s).1 = some (.ok value)) :
    ((t.pin client s).perform client c now s).2.Fits client (phase.after s value) := by
  cases s with
  | begin => exact session_put
  | rollback => cases phase <;> trivial
  | commit => cases phase <;> trivial
  | isolate isolation =>
      rw [pin_of_isFrame rfl]
      cases phase with
      | opened =>
          have fresh : t.session client = { isOpen := true } := h
          have said : (t.put client { t.session client with isolation }).session client =
              { isOpen := true, isolation } := by
            rw [session_put, fresh]
          cases isolation with
          | serializable => exact congrArg Session.isOpen said
          | readCommitted => exact said
      | _ => cases isolation <;> trivial
  | lockPositions mode =>
      unfold SharedTable.perform at told ⊢
      dsimp only at told ⊢
      split at told
      · cases told
      · rename_i free
        rw [if_neg free]
        exact h.acquire mode
  | insertEvent draft =>
      have sharing : phase = .sharing := allows
      subst sharing
      exact (h.pin nofun).insert
  | _ => exact h.perform_of_read value rfl (fun _ => nofun) fun _ => nofun

/-- An answer leaves its client's transaction as the next phase says. -/
theorem Fits.answer {answer : Except DbError s.Answer} (h : t.Fits client phase)
    (allows : protocol.allows phase s)
    (told : ((database c).answer client s t).1 = some answer) :
    ((database c).answer client s t).2.Fits client (protocol.next phase s answer) := by
  cases answer with
  | error e => trivial
  | ok value =>
      unfold database at told ⊢
      dsimp only at told ⊢
      split at told
      · exact h.tick.perform allows told
      · cases told

/-- A statement of another client does not touch the transaction. -/
theorem Fits.answer_of_ne {other : Nat} (h : t.Fits other phase) (ne : other ≠ client) :
    ((database c).answer client s t).2.Fits other phase := by
  have pinned := pin_moves t.tick client s
  have moved := answer_moves t client c s
  refine h.mono ((moved.session_of_ne ne).trans (pinned.session_of_ne ne)) ?_
  intro lock there mine
  have away : lock.client ≠ client := by
    rw [mine]
    exact ne
  have held := (pinned.mem_locks there).resolve_right fun released => away released.1
  exact (moved.mem_locks held).resolve_right fun released => away released.1

end SharedTable

namespace SafePosition

open EventJournal.Action Protocol

/-! ## Clients that take turns -/

/-- A client: a call of a journal that appends, or a request for the safe position. -/
inductive Client where
  | writer (j : Journal) (call : AppendCall) (cache : LeafCache)
  | reader

/-- What a client sends. It ends with the safe position, if it has been told one. -/
def Client.program : Client → Program (Option Int64)
  | .writer j call cache => ((call.perform j).start cache).bind fun _ => .done none
  | .reader => (find.start ()).bind fun ended => .done ended.1.toOption

/-- A position that a client ends with was read under the exclusive side of the lock. -/
def Knows (phase : Phase) (value : Option Int64) : Prop := ∀ p, value = some p → phase = .knowing p

theorem Client.obeys (client : Client) : client.program.Obeys protocol Knows .away := by
  cases client with
  | writer j call cache =>
      have lawful : ((call.perform j).start cache).Obeys protocol _ .away :=
        obeys_of_ends (fun _ _ => True) (fun _ _ => True) fun oracle =>
          (j.ends_appendCall_lawful call cache (w := ⟨.away, oracle, True⟩) trivial).mono
            (fun _ _ _ lawful => ⟨lawful, trivial⟩) fun _ _ _ lawful => ⟨lawful, trivial⟩
      exact lawful.bind fun _ _ _ => fun _ absent => nomatch absent
  | reader =>
      have lawful : ((find : Action Unit Int64).start ()).Obeys protocol _ .away :=
        obeys_of_ends (fun p phase => phase = .knowing p) (fun _ _ => True) fun oracle =>
          (ends_find_lawful (w := ⟨.away, oracle, True⟩) trivial).mono
            (fun _ _ _ known => known) fun _ _ _ lawful => ⟨lawful, trivial⟩
      refine lawful.bind fun phase ended known => ?_
      intro p told
      obtain ⟨result, state⟩ := ended
      cases result with
      | ok value =>
          cases told
          exact known
      | error cause => cases told

/-- Clients before their first turn, on an empty table. -/
def start (clients : Nat → Client) : Crowd (Option Int64) SharedTable :=
  ⟨fun number => (clients number).program, {}⟩

/-- After the given turns, the client is answered that the last position is `p`, and the rows
up to it that are visible then have been visible before. -/
def Read (c : Circumstances) (clients : Nat → Client) (turns : List Nat) (client : Nat)
    (p : Int64) : Prop :=
  let x := (start clients).run (SharedTable.database c) turns
  x.Hears (SharedTable.database c) client .lastPosition (.ok [p]) ∧
    SharedTable.Final p x.database.rows (x.step (SharedTable.database c) client).database

/-- What holds after any turns. -/
structure Invariant (c : Circumstances) (clients : Nat → Client) (turns : List Nat)
    (phases : Nat → Phase) (t : SharedTable) : Prop where
  sound : t.Sound
  fits : ∀ client, t.Fits client (phases client)
  known : ∀ client p, phases client = .knowing p →
    ∃ before after, turns = before ++ client :: after ∧ Read c clients before client p

variable {c : Circumstances} {clients : Nat → Client} {turns : List Nat} {phases : Nat → Phase}
  {t : SharedTable} {client : Nat} {p : Int64}

/-- What has been read before a turn has been read after it. -/
theorem Invariant.known_concat (h : Invariant c clients turns phases t) (turn : Nat)
    (knows : phases client = .knowing p) :
    ∃ before after, turns ++ [turn] = before ++ client :: after ∧
      Read c clients before client p := by
  obtain ⟨before, after, rfl, read⟩ := h.known client p knows
  exact ⟨before, after ++ [turn], by simp, read⟩

/-- A position is known by the answer that tells it, or was known before. -/
theorem Phase.knowing_of_next {phase : Phase} {s : Statement} {answer : Except DbError s.Answer}
    (knows : protocol.next phase s answer = .knowing p) :
    phase = .knowing p ∨ phase = .excluding ∧ ∃ rest,
      (⟨s, answer⟩ : (s : Statement) × Except DbError s.Answer) =
        ⟨.lastPosition, .ok (p :: rest)⟩ := by
  cases answer with
  | error e => cases knows
  | ok value =>
      change phase.after s value = .knowing p at knows
      cases s with
      | begin => cases knows
      | isolate isolation => cases isolation <;> cases phase <;> cases knows
      | lockPositions mode => cases mode <;> cases phase <;> first | exact .inl knows | cases knows
      | lastPosition =>
          cases phase with
          | excluding =>
              cases value with
              | nil => cases knows
              | cons first rest =>
                  cases knows
                  exact .inr ⟨rfl, rest, rfl⟩
          | _ => first | exact .inl knows | cases knows
      | _ => cases phase <;> first | exact .inl knows | cases knows

/-- A client that waits waits for a lock, and nothing else has happened. -/
theorem answer_waits {s : Statement}
    (waits : ((SharedTable.database c).answer client s t).1 = none) :
    (∃ mode, s = .lockPositions mode) ∧
      ((SharedTable.database c).answer client s t).2 = t.tick.pin client s := by
  unfold SharedTable.database at waits ⊢
  dsimp only at waits ⊢
  split at waits
  · cases s with
    | lockPositions mode =>
        refine ⟨⟨mode, rfl⟩, ?_⟩
        unfold SharedTable.perform at waits ⊢
        dsimp only at waits ⊢
        split at waits
        · rename_i blocked
          rw [if_pos blocked]
        · cases waits
    | _ => cases waits
  · cases waits

theorem Invariant.waits (h : Invariant c clients turns phases t) {s : Statement}
    (allows : protocol.allows (phases client) s)
    (waits : ((SharedTable.database c).answer client s t).1 = none) :
    Invariant c clients (turns ++ [client]) phases
      ((SharedTable.database c).answer client s t).2 := by
  obtain ⟨⟨mode, rfl⟩, same⟩ := answer_waits waits
  refine ⟨h.sound.answer nofun, ?_, fun _ _ => h.known_concat client⟩
  intro other
  by_cases mine : other = client
  · subst mine
    rw [same]
    exact (h.fits other).tick.pin allows
  · exact (h.fits other).answer_of_ne mine

/-- A transaction that is read committed is told the highest position that it sees. -/
theorem answer_lastPosition (session : t.session client = SharedTable.reading)
    {positions : List Int64}
    (told : ((SharedTable.database c).answer client .lastPosition t).1 = some (.ok positions)) :
    positions = [t.lastSeen client] := by
  have ticked : t.tick.session client = SharedTable.reading := session
  unfold SharedTable.database at told
  dsimp only at told
  rw [SharedTable.pin_of_reading ticked] at told
  split at told
  · cases told
    rfl
  · cases told

/-- The last position is read under the exclusive side of the lock. -/
theorem Invariant.read {rest : List Int64}
    (h : Invariant c clients turns phases
      ((start clients).run (SharedTable.database c) turns).database)
    (excluding : phases client = .excluding)
    (hears : ((start clients).run (SharedTable.database c) turns).Hears (SharedTable.database c)
      client .lastPosition (.ok (p :: rest))) :
    Read c clients turns client p := by
  have fits := h.fits client
  rw [excluding] at fits
  obtain ⟨session, held⟩ := fits
  have told := answer_lastPosition session hears.2
  cases told
  refine ⟨hears, ?_⟩
  rw [hears.database_step]
  exact (h.sound.final session held).answer client .lastPosition

theorem Invariant.answers {s : Statement} {answer : Except DbError s.Answer}
    (h : Invariant c clients turns phases
      ((start clients).run (SharedTable.database c) turns).database)
    (hears : ((start clients).run (SharedTable.database c) turns).Hears (SharedTable.database c)
      client s answer)
    (allows : protocol.allows (phases client) s) :
    Invariant c clients (turns ++ [client])
      (Function.update phases client (protocol.next (phases client) s answer))
      ((SharedTable.database c).answer client s
        ((start clients).run (SharedTable.database c) turns).database).2 where
  sound := by
    refine h.sound.answer ?_
    rintro draft rfl
    have sharing : phases client = .sharing := allows
    have fits := h.fits client
    rw [sharing] at fits
    exact fits.2
  fits other := by
    by_cases mine : other = client
    · subst mine
      rw [Function.update_self]
      exact (h.fits other).answer allows hears.2
    · rw [Function.update_of_ne mine]
      exact (h.fits other).answer_of_ne mine
  known other p knows := by
    by_cases mine : other = client
    · subst mine
      rw [Function.update_self] at knows
      rcases Phase.knowing_of_next knows with before | ⟨excluding, rest, same⟩
      · exact h.known_concat other before
      · cases same
        exact ⟨turns, [], rfl, h.read excluding hears⟩
    · rw [Function.update_of_ne mine] at knows
      exact h.known_concat client knows

theorem Invariant.begins : Invariant c clients [] (fun _ => .away) {} where
  sound := .empty
  fits _ := trivial
  known _ _ knows := nomatch knows

/-- Among any clients that append or ask for the safe position, in any order of turns and
whatever fails: a client that is told the safe position `p` has read it at one of its
turns, and no row with a position up to `p` becomes visible after it. -/
theorem find_final (c : Circumstances) (clients : Nat → Client) (turns : List Nat)
    (reader : Nat) (p : Int64)
    (told : ((start clients).run (SharedTable.database c) turns).result? reader =
      some (some p)) :
    ∃ before after, turns = before ++ reader :: after ∧
      ((start clients).run (SharedTable.database c) before).Hears (SharedTable.database c) reader
        .lastPosition (.ok [p]) ∧
      ∀ later, ∀ row ∈ ((start clients).run (SharedTable.database c)
          (before ++ reader :: later)).database.rows,
        row.globalPosition ≤ p →
          row ∈ ((start clients).run (SharedTable.database c) before).database.rows := by
  have begins : (start clients).Obeys protocol (fun _ => Knows) fun _ => .away :=
    fun client => (clients client).obeys
  obtain ⟨phases, invariant, obeys⟩ := Crowd.run_invariant (I := Invariant c clients) begins
    .begins (fun turns client phases d h => ⟨h.sound, h.fits, fun _ _ => h.known_concat client⟩)
    (fun turns client s phases d h => h.waits) (fun turns client s answer phases h => h.answers)
    turns
  have knows := obeys.result_fits told p rfl
  obtain ⟨before, after, split, hears, final⟩ := invariant.known reader p knows
  refine ⟨before, after, split, hears, fun later => ?_⟩
  have run : (start clients).run (SharedTable.database c) (before ++ reader :: later) =
      (((start clients).run (SharedTable.database c) before).step (SharedTable.database c)
        reader).run (SharedTable.database c) later := by
    rw [Crowd.run_append]
    rfl
  rw [run]
  exact (Crowd.run_keeps (fun client s d h => h.answer client s) later _ final).settled

/-! ## Two writers and a reader -/

/-- Two writers of one event each, and a reader. -/
def threeClients : Nat → Client
  | 0 => .writer { nameTries := 0 } (.append .ok ⟨⟨"sales", "order", "1", .regular⟩,
      [{ type := "placed" }], .any⟩) {}
  | 1 => .writer { nameTries := 0 } (.append .ok ⟨⟨"sales", "order", "2", .regular⟩,
      [{ type := "placed" }], .any⟩) {}
  | _ => .reader

/-- The first writer draws a position before the second one and commits after it. The reader
asks for the lock before that, and has to wait. -/
def overtaking : List Nat :=
  [0, 0, 0, 0, 0, 0] ++ [1, 1, 1, 1, 1, 1, 1] ++ [2, 2, 2] ++ [0] ++ [2, 2, 2]

/-- The reader is told the position of the row that was committed first and drawn second,
when the row drawn first is visible as well. -/
theorem find_final_overtaking :
    let x := (start threeClients).run (SharedTable.database Circumstances.calmWithTypes) overtaking
    x.result? 2 = some (some 2) ∧ x.database.rows.map (·.globalPosition) = [2, 1] ∧
      ∃ before after, overtaking = before ++ 2 :: after ∧
        ((start threeClients).run (SharedTable.database Circumstances.calmWithTypes) before).Hears
          (SharedTable.database Circumstances.calmWithTypes) 2 .lastPosition (.ok [2]) ∧
        ∀ later, ∀ row ∈ ((start threeClients).run
            (SharedTable.database Circumstances.calmWithTypes)
            (before ++ 2 :: later)).database.rows,
          row.globalPosition ≤ 2 →
            row ∈ ((start threeClients).run (SharedTable.database Circumstances.calmWithTypes)
              before).database.rows :=
  ⟨by decide +kernel, by decide +kernel,
    find_final Circumstances.calmWithTypes threeClients overtaking 2 2 (by decide +kernel)⟩

end SafePosition

end EventJournal

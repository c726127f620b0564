import EventJournal.Proofs.Links.Resolution
import EventJournal.Proofs.Passes

/-!
# Links that are resolved again

A journal resolves the links of a list and passes the events that carry a link through its chain.
An event of the result that was put in the place of a link still carries that link, so a second
resolution of the same list passes it through the chain again; and it may be a link by itself, and
then the second resolution goes on to what it refers to. Nothing in a list tells an event that has
just been put there from one that has been there before.

So a list is its own resolution only under conditions on each of its events, and those are told
here for any chain. For a chain that leaves links alone, and where no event that carries its link
is a link by itself, what is left is that the chain makes nothing new of the events that carry
their links.

## Main results

* `Journal.runOn_resolveLinks` — the events of a resolution.
* `Journal.resolveLinks_again_iff` — where a resolution is its own resolution.
-/

namespace EventJournal

open EventJournal.Action

/-! ## One event -/

/-- The chain leaves alone what an event carries as its link. -/
def MiddlewareChain.KeepsLinks (chain : MiddlewareChain) : Prop :=
  ∀ event event', chain.unshape event = .ok event' → event'.link = event.link

/-- Positions tell rows apart, so an event refers to one of them at most. -/
theorem Event.LinksTo.unique {rows : List StoredEvent} {event : Event} {row other : StoredEvent}
    (apart : EventQuery.Distinct .position rows) (member : row ∈ rows) (member' : other ∈ rows)
    (h : event.LinksTo row) (h' : event.LinksTo other) : row = other :=
  apart.eq_of_place member member'
    (congrArg Int64.toInt (Option.some.inj (h.position.symm.trans h'.position)))

namespace Journal

/-- What the chain makes of an event that carries a link; others are left alone. -/
def unshapeResolved (chain : MiddlewareChain) (event : Event) : Except JournalError Event :=
  if event.link.isSome then chain.unshape event else .ok event

theorem outcome_deserializeResolved (chain : MiddlewareChain) (event : Event) :
    MiddlewareChain.outcome (deserializeResolved chain event) = unshapeResolved chain event := by
  unfold deserializeResolved unshapeResolved
  split
  · exact MiddlewareChain.outcome_deserialize chain event
  · rfl

variable {chain : MiddlewareChain} {rows fetched : List StoredEvent} {event event' : Event}

/-- An event is resolved to itself if what takes its place is brought back to it by the chain, or
if nothing does and the chain makes nothing new of it where it carries a link. -/
theorem unshapeResolved_merge_iff (apart : EventQuery.Distinct .position rows)
    (stored : fetched ⊆ rows) :
    unshapeResolved chain (Read.merge fetched event) = .ok event ↔
      (∀ row ∈ fetched, event.LinksTo row →
        chain.unshape { row.toEvent with link := some event } = .ok event) ∧
      ((∀ row ∈ fetched, ¬event.LinksTo row) → event.link.isSome = true →
        chain.unshape event = .ok event) := by
  generalize put : Read.merge fetched event = merged
  have resolved := put ▸ Read.resolved_merge fetched event
  unfold unshapeResolved
  cases resolved with
  | @found row there links =>
      rw [if_pos (Option.isSome_some)]
      refine ⟨fun back => ⟨fun other among refers => ?_, fun none => ?_⟩,
        fun h => h.1 row there links⟩
      · rwa [← links.unique apart (stored there) (stored among) refers]
      · exact absurd links (none row there)
  | kept none =>
      have nothing : ∀ row ∈ fetched, event.LinksTo row →
          chain.unshape { row.toEvent with link := some event } = .ok event :=
        fun row there links => absurd links (none row there)
      rw [and_iff_right nothing, forall_prop_of_true none]
      cases event.link.isSome <;> simp

/-- An event of a resolution that carries no link has been there before, as long as the chain
leaves links alone, and nothing that was fetched is referred to by it. -/
theorem of_unshapeResolved_merge (keeps : chain.KeepsLinks)
    (shown : unshapeResolved chain (Read.merge fetched event) = .ok event')
    (bare : event'.link = none) :
    event' = event ∧ ∀ row ∈ fetched, ¬event.LinksTo row := by
  generalize put : Read.merge fetched event = merged at shown
  have resolved := put ▸ Read.resolved_merge fetched event
  unfold unshapeResolved at shown
  cases resolved with
  | found there links =>
      rw [if_pos (Option.isSome_some)] at shown
      cases bare.symm.trans (keeps _ _ shown)
  | kept none =>
      split at shown
      · rename_i carries
        rw [← keeps _ _ shown, bare] at carries
        cases carries
      · cases shown
        exact ⟨rfl, none⟩

/-! ## A list -/

/-- The rows that are fetched for the links of a list: a link names with the identifier of the row
a partition that it lies in. -/
def FetchedFor (catalog : List Partition) (rows : List StoredEvent) (events : List Event)
    (row : StoredEvent) : Prop :=
  row ∈ rows ∧ ∃ p ∈ catalog, p.holds row = true ∧ (p.id, row.id) ∈ LinkTarget.ofEvents events

/-- The links that are left in a resolution ask for nothing new: what carries no link has been there
before, so the rows have been fetched already, and no link that is left refers to one of them. -/
theorem not_linksTo_of_resolved {catalog : List Partition} {events out : List Event}
    (keeps : chain.KeepsLinks) (those : ∀ row, row ∈ fetched ↔ FetchedFor catalog rows events row)
    (shown : events.mapM (fun event => unshapeResolved chain (Read.merge fetched event)) = .ok out)
    (plain : ∀ event ∈ out, event.link.isSome = true → event.isLink = false) :
    ∀ event ∈ out, ∀ row, FetchedFor catalog rows out row → ¬event.LinksTo row := by
  have old : ∀ event ∈ out, event.link = none →
      event ∈ events ∧ ∀ row ∈ fetched, ¬event.LinksTo row := by
    intro event member bare
    obtain ⟨source, there, made⟩ := exists_of_mapM_eq_ok shown member
    obtain ⟨rfl, none⟩ := of_unshapeResolved_merge keeps made bare
    exact ⟨there, none⟩
  have bare : ∀ event ∈ out, event.isLink = true → event.link = none := by
    intro event member links
    cases carried : event.link with
    | none => rfl
    | some link => cases links.symm.trans (plain event member (by rw [carried]; rfl))
  have before : ∀ row, FetchedFor catalog rows out row → row ∈ fetched := by
    rintro row ⟨there, p, listed, holds, asked⟩
    obtain ⟨link, member, links, refers, names⟩ := LinkTarget.mem_ofEvents.1 asked
    have asked := LinkTarget.mem_ofEvents.2
      ⟨link, (old link member (bare link member links)).1, links, refers, names⟩
    exact (those row).2 ⟨there, p, listed, holds, asked⟩
  exact fun event member row fetches links =>
    (old event member (bare event member links.link)).2 row (before row fetches) links

variable {δ : Type} {db : Database δ} {table : δ → List StoredEvent} {catalog : List Partition}

/-- The events of a list are resolved one by one, by the rows that are fetched for all of them. -/
theorem runOn_resolveLinks (resolves : db.Resolves table catalog) (named : Catalog.Named catalog)
    (j : Journal) (events : List Event) (cache : LeafCache) (d : δ) :
    ∃ fetched d', table d' = table d ∧
      (∀ row, row ∈ fetched ↔ FetchedFor catalog (table d) events row) ∧
      (j.resolveLinks events).runOn db cache d =
        (((events.mapM fun event => unshapeResolved j.chain (Read.merge fetched event)).mapError
          .error, cache), d') := by
  obtain ⟨fetched, d', same, run, those⟩ :=
    Read.runOn_resolveLinks resolves named events cache d
  refine ⟨fetched, d', same, those, ?_⟩
  unfold resolveLinks
  rw [runOn_bind, run]
  dsimp only
  rw [runOn_check, MiddlewareChain.outcome_each, List.mapM_map]
  simp only [outcome_deserializeResolved]
  rfl

theorem mapError_eq_ok_iff {ε ε' α : Type} {f : ε → ε'} {result : Except ε α} {value : α} :
    result.mapError f = .ok value ↔ result = .ok value := by
  cases result <;> simp [Except.mapError]

/-- **Resolving links twice.** Over a database that does not change, the resolution of a list is
its own resolution if and only if the chain brings back each of its events: from the row that it
refers to, if that is fetched, and else from the event, if that carries a link. For a chain that
leaves links alone, and where no event that carries its link is a link by itself, nothing that
carries its link is fetched, and the chain has to make nothing new of it when it goes through the
chain a second time. -/
theorem resolveLinks_again_iff (resolves : db.Resolves table catalog)
    (named : Catalog.Named catalog) (j : Journal) (events : List Event) {cache cache' : LeafCache}
    {d d' : δ} {out : List Event} (apart : EventQuery.Distinct .position (table d))
    (first : (j.resolveLinks events).runOn db cache d = ((.ok out, cache'), d')) :
    let again := ((j.resolveLinks out).runOn db cache' d').1.1
    (again = .ok out ↔ ∀ event ∈ out,
      (∀ row, FetchedFor catalog (table d) out row → event.LinksTo row →
        j.chain.unshape { row.toEvent with link := some event } = .ok event) ∧
      ((∀ row, FetchedFor catalog (table d) out row → ¬event.LinksTo row) →
        event.link.isSome = true → j.chain.unshape event = .ok event)) ∧
    (j.chain.KeepsLinks → (∀ event ∈ out, event.link.isSome = true → event.isLink = false) →
      (again = .ok out ↔
        ∀ event ∈ out, event.link.isSome = true → j.chain.unshape event = .ok event)) := by
  obtain ⟨fetched, d₁, same, those, run⟩ := runOn_resolveLinks resolves named j events cache d
  obtain ⟨shown, cached, rfl⟩ : _ ∧ _ ∧ _ := by
    simpa only [Prod.mk.injEq, and_assoc] using first.symm.trans run
  obtain ⟨fetched', d₂, -, those', run'⟩ := runOn_resolveLinks resolves named j out cache' d'
  rw [same] at those'
  intro again
  have stored : fetched' ⊆ table d := fun row there => ((those' row).1 there).1
  have one : again = .ok out ↔ ∀ event ∈ out,
      (∀ row, FetchedFor catalog (table d) out row → event.LinksTo row →
        j.chain.unshape { row.toEvent with link := some event } = .ok event) ∧
      ((∀ row, FetchedFor catalog (table d) out row → ¬event.LinksTo row) →
        event.link.isSome = true → j.chain.unshape event = .ok event) := by
    -- a pass that returns the list it was given leaves each of its events alone
    rw [show again = _ from congrArg (·.1.1) run', mapError_eq_ok_iff, mapM_eq_ok_iff,
      List.forall₂_same]
    simp only [unshapeResolved_merge_iff apart stored, those']
  refine ⟨one, fun keeps plain => one.trans ?_⟩
  have nothing := not_linksTo_of_resolved keeps those (mapError_eq_ok_iff.1 shown.symm) plain
  refine forall₂_congr fun event member => ?_
  rw [and_iff_right fun row fetches links => absurd links (nothing event member row fetches),
    forall_prop_of_true (nothing event member)]

/-! ## Reports of an order -/

/-- An order, a link to it in a report, and a link to that link in another report. -/
def linkedRows : List StoredEvent :=
  let link : StoredEvent :=
    { orderRow 0 2 with
      id := ⟨1⟩
      type := linkType
      streamName := "report"
      linkId := some ⟨0⟩
      linkPartitionId := some 1
      linkGlobalPosition := some 1 }
  [orderRow 0 1, link,
    { link with
      id := ⟨2⟩
      globalPosition := 3
      streamId := "2"
      linkId := some ⟨1⟩
      linkPartitionId := some 3
      linkGlobalPosition := some 2 }]

/-- Without a middleware, an order and a link to it are resolved once and for all. -/
theorem order_resolved_for_good :
    let events := (linkedRows.take 2).map StoredEvent.toEvent
    let once := (resolveLinks { nameTries := 0 } events).runOn (.ofTables Read.leaves) {} linkedRows
    (Database.ofTables Read.leaves).Resolves id Read.leaves ∧ Catalog.Named Read.leaves ∧
      EventQuery.Distinct .position linkedRows ∧
      ∃ out, once.1.1 = .ok out ∧ out.map (fun event => (event.type, event.link.isSome)) =
          [("placed", false), ("placed", true)] ∧
        ((resolveLinks { nameTries := 0 } out).runOn (.ofTables Read.leaves) once.1.2 once.2).1.1 =
          .ok out := by
  intro events once
  have resolves := Database.resolves_ofTables Read.leaves
  have named : Catalog.Named Read.leaves := ⟨by decide, by decide⟩
  have apart : EventQuery.Distinct .position linkedRows := by
    unfold EventQuery.Distinct
    decide
  refine ⟨resolves, named, apart, ?_⟩
  have shown : once.1.1.toOption.map (·.map fun event => (event.type, event.link.isSome)) =
      some [("placed", false), ("placed", true)] := by decide +kernel
  have plain : once.1.1.toOption.map (·.all fun event => !event.isLink) = some true := by
    decide +kernel
  rcases run : once with ⟨⟨result, cache⟩, rows⟩
  rw [run] at shown plain
  cases result with
  | error cause => cases shown
  | ok out =>
      refine ⟨out, rfl, Option.some.inj shown, ?_⟩
      have plain := List.all_eq_true.1 (Option.some.inj plain)
      refine ((resolveLinks_again_iff resolves named { nameTries := 0 } events apart run).2
        ?_ ?_).2 fun _ _ _ => rfl
      · rintro event _ ⟨⟩
        rfl
      · exact fun event member _ => by simpa using plain event member

/-- The types and the trails of the events of a report, as they are read and then resolved a
number of times. -/
def shownTimes (chain : MiddlewareChain) (report : String) (times : Nat) :
    Option (List (String × String)) :=
  let j : Journal := { chain, nameTries := 0 }
  let read := j.read ⟨"sales", "report", report, .regular⟩ {}
  let shown := times.repeat (fun read => do j.resolveLinks (← read)) read
  (shown.runOn (.ofTables Read.leaves) {} linkedRows).1.1.toOption.map
    (·.map fun event => (event.type, Middleware.trailOf event.metadata))

/-- The second resolution leaves a second trail in an order, and goes on from a link that the first
has put in the place of another one. -/
theorem second_resolution_differs :
    shownTimes [.trail "a"] "1" 1 = some [("placed", "A")] ∧
    shownTimes [.trail "a"] "1" 2 = some [("placed", "AA")] ∧
    shownTimes [] "2" 1 = some [(linkType, "")] ∧ shownTimes [] "2" 2 = some [("placed", "")] := by
  decide +kernel

end Journal

end EventJournal

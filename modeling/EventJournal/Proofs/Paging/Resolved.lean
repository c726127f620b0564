import EventJournal.Proofs.Links.Again
import EventJournal.Proofs.Unchanging

/-!
# Links of a long read

A long read that resolves links replaces the links of a page by the rows that they refer to, and
then passes the page through the chain. Or the page is read as it is, which passes its events
through the chain, and its links are resolved afterwards; then the rows that are put in their
places go through the chain, one by one. Both fetch the same rows, as long as the chain leaves
alone what tells a link.

The pages of both come from the same sources (`Read.exists_sources`), so they can be compared page
by page. A link that is resolved has been through the chain in the second way and not in the first,
where it is attached as it is stored. For a chain that has no use for the links that events carry
this is the one difference (`Read.PageSource.batch_eq`), and it is none where the chain makes
nothing new of the links (`Read.PageSource.batch_eq_shown_iff`).

## Main results

* `Read.exists_sources` — the pages of both reads, and the rows behind them.
* `Journal.readPages_resolved` — the resolution of a page, and the page with links resolved.
-/

namespace EventJournal

open EventJournal.Action

/-- Two passes over a list, of which the second refuses nothing that comes from the first, are one
pass over it. If it did, the one pass could end with a refusal of the second for an item before one
that the first refuses. -/
theorem mapM_eq_bind {α β γ ε : Type} {f : α → Except ε β} {g : β → Except ε γ} {κ : Type}
    {both : κ → Except ε γ} {items : List α} {others : List κ}
    (each : List.Forall₂ (fun item other => both other = f item >>= g ∧
      ∀ value, f item = .ok value → ∃ final, g value = .ok final) items others) :
    others.mapM both = items.mapM f >>= fun values => values.mapM g := by
  induction each with
  | nil => rfl
  | @cons item other items others one _ ih =>
      obtain ⟨one, total⟩ := one
      cases first : f item with
      | error cause =>
          rw [first] at one
          rw [mapM_cons_of_error one, mapM_cons_of_error first]
          rfl
      | ok value =>
          obtain ⟨final, second⟩ := total value first
          rw [first] at one
          rw [mapM_cons_of_ok (one.trans second), mapM_cons_of_ok first, ih]
          cases items.mapM f with
          | error cause => rfl
          | ok values => exact (mapM_cons_of_ok second values).symm

/-- A table and a catalog that do not change answer each query in one way. -/
theorem Database.unchanging_ofTables (catalog : List Partition) (stored : List StoredEvent) :
    (Database.ofTables catalog).Unchanging (· = stored) := by
  refine fun s _ => ⟨((Database.ofTables catalog).answer s stored).1, ?_⟩
  rintro _ rfl
  refine ⟨rfl, ?_⟩
  cases s <;> rfl

/-! ## Chains -/

theorem Event.withLink_eq {event : Event} {link : Option Event} (carried : event.link = link) :
    { event with link } = event := by
  cases event
  cases carried
  rfl

/-- The transform leaves alone the type of an event and what a link refers by. -/
def EventTransform.KeepsColumns (transform : EventTransform) : Prop :=
  ∀ event event', transform event = .ok event' →
    event'.type = event.type ∧ event'.linkId = event.linkId ∧
      event'.linkPartitionId = event.linkPartitionId ∧
      event'.linkGlobalPosition = event.linkGlobalPosition

/-- The transform has no use for what an event carries as its link. -/
def EventTransform.IgnoresLinks (transform : EventTransform) : Prop :=
  ∀ event link, transform { event with link } =
    (transform event).map fun event' => { event' with link }

namespace MiddlewareChain

open EventTransform

variable {chain : MiddlewareChain} {event : Event}

theorem unshape_cons (m : Middleware) (chain : MiddlewareChain) (event : Event) :
    unshape (m :: chain) event = unshape chain event >>= m.deserialize :=
  List.foldrM_cons

/-- A chain leaves alone what its members leave alone. -/
theorem keepsColumns_unshape (members : ∀ m ∈ chain, KeepsColumns m.deserialize) :
    KeepsColumns chain.unshape := by
  induction chain with
  | nil =>
      rintro event _ ⟨⟩
      exact ⟨rfl, rfl, rfl, rfl⟩
  | cons m chain ih =>
      intro event event' shown
      rw [unshape_cons] at shown
      cases passed : unshape chain event with
      | error cause =>
          rw [passed] at shown
          cases shown
      | ok between =>
          rw [passed] at shown
          have others := ih (fun m member => members m (List.mem_cons_of_mem _ member)) _ _ passed
          have last := members m List.mem_cons_self _ _ shown
          rwa [others.1, others.2.1, others.2.2.1, others.2.2.2] at last

/-- A chain has no use for links if its members have none. -/
theorem ignoresLinks_unshape (members : ∀ m ∈ chain, IgnoresLinks m.deserialize) :
    IgnoresLinks chain.unshape := by
  induction chain with
  | nil => exact fun event link => rfl
  | cons m chain ih =>
      intro event link
      rw [unshape_cons, unshape_cons,
        ih (fun m member => members m (List.mem_cons_of_mem _ member)) event link]
      cases unshape chain event with
      | error cause => rfl
      | ok between => exact members m List.mem_cons_self between link

/-- The event with what the chain makes of the link that it carries, if it carries one. -/
def unshapeLink (chain : MiddlewareChain) (event : Event) : Except JournalError Event :=
  match event.link with
  | none => .ok event
  | some link => (chain.unshape link).map fun link => { event with link := some link }

theorem unshapeLink_eq_iff :
    chain.unshapeLink event = .ok event ↔
      ∀ link, event.link = some link → chain.unshape link = .ok link := by
  unfold unshapeLink
  cases carried : event.link with
  | none => simp
  | some link =>
      simp only [Option.some.injEq, forall_eq']
      cases chain.unshape link with
      | error cause => simp [Except.map]
      | ok link' =>
          simp only [Except.map, Except.ok.injEq]
          constructor
          · intro same
            exact Option.some.inj ((congrArg Event.link same).trans carried)
          · rintro rfl
            exact Event.withLink_eq carried

end MiddlewareChain

namespace Read

open EventTransform

variable {chain : MiddlewareChain} {fetched : List StoredEvent} {event event' : Event}

theorem isLink_of_keepsColumns (keeps : KeepsColumns chain.unshape)
    (shown : chain.unshape event = .ok event') : event'.isLink = event.isLink := by
  obtain ⟨type, linkId, -, -⟩ := keeps event event' shown
  rw [Event.isLink, Event.isLink, type, linkId]

theorem target?_of_keepsColumns (keeps : KeepsColumns chain.unshape)
    (shown : chain.unshape event = .ok event') :
    target? fetched event' = target? fetched event := by
  obtain ⟨-, linkId, -, position⟩ := keeps event event' shown
  rw [target?, target?, isLink_of_keepsColumns keeps shown, linkId, position]

/-- A page asks for the same targets before the chain and after it. -/
theorem ofEvents_of_keepsColumns (keeps : KeepsColumns chain.unshape) {events events' : List Event}
    (shown : List.Forall₂ (fun event event' => chain.unshape event = .ok event') events events') :
    LinkTarget.ofEvents events' = LinkTarget.ofEvents events := by
  unfold LinkTarget.ofEvents
  induction shown with
  | nil => rfl
  | @cons event event' events events' one _ ih =>
      obtain ⟨-, linkId, partition, -⟩ := keeps event event' one
      simp only [List.filterMap_cons, isLink_of_keepsColumns keeps one, linkId, partition, ih]

/-- An event is resolved after the chain as before it, but for the link that it then carries. -/
theorem unshapeResolved_merge_eq (keeps : KeepsColumns chain.unshape)
    (ignores : IgnoresLinks chain.unshape) (bare : event.link = none)
    (shown : chain.unshape event = .ok event') :
    Journal.unshapeResolved chain (merge fetched event') =
        chain.unshape (merge fetched event) >>= chain.unshapeLink ∧
      ∀ merged, chain.unshape (merge fetched event) = .ok merged →
        ∃ linked, chain.unshapeLink merged = .ok linked := by
  have bare' : event'.link = none := by
    have same := ignores event none
    rw [Event.withLink_eq bare, shown] at same
    exact congrArg Event.link (Except.ok.inj same)
  rw [merge, merge, target?_of_keepsColumns keeps shown]
  cases target? fetched event with
  | none =>
      dsimp only
      have kept : chain.unshapeLink event' = .ok event' :=
        MiddlewareChain.unshapeLink_eq_iff.2 fun link carried => nomatch bare'.symm.trans carried
      rw [shown, Journal.unshapeResolved, bare']
      refine ⟨kept.symm, fun merged same => ⟨event', ?_⟩⟩
      rw [← Except.ok.inj same, kept]
  | some row =>
      dsimp only
      rw [Journal.unshapeResolved, if_pos Option.isSome_some, ignores, ignores]
      cases chain.unshape row.toEvent with
      | error cause => exact ⟨rfl, fun _ none => nomatch none⟩
      | ok original =>
          have linked : chain.unshapeLink { original with link := some event } =
              .ok { original with link := some event' } := by
            rw [MiddlewareChain.unshapeLink]
            dsimp only
            rw [shown]
            rfl
          refine ⟨linked.symm, fun merged same => ⟨{ original with link := some event' }, ?_⟩⟩
          rw [← Except.ok.inj same, linked]

/-! ## Pages -/

/-- What a page comes from: its rows, and what is fetched for the links among them. -/
structure PageSource where
  rows : List StoredEvent
  fetched : Except Abort (List StoredEvent)

namespace PageSource

/-- What takes the places of links, if they are resolved. -/
def originals (resolve : Bool) (source : PageSource) : Except Abort (List StoredEvent) :=
  if resolve then source.fetched else .ok []

/-- The page as it is read, with the links of its rows resolved or not. -/
def shown (chain : MiddlewareChain) (resolve : Bool) (source : PageSource) :
    Except Abort (List Event) := do
  let fetched ← source.originals resolve
  (source.rows.mapM fun row => chain.unshape (merge fetched row.toEvent)).mapError .error

/-- The page with the links resolved that are on it after it is read. -/
def batch (chain : MiddlewareChain) (source : PageSource) (page : List Event) :
    Except Abort (List Event) := do
  let fetched ← source.fetched
  (page.mapM fun event => Journal.unshapeResolved chain (merge fetched event)).mapError .error

/-- While the database is in some states, what the source has is fetched for its rows. -/
def Fetches {δ : Type} (σ : Type) (db : Database δ) (states : δ → Prop) (source : PageSource) :
    Prop :=
  (fetch (LinkTarget.ofEvents (source.rows.map StoredEvent.toEvent)) : Action σ _).Yields db states
    source.fetched

variable {source : PageSource} {page : List Event}

/-- A page that is read as it is has an event for each row. -/
theorem forall₂_of_shown (h : source.shown chain false = .ok page) :
    List.Forall₂ (fun event event' => chain.unshape event = .ok event')
      (source.rows.map StoredEvent.toEvent) page := by
  have each : ((source.rows.map StoredEvent.toEvent).mapM chain.unshape).mapError Abort.error =
      .ok page := by
    rw [← h, ← map_merge_nil (source.rows.map StoredEvent.toEvent), List.map_map, List.mapM_map]
    rfl
  exact mapM_eq_ok_iff.1 (Journal.mapError_eq_ok_iff.1 each)

/-- The resolution of a page is the page with its links resolved, and the chain goes over the links
that are attached. -/
theorem batch_eq (keeps : KeepsColumns chain.unshape) (ignores : IgnoresLinks chain.unshape)
    (h : source.shown chain false = .ok page) :
    source.batch chain page = source.shown chain true >>= fun events =>
      (events.mapM chain.unshapeLink).mapError .error := by
  have rows := List.forall₂_map_left_iff.1 (forall₂_of_shown h)
  unfold batch shown originals
  rw [if_pos rfl]
  cases source.fetched with
  | error cause => rfl
  | ok fetched =>
      have one : page.mapM (fun event => Journal.unshapeResolved chain (merge fetched event)) =
          (source.rows.mapM fun row => chain.unshape (merge fetched row.toEvent)) >>= fun events =>
            events.mapM chain.unshapeLink :=
        mapM_eq_bind (rows.imp fun row event shown =>
          unshapeResolved_merge_eq keeps ignores rfl shown)
      have later (result : Except JournalError (List Event)) :
          (result >>= fun events => events.mapM chain.unshapeLink).mapError Abort.error =
            result.mapError Abort.error >>= fun events =>
              (events.mapM chain.unshapeLink).mapError .error := by
        cases result <;> rfl
      exact (congrArg _ one).trans (later _)

/-- They are the same where the chain makes nothing new of the links that are attached. -/
theorem batch_eq_shown_iff (keeps : KeepsColumns chain.unshape)
    (ignores : IgnoresLinks chain.unshape) (h : source.shown chain false = .ok page) :
    source.batch chain page = source.shown chain true ↔
      ∀ events, source.shown chain true = .ok events → ∀ event ∈ events, ∀ link,
        event.link = some link → chain.unshape link = .ok link := by
  rw [batch_eq keeps ignores h]
  cases source.shown chain true with
  | error cause => exact ⟨fun _ _ none => (nomatch none), fun _ => rfl⟩
  | ok events =>
      have same : ((events.mapM chain.unshapeLink).mapError Abort.error = .ok events) ↔
          ∀ event ∈ events, chain.unshapeLink event = .ok event := by
        rw [Journal.mapError_eq_ok_iff, mapM_eq_ok_iff, List.forall₂_same]
      refine same.trans ?_
      simp only [MiddlewareChain.unshapeLink_eq_iff, Except.ok.injEq, forall_eq']

variable {δ : Type} {db : Database δ} {states : δ → Prop}

/-- The links of a page that is read as it is are resolved by what is fetched for its rows. -/
theorem Fetches.yields_resolveLinks (fetches : source.Fetches LeafCache db states) (j : Journal)
    (keeps : KeepsColumns j.chain.unshape) (h : source.shown j.chain false = .ok page) :
    (j.resolveLinks page).Yields db states (source.batch j.chain page) := by
  have asked : (fetch (LinkTarget.ofEvents page) : Action LeafCache _).Yields db states
      source.fetched := by
    rw [ofEvents_of_keepsColumns keeps (forall₂_of_shown h)]
    exact fetches
  have resolved := asked.map (g := fun fetched => page.map (merge fetched))
  rw [← resolveLinks_eq] at resolved
  refine resolved.map_bind fun fetched => ?_
  rw [MiddlewareChain.outcome_each, List.mapM_map]
  simp only [Journal.outcome_deserializeResolved]
  exact yields_check _

end PageSource

/-! ## Rows and what they are shown as -/

variable {δ σ : Type} {db : Database δ} {states : δ → Prop}

/-- The rows of the page that begins at a place, and where to go on; none past the end. -/
def rowsAtPlace (stream : Stream) (options : ReadOptions) (place : Int64) :
    Action σ (Option (List StoredEvent × PageCursor)) := do
  let found ← rows stream (← check (pageOptions stream options place))
  match found.getLast? with
  | none => pure none
  | some last =>
      match cursorAfter? options.direction found.length options.limit (placeOf stream last) with
      | none => abort .overflow
      | some next => pure (some (found, next))

/-- The rows of the page at a cursor, and where to go on. -/
def rowsAtCursor (stream : Stream) (options : ReadOptions) :
    PageCursor → Action σ (Option (List StoredEvent × PageCursor))
  | .done => pure none
  | .at place => rowsAtPlace stream options place
  | .start => do
      match ← firstPlace stream options with
      | some place => rowsAtPlace stream options place
      | none => pure none

/-- The events of a page before they go through the chain. -/
def resolving (resolve : Bool) (events : List Event) : Action σ (List Event) :=
  if resolve then resolveLinks events else pure events

/-- The events that some rows are shown as. -/
def showRows (chain : MiddlewareChain) (resolve : Bool) (found : List StoredEvent) :
    Action σ (List Event) := do
  let events ← resolving resolve (found.map StoredEvent.toEvent)
  check (MiddlewareChain.outcome (chain.deserializeAll events))

/-- The page that rows are shown as, if there are any. -/
def showPage (chain : MiddlewareChain) (resolve : Bool) :
    Option (List StoredEvent × PageCursor) → Action σ (Option (List Event × PageCursor))
  | none => pure none
  | some (found, next) => (fun events => some (events, next)) <$> showRows chain resolve found

/-- A page shows the rows at its cursor. -/
theorem pageAt_eq_bind (chain : MiddlewareChain) (stream : Stream) (options : ReadOptions)
    (cursor : PageCursor) :
    (pageAt chain stream options cursor : Action σ _) =
      rowsAtCursor stream options cursor >>= showPage chain options.resolveLinks := by
  have at_place (place : Int64) : (page chain stream options place : Action σ _) =
      rowsAtPlace stream options place >>= showPage chain options.resolveLinks := by
    unfold page rowsAtPlace
    simp only [LawfulMonad.bind_assoc]
    refine bind_congr fun options' => bind_congr fun found => ?_
    cases found.getLast? with
    | none => rfl
    | some last =>
        dsimp only
        cases cursorAfter? options.direction found.length options.limit (placeOf stream last) with
        | none => rfl
        | some next =>
            show _ = (fun events => some (events, next)) <$> showRows chain _ found
            rw [showRows, map_bind]
            cases options.resolveLinks <;> rfl
  cases cursor with
  | done => rfl
  | «at» place => exact at_place place
  | start =>
      unfold pageAt rowsAtCursor
      simp only [LawfulMonad.bind_assoc]
      refine bind_congr fun place => ?_
      cases place with
      | none => rfl
      | some place => exact at_place place

/-- Which rows a page has does not depend on whether links are resolved. -/
theorem rowsAtCursor_withLinks (stream : Stream) (options : ReadOptions) (resolve : Bool)
    (cursor : PageCursor) :
    (rowsAtCursor stream { options with resolveLinks := resolve } cursor : Action σ _) =
      rowsAtCursor stream options cursor := by
  cases cursor <;> rfl

theorem exists_yields_rowsAtPlace (unchanging : db.Unchanging states) (stream : Stream)
    (options : ReadOptions) (place : Int64) :
    ∃ result, (rowsAtPlace stream options place : Action σ _).Yields db states result := by
  refine exists_yields_bind ⟨_, yields_check _⟩ fun options' =>
    exists_yields_bind (exists_yields_rows unchanging stream options') fun found => ?_
  split
  · exact ⟨_, yields_pure _⟩
  · split
    · exact ⟨_, yields_abort _⟩
    · exact ⟨_, yields_pure _⟩

theorem exists_yields_rowsAtCursor (unchanging : db.Unchanging states) (stream : Stream)
    (options : ReadOptions) (cursor : PageCursor) :
    ∃ result, (rowsAtCursor stream options cursor : Action σ _).Yields db states result := by
  cases cursor with
  | done => exact ⟨_, yields_pure _⟩
  | «at» place => exact exists_yields_rowsAtPlace unchanging stream options place
  | start =>
      refine exists_yields_bind ?_ fun place => ?_
      · unfold firstPlace
        split
        · exact ⟨_, yields_pure _⟩
        · exact ⟨_, yields_pure _⟩
        · exact exists_yields_bind (exists_yields_rows unchanging stream _)
            fun last => ⟨_, yields_pure _⟩
      · cases place with
        | none => exact ⟨_, yields_pure _⟩
        | some place => exact exists_yields_rowsAtPlace unchanging stream options place

theorem PageSource.Fetches.yields_resolving {source : PageSource}
    (fetches : source.Fetches σ db states) (resolve : Bool) :
    (resolving resolve (source.rows.map StoredEvent.toEvent) : Action σ _).Yields db states
      ((source.originals resolve).map fun fetched =>
        (source.rows.map StoredEvent.toEvent).map (merge fetched)) := by
  cases resolve with
  | true =>
      rw [resolving, if_pos rfl, resolveLinks_eq]
      exact Yields.map fetches
  | false =>
      have none : (source.originals false).map (fun fetched =>
          (source.rows.map StoredEvent.toEvent).map (merge fetched)) =
            .ok (source.rows.map StoredEvent.toEvent) :=
        congrArg Except.ok (map_merge_nil _)
      rw [none]
      exact yields_pure _

/-- Rows are shown with what is fetched for their links. -/
theorem PageSource.Fetches.yields_showRows {source : PageSource}
    (fetches : source.Fetches σ db states) (chain : MiddlewareChain) (resolve : Bool) :
    (showRows chain resolve source.rows : Action σ _).Yields db states
      (source.shown chain resolve) := by
  refine (fetches.yields_resolving resolve).map_bind fun fetched => ?_
  rw [MiddlewareChain.outcome_deserializeAll, List.map_map, List.mapM_map]
  exact yields_check _

/-! ## The items of a read -/

/-- The items of a read, by what its pages come to: the error that ends it is the last one. -/
def items : List (Except Abort (List Event)) →
    Except Abort (List (Except JournalError (List Event)))
  | [] => .ok []
  | .ok events :: rest => (items rest).map (.ok events :: ·)
  | .error (.error cause) :: _ => .ok [.error cause]
  | .error cause :: _ => .error cause

variable {chain : MiddlewareChain} {stream : Stream} {options : ReadOptions} {count : Nat}
  {cursor next : PageCursor}

theorem yields_pages_succ_none
    (ended : (pageAt chain stream options cursor : Action σ _).Yields db states (.ok none)) :
    (pages chain stream options (count + 1) cursor : Action σ _).Yields db states (.ok []) :=
  (ended.outcome.bind (yields_pure none)).bind (yields_pure [])

theorem yields_pages_done :
    (pages chain stream options count .done : Action σ _).Yields db states (.ok []) := by
  cases count with
  | zero => exact yields_pure []
  | succ count => exact yields_pages_succ_none (yields_pure none)

/-- A read goes on from a page to the items after it. -/
theorem yields_pages_succ {shown : Except Abort (List Event)}
    {later : List (Except Abort (List Event))}
    (first : (pageAt chain stream options cursor : Action σ _).Yields db states
      (shown.map fun events => some (events, next)))
    (rest : (pages chain stream options count next : Action σ _).Yields db states (items later)) :
    (pages chain stream options (count + 1) cursor : Action σ _).Yields db states
      (items (shown :: later)) := by
  have first := first.outcome
  unfold pages nextPage
  cases shown with
  | ok events =>
      refine (first.bind (yields_pure (some (Except.ok events, next)))).bind ?_
      have rest := rest.map (g := (Except.ok events :: ·))
      rwa [← bind_pure_comp] at rest
  | error cause =>
      cases cause with
      | error cause =>
          -- the error is the item, and there is nothing after it
          refine (first.bind (yields_pure (some (Except.error cause, PageCursor.done)))).bind ?_
          exact yields_pages_done.bind (yields_pure _)
      | misfit => exact (first.bind (yields_abort .misfit)).bind_error
      | outOfTries => exact (first.bind (yields_abort .outOfTries)).bind_error
      | overflow => exact (first.bind (yields_abort .overflow)).bind_error

/-- The pages of a read, with links resolved and without, come from the same sources. -/
theorem exists_sources (unchanging : db.Unchanging states) (chain : MiddlewareChain)
    (stream : Stream) (options : ReadOptions) (count : Nat) (cursor : PageCursor) :
    ∃ sources : List (Except Abort PageSource),
      (∀ resolve, (pages chain stream { options with resolveLinks := resolve } count cursor :
        Action σ _).Yields db states
          (items (sources.map (· >>= PageSource.shown chain resolve)))) ∧
      ∀ source, .ok source ∈ sources → source.Fetches σ db states := by
  -- the cursors of both reads are the same, since they depend on rows only
  induction count generalizing cursor with
  | zero => exact ⟨[], fun _ => yields_pure [], fun _ none => nomatch none⟩
  | succ count ih =>
      obtain ⟨result, found⟩ := exists_yields_rowsAtCursor (σ := σ) unchanging stream options cursor
      have paged (resolve : Bool) :
          (pageAt chain stream { options with resolveLinks := resolve } cursor : Action σ _) =
            rowsAtCursor stream options cursor >>= showPage chain resolve := by
        rw [pageAt_eq_bind, rowsAtCursor_withLinks]
      cases result with
      | error cause =>
          refine ⟨[.error cause], fun resolve => ?_, by simp⟩
          have failed : (pageAt chain stream { options with resolveLinks := resolve } cursor :
              Action σ _).Yields db states
                ((Except.error cause : Except Abort (List Event)).map fun events =>
                  some (events, PageCursor.done)) := by
            rw [paged]
            exact found.bind_error
          exact yields_pages_succ failed yields_pages_done
      | ok place =>
          cases place with
          | none =>
              refine ⟨[], fun resolve => yields_pages_succ_none ?_, fun _ none => nomatch none⟩
              rw [paged]
              exact found.bind (yields_pure none)
          | some place =>
              obtain ⟨rows, next⟩ := place
              obtain ⟨fetched, fetches⟩ := exists_yields_fetch (σ := σ) unchanging
                (LinkTarget.ofEvents (rows.map StoredEvent.toEvent))
              have fetches : PageSource.Fetches σ db states ⟨rows, fetched⟩ := fetches
              obtain ⟨sources, later, all⟩ := ih next
              refine ⟨.ok ⟨rows, fetched⟩ :: sources, fun resolve => ?_, ?_⟩
              · refine yields_pages_succ ?_ (later resolve)
                rw [paged]
                exact found.bind (fetches.yields_showRows chain resolve).map
              · intro source member
                rcases List.mem_cons.1 member with same | member
                · cases same
                  exact fetches
                · exact all source member

end Read

namespace Journal

theorem withLimit_withLinks (j : Journal) (options : ReadOptions) (resolve : Bool) :
    j.withLimit { options with resolveLinks := resolve } =
      { j.withLimit options with resolveLinks := resolve } := by
  unfold withLimit
  split <;> rfl

/-- **Links of long reads.** While a database does not change, the pages of a long read with links
resolved and of one without come from the same sources, and the links of a page that is read without
are resolved by what the page of the other read is made with. The chain takes part in both: in the
first read the rows of links are put away as they are stored, and what is put in their places goes
through the chain; in the second the links have been through the chain when they are put away. For a
chain that has no use for links the resolution of a page differs from the page with links resolved
by what the chain makes of the links that are attached to its events, and by nothing else. -/
theorem readPages_resolved {δ : Type} {db : Database δ} {states : δ → Prop}
    (unchanging : db.Unchanging states) (j : Journal)
    (keeps : EventTransform.KeepsColumns j.chain.unshape) (stream : Stream)
    (options : ReadOptions) (count : Nat) :
    ∃ sources : List (Except Abort Read.PageSource),
      (∀ resolve, (j.readPages stream { options with resolveLinks := resolve } count).Yields
        db states (Read.items (sources.map (· >>= Read.PageSource.shown j.chain resolve)))) ∧
      ∀ source, .ok source ∈ sources → ∀ page, source.shown j.chain false = .ok page →
        (j.resolveLinks page).Yields db states (source.batch j.chain page) ∧
        (EventTransform.IgnoresLinks j.chain.unshape →
          (source.batch j.chain page = source.shown j.chain true >>= fun events =>
            (events.mapM j.chain.unshapeLink).mapError .error) ∧
          (source.batch j.chain page = source.shown j.chain true ↔
            ∀ events, source.shown j.chain true = .ok events → ∀ event ∈ events, ∀ link,
              event.link = some link → j.chain.unshape link = .ok link)) := by
  obtain ⟨sources, paged, fetches⟩ :=
    Read.exists_sources unchanging j.chain stream (j.withLimit options) count .start
  refine ⟨sources, fun resolve => ?_, fun source member page shown => ⟨?_, fun ignores => ?_⟩⟩
  · unfold readPages
    rw [withLimit_withLinks]
    exact paged resolve
  · exact (fetches source member).yields_resolveLinks j keeps shown
  · exact ⟨Read.PageSource.batch_eq keeps ignores shown,
      Read.PageSource.batch_eq_shown_iff keeps ignores shown⟩

/-! ## A report with a link -/

/-- A journal whose chain leaves a trail in the metadata. -/
def trailing : Journal where
  chain := [.trail "a"]
  nameTries := 0

theorem keepsColumns_trailing : EventTransform.KeepsColumns trailing.chain.unshape := by
  refine MiddlewareChain.keepsColumns_unshape fun m member => ?_
  cases List.mem_singleton.1 member
  rintro event _ ⟨⟩
  exact ⟨rfl, rfl, rfl, rfl⟩

theorem ignoresLinks_trailing : EventTransform.IgnoresLinks trailing.chain.unshape := by
  refine MiddlewareChain.ignoresLinks_unshape fun m member => ?_
  cases List.mem_singleton.1 member
  exact fun _ _ => rfl

/-- A report that holds a link is read both ways, page by page. -/
theorem readPages_resolved_report :
    let report : Stream := ⟨"sales", "report", "1", .regular⟩
    let db := Database.ofTables Read.leaves
    db.Unchanging (· = linkedRows) ∧ EventTransform.KeepsColumns trailing.chain.unshape ∧
      ∀ count, ∃ sources : List (Except Abort Read.PageSource),
        (∀ resolve, (trailing.readPages report { resolveLinks := resolve } count).Yields
          db (· = linkedRows)
          (Read.items (sources.map (· >>= Read.PageSource.shown trailing.chain resolve)))) ∧
        ∀ source, .ok source ∈ sources → ∀ page, source.shown trailing.chain false = .ok page →
          (trailing.resolveLinks page).Yields db (· = linkedRows)
            (source.shown trailing.chain true >>= fun events =>
              (events.mapM trailing.chain.unshapeLink).mapError .error) := by
  intro report db
  have unchanging : db.Unchanging (· = linkedRows) :=
    Database.unchanging_ofTables Read.leaves linkedRows
  refine ⟨unchanging, keepsColumns_trailing, fun count => ?_⟩
  obtain ⟨sources, paged, resolved⟩ :=
    readPages_resolved unchanging trailing keepsColumns_trailing report {} count
  refine ⟨sources, paged, fun source member page shown => ?_⟩
  obtain ⟨yields, compared⟩ := resolved source member page shown
  rw [← (compared ignoresLinks_trailing).1]
  exact yields

/-- The trails of the events of the report, and of the links that they carry, with the links
resolved by the read or afterwards. -/
def reportTrails (later : Bool) : Option (List (List (String × Option String))) :=
  let shown : Action LeafCache (List (List Event)) := do
    let items ← trailing.readPages ⟨"sales", "report", "1", .regular⟩ { resolveLinks := !later } 2
    items.mapM fun item => do
      let page ← check item
      if later then trailing.resolveLinks page else pure page
  (shown.runOn (.ofTables Read.leaves) {} linkedRows).1.1.toOption.map
    (·.map (·.map fun event => (Middleware.trailOf event.metadata,
      event.link.map fun link => Middleware.trailOf link.metadata)))

/-- The link that is attached by the read has not been through the chain. -/
theorem attached_link_skips_chain :
    reportTrails false = some [[("A", some "")]] ∧
      reportTrails true = some [[("A", some "A")]] := by
  decide +kernel

end Journal

end EventJournal

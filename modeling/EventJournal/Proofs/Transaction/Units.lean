import EventJournal.Proofs.Table.Appends
import EventJournal.Proofs.Table.Changes
import EventJournal.Proofs.Transaction.Discipline

/-!
# Every call keeps to the discipline

A `Call` is whatever can be asked of a journal or of its catalog. The units of work that
change something run within transactions and obey the rules of `Transaction.Allowed`; all
else is read outside of one. So no call leaves a transaction open, and neither does a
sequence of calls, whatever has become of those before.

## Main results

* `Call.closes_performAll` — calls one after the other leave no transaction open and send
  only what is allowed.
-/

namespace EventJournal

open EventJournal.Action Protocol Transaction Exchange

variable {σ : Type} {s : σ} {w : Watch (Option (List Exchange))} {level : Isolation}
  {needed : List Exchange}

/-! ## Units of work -/

namespace Batch

/-- The lock and the last revision of the stream are known. -/
def Ready (stream : Stream) (needed : List Exchange) : Prop :=
  locked ∈ needed ∧ ∃ revisions, lastRead stream revisions ∈ needed

theorem ends_insertOne_inside {stream : Stream} {all : List Event} {first : Int32} {index : Nat}
    {event : Event} (ready : Ready stream needed) (inside : Inside .serializable needed w) :
    Ends bracket.database (insertOne stream all first index event) s w
      (fun _ _ w => Inside .serializable needed w) (fun _ _ w => Open w) := by
  obtain ⟨locks, revisions, reads⟩ := ready
  unfold insertOne
  simp only [ends_bind, ends_pure]
  refine ends_ask_inside inside (.plain rfl) fun typeIds w isOpen inside => ?_
  refine Ends.one (fun typeId rest same => ?_) fun _ => isOpen
  have inside := (inside (by rw [same]; rfl)).mono (List.subset_cons_self _ _)
  refine ends_inRange (fun revision _ => ?_) fun _ => isOpen
  refine ends_attempt_inside inside (.insert locks reads) fun answer w isOpen inside => ?_
  cases answer with
  | error e => exact (ends_check_error _).2 isOpen
  | ok rows =>
      cases rows with
      | nil => exact (ends_check_error _).2 isOpen
      | cons row rest => exact (ends_check_ok row).2 ((inside rfl).mono (List.subset_cons_self _ _))

theorem ends_insertFrom_inside {stream : Stream} {all : List Event} {first : Int32}
    (ready : Ready stream needed) (events : List Event) :
    ∀ index s w, Inside .serializable needed w →
      Ends bracket.database (insertFrom stream all first index events : Action σ _) s w
        (fun _ _ w => Inside .serializable needed w) (fun _ _ w => Open w) := by
  induction events with
  | nil => exact fun index s w inside => (ends_pure []).2 inside
  | cons event rest ih =>
      intro index s w inside
      unfold insertFrom
      simp only [ends_bind, ends_pure]
      apply Ends.mono (ends_insertOne_inside ready inside)
      · exact fun _ s w inside => ih (index + 1) s w inside
      · exact fun _ _ _ isOpen => isOpen

theorem minds_append (chain : MiddlewareChain) (transform : EventTransform) (batch : Batch) :
    Minds .serializable (batch.append chain transform : Action σ _) := by
  intro s w inside
  unfold append
  simp only [ends_bind]
  refine Ends.check (fun _ _ => ?_) fun _ _ => inside.isOpen
  refine ends_ask_inside inside (.plain rfl) fun _ w _ inside => ?_
  refine ends_ask_inside (inside rfl) (.plain rfl) fun revisions w isOpen inside => ?_
  have ready : Ready batch.stream [lastRead batch.stream revisions, locked] :=
    ⟨List.mem_cons_of_mem _ List.mem_cons_self, revisions, List.mem_cons_self⟩
  refine Ends.check (fun _ _ => ?_) fun _ _ => isOpen
  refine Ends.check (fun events _ => ?_) fun _ _ => isOpen
  refine ends_inRange (fun first _ => ?_) fun _ => isOpen
  apply Ends.mono (ends_insertFrom_inside ready events 0 s w (inside rfl))
  · intro inserted s w inside
    exact Ends.check (fun _ _ => inside.mono (List.nil_subset _)) fun _ _ => inside.isOpen
  · exact fun _ _ _ isOpen => isOpen

theorem minds_appendAll (chain : MiddlewareChain) (transform : EventTransform)
    (batches : List Batch) :
    Minds .serializable (appendAll chain transform batches : Action σ _) := by
  unfold appendAll
  induction batches with
  | nil =>
      intro s w inside
      rw [ends_mapM_nil]
      exact inside
  | cons batch rest ih =>
      intro s w inside
      rw [ends_mapM_cons]
      apply Ends.mono (minds_append chain transform batch s w inside)
      · exact fun _ s w inside => ih s w inside
      · exact fun _ _ _ isOpen => isOpen

end Batch

theorem Event.minds_delete (limit : Int64) (force : Bool) (event : Event) :
    Minds .serializable (event.delete limit force : Action σ _) := by
  intro s w inside
  unfold Event.delete
  cases event.address? with
  | none => exact (ends_fail _).2 inside.isOpen
  | some address =>
      simp only [ends_bind]
      refine ends_ask_inside inside (.plain rfl) fun rows w isOpen inside => ?_
      cases rows with
      | nil => exact (ends_pure false).2 ((inside rfl).mono (List.nil_subset _))
      | cons row rest =>
          simp only [ends_bind]
          refine ends_ask_inside (inside rfl) (.plain rfl) fun counts w isOpen inside => ?_
          refine Ends.one (fun count rest same => ?_) fun _ => isOpen
          have inside := inside (by rw [same]; rfl)
          refine Ends.check (fun _ _ => ?_) fun _ _ => isOpen
          refine ends_ask_inside inside (.change rfl rfl) fun _ w _ inside => ?_
          refine ends_ask_inside (inside rfl) (.change rfl rfl) fun _ w _ inside => ?_
          exact (ends_pure true).2 ((inside rfl).mono (List.nil_subset _))

theorem Stream.minds_delete (stream : Stream) :
    Minds .serializable (stream.delete : Action σ _) := by
  intro s w inside
  unfold Stream.delete
  cases stream.isRegular with
  | false => exact (ends_fail _).2 inside.isOpen
  | true =>
      simp only [↓reduceIte, ends_bind, ends_pure]
      exact ends_ask_inside inside (.change rfl rfl)
        fun _ _ _ inside => (inside rfl).mono (List.nil_subset _)

theorem SafePosition.minds_read : Minds .readCommitted (SafePosition.read : Action σ _) := by
  intro s w inside
  unfold SafePosition.read
  simp only [ends_bind]
  refine ends_ask_inside inside (.plain rfl) fun _ w _ inside => ?_
  refine ends_ask_inside (inside rfl) (.plain rfl) fun rows w isOpen inside => ?_
  refine Ends.one (fun position rest same => ?_) fun _ => isOpen
  exact (inside (by rw [same]; rfl)).mono (List.nil_subset _)

namespace Catalog

theorem ends_freeName_inside (tries : Nat) :
    ∀ name s w, Inside .serializable [] w →
      Ends bracket.database (freeName tries name : Action σ _) s w
        (fun _ _ w => Inside .serializable [] w) (fun _ _ w => Open w) := by
  induction tries with
  | zero => exact fun name s w inside => (ends_abort _).2 inside.isOpen
  | succ tries ih =>
      intro name s w inside
      unfold freeName
      simp only [ends_bind]
      refine ends_ask_inside inside (.plain rfl) fun rows w isOpen inside => ?_
      refine Ends.one (fun taken rest same => ?_) fun _ => isOpen
      have inside := (inside (by rw [same]; rfl)).mono (List.nil_subset _)
      cases taken with
      | false => exact (ends_pure name).2 inside
      | true => exact ih _ _ _ inside

theorem minds_create (config : CatalogConfig) (parent : String) (key : PartitionKey) :
    Minds .serializable (create config parent key : Action σ _) := by
  intro s w inside
  unfold create
  rw [ends_bind]
  refine (ends_freeName_inside _ _ s w inside).mono (fun name s w inside => ?_)
    fun _ _ _ isOpen => isOpen
  rw [ends_bind]
  refine ends_attempt_inside inside (.change rfl rfl) fun answer w isOpen inside => ?_
  cases answer with
  | error e => exact (ends_fail _).2 isOpen
  | ok _ =>
      rw [ends_bind]
      refine ends_attempt_inside (inside rfl) (.change rfl rfl) fun answer w isOpen inside => ?_
      cases answer with
      | error e => exact (ends_check_error _).2 isOpen
      | ok rows =>
          cases rows with
          | nil => exact (ends_check_error _).2 isOpen
          | cons row rest => exact (ends_check_ok row).2 ((inside rfl).mono (List.nil_subset _))

theorem minds_findOrCreate (config : CatalogConfig) (parent : String) (key : PartitionKey) :
    Minds .serializable (findOrCreate config parent key : Action σ _) := by
  intro s w inside
  unfold findOrCreate findPartition
  simp only [ends_bind, ends_pure]
  refine ends_ask_inside inside (.plain rfl) fun rows w _ inside => ?_
  replace inside := (inside rfl).mono (List.nil_subset _)
  cases rows with
  | nil => exact minds_create config parent key s w inside
  | cons partition rest => exact (ends_pure partition).2 inside

theorem minds_ensurePath (config : CatalogConfig) (key : LeafKey) :
    Minds .serializable (ensurePath config key : Action σ _) := by
  intro s w inside
  unfold ensurePath
  simp only [ends_bind]
  refine (minds_findOrCreate config _ _ s w inside).mono (fun context s w inside => ?_)
    fun _ _ _ isOpen => isOpen
  refine (minds_findOrCreate config _ _ s w inside).mono (fun streamName s w inside => ?_)
    fun _ _ _ isOpen => isOpen
  exact minds_findOrCreate config _ _ s w inside

end Catalog

/-! ## Reads -/

namespace Read

theorem sends_streamExists (stream : Stream) :
    (streamExists stream : Action σ _).Sends (·.isQuery = true) :=
  Sends.bind (sends_ask rfl) fun rows => sends_one rows

theorem sends_rows (stream : Stream) (options : ReadOptions) :
    (rows stream options : Action σ _).Sends (·.isQuery = true) := by
  refine Sends.bind (sends_check _) fun query => Sends.bind (sends_ask rfl) fun found => ?_
  split
  · refine Sends.bind (sends_streamExists stream) fun there => ?_
    cases there with
    | true => exact sends_pure _
    | false => exact sends_abort _
  · exact sends_pure _

theorem sends_findByIds (ids : List Int64) :
    (Catalog.findByIds ids : Action σ _).Sends (·.isQuery = true) := by
  cases ids with
  | nil => exact sends_pure _
  | cons id rest => exact sends_ask rfl

theorem sends_resolveLinks (events : List Event) :
    (resolveLinks events : Action σ _).Sends (·.isQuery = true) := by
  refine (sends_findByIds _).bind fun partitions => ?_
  split
  · exact sends_abort _
  · exact sends_pure _
  · exact Sends.bind (sends_ask rfl) fun rows => sends_pure _

/-- Events in the place of links, where a read asks for them. -/
theorem sends_resolving {β : Type} (resolve : Bool) (events : List Event)
    {f : List Event → Action σ β} (rest : ∀ events, (f events).Sends (·.isQuery = true)) :
    (if resolve then resolveLinks events >>= f else pure events >>= f : Action σ β).Sends
      (·.isQuery = true) := by
  cases resolve with
  | true => exact (sends_resolveLinks events).bind rest
  | false => exact (sends_pure events).bind rest

theorem sends_heads (chain : MiddlewareChain) (options : ReadOptions) :
    (heads chain options : Action σ _).Sends (·.isQuery = true) := by
  refine Sends.bind (sends_ask rfl) fun leaves => ?_
  split
  · exact sends_abort _
  · exact sends_pure _
  · refine Sends.bind (sends_ask rfl) fun found => ?_
    exact sends_resolving _ _ fun events => sends_check _

theorem sends_page (chain : MiddlewareChain) (stream : Stream) (options : ReadOptions)
    (place : Int64) : (page chain stream options place : Action σ _).Sends (·.isQuery = true) := by
  refine Sends.bind (sends_check _) fun options => ?_
  refine (sends_rows _ _).bind fun found => ?_
  split
  · exact sends_pure _
  · split
    · exact sends_abort _
    · exact sends_resolving _ _ fun events => Sends.bind (sends_check _) fun _ => sends_pure _

theorem sends_firstPlace (stream : Stream) (options : ReadOptions) :
    (firstPlace stream options : Action σ _).Sends (·.isQuery = true) := by
  unfold firstPlace
  split
  · exact sends_pure _
  · exact sends_pure _
  · exact (sends_rows _ _).bind fun last => sends_pure _

theorem sends_pageAt (chain : MiddlewareChain) (stream : Stream) (options : ReadOptions)
    (cursor : PageCursor) :
    (pageAt chain stream options cursor : Action σ _).Sends (·.isQuery = true) := by
  cases cursor with
  | done => exact sends_pure none
  | «at» place => exact sends_page chain stream options place
  | start =>
      refine (sends_firstPlace stream options).bind fun found => ?_
      cases found with
      | none => exact sends_pure none
      | some place => exact sends_page chain stream options place

theorem sends_nextPage (chain : MiddlewareChain) (stream : Stream) (options : ReadOptions)
    (cursor : PageCursor) :
    (nextPage chain stream options cursor : Action σ _).Sends (·.isQuery = true) := by
  refine (sends_pageAt chain stream options cursor).outcome.bind fun result => ?_
  split
  · exact sends_pure _
  · exact sends_pure _
  · exact sends_pure _
  · exact sends_abort _

theorem sends_pages (chain : MiddlewareChain) (stream : Stream) (options : ReadOptions)
    (count : Nat) :
    ∀ cursor, (pages chain stream options count cursor : Action σ _).Sends (·.isQuery = true) := by
  induction count with
  | zero => exact fun cursor => sends_pure []
  | succ count ih =>
      intro cursor
      refine (sends_nextPage chain stream options cursor).bind fun result => ?_
      split
      · exact sends_pure []
      · exact (ih _).bind fun rest => sends_pure _

end Read

namespace Catalog

theorem sends_findLeaf_query (key : LeafKey) : (findLeaf key).Sends (·.isQuery = true) := by
  refine Sends.bind sends_state fun cache => ?_
  split
  · exact sends_pure _
  · refine Sends.bind (Sends.bind (sends_ask rfl) fun rows => sends_pure _) fun found => ?_
    cases found with
    | some leaf => exact Sends.bind (sends_modify _) fun _ => sends_pure _
    | none => exact sends_pure _

end Catalog

/-! ## Calls -/

/-- Whatever can be asked of a journal or of its catalog. -/
inductive Call where
  | change (change : Change)
  | read (stream : Stream) (options : ReadOptions)
  | readPages (stream : Stream) (options : ReadOptions) (count : Nat)
  | readGrouped (options : ReadOptions)
  | resolveLinks (events : List Event)
  | findLeaf (key : LeafKey)
  | ensure (config : CatalogConfig) (key : LeafKey)
  | findLeaves (filter : ReadFilter)
  | safePosition

namespace Call

def perform (j : Journal) : Call → Action LeafCache Unit
  | .change made => made.perform j
  | .read stream options => do
      let _ ← j.read stream options
  | .readPages stream options count => do
      let _ ← j.readPages stream options count
  | .readGrouped options => do
      let _ ← j.readGrouped options
  | .resolveLinks events => do
      let _ ← j.resolveLinks events
  | .findLeaf key => do
      let _ ← Catalog.findLeaf key
  | .ensure config key => do
      let _ ← Catalog.ensure config key
  | .findLeaves filter => do
      let _ ← Catalog.findLeaves filter
  | .safePosition => do
      let _ ← SafePosition.find

/-- Calls one after the other, those that fail included, each of a journal of its own. -/
def performAll (calls : List (Journal × Call)) : Action LeafCache Unit :=
  calls.forM fun (j, call) => do
    let _ ← Action.outcome (call.perform j)

end Call

/-- An action that leaves no transaction open, and has sent only what is allowed. -/
def Action.Closes {α : Type} (action : Action σ α) : Prop :=
  ∀ s w, Closed w →
    Ends bracket.database action s w (fun _ _ w => Closed w) (fun _ _ w => Closed w)

theorem Action.Closes.discard {α : Type} {action : Action σ α} (h : action.Closes) :
    (do let _ ← action : Action σ Unit).Closes := by
  intro s w closed
  simp only [ends_bind, ends_pure]
  exact h s w closed

theorem Action.closes_of_sends {α : Type} {action : Action σ α}
    (sends : action.Sends (·.isQuery = true)) : action.Closes :=
  fun _ _ closed => ends_closed_of_sends sends closed

theorem Catalog.closes_ensure (config : CatalogConfig) (key : LeafKey) :
    (Catalog.ensure config key).Closes := by
  intro s w closed
  unfold ensure
  rw [ends_bind]
  refine (ends_closed_of_sends (sends_findLeaf_query key) closed).mono (fun found s w closed => ?_)
    fun _ _ _ closed => closed
  cases found with
  | some leaf => exact (ends_pure leaf).2 closed
  | none =>
      simp only [ends_bind, ends_modify, ends_pure]
      exact ends_transact_closed (minds_ensurePath config key)
        (fun f absent => absurd absent.symm (Option.some_ne_none f)) closed

theorem Catalog.closes_healer (config : CatalogConfig) (stream : Stream) (types : List String) :
    (healer config stream types).Closes :=
  Ends.forM (fun _ _ w => Closed w)
    (fun _ _ s w closed => (closes_ensure config _).discard s w closed) types

namespace Journal

theorem closes_transact {α : Type} (j : Journal) {unit : Action LeafCache α}
    (minds : Minds .serializable unit) : (j.transact unit).Closes := by
  intro s w closed
  refine ends_transact_closed minds ?_ closed
  intro f there stream types s w closed
  cases there
  exact Catalog.closes_healer j.catalogConfig stream types s w closed

theorem closes_locate (events : List Event) : ∀ known, (locate known events).Closes := by
  induction events with
  | nil => exact fun known s w closed => (ends_pure known).2 closed
  | cons event rest ih =>
      intro known s w closed
      unfold locate
      split
      · rw [ends_bind]
        refine (ends_closed_of_sends (Catalog.sends_findLeaf_query _) closed).mono
          (fun found s w closed => ?_) fun _ _ _ closed => closed
        cases found with
        | some leaf => exact ih _ s w closed
        | none => exact (ends_fail _).2 closed
      · exact (ends_fail _).2 closed

theorem closes_appendWith (j : Journal) (transform : EventTransform) (batch : Batch) :
    (j.appendWith transform batch).Closes :=
  j.closes_transact (Batch.minds_append j.chain transform batch)

theorem closes_linkTo (j : Journal) (targets : Batch) : (j.linkTo targets).Closes := by
  intro s w closed
  unfold linkTo
  simp only [ends_bind]
  refine Ends.check (fun _ _ => ?_) fun _ _ => closed
  refine (closes_locate targets.events [] s w closed).mono ?_ fun _ _ _ closed => closed
  exact fun partitions s w closed => j.closes_appendWith (linkFor partitions) targets s w closed

end Journal

theorem SafePosition.closes_find : (SafePosition.find : Action σ _).Closes :=
  fun _ _ closed => ends_inTransaction_closed minds_read closed

theorem Change.closes_perform (j : Journal) (change : Change) : (change.perform j).Closes := by
  cases change with
  | append transform batch => exact (j.closes_appendWith transform batch).discard
  | appendMany batches =>
      exact (j.closes_transact (Batch.minds_appendAll j.chain .ok batches)).discard
  | linkTo targets => exact (j.closes_linkTo targets).discard
  | deleteEvent event force =>
      exact (j.closes_transact (Event.minds_delete j.config.maxRecordsToLock force event)).discard
  | deleteStream stream => exact (j.closes_transact (Stream.minds_delete stream)).discard

namespace Call

theorem closes_perform (j : Journal) (call : Call) : (call.perform j).Closes := by
  have checked : ∀ {α β : Type} {action : Action LeafCache α} {f : α → Except JournalError β},
      action.Sends (·.isQuery = true) →
        (do let value ← action; Action.check (f value) : Action LeafCache β).Closes :=
    fun sends => closes_of_sends (Sends.bind sends fun _ => sends_check _)
  cases call with
  | change made => exact made.closes_perform j
  | read stream options => exact (checked (Read.sends_rows _ _)).discard
  | readPages stream options count =>
      exact (closes_of_sends (Read.sends_pages j.chain stream _ count .start)).discard
  | readGrouped options => exact (closes_of_sends (Read.sends_heads j.chain _)).discard
  | resolveLinks events => exact (checked (Read.sends_resolveLinks events)).discard
  | findLeaf key => exact (closes_of_sends (Catalog.sends_findLeaf_query key)).discard
  | ensure config key => exact (Catalog.closes_ensure config key).discard
  | findLeaves filter => exact (closes_of_sends (sends_ask rfl)).discard
  | safePosition => exact SafePosition.closes_find.discard

/-- Calls one after the other leave no transaction open, and send only what is allowed. -/
theorem closes_performAll (calls : List (Journal × Call)) : (performAll calls).Closes := by
  refine Ends.forM (fun _ _ w => Closed w) ?_ calls
  intro (j, call) rest s w closed
  simp only [ends_bind, ends_outcome, ends_pure]
  exact call.closes_perform j s w closed

end Call

end EventJournal

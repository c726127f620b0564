import EventJournal.Proofs.Catalog.Shared
import EventJournal.Proofs.Losses.Surrender
import EventJournal.Proofs.Transaction.Attempts

/-!
# The cache of leaves

A leaf that has been seen is kept and not asked for again. It may be kept for as long as the
program runs, so what is kept must be committed, and must be the leaf that was asked for. It is,
whatever others write to the catalog and whatever fails: the cache is filled after a read
outside of a transaction, which sees committed entries only, or after a transaction that has
ended with a commit. Until then, a leaf that a transaction has found or created may yet come to
nothing.

That a leaf is missing is kept nowhere. Each call asks again.

## Main results

* `SharedCatalog.ends_findLeaf`, `SharedCatalog.ends_ensure` — the two calls, for a leaf that is
  not kept.
* `Catalog.lookups_honest` — any calls, one after the other.
-/

namespace EventJournal

/-- A call for a leaf. -/
inductive Lookup where
  /-- The leaf, if it exists. -/
  | find (key : LeafKey)
  /-- The leaf, created if it does not exist. -/
  | ensure (key : LeafKey)

namespace Lookup

def key : Lookup → LeafKey
  | .find key => key
  | .ensure key => key

def run (config : CatalogConfig) : Lookup → Action LeafCache (Option Partition)
  | .find key => Catalog.findLeaf key
  | .ensure key => some <$> Catalog.ensure config key

/-- A leaf that is kept is returned, and nothing is sent. -/
theorem start_run_of_cached (config : CatalogConfig) (call : Lookup) {cache : LeafCache}
    {leaf : Partition} (cached : cache.find? call.key = some leaf) :
    (call.run config).start cache = .done (.ok (some leaf), cache) := by
  have find : (Catalog.findLeaf call.key).start cache = .done (.ok (some leaf), cache) := by
    simp only [Catalog.findLeaf, bind, Action.bind, Action.state, Program.bind, cached]
    rfl
  cases call with
  | find key => exact find
  | ensure key =>
      show Program.bind (Program.bind ((Catalog.findLeaf key).start cache) _) _ = _
      rw [show (Catalog.findLeaf key).start cache = _ from find]
      rfl

end Lookup

/-- What a call has ended with. -/
abbrev Outcome : Type := Except Abort (Option Partition)

/-- Calls for leaves one after the other, those that fail included, each with its outcome. -/
def Catalog.lookups (config : CatalogConfig) (calls : List Lookup) :
    Action LeafCache (List (Lookup × Outcome)) :=
  calls.mapM fun call => do
    let outcome ← Action.outcome (call.run config)
    pure (call, outcome)

/-- The cache with a leaf that was found, if one was. -/
def LeafCache.note (cache : LeafCache) (key : LeafKey) (found : Option Partition) : LeafCache :=
  match found with
  | some leaf => cache.insert key leaf
  | none => cache

namespace SharedCatalog

open EventJournal.Action

variable {σ : Type} {w : Surroundings} {s : σ} {t : SharedCatalog} {base : List Partition}

/-- Whatever is sent, the committed entries only grow. -/
theorem ends_grownFrom {α : Type} (h : t.GrownFrom base) (action : Action σ α) :
    Ends (database w) action s t (fun _ _ u => u.GrownFrom base) fun _ _ u => u.GrownFrom base := by
  have sends : ∀ program : Program (Except Abort α × σ), program.Sends fun _ => True := by
    intro program
    induction program with
    | done value => trivial
    | send statement next ih => exact ⟨trivial, ih⟩
  exact Ends.of_sends (fun s _ _ h => h.answer w s) (fun s => sends (action.start s)) h

/-! ## A transaction -/

/-- A partition that has been created is there for the transaction. -/
theorem ends_create (config : CatalogConfig) (parent : String) (key : PartitionKey) :
    Ends (database w) (Catalog.create config parent key) s t
      (fun entry _ u => entry.key = key ∧ entry ∈ u.entries) fun _ _ _ => True := by
  have any {α : Type} (action : Action σ α) (s : σ) (t : SharedCatalog) :
      Ends (database w) action s t (fun _ _ _ => True) fun _ _ _ => True :=
    Ends.of_forall (fun _ _ _ _ => trivial) fun _ _ _ _ => trivial
  unfold Catalog.create
  rw [ends_bind]
  refine (any _ s t).mono (fun name s t _ => ?_) fun _ _ _ h => h
  rw [ends_bind]
  refine (any _ s t).mono (fun answer s t _ => ?_) fun _ _ _ h => h
  cases answer with
  | error e => exact (ends_fail _).2 trivial
  | ok _ =>
      dsimp only
      rw [ends_bind]
      rcases answer_registerPartition w key name t with
        ⟨entry, u, same, there, answer⟩ | ⟨e, u, answer⟩
      · rw [ends_attempt_of_answer answer]
        exact (ends_check_ok entry).2 ⟨same, there⟩
      · rw [ends_attempt_of_answer answer]
        exact (ends_fail _).2 trivial

/-- So is one that has been found. -/
theorem ends_findOrCreate (h : t.GrownFrom base) (config : CatalogConfig) (parent : String)
    (key : PartitionKey) :
    Ends (database w) (Catalog.findOrCreate config parent key) s t
      (fun entry _ u => entry.key = key ∧ entry ∈ u.entries) fun _ _ _ => True := by
  unfold Catalog.findOrCreate Catalog.findPartition
  simp only [ends_bind, ends_pure]
  rcases answer_findPartition w key t with ⟨-, answer⟩ | ⟨e, -, answer⟩
  · rw [ends_ask_of_ok answer]
    split
    · rename_i entry found
      obtain ⟨there, same⟩ := List.mem_filter.1 (List.mem_of_mem_head? found)
      rw [ends_pure]
      exact ⟨of_decide_eq_true same, (h.proceed w).visible_subset there⟩
    · exact ends_create config parent key
  · exact (ends_ask_of_error answer).2 trivial

/-- The leaf at the end of a path is there for the transaction. -/
theorem ends_ensurePath (h : t.GrownFrom base) (config : CatalogConfig) (key : LeafKey) :
    Ends (database w) (Catalog.ensurePath config key) s t
      (fun leaf _ u => leaf.key = key.toPartitionKey ∧ leaf ∈ u.entries) fun _ _ _ => True := by
  unfold Catalog.ensurePath
  rw [ends_bind]
  refine (ends_grownFrom h _).mono (fun context s t h => ?_) fun _ _ _ _ => trivial
  rw [ends_bind]
  refine (ends_grownFrom h _).mono (fun streamName s t h => ?_) fun _ _ _ _ => trivial
  exact ends_findOrCreate h config _ _

/-- After a commit, what was there for the transaction is committed. -/
theorem ends_commit (h : t.GrownFrom base) :
    Ends (database w) (ask .commit) s t
      (fun _ s' u => t.entries ⊆ u.committed ∧ s' = s ∧ u.session = none)
      fun _ s' u => s' = s ∧ u.session = none := by
  have ended := session_answer_commit w t
  refine Ends.ask ?_ ?_
  · intro _ u answered
    rw [answered] at ended
    exact ⟨h.subset_committed answered, rfl, ended⟩
  · intro _ u answered
    rw [answered] at ended
    exact ⟨rfl, ended⟩

/-- The leaf of a transaction that has ended with a commit is committed. A transaction leaves
the state alone, and when it has ended none is open. -/
theorem ends_inTransaction_ensurePath (h : t.GrownFrom base) (idle : t.session = none)
    (config : CatalogConfig) (key : LeafKey) (isolation : Isolation) :
    Ends (database w) (inTransaction isolation (Catalog.ensurePath config key)) s t
      (fun leaf s' u => (leaf.key = key.toPartitionKey ∧ leaf ∈ u.committed) ∧
        s' = s ∧ u.session = none)
      fun _ s' u => s' = s ∧ u.session = none := by
  have rolledBack : ∀ u : SharedCatalog, ((database w).answer .rollback u).2.session = none :=
    session_answer_rollback w
  have begun := h.answer w .begin
  rw [ends_inTransaction]
  refine Ends.ask ?_ ?_
  · intro _ u answered
    rw [answered] at begun
    have isolated := begun.answer w (.isolate isolation)
    refine Ends.ask ?_ ?_
    · intro _ v answered
      rw [answered] at isolated
      have surrenders : (Catalog.ensurePath config key : Action σ _).Surrenders .poolClosed :=
        Catalog.surrenders_ensurePath rfl config key
      have stays := surrenders.ends_state (database w) s v
      refine (((ends_ensurePath isolated config key).and (ends_grownFrom isolated _)).and
        stays).mono ?_ ?_
      · rintro leaf _ v ⟨⟨⟨same, there⟩, h⟩, rfl⟩
        refine (ends_commit h).mono ?_ fun _ _ _ ended => ended
        exact fun _ _ _ ended => ⟨⟨same, ended.1 there⟩, ended.2⟩
      · rintro cause s' v ⟨-, rfl⟩
        exact ⟨rfl, rolledBack v⟩
    · exact fun _ v _ => ⟨rfl, rolledBack v⟩
  · exact fun e u answered => ⟨rfl, session_of_begin_error idle answered⟩

/-- So is the leaf that a call with any number of attempts returns. -/
theorem ends_transact_ensurePath (h : t.GrownFrom base) (idle : t.session = none)
    (config : CatalogConfig) (key : LeafKey) :
    Ends (database w) (transact config.retry none (Catalog.ensurePath config key)) s t
      (fun leaf s' u => (leaf.key = key.toPartitionKey ∧ leaf ∈ u.committed) ∧
        s' = s ∧ u.session = none)
      fun _ s' u => s' = s ∧ u.session = none := by
  refine Ends.attempts (fun _ _ s' u => (s' = s ∧ u.session = none) ∧ u.GrownFrom base) ?_ 1 false
    s t ⟨⟨rfl, idle⟩, h⟩
  rintro number reconnected s t ⟨⟨rfl, idle⟩, h⟩
  refine ((ends_inTransaction_ensurePath h idle config key _).and (ends_grownFrom h _)).mono
    (fun _ _ _ ended => ended.1) ?_
  intro cause s t ended
  unfold Owed
  split
  · split
    · exact ended.1
    · exact ended
    · exact ended
    · exact (ends_pure ()).2 ended
  · exact ended.1

/-! ## Calls -/

section

variable {cache : LeafCache} {key : LeafKey}

/-- A leaf that is not kept is looked for among the committed entries, in one statement. -/
theorem ends_findLeaf (unknown : cache.find? key = none) (idle : t.session = none) :
    Ends (database w) (Catalog.findLeaf key) cache t
      (fun found cache' u => cache' = cache.note key found ∧ u = t.proceed w ∧
        found = u.committed.find? (·.key = key.toPartitionKey))
      fun _ cache' u => cache' = cache ∧ u = t.proceed w ∧ w.fault t.clock ≠ none := by
  have visible : (t.proceed w).visible = (t.proceed w).committed := by
    unfold SharedCatalog.visible
    rw [session_proceed w idle]
  unfold Catalog.findLeaf Catalog.findPartition
  simp only [ends_bind, ends_state, unknown, ends_pure]
  rcases answer_findPartition w key.toPartitionKey t with ⟨-, answer⟩ | ⟨e, fault, answer⟩
  · rw [ends_ask_of_ok answer, visible, List.head?_filter]
    cases found : (t.proceed w).committed.find? (·.key = key.toPartitionKey) with
    | none => exact (ends_pure _).2 ⟨rfl, rfl, found.symm⟩
    | some leaf =>
        rw [ends_bind, ends_modify, ends_pure]
        exact ⟨rfl, rfl, found.symm⟩
  · exact (ends_ask_of_error answer).2 ⟨rfl, rfl, by simp [fault]⟩

/-- A leaf that is not kept is found or created, and then kept. If there is one already, only its
lookup can fail. -/
theorem ends_ensure (unknown : cache.find? key = none) (h : t.GrownFrom base)
    (idle : t.session = none) (config : CatalogConfig) :
    Ends (database w) (Catalog.ensure config key) cache t
      (fun leaf cache' u => (leaf.key = key.toPartitionKey ∧ leaf ∈ u.committed) ∧
        cache' = cache.insert key leaf ∧ u.session = none)
      fun _ cache' u => cache' = cache ∧ u.session = none ∧
        ∀ leaf, t.Has key leaf → w.fault t.clock ≠ none := by
  have proceeded : (t.proceed w).session = none := session_proceed w idle
  unfold Catalog.ensure
  rw [ends_bind]
  refine (ends_findLeaf unknown idle).mono ?_ ?_
  · rintro found cache' u ⟨kept, rfl, is⟩
    cases found with
    | some leaf =>
        have same := List.find?_some is.symm
        have there := List.mem_of_find?_eq_some is.symm
        exact (ends_pure leaf).2 ⟨⟨of_decide_eq_true same, there⟩, kept, proceeded⟩
    | none =>
        obtain rfl : cache' = cache := kept
        -- what the lookup has missed was not there before it
        have absent : ∀ leaf, ¬t.Has key leaf := by
          intro leaf has
          obtain ⟨there, same⟩ := ((h.rebase.proceed w).keeps has).mem
          exact List.find?_eq_none.1 is.symm leaf there (decide_eq_true same)
        simp only [ends_bind, ends_modify, ends_pure]
        refine (ends_transact_ensurePath (h.proceed w) proceeded config key).mono ?_ ?_
        · rintro leaf _ u ⟨committed, rfl, ended⟩
          exact ⟨committed, rfl, ended⟩
        · rintro cause _ u ⟨rfl, ended⟩
          exact ⟨rfl, ended, fun leaf has => absurd has (absent leaf)⟩
  · rintro cause _ u ⟨rfl, rfl, fault⟩
    exact ⟨rfl, proceeded, fun _ _ => fault⟩

end

/-! ## What calls come to -/

/-- What those who know the catalog can say of a call for a leaf, from a cache and a catalog to
what it leaves of them. -/
structure Account (w : Surroundings) (key : LeafKey) (cache : LeafCache) (t : SharedCatalog)
    (outcome : Outcome) (cache' : LeafCache) (t' : SharedCatalog) : Prop where
  grows : t.committed <+: t'.committed
  /-- A leaf that is returned is committed, and is kept. -/
  returns : ∀ leaf, outcome = .ok (some leaf) →
    t'.Has key leaf ∧ cache'.find? key = some leaf
  /-- If none is, or the call fails, the cache is as it was. -/
  leaves : (∀ leaf, outcome ≠ .ok (some leaf)) → cache' = cache
  others : ∀ other, other ≠ key → cache'.find? other = cache.find? other
  /-- A leaf that is said to be missing is. -/
  misses : outcome = .ok none → ∀ entry ∈ t'.committed, entry.key ≠ key.toPartitionKey
  /-- A leaf that is committed before the call is returned, unless the first statement fails. -/
  finds : ∀ leaf, t.Has key leaf → w.fault t.clock = none → outcome = .ok (some leaf)

section

variable {cache : LeafCache} {key : LeafKey} {t' : SharedCatalog} {leaf : Partition}

theorem Account.of_cached (has : t.Has key leaf) (cached : cache.find? key = some leaf) :
    Account w key cache t (.ok (some leaf)) cache t where
  grows := List.prefix_refl _
  returns _ same := by
    cases same
    exact ⟨has, cached⟩
  leaves none := absurd rfl (none leaf)
  others _ _ := rfl
  misses none := by cases none
  finds other has' _ := by rw [has.unique has']

theorem Account.of_leaf (h : t'.GrownFrom t.committed) (there : leaf ∈ t'.committed)
    (same : leaf.key = key.toPartitionKey) :
    Account w key cache t (.ok (some leaf)) (cache.insert key leaf) t' where
  grows := h.grown
  returns _ same' := by
    cases same'
    exact ⟨h.has there same, cache.find?_insert_self key leaf⟩
  leaves none := absurd rfl (none leaf)
  others _ apart := cache.find?_insert_of_ne apart leaf
  misses none := by cases none
  finds other has _ := by rw [(h.has there same).unique (h.keeps has)]

theorem Account.of_missing (h : t'.GrownFrom t.committed)
    (missing : ∀ entry ∈ t'.committed, entry.key ≠ key.toPartitionKey) :
    Account w key cache t (.ok none) cache t' where
  grows := h.grown
  returns _ same := by cases same
  leaves _ := rfl
  others _ _ := rfl
  misses _ := missing
  finds other has _ := absurd (h.keeps has).mem.2 (missing other (h.keeps has).mem.1)

theorem Account.of_error {cause : Abort} (h : t'.GrownFrom t.committed)
    (fault : ∀ leaf, t.Has key leaf → w.fault t.clock ≠ none) :
    Account w key cache t (.error cause) cache t' where
  grows := h.grown
  returns _ same := by cases same
  leaves _ := rfl
  others _ _ := rfl
  misses none := by cases none
  finds other has calm := absurd calm (fault other has)

/-- A call for a leaf that is not kept. -/
theorem ends_run_of_unknown (config : CatalogConfig) (call : Lookup)
    (unknown : cache.find? call.key = none) (h : t.GrownFrom base) (idle : t.session = none) :
    Ends (database w) (call.run config) cache t
      (fun found cache' u => Account w call.key cache t (.ok found) cache' u ∧ u.session = none)
      fun cause cache' u => Account w call.key cache t (.error cause) cache' u ∧
        u.session = none := by
  cases call with
  | find key =>
      have h := h.rebase.proceed w
      have proceeded : (t.proceed w).session = none := session_proceed w idle
      refine (ends_findLeaf unknown idle).mono ?_ ?_
      · rintro found cache' _ ⟨rfl, rfl, is⟩
        refine ⟨?_, proceeded⟩
        cases found with
        | some leaf =>
            have same := List.find?_some is.symm
            exact .of_leaf h (List.mem_of_find?_eq_some is.symm) (of_decide_eq_true same)
        | none =>
            refine .of_missing h fun entry there same => ?_
            exact List.find?_eq_none.1 is.symm entry there (decide_eq_true same)
      · rintro cause _ _ ⟨rfl, rfl, fault⟩
        exact ⟨.of_error h fun _ _ => fault, proceeded⟩
  | ensure key =>
      show Ends _ (some <$> Catalog.ensure config key) _ _ _ _
      rw [ends_map]
      refine ((ends_ensure unknown h idle config).and (ends_grownFrom h.rebase _)).mono ?_ ?_
      · rintro leaf _ u ⟨⟨⟨same, there⟩, rfl, ended⟩, h⟩
        exact ⟨.of_leaf h there same, ended⟩
      · rintro cause _ u ⟨⟨rfl, ended, fault⟩, h⟩
        exact ⟨.of_error h fault, ended⟩

end

/-- What is kept is committed and has been returned, and what has been returned is kept. -/
structure Honest (said : List (Lookup × Outcome)) (cache : LeafCache) (t : SharedCatalog) :
    Prop where
  idle : t.session = none
  sound : t.GrownFrom []
  kept : ∀ key leaf, cache.find? key = some leaf → t.Has key leaf ∧
    ∃ call, call.key = key ∧ (call, .ok (some leaf)) ∈ said
  returned : ∀ call leaf, (call, .ok (some leaf)) ∈ said → cache.find? call.key = some leaf

namespace Honest

variable {said : List (Lookup × Outcome)} {cache : LeafCache}

theorem begins : Honest [] {} {} where
  idle := rfl
  sound := .empty
  kept _ _ absent := nomatch absent
  returned _ _ absent := nomatch absent

/-- A call can be accounted for. -/
theorem ends_run (h : Honest said cache t) (config : CatalogConfig) (call : Lookup) :
    Ends (database w) (call.run config) cache t
      (fun found cache' u => Account w call.key cache t (.ok found) cache' u ∧ u.session = none)
      fun cause cache' u => Account w call.key cache t (.error cause) cache' u ∧
        u.session = none := by
  cases cached : cache.find? call.key with
  | some leaf =>
      have run : (call.run config).runOn (database w) cache t = ((.ok (some leaf), cache), t) := by
        unfold Action.runOn
        rw [call.start_run_of_cached config cached]
        rfl
      exact (ends_of_runOn_ok run).2 ⟨.of_cached (h.kept _ _ cached).1 cached, h.idle⟩
  | none => exact ends_run_of_unknown config call cached h.sound h.idle

/-- A call that can be accounted for leaves the cache honest. -/
theorem extend (h : Honest said cache t) {call : Lookup} {outcome : Outcome} {cache' : LeafCache}
    {t' : SharedCatalog} (account : Account w call.key cache t outcome cache' t')
    (grown : t'.GrownFrom t.committed) (idle : t'.session = none) :
    Honest (said ++ [(call, outcome)]) cache' t' := by
  have before : ∀ key leaf, cache.find? key = some leaf → t'.Has key leaf ∧
      ∃ earlier, earlier.key = key ∧ (earlier, .ok (some leaf)) ∈ said ++ [(call, outcome)] := by
    intro key leaf kept
    obtain ⟨has, earlier, same, there⟩ := h.kept key leaf kept
    exact ⟨grown.keeps has, earlier, same, List.mem_append_left _ there⟩
  refine ⟨idle, grown.sound, fun key leaf kept => ?_, fun earlier leaf there => ?_⟩
  · -- what is kept now is what this call has returned, or was kept before
    by_cases returned : ∃ leaf, outcome = .ok (some leaf)
    · obtain ⟨new, rfl⟩ := returned
      obtain ⟨has, kept'⟩ := account.returns new rfl
      by_cases same : key = call.key
      · subst same
        obtain rfl := Option.some.inj (kept.symm.trans kept')
        exact ⟨has, call, rfl, by simp⟩
      · rw [account.others key same] at kept
        exact before key leaf kept
    · rw [account.leaves fun leaf same => returned ⟨leaf, same⟩] at kept
      exact before key leaf kept
  · rcases List.mem_append.1 there with old | new
    · -- a second leaf for the same key would be a second committed one
      have kept := h.returned earlier leaf old
      by_cases returned : ∃ leaf, outcome = .ok (some leaf)
      · obtain ⟨new, rfl⟩ := returned
        obtain ⟨has, kept'⟩ := account.returns new rfl
        by_cases same : earlier.key = call.key
        · rw [same] at kept ⊢
          rw [kept', has.unique (before _ leaf kept).1]
        · rw [account.others _ same, kept]
      · rw [account.leaves fun leaf same => returned ⟨leaf, same⟩, kept]
    · cases List.mem_singleton.1 new
      exact (account.returns leaf rfl).2

/-- Calls one after the other leave the cache honest. -/
theorem ends_lookups (config : CatalogConfig) (calls : List Lookup) :
    ∀ {said : List (Lookup × Outcome)} {cache : LeafCache} {t : SharedCatalog},
      Honest said cache t →
        Ends (database w) (Catalog.lookups config calls) cache t
          (fun new cache' u => new.map Prod.fst = calls ∧ Honest (said ++ new) cache' u)
          fun _ _ _ => False := by
  induction calls with
  | nil =>
      intro said cache t h
      refine ends_mapM_nil.2 ⟨rfl, ?_⟩
      rwa [List.append_nil]
  | cons call rest ih =>
      intro said cache t h
      have step : ∀ {outcome : Outcome} {cache' : LeafCache} {u : SharedCatalog},
          (Account w call.key cache t outcome cache' u ∧ u.session = none) ∧
            u.GrownFrom t.committed →
          Ends (database w) (Catalog.lookups config rest) cache' u
            (fun new cache' u => ((call, outcome) :: new).map Prod.fst = call :: rest ∧
              Honest (said ++ (call, outcome) :: new) cache' u)
            fun _ _ _ => False := by
        rintro outcome cache' u ⟨⟨account, idle⟩, grown⟩
        refine (ih (h.extend account grown idle)).mono ?_ fun _ _ _ never => never
        rintro new cache' u ⟨same, honest⟩
        rw [List.append_assoc] at honest
        exact ⟨congrArg (call :: ·) same, honest⟩
      unfold Catalog.lookups
      rw [ends_mapM_cons]
      simp only [ends_bind, ends_outcome, ends_pure]
      exact ((h.ends_run config call).and (ends_grownFrom h.sound.rebase _)).mono
        (fun _ _ _ => step) fun _ _ _ => step

end Honest

end SharedCatalog

/-- Calls for leaves one after the other, whatever fails, and whatever others write to the
catalog. Every leaf that was returned is the committed one with the key that was asked for, and
each later call for it returns it without a statement. Nothing else is kept. What comes next
adds to this as the `Account` of a call says. -/
theorem Catalog.lookups_honest (w : Surroundings) (config : CatalogConfig) (calls : List Lookup) :
    ∃ said cache t,
      (lookups config calls).runOn (SharedCatalog.database w) {} {} = ((.ok said, cache), t) ∧
      said.map Prod.fst = calls ∧
      (∀ call leaf, (call, .ok (some leaf)) ∈ said → t.Has call.key leaf ∧
        ∀ later : Lookup, later.key = call.key →
          (later.run config).start cache = .done (.ok (some leaf), cache)) ∧
      (∀ key leaf, cache.find? key = some leaf → t.Has key leaf ∧
        ∃ call, call.key = key ∧ (call, .ok (some leaf)) ∈ said) ∧
      ∀ next : Lookup, ∃ outcome cache' t',
        (next.run config).runOn (SharedCatalog.database w) cache t = ((outcome, cache'), t') ∧
          SharedCatalog.Account w next.key cache t outcome cache' t' := by
  have ends := SharedCatalog.Honest.begins.ends_lookups (w := w) config calls
  rcases run : (lookups config calls).runOn (SharedCatalog.database w) {} {} with
    ⟨⟨_ | said, cache⟩, t⟩
  · exact ((Action.ends_of_runOn_error run).1 ends).elim
  · obtain ⟨same, honest⟩ := (Action.ends_of_runOn_ok run).1 ends
    refine ⟨said, cache, t, rfl, same, fun call leaf there => ?_, honest.kept, fun next => ?_⟩
    · have kept := honest.returned call leaf there
      refine ⟨(honest.kept _ _ kept).1, fun later same => ?_⟩
      exact later.start_run_of_cached config (by rw [same, kept])
    · have ends := honest.ends_run (w := w) config next
      rcases run : (next.run config).runOn (SharedCatalog.database w) cache t with
        ⟨⟨cause | found, cache'⟩, t'⟩
      · exact ⟨_, _, _, rfl, ((Action.ends_of_runOn_error run).1 ends).1⟩
      · exact ⟨_, _, _, rfl, ((Action.ends_of_runOn_ok run).1 ends).1⟩

/-- A leaf is missing, until another creates it. Then it is found, and after that nothing is
sent. -/
example :
    let key : LeafKey := ⟨"Order", "Created", "A"⟩
    let leaf : Partition := ⟨7, "Order", some "Created", some "A", "event_types_a"⟩
    let w : Surroundings :=
      { Circumstances.calm with
        others := fun now => if now = 1 then [leaf] else []
        renews := fun _ => false
        number := fun _ => 0 }
    (Catalog.lookups { nameTries := 0 } [.find key, .find key, .find key]).runOn
        (SharedCatalog.database w) {} {} =
      ((.ok [(.find key, .ok none), (.find key, .ok (some leaf)), (.find key, .ok (some leaf))],
        { entries := [(key, leaf)] }), { committed := [leaf], clock := 2 }) := by
  rfl

end EventJournal

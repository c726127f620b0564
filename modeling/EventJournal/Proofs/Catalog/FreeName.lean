import Mathlib.Data.Set.Finite.Lattice
import EventJournal.Journal
import EventJournal.Proofs.Catalog.Table
import EventJournal.Proofs.Partition.Names
import EventJournal.Proofs.Transaction.Traces

/-!
# The search for a free name

The table of a new partition gets the first name that is not taken, of a candidate and its
successors. The search asks for one name after the other and has no bound of its own. It ends
because no name comes twice among the successors of a name (`TableName.nth_injective`), so that
as many names taken as there are can be passed, and no more.

`Database.KnowsNames` says of a database that it answers which names are taken; a
`CatalogTable` does, for the names in its catalog and those of its relations.

## Main results

* `Catalog.leads_freeName` — what the search asks, and where it ends.
* `Catalog.onlyOf_nth` — whatever name it is, it is one of the level alone.
* `Catalog.freeName_finds` — it ends at the first free name.
-/

namespace EventJournal

open TableName

/-! ## Which names are taken -/

/-- In each of some states the database says of every name whether it is among the given ones,
and stays in these states. -/
def Database.KnowsNames {δ : Type} (db : Database δ) (states : δ → Prop)
    (taken : Finset String) : Prop :=
  ∀ name d, states d →
    (db.answer (.tableNameTaken name) d).1 = .ok [decide (name ∈ taken)] ∧
      states (db.answer (.tableNameTaken name) d).2

/-- The names that are taken, in the catalog or by relations. -/
def Forest.names (f : Forest) : Finset String :=
  (f.entries.map (·.tableName) ++ f.relations.map (·.name)).toFinset

theorem Forest.isTaken_eq (f : Forest) (name : String) :
    f.isTaken name = decide (name ∈ f.names) := by
  rw [Bool.eq_iff_iff, decide_eq_true_iff, isTaken, Bool.or_eq_true, List.any_eq_true,
    List.any_eq_true, names, List.mem_toFinset, List.mem_append, List.mem_map, List.mem_map]
  simp only [decide_eq_true_eq]

/-- A database of partitions knows the names that an open transaction sees. -/
theorem CatalogTable.knowsNames {c : Circumstances} (faultless : ∀ now, c.fault now = none)
    (f : Forest) : (database c).KnowsNames (fun t => t.visible = f) f.names := by
  rintro name t rfl
  have answered : (database c).answer (.tableNameTaken name) t =
      (.ok [t.visible.isTaken name], t.tick) := by
    unfold database
    dsimp only
    rw [faultless]
    rfl
  rw [answered, Forest.isTaken_eq]
  exact ⟨rfl, rfl⟩

namespace Catalog

variable {σ δ : Type}

/-! ## The search -/

/-- What is asked on the way to the name so many steps from the first, with the answers. -/
def asked (taken : Finset String) (first : String) (steps : Nat) : List Exchange :=
  (List.range (steps + 1)).map fun i =>
    ⟨.tableNameTaken (nth first i), .ok [decide (nth first i ∈ taken)]⟩

theorem asked_zero (taken : Finset String) (first : String) :
    asked taken first 0 = [⟨.tableNameTaken first, .ok [decide (first ∈ taken)]⟩] := rfl

theorem asked_succ (taken : Finset String) (first : String) (steps : Nat) :
    asked taken first (steps + 1) =
      ⟨.tableNameTaken first, .ok [decide (first ∈ taken)]⟩ ::
        asked taken (successor first) steps := by
  unfold asked
  rw [List.range_succ_eq_map, List.map_cons, List.map_map]
  rfl

/-- The search passes names that are taken and ends at the first that is not. -/
theorem leads_freeName {taken : Finset String} (s : σ) {first : String} {steps : Nat}
    (passed : ∀ i < steps, nth first i ∈ taken) (free : nth first steps ∉ taken) {tries : Nat}
    (enough : steps < tries) :
    ((freeName tries first).start s).Leads (asked taken first steps)
      (.ok (nth first steps), s) := by
  induction steps generalizing first tries with
  | zero =>
      obtain ⟨tries, rfl⟩ := Nat.exists_eq_add_one_of_ne_zero enough.ne'
      have no : decide (first ∈ taken) = false := decide_eq_false free
      rw [asked_zero, no]
      exact .send (.done _)
  | succ steps ih =>
      obtain ⟨tries, rfl⟩ := Nat.exists_eq_add_one_of_ne_zero (Nat.zero_lt_of_lt enough).ne'
      have yes : decide (first ∈ taken) = true := decide_eq_true (passed 0 (Nat.succ_pos _))
      have passed' : ∀ i < steps, nth (successor first) i ∈ taken :=
        fun i small => passed (i + 1) (Nat.succ_lt_succ small)
      rw [asked_succ, yes]
      exact .send (ih passed' free (Nat.lt_of_succ_lt_succ enough))

/-- A database that knows the names that are taken answers in this way. -/
theorem answers_asked {db : Database δ} {states : δ → Prop} {taken : Finset String}
    (knows : db.KnowsNames states taken) (first : String) (steps : Nat) {d : δ}
    (there : states d) : ∃ d', states d' ∧ db.Answers d (asked taken first steps) d' := by
  unfold asked
  generalize List.range (steps + 1) = indices
  induction indices generalizing d with
  | nil => exact ⟨d, there, .nil d⟩
  | cons i rest ih =>
      obtain ⟨same, stays⟩ := knows (nth first i) d there
      obtain ⟨d', there', others⟩ := ih stays
      exact ⟨d', there', .cons (Prod.ext same rfl) others⟩

/-- Of a name and its successors, there is a first one that is not among finitely many. -/
theorem exists_first_free (taken : Finset String) (first : String) :
    ∃ steps, (∀ i < steps, nth first i ∈ taken) ∧ nth first steps ∉ taken ∧
      steps ≤ taken.card := by
  have some : ∃ steps, nth first steps ∉ taken := by
    obtain ⟨name, ⟨steps, rfl⟩, free⟩ :=
      (Set.infinite_range_of_injective (nth_injective first)).exists_notMem_finset taken
    exact ⟨steps, free⟩
  have passed : ∀ i < Nat.find some, nth first i ∈ taken :=
    fun i small => Classical.not_not.1 (Nat.find_min some small)
  refine ⟨Nat.find some, passed, Nat.find_spec some, ?_⟩
  -- the names that are passed are different ones
  have within : (Finset.range (Nat.find some)).image (nth first) ⊆ taken := by
    intro name there
    obtain ⟨i, small, rfl⟩ := Finset.mem_image.1 there
    exact passed i (Finset.mem_range.1 small)
  have size := Finset.card_le_card within
  rwa [Finset.card_image_of_injective _ (nth_injective first), Finset.card_range] at size

/-- The name is one of the level, an identifier, and none that is made for another level. -/
structure OnlyOf (config : CatalogConfig) (level : PartitionLevel) (name : String) : Prop where
  ofLevel : IsOfLevel level name
  identifier : IsIdentifier name
  apart : ∀ other ≠ level, ∀ key steps, nth (candidate other (config.digest key)) steps ≠ name

/-- If digests are digits and small letters, the candidates and their successors are names of
one level. -/
theorem onlyOf_nth {config : CatalogConfig} (small : ∀ key, IsSuffix (config.digest key))
    (level : PartitionLevel) (key : PartitionKey) (steps : Nat) :
    OnlyOf config level (nth (candidate level (config.digest key)) steps) := by
  have form : ∀ level key steps,
      IsOfLevel level (nth (candidate level (config.digest key)) steps) :=
    fun level key steps => IsOfLevel.nth ⟨_, small key, rfl⟩ steps
  refine ⟨form level key steps, (form level key steps).isIdentifier, ?_⟩
  intro other ne key' steps' same
  have there := form other key' steps'
  rw [same] at there
  exact ne (there.unique (form level key steps))

/-- **The search ends at the first free name**: of the candidate for a key and its successors,
all names before it are taken and it is not. The search asks for these names, which are
different, and no others; so many tries as there are names taken, and one more, are enough.
If digests are digits and small letters, as those of a journal are, then whatever was taken, the
name is one of the level, an identifier, and none that is made for another level. -/
theorem freeName_finds (config : CatalogConfig) {db : Database δ} {states : δ → Prop}
    {taken : Finset String} (knows : db.KnowsNames states taken)
    (enough : taken.card < config.nameTries) (level : PartitionLevel) (key : PartitionKey) :
    let first := candidate level (config.digest key)
    ∃ steps, (∀ i < steps, nth first i ∈ taken) ∧ nth first steps ∉ taken ∧
      (∀ (s : σ) d, states d → ∃ d', states d' ∧
        (freeName config.nameTries first).runOn db s d = ((.ok (nth first steps), s), d') ∧
        ((freeName config.nameTries first).start s).exchanges db d = asked taken first steps) ∧
      ((List.range (steps + 1)).map (nth first)).Nodup ∧
      ((∀ key, IsSuffix (config.digest key)) → OnlyOf config level (nth first steps)) ∧
      ∀ j : Journal, config = j.catalogConfig → OnlyOf config level (nth first steps) := by
  intro first
  obtain ⟨steps, passed, free, few⟩ := exists_first_free taken first
  refine ⟨steps, passed, free, ?_, List.nodup_range.map (nth_injective first),
    fun small => onlyOf_nth small level key steps, ?_⟩
  · intro s d there
    obtain ⟨d', there', answers⟩ := answers_asked knows first steps there
    have leads := leads_freeName s passed free (Nat.lt_of_le_of_lt few enough)
    exact ⟨d', there', leads.follow answers⟩
  · intro j own
    have digest : config.digest = TableName.digest := congrArg CatalogConfig.digest own
    exact onlyOf_nth (fun key => digest ▸ isSuffix_digest key) level key steps

/-- All keys have one digest here, which is the last of its length. -/
def crowded : CatalogConfig := { nameTries := 3, digest := fun _ => "zz" }

/-- The candidate is in the catalog, and its successor is a relation that is no partition. -/
def crowdedForest : Forest where
  entries := [⟨1, "Order", none, none, "contexts_zz"⟩]
  relations := [⟨"contexts_zz", some ("events", "Order")⟩, ⟨"contexts_aaa", none⟩]

theorem crowded_finds :
    (∀ key, IsSuffix (crowded.digest key)) ∧
      (CatalogTable.database .calm).KnowsNames (fun t => t.visible = crowdedForest)
        crowdedForest.names ∧
      crowdedForest.names.card < crowded.nameTries ∧
      ∃ t, (freeName crowded.nameTries (candidate .context (crowded.digest ⟨"Bill", none, none⟩))
          : Action Unit String).runOn (CatalogTable.database .calm) ()
            { stored := crowdedForest } = ((.ok "contexts_aab", ()), t) ∧
        IsOfLevel .context "contexts_aab" := by
  have small : ∀ key, IsSuffix (crowded.digest key) :=
    fun _ => show IsSuffix "zz" by decide
  have knows := CatalogTable.knowsNames (c := .calm) (fun _ => rfl) crowdedForest
  have enough : crowdedForest.names.card < crowded.nameTries := by decide
  obtain ⟨steps, passed, free, run, -, named, -⟩ :=
    freeName_finds (σ := Unit) crowded knows enough .context ⟨"Bill", none, none⟩
  obtain ⟨t, -, run, -⟩ := run () { stored := crowdedForest } rfl
  have two : steps = 2 := by
    match steps with
    | 0 => exact absurd (by decide) free
    | 1 => exact absurd (by decide) free
    | 2 => rfl
    | n + 3 => exact absurd (passed 2 (by omega)) (by decide)
  subst two
  exact ⟨small, knows, enough, t, run, (named small).ofLevel⟩

end Catalog

end EventJournal

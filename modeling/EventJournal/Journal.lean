import EventJournal.Append
import EventJournal.Database.Schema
import EventJournal.Delete
import EventJournal.Event.Link
import EventJournal.Read.Heads
import EventJournal.Read.Pages
import EventJournal.SafePosition

/-!
# The journal

A `Journal` is a configuration and a chain of middlewares; what it does are actions over
a database, whose state is the cache of leaves. Changes run in transactions that heal
missing partitions; reads send their statements outside of one.
-/

namespace EventJournal

structure Journal where
  config : JournalConfig := {}
  chain : MiddlewareChain := []
  /-- How many names are tried for the table of a new partition. -/
  nameTries : Nat

namespace Journal

def catalogConfig (j : Journal) : CatalogConfig where
  retry := j.config.retry
  nameTries := j.nameTries

/-- Runs a unit of work in a transaction of the journal. -/
def transact {α : Type} (j : Journal) (unit : Action LeafCache α) : Action LeafCache α :=
  Action.transact j.config.retry (some (Catalog.healer j.catalogConfig)) unit

/-- A read without a limit has that of the configuration. -/
def withLimit (j : Journal) (options : ReadOptions) : ReadOptions :=
  if 0 < options.maxCount then options else { options with maxCount := j.config.maxCount }

/-! ## Changes -/

/-- Appends a batch whose events go through a transform first. -/
def appendWith (j : Journal) (transform : EventTransform) (batch : Batch) :
    Action LeafCache (List Event) :=
  j.transact (batch.append j.chain transform)

def append (j : Journal) (batch : Batch) : Action LeafCache (List Event) := j.appendWith .ok batch

/-- Appends several batches, all or none. -/
def appendMany (j : Journal) (batches : List Batch) : Action LeafCache (List (List Event)) :=
  j.transact (Batch.appendAll j.chain .ok batches)

/-- Links may refer to stored events that are not links themselves. -/
def checkTargets : List Event → Except JournalError Unit
  | [] => .ok ()
  | event :: rest =>
      if !event.isPersisted then .error .linkTargetNotPersisted
      else if event.isLink then .error .linkTargetIsLink
      else checkTargets rest

/-- The partitions of stored events, newest first; the given ones are known before. -/
def locate (known : PartitionsById) : List Event → Action LeafCache PartitionsById
  | [] => pure known
  | event :: rest =>
      match event.id, event.context, event.streamName with
      | some id, some context, some streamName => do
          match ← Catalog.findLeaf ⟨context, streamName, event.type⟩ with
          | some leaf => locate ((id, leaf.id) :: known) rest
          | none => Action.fail (.linkTargetHasNoLeaf id.render)
      | _, _, _ => Action.fail .linkTargetNotPersisted

/-- Appends links to stored events. -/
def linkTo (j : Journal) (targets : Batch) : Action LeafCache (List Event) := do
  Action.check (checkTargets targets.events)
  let partitions ← locate [] targets.events
  j.appendWith (linkFor partitions) targets

def deleteStream (j : Journal) (stream : Stream) : Action LeafCache Bool := j.transact stream.delete

def deleteEvent (j : Journal) (event : Event) (force : Bool) : Action LeafCache Bool :=
  j.transact (event.delete j.config.maxRecordsToLock force)

/-- Creates the tables of the journal where they do not exist. -/
def migrate {σ : Type} : Action σ Unit :=
  Schema.steps.forM fun step => do
    let _ ← Action.ask (.schemaStep step)

/-! ## Reads -/

def read (j : Journal) (stream : Stream) (options : ReadOptions) :
    Action LeafCache (List Event) := do
  let rows ← Read.rows stream (j.withLimit options)
  Action.check (MiddlewareChain.outcome (j.chain.deserializeAll (rows.map StoredEvent.toEvent)))

/-- The pages of a read, up to a number of them. -/
def readPages (j : Journal) (stream : Stream) (options : ReadOptions) (count : Nat) :
    Action LeafCache (List (Except JournalError (List Event))) :=
  Read.pages j.chain stream (j.withLimit options) count .start

/-- The first event of each leaf that a filter selects. -/
def readGrouped (j : Journal) (options : ReadOptions) : Action LeafCache (List Event) :=
  Read.heads j.chain (j.withLimit options)

/-- What a middleware chain makes of an event that took the place of a link event. Other
events have been through the chain before. -/
def deserializeResolved (chain : MiddlewareChain) (event : Event) : Event × Option JournalError :=
  if event.link.isSome then chain.deserialize event else (event, none)

/-- Replaces the link events in the result of a read. -/
def resolveLinks (j : Journal) (events : List Event) : Action LeafCache (List Event) := do
  let events ← Read.resolveLinks events
  Action.check (MiddlewareChain.outcome (MiddlewareChain.each (deserializeResolved j.chain) events))

/-! ## Diagnostic texts -/

/-- The journal and its cache as diagnostic texts show them. -/
def describe (j : Journal) (cache : LeafCache) : String :=
  "PgEventLog \x7b config: " ++ j.config.describe ++
    ", catalog: PgPartitionCatalog \x7b cached_leaves: " ++ toString cache.size ++
    ", .. \x7d, .. \x7d"

end Journal

end EventJournal

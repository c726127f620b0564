import EventJournal.Config
import EventJournal.Database.Script
import EventJournal.Digest.Sha256
import EventJournal.Duration
import EventJournal.Event
import EventJournal.ExpectedRevision
import EventJournal.Instant
import EventJournal.Journal
import EventJournal.Json.Parser
import EventJournal.Json.Printer
import EventJournal.Middleware
import EventJournal.Partition
import EventJournal.Partition.TableName
import EventJournal.Proofs.Atomicity
import EventJournal.Proofs.Backoff
import EventJournal.Proofs.Catalog.Cache
import EventJournal.Proofs.Catalog.Forest
import EventJournal.Proofs.Catalog.FreeName
import EventJournal.Proofs.Conflicts
import EventJournal.Proofs.Contention
import EventJournal.Proofs.Decoding
import EventJournal.Proofs.Deletion
import EventJournal.Proofs.Delivery
import EventJournal.Proofs.Groups
import EventJournal.Proofs.Groups.Leaves
import EventJournal.Proofs.Healing
import EventJournal.Proofs.Links.Again
import EventJournal.Proofs.Links.Targets
import EventJournal.Proofs.Losses
import EventJournal.Proofs.Paging
import EventJournal.Proofs.Paging.Resolved
import EventJournal.Proofs.Payloads
import EventJournal.Proofs.Query.Leaves
import EventJournal.Proofs.Query.Probes
import EventJournal.Proofs.Query.Shapes
import EventJournal.Proofs.Reads
import EventJournal.Proofs.Revisions
import EventJournal.Proofs.SafePosition
import EventJournal.Proofs.Sql.Conditions
import EventJournal.Proofs.Sql.Layout
import EventJournal.Proofs.Sql.Literals
import EventJournal.Proofs.Sql.Tables
import EventJournal.Proofs.Transaction.Budget
import EventJournal.Proofs.Transaction.Passages
import EventJournal.Proofs.Transaction.Rounds
import EventJournal.Proofs.Unchanging
import EventJournal.Proofs.Writes
import EventJournal.Query.Events
import EventJournal.Query.Leaves
import EventJournal.Query.Tables
import EventJournal.ReadOptions
import EventJournal.Registry
import EventJournal.Sql.Literal
import EventJournal.Text.Quoted
import EventJournal.Uuid

import EventJournal.Decimal.Shortest
import EventJournal.Duration
import EventJournal.Environment

/-!
# Configuration of the journal

The limits of reads and deletions and the policy by which conflicting transactions are
attempted again: up to a number of attempts, after delays that double from a base up to
a cap. A jitter factor above zero makes the delay a random one around that value, which
is why `RetryPolicy.delay` names a range and not a duration.
-/

namespace EventJournal

/-- When a conflicting transaction is attempted again. -/
structure RetryPolicy where
  /-- All attempts, the first one included. -/
  maxAttempts : UInt32 := 20
  /-- The delay after the first attempt. -/
  baseDelay : Duration := .ofMillis 10
  /-- No delay is longer. -/
  maxDelay : Duration := .ofMillis 1000
  /-- By what share a delay may vary. -/
  jitter : Float := 0.2

/-- How long to wait before the next attempt. -/
inductive Delay where
  | exactly (d : Duration)
  /-- Some duration that differs from `d` by at most the share `jitter`, which is not
  above one. -/
  | around (d : Duration) (jitter : Float)

structure JournalConfig where
  /-- The limit of reads that set none. -/
  maxCount : Int64 := 1000
  /-- How many rows a deletion may renumber unless it is forced. -/
  maxRecordsToLock : Int64 := 1000
  retry : RetryPolicy := {}

namespace RetryPolicy

/-- A number of attempts without delays between them. -/
def immediate (maxAttempts : UInt32) : RetryPolicy := ⟨maxAttempts, .zero, .zero, 0.0⟩

/-- Whether another attempt may follow the given one; the first has number one. -/
def allowsRetryAfter (policy : RetryPolicy) (attempt : Nat) : Bool :=
  attempt < policy.maxAttempts.toNat

/-- The delay after the given attempt, before any jitter. -/
def baseDelayAfter (policy : RetryPolicy) (attempt : Nat) : Duration :=
  (policy.baseDelay.saturatingMul (Nat.pow 2 (min (attempt - 1) 31))).min policy.maxDelay

/-- The delay after the given attempt. -/
def delay (policy : RetryPolicy) (attempt : Nat) : Delay :=
  let d := policy.baseDelayAfter attempt
  if policy.jitter ≤ 0.0 || d.toNanos = 0 then .exactly d
  else .around d (if policy.jitter ≤ 1.0 then policy.jitter else 1.0)

/-- The policy that the environment sets. -/
def ofEnvironment (env : Environment) : RetryPolicy :=
  let defaults : RetryPolicy := {}
  { maxAttempts := (env.uint32? "EVENTLOG_RETRY_MAX_ATTEMPTS").getD defaults.maxAttempts
    baseDelay := ((env.uint64? "EVENTLOG_RETRY_BASE_DELAY_MS").map .ofMillis).getD
      defaults.baseDelay
    maxDelay := ((env.uint64? "EVENTLOG_RETRY_MAX_DELAY_MS").map .ofMillis).getD
      defaults.maxDelay
    jitter := defaults.jitter }

/-- The policy as diagnostic texts show it. -/
def describe (policy : RetryPolicy) : String :=
  "RetryPolicy \x7b max_attempts: " ++ toString policy.maxAttempts.toNat ++
    ", base_delay: " ++ policy.baseDelay.describe ++
    ", max_delay: " ++ policy.maxDelay.describe ++
    ", jitter_factor: " ++ Decimal.plain.renderFloat policy.jitter ++ " \x7d"

end RetryPolicy

namespace JournalConfig

/-- The configuration that the environment sets. -/
def ofEnvironment (env : Environment) : JournalConfig :=
  let defaults : JournalConfig := {}
  { maxCount := (env.int64? "EVENTLOG_MAX_COUNT").getD defaults.maxCount
    maxRecordsToLock := (env.int64? "EVENTLOG_MAX_RECORDS_TO_LOCK").getD
      defaults.maxRecordsToLock
    retry := .ofEnvironment env }

/-- The configuration as diagnostic texts show it. -/
def describe (config : JournalConfig) : String :=
  "EventLogConfig \x7b max_count: " ++ toString config.maxCount.toInt ++
    ", max_records_to_lock: " ++ toString config.maxRecordsToLock.toInt ++
    ", retry: " ++ config.retry.describe ++ " \x7d"

end JournalConfig

/-! ## The pool of connections -/

/-- Settings of the pool of database connections. -/
structure PoolConfig where
  url : String := "postgres://localhost/eventlog"
  maxConnections : UInt32 := 20
  minConnections : UInt32 := 2
  acquireTimeout : Duration := .ofSeconds 30
  idleTimeout : Duration := .ofSeconds 600
  maxLifetime : Duration := .ofSeconds 1800

/-- Why the environment sets no pool. -/
inductive PoolConfigError where
  | missingUrl
  deriving DecidableEq

def PoolConfigError.message : PoolConfigError → String
  | .missingUrl => "Missing database URL in environment"

/-- The text of a failure to connect. -/
def PoolConfig.connectError (text : String) : String := "Failed to connect to database: " ++ text

/-- The pool that the environment sets; it must name a database. -/
def PoolConfig.ofEnvironment (env : Environment) : Except PoolConfigError PoolConfig :=
  match (env.text? "EVENTLOG_DATABASE_URL").or (env.text? "DATABASE_URL") with
  | none => .error .missingUrl
  | some url =>
      let defaults : PoolConfig := {}
      .ok { defaults with
        url
        maxConnections := (env.uint32? "EVENTLOG_DB_MAX_CONNECTIONS").getD defaults.maxConnections
        minConnections := (env.uint32? "EVENTLOG_DB_MIN_CONNECTIONS").getD defaults.minConnections
        acquireTimeout := ((env.uint64? "EVENTLOG_DB_ACQUIRE_TIMEOUT_SECS").map .ofSeconds).getD
          defaults.acquireTimeout }

end EventJournal

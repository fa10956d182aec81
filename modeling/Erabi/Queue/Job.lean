/-
# Jobs, attempts, crawl runs and their tables

The durable rows of the job queue: jobs with their lease columns, execution
attempts, the crawl runs jobs are attached to, recovery checkpoints and progress
events.  Identities are UUIDs in the source; only their equality and their order
are ever used, so they are natural numbers here.
-/
import Mathlib
import Erabi.Relational.Table
import Erabi.Relational.Transaction

namespace Erabi.Queue

open Relational

/-- Names a job. -/
abbrev JobId := ℕ
/-- Names an attempt. -/
abbrev AttemptId := ℕ
/-- Names a lease. -/
abbrev LeaseId := ℕ
/-- Names a run. -/
abbrev CrawlRunId := ℕ

/-- A hexadecimal SHA-256 digest; only compared for equality. -/
abbrev Digest := ℕ

/-! ## Lifecycles -/

/-- The lifecycle controlled exclusively by the job repository. -/
inductive JobState : Type where
  | queued | running | succeeded | failed | cancelled
  deriving DecidableEq, Repr, Inhabited

/-- A job that a worker may still execute. -/
def JobState.active : JobState → Bool
  | .queued | .running => true
  | .succeeded | .failed | .cancelled => false

/-- Why a job failed. -/
inductive JobFailureCode : Type where
  | handlerFailed | handlerPanicked | leaseExpired | cancelled | storagePressure
  deriving DecidableEq, Repr

/-- How an attempt ended, or that it has not. -/
inductive AttemptOutcome : Type where
  | running | succeeded | failed | leaseExpired
  deriving DecidableEq, Repr

/-- The status of a run. -/
inductive CrawlRunStatus : Type where
  | queued | running | succeeded | partialResult | failed | cancelled
  deriving DecidableEq, Repr, Inhabited

/-- The statuses that end a run. -/
def CrawlRunStatus.terminal : CrawlRunStatus → Bool
  | .queued | .running => false
  | .succeeded | .partialResult | .failed | .cancelled => true

/-- What a run is for. -/
inductive CrawlRunType : Type where
  | quickScrape | testRun | discoveryPreview | productionRun
  deriving DecidableEq, Repr

/-- How a progress stream ended. -/
inductive ProgressTerminalState : Type where
  | succeeded | failed | cancelled
  deriving DecidableEq, Repr

/-! ## Job kinds -/

/-- Upper-case ASCII letters, digits and underscores, between 1 and 64 bytes. -/
def validJobKind (value : String) : Bool :=
  !value.isEmpty && value.utf8ByteSize ≤ 64 &&
    value.toList.all fun c => c.isUpper || c.isDigit || c = '_'

/-- A validated, opaque worker category. -/
structure JobKind where
  value : String
  valid : validJobKind value = true
  deriving DecidableEq

namespace JobKind

/-- A single page. -/
def quickScrape : JobKind := ⟨"QUICK_SCRAPE", by decide⟩
/-- A crawl of a published version. -/
def productionCrawl : JobKind := ⟨"PRODUCTION_CRAWL", by decide⟩
/-- A retry of a failed job. -/
def retry : JobKind := ⟨"RETRY", by decide⟩
/-- A retry of the parts that failed. -/
def retryFailedParts : JobKind := ⟨"RETRY_FAILED_PARTS", by decide⟩
/-- A continuation from a checkpoint. -/
def resumeCheckpoint : JobKind := ⟨"RESUME_CHECKPOINT", by decide⟩
/-- A crawl again under a new run. -/
def rerunFullCrawl : JobKind := ⟨"RERUN_FULL_CRAWL", by decide⟩
/-- A crawl again under the same run. -/
def restartFromBeginning : JobKind := ⟨"RESTART_FROM_BEGINNING", by decide⟩

end JobKind

/-- The action kinds that continue the work of their source job. -/
def isRecoveryContinuationKind (kind : JobKind) : Bool :=
  kind = .retry || kind = .retryFailedParts || kind = .resumeCheckpoint ||
    kind = .restartFromBeginning

/-! ## Rows -/

/-- Current ownership evidence, as a worker presents it. -/
structure JobLease where
  id : LeaseId
  owner : String
  generation : ℕ
  acquiredAt : ℤ
  expiresAt : ℤ
  heartbeatAt : ℤ
  deriving DecidableEq, Repr

/-- The nullable lease columns of a job row.  The table only admits rows in which
all of them are present or all of them are `NULL`. -/
structure LeaseColumns where
  id : LeaseId
  owner : String
  acquiredAt : ℤ
  expiresAt : ℤ
  heartbeatAt : ℤ
  deriving DecidableEq, Repr

/-- A row of the job table. -/
structure JobRecord where
  id : JobId
  kind : JobKind
  priority : ℤ
  state : JobState
  parentJobId : Option JobId
  crawlRunId : Option CrawlRunId
  scheduledAt : ℤ
  currentAttempt : ℕ
  maxAttempts : ℕ
  /-- Grows with every lease, also after a lease is released. -/
  leaseGeneration : ℕ
  leaseColumns : Option LeaseColumns
  failureCode : Option JobFailureCode
  createdAt : ℤ
  updatedAt : ℤ
  deriving DecidableEq

/-- The lease a job row decodes to. -/
def JobRecord.lease (job : JobRecord) : Option JobLease :=
  job.leaseColumns.map fun c =>
    { id := c.id, owner := c.owner, generation := job.leaseGeneration,
      acquiredAt := c.acquiredAt, expiresAt := c.expiresAt, heartbeatAt := c.heartbeatAt }

/-- A durable job creation request. -/
structure NewJob where
  id : JobId
  kind : JobKind
  priority : ℤ
  parentJobId : Option JobId
  crawlRunId : Option CrawlRunId
  scheduledAt : ℤ
  maxAttempts : ℕ
  deriving DecidableEq

/-- The immutable identity and the outcome of one execution attempt. -/
structure JobAttempt where
  id : AttemptId
  jobId : JobId
  attemptNumber : ℕ
  leaseId : LeaseId
  leaseGeneration : ℕ
  workerId : String
  startedAt : ℤ
  finishedAt : Option ℤ
  outcome : AttemptOutcome
  failureCode : Option JobFailureCode
  deriving DecidableEq, Repr

/-- The configuration a run snapshot freezes, by kind. -/
inductive RunConfiguration : Type where
  | quickScrape | crawlerVersion
  deriving DecidableEq, Repr

/-- The part of an immutable run snapshot the queue reads. -/
structure CrawlRunSnapshot where
  runType : CrawlRunType
  configuration : RunConfiguration
  snapshotHash : Digest
  checkpointCompatibilityHash : Digest
  deriving DecidableEq, Repr

/-- A row of the run table. -/
structure CrawlRun where
  id : CrawlRunId
  snapshot : CrawlRunSnapshot
  status : CrawlRunStatus
  deriving DecidableEq, Repr

/-- The run identity a checkpoint was written for. -/
structure CheckpointIdentity where
  runId : CrawlRunId
  snapshotHash : Digest
  compatibilityHash : Digest
  deriving DecidableEq, Repr

/-- A row of the checkpoint table. -/
structure CheckpointRecord where
  jobId : JobId
  attemptId : AttemptId
  identity : CheckpointIdentity
  sequence : ℕ
  createdAt : ℤ
  deriving DecidableEq, Repr

/-- Upper-case ASCII letters, digits and underscores, between 1 and 64 bytes. -/
def validProgressKey (value : String) : Bool :=
  !value.isEmpty && value.utf8ByteSize ≤ 64 &&
    value.toList.all fun c => c.isUpper || c.isDigit || c = '_'

/-- A stable user-facing workflow key. -/
structure ProgressKey where
  value : String
  valid : validProgressKey value = true
  deriving DecidableEq, Repr

/-- The key of every terminal event. -/
def ProgressKey.completed : ProgressKey := ⟨"COMPLETED", by decide⟩

/-- A value in the metadata of a progress event. -/
inductive ProgressMetadataValue : Type where
  | code (value : String)
  | count (value : ℕ)
  | flag (value : Bool)
  deriving DecidableEq, Repr

/-- Bounded user-facing metadata, by name. -/
abbrev ProgressMetadata := List (String × ProgressMetadataValue)

/-- Validated input for one durable progress append. -/
structure NewProgressEvent where
  jobId : JobId
  attemptId : Option AttemptId
  key : ProgressKey
  metadata : ProgressMetadata
  terminal : Option ProgressTerminalState
  deriving DecidableEq, Repr

/-- A committed progress event; it is identified by its job and its sequence. -/
structure ProgressEvent where
  jobId : JobId
  attemptId : Option AttemptId
  sequence : ℕ
  key : ProgressKey
  metadata : ProgressMetadata
  terminal : Option ProgressTerminalState
  createdAt : ℤ
  deriving DecidableEq, Repr

/-- The row an appended event becomes. -/
def NewProgressEvent.stored (event : NewProgressEvent) (sequence : ℕ) (createdAt : ℤ) :
    ProgressEvent where
  jobId := event.jobId
  attemptId := event.attemptId
  sequence := sequence
  key := event.key
  metadata := event.metadata
  terminal := event.terminal
  createdAt := createdAt

/-- The durable state of the queue.  Progress events carry the unique key
`(job_id, sequence)`. -/
structure QueueStore where
  jobs : Table JobRecord JobId JobRecord.id
  attempts : Table JobAttempt AttemptId JobAttempt.id
  runs : Table CrawlRun CrawlRunId CrawlRun.id
  checkpoints : List CheckpointRecord
  progress : Table ProgressEvent (JobId × ℕ) fun event => (event.jobId, event.sequence)

/-- The database after the migrations, before any request. -/
def QueueStore.empty : QueueStore where
  jobs := .empty
  attempts := .empty
  runs := .empty
  checkpoints := []
  progress := .empty

/-- Why a checkpoint operation is refused. -/
inductive CheckpointRepositoryError : Type where
  | notFound | leaseLost | invalidEnvelope
  deriving DecidableEq, Repr

/-- Typed queue failures.  `database` stands for a refused or failed statement. -/
inductive JobRepositoryError : Type where
  | database
  | notFound
  | illegalTransition
  | removalUnsafe
  | notReprioritizable
  | actionAlreadyActive
  | leaseLost
  | storageAdmissionBlocked
  | queueInvariant
  | checkpoint (error : CheckpointRepositoryError)
  deriving DecidableEq, Repr

/-- One immediate transaction on the queue store. -/
abbrev QueueTx (α : Type) := Transaction QueueStore JobRepositoryError α

/-! ## Bounded arithmetic -/

/-- The least signed 64-bit integer. -/
def i64Min : ℤ := -9223372036854775808
/-- The greatest signed 64-bit integer. -/
def i64Max : ℤ := 9223372036854775807
/-- The greatest unsigned 64-bit integer. -/
def u64Max : ℕ := 18446744073709551615

/-- The addition of 64-bit signed integers; `none` when it overflows.  It is
irreducible so that unification never compares the bounds digit by digit. -/
@[irreducible] def checkedAddI64 (a b : ℤ) : Option ℤ :=
  if i64Min ≤ a + b ∧ a + b ≤ i64Max then some (a + b) else none

/-- A checked sum is the sum. -/
theorem checkedAddI64_eq_some {a b c : ℤ} (h : checkedAddI64 a b = some c) : c = a + b := by
  unfold checkedAddI64 at h
  split at h
  · cases h; rfl
  · cases h

/-- A checked sum is in range. -/
theorem checkedAddI64_le {a b c : ℤ} (h : checkedAddI64 a b = some c) : c ≤ i64Max := by
  unfold checkedAddI64 at h
  split at h
  · rename_i hfits
    cases h
    exact hfits.2
  · cases h

end Erabi.Queue

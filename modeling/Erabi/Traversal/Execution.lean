/-
# The execution repository

Page executions are appended with the unit, the attempt and the generation they
were made for.  The execution of a unit's current generation is linked to the unit
together with the work state it ends in; historical observations change nothing.
-/
import Mathlib
import Erabi.Traversal.Repository

namespace Erabi.Traversal

open Relational Transaction Queue

/-- One immediate transaction of the execution repository. -/
abbrev ExecutionTx (α : Type) := Transaction TraversalStore CrawlExecutionRepositoryError α

/-! ## Outcomes -/

/-- The work ended as the execution did. -/
def outcomeMatchesWorkState : CrawlExecutionOutcome → CrawlWorkState → Bool
  | .completed, .completed | .partialResult, .partialResult | .failed, .failed
  | .cancelled, .cancelled => true
  | _, _ => false

/-- The error codes an outcome may carry. -/
def validOutcomeError : CrawlExecutionOutcome → Option CrawlExecutionErrorCode → Bool
  | .completed, none | .partialResult, some .partialResult | .cancelled, some .cancelled => true
  | .failed, some code => code ≠ .partialResult && code ≠ .cancelled
  | _, _ => false

/-- A work state that only an execution leads to. -/
def CrawlWorkState.finished : CrawlWorkState → Bool
  | .pending | .running => false
  | .completed | .partialResult | .failed | .cancelled => true

/-- The checks on an execution record. -/
def validateRecordInput (env : Environment) (record : CrawlExecutionRecord) : ExecutionTx Unit :=
  require (env.validRecordInput record = true ∧
    validOutcomeError record.outcome record.errorCode = true) .invalidInput

/-! ## Ownership -/

/-- The attempt runs the job of the run under an unexpired lease it was made for. -/
def validateActiveAttemptOwner (runId : CrawlRunId) (jobId : JobId) (attemptId : AttemptId)
    (now : ℤ) : ExecutionTx Unit := do
  let s ← read
  let job ← orFail (s.queue.jobs.find? jobId) .invalidReference
  let attempt ← orFail (s.queue.attempts.find? attemptId) .invalidReference
  require (job.crawlRunId = some runId ∧ activeAttempt job attempt now = true ∧
    job.leaseColumns.any fun columns => columns.owner = attempt.workerId) .invalidReference

/-- The unit is the admitted one of the record at the expected generation, and its
work meets `workReady`. -/
def validateWorkOwner (workReady : CrawlUrlStateRow → Bool) (record : CrawlExecutionRecord)
    (crawlUrlStateId : UrlStateId) (jobId : JobId) (attemptId : AttemptId)
    (expectedWorkGeneration : ℕ) (now : ℤ) : ExecutionTx Unit := do
  let s ← read
  let row ← orFail (selectById s record.crawlRunId crawlUrlStateId) .invalidReference
  require (row.canonicalUrl = record.canonicalUrl ∧ row.admissionState = .admitted ∧
    workReady row = true ∧ row.workGeneration = expectedWorkGeneration ∧
    fitsI64 expectedWorkGeneration) .invalidReference
  validateActiveAttemptOwner record.crawlRunId jobId attemptId now

/-- The worker may end the unit's current work. -/
def validateCurrentWorkOwner (record : CrawlExecutionRecord) (crawlUrlStateId : UrlStateId)
    (jobId : JobId) (attemptId : AttemptId) (expectedWorkGeneration : ℕ) (now : ℤ) :
    ExecutionTx Unit :=
  validateWorkOwner unfinished record crawlUrlStateId jobId attemptId expectedWorkGeneration now

/-- The worker may add to the unit's finished work. -/
def validateHistoricalWorkOwner (record : CrawlExecutionRecord) (crawlUrlStateId : UrlStateId)
    (jobId : JobId) (attemptId : AttemptId) (expectedWorkGeneration : ℕ) (now : ℤ) :
    ExecutionTx Unit :=
  validateWorkOwner (fun row => row.currentWorkState.any CrawlWorkState.finished &&
    row.currentExecutionId.isSome) record crawlUrlStateId jobId attemptId expectedWorkGeneration now

/-! ## Appending executions -/

/-- What the triggers ask of a new execution: its unit is at its generation, and
its attempt belongs to a job of the run. -/
def lineageMatches (s : TraversalStore) (runId : CrawlRunId) (lineage : ExecutionLineage) : Bool :=
  (selectById s runId lineage.crawlUrlStateId).any
      (fun row => row.workGeneration = lineage.workGeneration) &&
    (s.queue.attempts.find? lineage.jobAttemptId).any fun attempt =>
      (s.queue.jobs.find? attempt.jobId).any fun job => job.crawlRunId = some runId

/-- Inserts an execution under a new name. -/
def insertExecutionRow (record : CrawlExecutionRecord) (lineage : Option ExecutionLineage) :
    ExecutionTx Unit := do
  let s ← read
  require (s.executions.find? record.id).isNone .duplicateExecution
  require (∀ origin ∈ lineage, fitsI64 origin.workGeneration) .counterOutOfRange
  require (∀ origin ∈ lineage, lineageMatches s record.crawlRunId origin = true) .database
  require (∀ id ∈ record.discoveredUrlId,
    (s.discovered.find? id).any fun discovered => discovered.crawlRunId = record.crawlRunId)
    .database
  let executions ← orFail (s.executions.insert? { record with lineage }) .database
  write fun s => { s with executions }

/-- Persists an execution with what it refers to. -/
def persistInTransaction (env : Environment) (record : CrawlExecutionRecord)
    (lineage : Option ExecutionLineage) : ExecutionTx Unit := do
  let s ← read
  require (lineage.isSome → (s.executions.find? record.id).isNone) .duplicateExecution
  require (∀ bytes ∈ record.contentLengthBytes, fitsI64 bytes) .counterOutOfRange
  require (∀ elapsed ∈ record.providerElapsedMs, fitsI64 elapsed) .counterOutOfRange
  require (s.queue.runs.find? record.crawlRunId).isSome .crawlRunNotFound
  lift (env.validReferences record)
  insertExecutionRow record lineage

/-! ## Operations -/

/-- Appends an execution without a logical unit. -/
def persist (env : Environment) (record : CrawlExecutionRecord) : ExecutionTx Unit := do
  validateRecordInput env record
  persistInTransaction env record none

/-- Appends the execution of a unit's current generation and ends its work. -/
def persistCurrentWork (env : Environment) (record : CrawlExecutionRecord)
    (crawlUrlStateId : UrlStateId) (jobId : JobId) (attemptId : AttemptId)
    (state : CrawlWorkState) (expectedWorkGeneration : ℕ) (now : ℤ) : ExecutionTx Unit := do
  validateRecordInput env record
  require (crawlUrlStateId ≠ "" ∧ outcomeMatchesWorkState record.outcome state = true)
    .invalidInput
  validateCurrentWorkOwner record crawlUrlStateId jobId attemptId expectedWorkGeneration now
  persistInTransaction env record
    (some ⟨crawlUrlStateId, attemptId, expectedWorkGeneration⟩)
  let s ← read
  require ((s.executions.find? record.id).any
    (executionMatches record.crawlRunId crawlUrlStateId expectedWorkGeneration)) .database
  let changed ← updateUrlStates .database
    (fun row => row.id = crawlUrlStateId && row.crawlRunId = record.crawlRunId &&
      row.workGeneration = expectedWorkGeneration && unfinished row)
    (fun row => { row with
      currentWorkState := some state
      currentExecutionId := some record.id })
  require (changed = 1) .corruptState

/-- Marks one generation of a unit active before its provider call. -/
def activateCurrentWork (runId : CrawlRunId) (crawlUrlStateId : UrlStateId) (jobId : JobId)
    (attemptId : AttemptId) (expectedWorkGeneration : ℕ) (now : ℤ) : ExecutionTx Unit := do
  require (crawlUrlStateId ≠ "") .invalidInput
  validateActiveAttemptOwner runId jobId attemptId now
  require (fitsI64 expectedWorkGeneration) .counterOutOfRange
  let changed ← updateUrlStates .database
    (fun row => row.id = crawlUrlStateId && row.crawlRunId = runId &&
      row.admissionState = .admitted && row.workGeneration = expectedWorkGeneration &&
      (unfinished row || row.currentWorkState = some .failed))
    (fun row => { row with
      currentWorkState := some .running
      currentExecutionId := none })
  require (changed = 1) .invalidReference

/-- Appends the observation of an alias whose final unit has already ended. -/
def persistHistoricalWork (env : Environment) (record : CrawlExecutionRecord)
    (crawlUrlStateId : UrlStateId) (jobId : JobId) (attemptId : AttemptId)
    (expectedWorkGeneration : ℕ) (now : ℤ) : ExecutionTx Unit := do
  validateRecordInput env record
  require (crawlUrlStateId ≠ "") .invalidInput
  validateHistoricalWorkOwner record crawlUrlStateId jobId attemptId expectedWorkGeneration now
  persistInTransaction env record
    (some ⟨crawlUrlStateId, attemptId, expectedWorkGeneration⟩)

end Erabi.Traversal

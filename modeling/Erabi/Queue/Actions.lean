/-
# Explicit job actions

The service boundary for retry, resume, restart and rerun.  It owns no lifecycle
state: every action reads its source, refuses it or asks the repository for one
action child.  The compatibility of a checkpoint is decided from crawl evidence
outside the queue and is an argument here.
-/
import Mathlib
import Erabi.Queue.Recovery

namespace Erabi.Queue

open Relational Transaction

/-- Typed semantic failures at the action boundary. -/
inductive JobActionError : Type where
  | notFound
  | illegalLifecycleState
  | attemptsExhausted
  | crawlRunRequired
  | checkpointMissing
  | checkpointIdentityMismatch
  | recoveryStateInvalid
  | notRemovable
  | notReprioritizable
  | concurrentTransition
  | repository (error : JobRepositoryError)
  deriving DecidableEq, Repr

/-- The error of an action for an error of the repository. -/
def actionRepositoryError : JobRepositoryError → JobActionError
  | .notFound => .notFound
  | .removalUnsafe => .notRemovable
  | .notReprioritizable => .notReprioritizable
  | .actionAlreadyActive | .leaseLost => .concurrentTransition
  | .illegalTransition => .illegalLifecycleState
  | other => .repository other

/-! ## Sources -/

/-- A terminal job. -/
def terminalSource (store : QueueStore) (jobId : JobId) : Except JobActionError JobRecord :=
  match store.jobs.find? jobId with
  | none => .error .notFound
  | some job => if job.state.active then .error .illegalLifecycleState else .ok job

/-- Failed or cancelled work eligible for in-place recovery. -/
def recoverableSource (store : QueueStore) (jobId : JobId) : Except JobActionError JobRecord := do
  let job ← terminalSource store jobId
  if job.state = .failed ∨ job.state = .cancelled then return job
  else throw .illegalLifecycleState

/-- The snapshot of the run of a job. -/
def snapshotFor (store : QueueStore) (source : JobRecord) :
    Except JobActionError (Option CrawlRunSnapshot) :=
  match source.crawlRunId with
  | none => .ok none
  | some runId =>
    match store.runs.find? runId with
    | none => .error .notFound
    | some run => .ok (some run.snapshot)

/-- The job belongs to a production run. -/
def isProduction (store : QueueStore) (source : JobRecord) : Except JobActionError Bool := do
  return (← snapshotFor store source).any fun snapshot => snapshot.runType = .productionRun

/-- The child stays with its source's run, when there is one. -/
def sameRunAssociation (source : JobRecord) : ActionRunAssociation :=
  if source.crawlRunId.isSome then .sameSourceRun else .none

/-- The number of failed parts of a source whose checkpoint is compatible. -/
abbrev CheckpointEvidence := JobRecord → Except JobActionError ℕ

/-! ## Actions -/

/-- The action child an accepted action asks for. -/
structure ActionRequest where
  kind : JobKind
  association : ActionRunAssociation
  maxAttempts : Option ℕ

/-- What a retry asks for. -/
def retryRequest (store : QueueStore) (compatibleCheckpoint : CheckpointEvidence)
    (jobId : JobId) : Except JobActionError ActionRequest := do
  let source ← recoverableSource store jobId
  if source.currentAttempt = 0 then throw .illegalLifecycleState
  if source.crawlRunId.isSome then
    let _ ← compatibleCheckpoint source
  if ← isProduction store source then
    return ⟨.retry, sameRunAssociation source, some (max source.maxAttempts 1)⟩
  if source.maxAttempts ≤ source.currentAttempt then throw .attemptsExhausted
  return ⟨.retry, sameRunAssociation source, some (source.maxAttempts - source.currentAttempt)⟩

/-- What a retry of the failed parts asks for. -/
def retryFailedPartsRequest (store : QueueStore) (compatibleCheckpoint : CheckpointEvidence)
    (jobId : JobId) : Except JobActionError ActionRequest := do
  let source ← recoverableSource store jobId
  let production ← isProduction store source
  if source.maxAttempts ≤ source.currentAttempt ∧ production = false then
    throw .attemptsExhausted
  let failedPartCount ← compatibleCheckpoint source
  if failedPartCount = 0 then throw .illegalLifecycleState
  return ⟨.retryFailedParts, .sameSourceRun, some (if production then max source.maxAttempts 1
    else source.maxAttempts - source.currentAttempt)⟩

/-- What a continuation asks for. -/
def resumeRequest (store : QueueStore) (compatibleCheckpoint : CheckpointEvidence)
    (jobId : JobId) : Except JobActionError ActionRequest := do
  let source ← recoverableSource store jobId
  let production ← isProduction store source
  let _ ← compatibleCheckpoint source
  return ⟨.resumeCheckpoint, .sameSourceRun,
    if production then some (max source.maxAttempts 1) else none⟩

/-- A restart replays a run from its beginning, which a production run refuses;
only a quick scrape root may be restarted after it succeeded. -/
def restartFromBeginningRequest (store : QueueStore) (jobId : JobId) :
    Except JobActionError ActionRequest := do
  let source ← terminalSource store jobId
  let snapshot ← snapshotFor store source
  if snapshot.any (fun snapshot => snapshot.runType = .productionRun) then
    throw .illegalLifecycleState
  let quickScrapeRoot := source.kind = .quickScrape &&
    snapshot.any fun snapshot => snapshot.runType = .quickScrape
  if quickScrapeRoot = false ∧ source.state ≠ .failed ∧ source.state ≠ .cancelled then
    throw .illegalLifecycleState
  return ⟨.restartFromBeginning, sameRunAssociation source, none⟩

/-- A rerun creates an independent run from the audited snapshot of its source. -/
def rerunFullCrawlRequest (store : QueueStore)
    (independentRerunSnapshot : CrawlRunSnapshot → Except JobActionError CrawlRunSnapshot)
    (runId : CrawlRunId) (jobId : JobId) : Except JobActionError ActionRequest := do
  let source ← terminalSource store jobId
  match ← snapshotFor store source with
  | none => throw .crawlRunRequired
  | some snapshot =>
    return ⟨.rerunFullCrawl, .newIndependentRun runId (← independentRerunSnapshot snapshot), none⟩

/-- Carries out an accepted action. -/
def performAction (jobId childId : JobId) (now : ℤ) (request : Except JobActionError ActionRequest)
    (store : QueueStore) : Except JobActionError JobRecord × QueueStore :=
  match request with
  | .error e => (.error e, store)
  | .ok request =>
    match (enqueueActionChild jobId childId request.kind now request.association
      request.maxAttempts).commit store with
    | (.ok child, store) => (.ok child, store)
    | (.error e, store) => (.error (actionRepositoryError e), store)

/-- Retries a job. -/
def retry (compatibleCheckpoint : CheckpointEvidence) (jobId childId : JobId) (now : ℤ)
    (store : QueueStore) : Except JobActionError JobRecord × QueueStore :=
  performAction jobId childId now (retryRequest store compatibleCheckpoint jobId) store

/-- Retries the failed parts of a job. -/
def retryFailedParts (compatibleCheckpoint : CheckpointEvidence) (jobId childId : JobId) (now : ℤ)
    (store : QueueStore) : Except JobActionError JobRecord × QueueStore :=
  performAction jobId childId now (retryFailedPartsRequest store compatibleCheckpoint jobId) store

/-- Continues a job from its checkpoint. -/
def resume (compatibleCheckpoint : CheckpointEvidence) (jobId childId : JobId) (now : ℤ)
    (store : QueueStore) : Except JobActionError JobRecord × QueueStore :=
  performAction jobId childId now (resumeRequest store compatibleCheckpoint jobId) store

/-- Starts a job again under its run. -/
def restartFromBeginning (jobId childId : JobId) (now : ℤ) (store : QueueStore) :
    Except JobActionError JobRecord × QueueStore :=
  performAction jobId childId now (restartFromBeginningRequest store jobId) store

/-- Crawls again under a new run. -/
def rerunFullCrawl
    (independentRerunSnapshot : CrawlRunSnapshot → Except JobActionError CrawlRunSnapshot)
    (runId : CrawlRunId) (jobId childId : JobId) (now : ℤ) (store : QueueStore) :
    Except JobActionError JobRecord × QueueStore :=
  performAction jobId childId now
    (rerunFullCrawlRequest store independentRerunSnapshot runId jobId) store

/-- An action is refused without a trace, or is one action child. -/
theorem performAction_store (jobId childId : JobId) (now : ℤ)
    (request : Except JobActionError ActionRequest) (store : QueueStore) :
    (performAction jobId childId now request store).2 =
      match request with
      | .error _ => store
      | .ok request => ((enqueueActionChild jobId childId request.kind now request.association
          request.maxAttempts).commit store).2 := by
  unfold performAction
  cases request with
  | error e => rfl
  | ok request =>
    dsimp only
    rcases (enqueueActionChild jobId childId request.kind now request.association
      request.maxAttempts).commit store with ⟨e | child, s'⟩ <;> rfl

end Erabi.Queue

/-
# The end of an execution

What a worker does with a job once its handler has returned: the terminal commit
of the run, a cancellation, storage pressure, success, failure and panic select
one repository operation each, in this order.
-/
import Mathlib
import Erabi.Queue.Recovery

namespace Erabi.Queue

open Relational Transaction

/-- How the handler future ended. -/
inductive HandlerResult : Type where
  | ok | failed | panicked
  deriving DecidableEq, Repr

/-- A run a handler finalized itself. -/
structure TerminalCrawlRunCommit where
  runId : CrawlRunId
  terminalProgressDurable : Bool
  deriving DecidableEq, Repr

/-- What the worker knows about an execution when its handler has returned. -/
structure ExecutionEnd where
  jobId : JobId
  kind : JobKind
  lease : JobLease
  completedAt : ℤ
  retryDelaySeconds : ℤ
  terminalCrawlRun : Option TerminalCrawlRunCommit
  cancelled : Bool
  storagePressureSignalled : Bool
  terminalFailureRequested : Bool
  result : HandlerResult

/-- Why a worker's turn fails. -/
inductive JobRuntimeError : Type where
  | invalidPolicy
  | repository (error : JobRepositoryError)
  deriving DecidableEq, Repr

/-- How a worker's turn ended. -/
inductive WorkerTurn : Type where
  | succeeded
  | failed (failure : JobFailureCode)
  | retryScheduled (failure : JobFailureCode)
  | cancelled
  | storagePressure (state : JobState)
  deriving DecidableEq, Repr

/-- Repository failures that stop the worker. -/
def JobRepositoryError.fatal : JobRepositoryError → Bool
  | .leaseLost | .checkpoint .leaseLost | .database | .storageAdmissionBlocked => false
  | .notFound | .illegalTransition | .removalUnsafe | .notReprioritizable
  | .actionAlreadyActive | .queueInvariant | .checkpoint .notFound
  | .checkpoint .invalidEnvelope => true

/-- The kinds of recovery actions that can belong to a production run. -/
def productionActionKind (kind : JobKind) : Bool :=
  kind = .retry || kind = .retryFailedParts || kind = .resumeCheckpoint ||
    kind = .rerunFullCrawl || kind = .restartFromBeginning

/-- Whether a failure of this job also fails a production run. -/
def isProductionContext (store : QueueStore) (jobId : JobId) (kind : JobKind) :
    Except JobRepositoryError Bool :=
  if kind = .productionCrawl then .ok true
  else if productionActionKind kind = false then .ok false
  else
    match store.jobs.find? jobId with
    | none => .error .notFound
    | some job =>
      match job.crawlRunId with
      | none => .ok false
      | some runId =>
        match store.runs.find? runId with
        | none => .error .queueInvariant
        | some run => .ok (run.snapshot.runType = .productionRun)

/-- The outcome of one repository operation as a worker turn. -/
def turn {α : Type} (x : QueueTx α) (f : α → Except JobRuntimeError WorkerTurn)
    (store : QueueStore) : Except JobRuntimeError WorkerTurn × QueueStore :=
  match x.commit store with
  | (.ok a, store) => (f a, store)
  | (.error e, store) => (.error (.repository e), store)

/-- Records a failed execution: production runs fail with their job, other jobs
fail alone. -/
def recordFailure (execution : ExecutionEnd) (failure : JobFailureCode) (terminal : Bool)
    (store : QueueStore) : Except JobRuntimeError WorkerTurn × QueueStore :=
  match isProductionContext store execution.jobId execution.kind with
  | .error e => (.error (.repository e), store)
  | .ok true =>
    turn (failTerminalProduction execution.jobId execution.lease execution.completedAt failure)
      (fun _ => .ok (.failed failure)) store
  | .ok false =>
    if terminal then
      turn (failTerminal execution.jobId execution.lease execution.completedAt failure)
        (fun _ => .ok (.failed failure)) store
    else
      match checkedAddI64 execution.completedAt execution.retryDelaySeconds with
      | none => (.error .invalidPolicy, store)
      | some retryAt =>
        turn (failJob execution.jobId execution.lease execution.completedAt failure retryAt)
          (fun state => match state with
            | .queued => .ok (.retryScheduled failure)
            | .failed => .ok (.failed failure)
            | _ => .error (.repository .queueInvariant)) store

/-- The turn of a job whose run is already terminal. -/
def reconciledTurn : JobState → Except JobRuntimeError WorkerTurn
  | .succeeded => .ok .succeeded
  | .failed => .ok (.failed .handlerFailed)
  | .cancelled => .ok .cancelled
  | .queued | .running => .error (.repository .queueInvariant)

/-- Reconciles a job with the run its handler finalized, and completes the
progress stream when the handler could not. -/
def reconcileTerminalCommit (execution : ExecutionEnd) (commit : TerminalCrawlRunCommit)
    (store : QueueStore) : Except JobRuntimeError WorkerTurn × QueueStore :=
  match (reconcileTerminalCrawlRun execution.jobId execution.lease commit.runId
    execution.completedAt).commit store with
  | (.error e, store) => (.error (.repository e), store)
  | (.ok reconciliation, store) =>
    if commit.terminalProgressDurable then
      (reconciledTurn reconciliation.state, store)
    else
      match (appendTerminalProgressIfMissing execution.jobId reconciliation.progress
        execution.completedAt).commit store with
      | (.ok (), store) => (reconciledTurn reconciliation.state, store)
      | (.error e, store) =>
        if e.fatal then (.error (.repository e), store)
        else (reconciledTurn reconciliation.state, store)

/-- Ends an acquired execution. -/
def executeAcquired (execution : ExecutionEnd) (store : QueueStore) :
    Except JobRuntimeError WorkerTurn × QueueStore :=
  match execution.terminalCrawlRun with
  | some commit => reconcileTerminalCommit execution commit store
  | none =>
    if execution.cancelled then
      turn (cancel execution.jobId execution.lease execution.completedAt)
        (fun _ => .ok .cancelled) store
    else if execution.storagePressureSignalled then
      match requeueAfterStoragePressure execution.jobId execution.lease execution.completedAt
        store with
      | (.ok state, store) => (.ok (.storagePressure state), store)
      | (.error e, store) => (.error (.repository e), store)
    else
      match execution.result with
      | .ok => turn (succeed execution.jobId execution.lease execution.completedAt)
          (fun _ => .ok .succeeded) store
      | .failed => recordFailure execution .handlerFailed execution.terminalFailureRequested store
      | .panicked => recordFailure execution .handlerPanicked false store

/-- A turn commits its transaction. -/
theorem turn_store {α : Type} (x : QueueTx α) (f : α → Except JobRuntimeError WorkerTurn)
    (store : QueueStore) : (turn x f store).2 = (x.commit store).2 := by
  unfold turn
  rcases x.commit store with ⟨e | a, s'⟩ <;> rfl

end Erabi.Queue

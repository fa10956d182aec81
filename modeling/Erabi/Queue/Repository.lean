/-
# The job repository

The transactions of the job repository on one job: creation, lease ownership,
completion, failure, cancellation and the action children of a settled job.
Fresh UUIDs are inputs; a taken one is refused by the primary key.
-/
import Mathlib
import Erabi.Queue.Job

namespace Erabi.Queue

open Relational Transaction

/-! ## Rows by identity -/

/-- Reads one job, as every other operation of the repository does first. -/
def selectJob (jobId : JobId) : QueueTx JobRecord := do
  let store ← read
  orFail (store.jobs.find? jobId) .notFound

/-- The status of a run. -/
def selectCrawlRunStatus (runId : CrawlRunId) : QueueTx (Option CrawlRunStatus) := do
  let store ← read
  return (store.runs.find? runId).map CrawlRun.status

/-! ## Creation -/

/-- Inserts one run row; a taken identity violates the primary key. -/
def insertRun (runId : CrawlRunId) (status : CrawlRunStatus) (snapshot : CrawlRunSnapshot) :
    QueueTx Unit := do
  let store ← read
  let runs ← orFail (store.runs.insert? ⟨runId, snapshot, status⟩) .database
  write fun s => { s with runs }

/-- Inserts one job row.  The parent and the run are foreign keys, and the table
only admits at least one attempt. -/
def insertJob (job : JobRecord) : QueueTx Unit := do
  let store ← read
  require (∀ parent ∈ job.parentJobId, (store.jobs.find? parent).isSome) .database
  require (∀ runId ∈ job.crawlRunId, (store.runs.find? runId).isSome) .database
  require (1 ≤ job.maxAttempts) .database
  let jobs ← orFail (store.jobs.insert? job) .database
  write fun s => { s with jobs }

/-- The row a job starts with: `QUEUED`, without attempt and without lease. -/
def NewJob.record (job : NewJob) (now : ℤ) : JobRecord where
  id := job.id
  kind := job.kind
  priority := job.priority
  state := .queued
  parentJobId := job.parentJobId
  crawlRunId := job.crawlRunId
  scheduledAt := job.scheduledAt
  currentAttempt := 0
  maxAttempts := job.maxAttempts
  leaseGeneration := 0
  leaseColumns := none
  failureCode := none
  createdAt := now
  updatedAt := now

/-- Creates a job in its only valid initial state. -/
def enqueue (job : NewJob) (now : ℤ) : QueueTx Unit := insertJob (job.record now)

/-- Inserts a queued run and its root job together. -/
def createRunWithRootJob (runId : CrawlRunId) (snapshot : CrawlRunSnapshot) (job : NewJob)
    (now : ℤ) : QueueTx Unit := do
  insertRun runId .queued snapshot
  insertJob { job.record now with parentJobId := none, crawlRunId := some runId }

/-- A run for a single page, with its root job. -/
def createQuickScrapeRunWithRootJob (runId : CrawlRunId) (snapshot : CrawlRunSnapshot)
    (job : NewJob) (now : ℤ) : QueueTx Unit := do
  require (snapshot.configuration = .quickScrape ∧ job.parentJobId = none ∧
    job.crawlRunId = none) .queueInvariant
  createRunWithRootJob runId snapshot job now

/-- A run of a published version, with its root job. -/
def createProductionRunWithRootJob (runId : CrawlRunId) (snapshot : CrawlRunSnapshot)
    (job : NewJob) (now : ℤ) : QueueTx Unit := do
  require (snapshot.configuration = .crawlerVersion ∧ snapshot.runType = .productionRun ∧
    job.parentJobId = none ∧ job.crawlRunId = none) .queueInvariant
  createRunWithRootJob runId snapshot job now

/-! ## Leases -/

/-- The row of the job while `lease` still owns it: the predicate of every
statement that ends or renews an execution. -/
def holdsLease (jobId : JobId) (lease : JobLease) (job : JobRecord) : Bool :=
  job.id = jobId && job.state = .running && job.leaseGeneration = lease.generation &&
    job.leaseColumns.any fun c => c.id = lease.id && c.owner = lease.owner

/-- Reads the running job of a current, unexpired lease. -/
def selectOwnedRunningJob (jobId : JobId) (lease : JobLease) (now : ℤ) : QueueTx JobRecord := do
  let job ← selectJob jobId
  require (job.state = .running) .illegalTransition
  require (job.lease = some lease ∧ now < lease.expiresAt) .leaseLost
  return job

/-- Renews a lease only when every ownership field still matches and the lease
has not expired.  The table refuses a heartbeat before the acquisition. -/
def heartbeat (jobId : JobId) (lease : JobLease) (now leaseDurationSeconds : ℤ) :
    QueueTx JobLease := do
  require (0 < leaseDurationSeconds) .queueInvariant
  let expiresAt ← orFail (checkedAddI64 now leaseDurationSeconds) .queueInvariant
  let store ← read
  let owned := fun job : JobRecord => holdsLease jobId lease job &&
    job.leaseColumns.any fun c => c.expiresAt = lease.expiresAt &&
      c.heartbeatAt = lease.heartbeatAt && now < c.expiresAt
  if store.jobs.changed owned = 1 then do
    require ((store.jobs.find? jobId).bind JobRecord.leaseColumns |>.all
      fun c => c.acquiredAt ≤ now) .database
    write fun s => { s with
      jobs := s.jobs.update owned fun job => { job with
        leaseColumns := job.leaseColumns.map fun c => { c with heartbeatAt := now, expiresAt }
        updatedAt := now } }
    return { lease with heartbeatAt := now, expiresAt }
  else
    match store.jobs.find? jobId with
    | none => fail .notFound
    | some job => if job.state = .running then fail .leaseLost else fail .illegalTransition

/-- The running attempt a lease was created with. -/
def runningAttempt (jobId : JobId) (lease : JobLease) (attempt : JobAttempt) : Bool :=
  attempt.jobId = jobId && attempt.leaseId = lease.id &&
    attempt.leaseGeneration = lease.generation && attempt.workerId = lease.owner &&
    attempt.outcome = .running

/-- Closes the attempt of a lease; a closed attempt never changes again. -/
def finishAttempt (jobId : JobId) (lease : JobLease) (now : ℤ) (outcome : AttemptOutcome)
    (failure : Option JobFailureCode) : QueueTx Unit := do
  let store ← read
  require (store.attempts.changed (runningAttempt jobId lease) = 1) .leaseLost
  write fun s => { s with
    attempts := s.attempts.update (runningAttempt jobId lease) fun attempt => { attempt with
      finishedAt := some now, outcome, failureCode := failure } }

/-- Moves the leased job to `state` and releases its lease.  `scheduledAt` is
`none` in the statements that do not assign the column. -/
def releaseJob (jobId : JobId) (lease : JobLease) (now : ℤ) (state : JobState)
    (failure : Option JobFailureCode) (scheduledAt : Option ℤ) : QueueTx Unit := do
  let store ← read
  require (store.jobs.changed (holdsLease jobId lease) = 1) .leaseLost
  write fun s => { s with
    jobs := s.jobs.update (holdsLease jobId lease) fun job => { job with
      state, leaseColumns := none, failureCode := failure, updatedAt := now
      scheduledAt := scheduledAt.getD job.scheduledAt } }

/-- The store after the attempt of the lease was closed and its job released. -/
def settled (j : JobId) (lease : JobLease) (now : ℤ) (outcome : AttemptOutcome)
    (state : JobState) (failure : Option JobFailureCode) (scheduledAt : Option ℤ)
    (s : QueueStore) : QueueStore :=
  { s with
    attempts := s.attempts.update (runningAttempt j lease) fun attempt => { attempt with
      finishedAt := some now, outcome, failureCode := failure }
    jobs := s.jobs.update (holdsLease j lease) fun job => { job with
      state, leaseColumns := none, failureCode := failure, updatedAt := now
      scheduledAt := scheduledAt.getD job.scheduledAt } }

/-! ## Progress -/

/-- The sequences stored for a job. -/
def progressSequences (store : QueueStore) (jobId : JobId) : List ℕ :=
  (store.progress.rows.filter fun event => event.jobId = jobId).map ProgressEvent.sequence

/-- The largest stored sequence, zero for an empty stream. -/
def lastSequence (store : QueueStore) (jobId : JobId) : ℕ :=
  (progressSequences store jobId).foldr max 0

/-- Appends an event that names no attempt: the job must exist, the last event
must not be terminal, and the next sequence must be a 64-bit integer. -/
def appendProgress (jobId : JobId) (terminal : Option ProgressTerminalState) (now : ℤ) :
    QueueTx Unit := do
  let store ← read
  require (store.jobs.find? jobId).isSome .queueInvariant
  let last := lastSequence store jobId
  require ((store.progress.find? (jobId, last)).bind ProgressEvent.terminal = none)
    .queueInvariant
  let next ← orFail (checkedAddI64 last 1) .queueInvariant
  let progress ← orFail
    (store.progress.insert? ⟨jobId, none, next.toNat, .completed, [], terminal, now⟩)
    .queueInvariant
  write fun s => { s with progress }

/-! ## Run lifecycle statements -/

/-- `UPDATE crawl_runs SET status WHERE id AND status IN allowed`, where a
statement that changes no row fails with `e`. -/
def setRunStatus (runId : CrawlRunId) (allowed : CrawlRunStatus → Bool)
    (status : CrawlRunStatus) (e : JobRepositoryError) : QueueTx Unit := do
  let store ← read
  let matching := fun run : CrawlRun => run.id = runId && allowed run.status
  require (store.runs.changed matching = 1) e
  write fun s => { s with runs := s.runs.update matching fun run => { run with status } }

/-- The statuses from which the worker-owned transition to `status` is legal;
none for `QUEUED` and `CANCELLED`, which workers cannot set. -/
def executionTransitionFrom : CrawlRunStatus → CrawlRunStatus → Bool
  | .running, old => old = .queued || old = .running
  | .succeeded, old => old = .queued || old = .running || old = .succeeded
  | .partialResult, old => old = .queued || old = .running || old = .partialResult
  | .failed, old => old = .queued || old = .running || old = .failed
  | .queued, _ | .cancelled, _ => false

/-- Sets the status of a run that permits it. -/
def transitionExecutionStatus (runId : CrawlRunId) (status : CrawlRunStatus) : QueueTx Unit :=
  setRunStatus runId (executionTransitionFrom status) status .queueInvariant

/-- Ends a run with its summary: the cancellation-owned transition for
`CANCELLED`, the worker-owned one for every other status. -/
def finalizeRun (runId : CrawlRunId) (status : CrawlRunStatus) : QueueTx Unit :=
  if status = .cancelled then
    setRunStatus runId (fun old => old = .queued || old = .running || old = .cancelled)
      .cancelled .database
  else
    transitionExecutionStatus runId status

/-- Reopens a run for a same-run recovery continuation. -/
def transitionRecoveryStatus (runId : CrawlRunId) : QueueTx Unit :=
  setRunStatus runId (fun old => old != .succeeded) .running .database

/-- Reopens a run for an explicit restart, also a successful one. -/
def transitionRestartStatus (runId : CrawlRunId) : QueueTx Unit :=
  setRunStatus runId (fun _ => true) .running .database

/-- Cancels the run of a cancelled job while the run is still open. -/
def cancelRelatedRun (crawlRunId : Option CrawlRunId) : QueueTx Unit := do
  match crawlRunId with
  | none => return ()
  | some runId =>
    write fun s => { s with
      runs := s.runs.update
        (fun run => run.id = runId && (run.status = .queued || run.status = .running))
        fun run => { run with status := .cancelled } }

/-- Fails the run of a terminally failed job and closes the job's progress. -/
def finalizeCrawlFailure (job : JobRecord) (now : ℤ) : QueueTx Unit := do
  let runId ← orFail job.crawlRunId .queueInvariant
  transitionExecutionStatus runId .failed
  appendProgress job.id (some .failed) now

/-! ## Terminal runs -/

/-- The durable job result an authoritative terminal run selects. -/
structure TerminalJobReconciliation where
  state : JobState
  progress : ProgressTerminalState
  deriving DecidableEq, Repr

/-- The job state, attempt outcome and failure code of a terminal run status. -/
def terminalOutcome : CrawlRunStatus →
    Option (JobState × AttemptOutcome × Option JobFailureCode × ProgressTerminalState)
  | .succeeded | .partialResult => some (.succeeded, .succeeded, none, .succeeded)
  | .failed => some (.failed, .failed, some .handlerFailed, .failed)
  | .cancelled => some (.cancelled, .failed, some .cancelled, .cancelled)
  | .queued | .running => none

/-- Maps a terminal run to the outcome of one of its jobs.  A settled job must
already be in the state the run selects, and a queued job never may be attached
to a terminal run. -/
def reconcileTerminalJob (jobId : JobId) (runStatus : CrawlRunStatus) (now : ℤ) :
    QueueTx (Option TerminalJobReconciliation) := do
  match terminalOutcome runStatus with
  | none => return none
  | some (state, outcome, failure, progress) =>
    let job ← selectJob jobId
    match job.state with
    | .running =>
      let lease ← orFail job.lease .queueInvariant
      finishAttempt jobId lease now outcome failure
      releaseJob jobId lease now state failure none
    | .queued => fail .queueInvariant
    | settled => require (settled = state) .queueInvariant
    return some ⟨state, progress⟩

/-- Reconciles one job with its run when the run has already ended. -/
def finishAfterTerminalCrawlRun (jobId : JobId) (runId : CrawlRunId) (now : ℤ) :
    QueueTx (Option TerminalJobReconciliation) := do
  match ← selectCrawlRunStatus runId with
  | none => return none
  | some runStatus => reconcileTerminalJob jobId runStatus now

/-- The check of an interrupted job whether its run has already ended. -/
def finishAfterRun (jobId : JobId) (crawlRunId : Option CrawlRunId) (now : ℤ) :
    QueueTx (Option TerminalJobReconciliation) :=
  match crawlRunId with
  | none => pure none
  | some runId => finishAfterTerminalCrawlRun jobId runId now

/-- The explicit reconciliation of a handler that finalized its run itself. -/
def reconcileTerminalCrawlRun (jobId : JobId) (lease : JobLease) (runId : CrawlRunId) (now : ℤ) :
    QueueTx TerminalJobReconciliation := do
  let runStatus ← orFail (← selectCrawlRunStatus runId) .queueInvariant
  let job ← selectJob jobId
  require (job.crawlRunId = some runId) .queueInvariant
  require (job.state = .running → job.lease = some lease) .leaseLost
  orFail (← reconcileTerminalJob jobId runStatus now) .queueInvariant

/-! ## Completion, failure and cancellation -/

/-- Completes the active attempt of the current owner. -/
def succeed (jobId : JobId) (lease : JobLease) (now : ℤ) : QueueTx Unit := do
  let _ ← selectOwnedRunningJob jobId lease now
  finishAttempt jobId lease now .succeeded none
  releaseJob jobId lease now .succeeded none none

/-- Fails the active attempt; the job is requeued while attempts remain, unless
the failure is terminal. -/
def failWithDisposition (jobId : JobId) (lease : JobLease) (now : ℤ) (failure : JobFailureCode)
    (retryAt : ℤ) (terminal : Bool) : QueueTx JobState := do
  let job ← selectOwnedRunningJob jobId lease now
  let nextState : JobState :=
    if terminal = false ∧ job.currentAttempt < job.maxAttempts then .queued else .failed
  finishAttempt jobId lease now .failed (some failure)
  releaseJob jobId lease now nextState (some failure)
    (some (if nextState = .queued then retryAt else job.scheduledAt))
  return nextState

/-- Fails a job, which may be tried again. -/
def failJob (jobId : JobId) (lease : JobLease) (now : ℤ) (failure : JobFailureCode)
    (retryAt : ℤ) : QueueTx JobState :=
  failWithDisposition jobId lease now failure retryAt false

/-- Fails a job for good. -/
def failTerminal (jobId : JobId) (lease : JobLease) (now : ℤ) (failure : JobFailureCode) :
    QueueTx Unit := do
  let state ← failWithDisposition jobId lease now failure now true
  require (state = .failed) .queueInvariant

/-- Fails the attempt, the job, its production run and its progress stream
together. -/
def failTerminalProduction (jobId : JobId) (lease : JobLease) (now : ℤ)
    (failure : JobFailureCode) : QueueTx Unit := do
  let job ← selectOwnedRunningJob jobId lease now
  let store ← read
  if job.kind ≠ .productionCrawl then do
    let runId ← orFail job.crawlRunId .queueInvariant
    let run ← orFail (store.runs.find? runId) .queueInvariant
    require (run.snapshot.runType = .productionRun) .queueInvariant
  finishAttempt jobId lease now .failed (some failure)
  releaseJob jobId lease now .failed (some failure) (some job.scheduledAt)
  finalizeCrawlFailure job now

/-- Cancels an active attempt for its current owner.  A run that already ended
otherwise decides the job's outcome; an open run is cancelled with the job. -/
def cancel (jobId : JobId) (lease : JobLease) (now : ℤ) : QueueTx Unit := do
  let job ← selectOwnedRunningJob jobId lease now
  let runStatus ← match job.crawlRunId with
    | none => pure none
    | some runId => selectCrawlRunStatus runId
  match runStatus with
  | some .succeeded | some .partialResult =>
    finishAttempt jobId lease now .succeeded none
    releaseJob jobId lease now .succeeded none none
  | some .failed =>
    finishAttempt jobId lease now .failed (some .handlerFailed)
    releaseJob jobId lease now .failed (some .handlerFailed) none
  | _ =>
    finishAttempt jobId lease now .failed (some .cancelled)
    releaseJob jobId lease now .cancelled (some .cancelled) none
    cancelRelatedRun job.crawlRunId

/-- Cancels queued work, or reports the state of work that is not queued. -/
def cancelQueued (jobId : JobId) (now : ℤ) : QueueTx JobState := do
  let job ← selectJob jobId
  if job.state ≠ .queued then
    return job.state
  else do
    write fun s => { s with
      jobs := s.jobs.update (fun job => job.id = jobId && job.state = .queued) fun job =>
        { job with state := .cancelled, failureCode := some .cancelled, updatedAt := now } }
    cancelRelatedRun job.crawlRunId
    return .cancelled

/-! ## Queue maintenance -/

/-- Changes the ordering of work that is still queued. -/
def reprioritize (jobId : JobId) (priority scheduledAt now : ℤ) : QueueTx JobRecord := do
  let job ← selectJob jobId
  require (job.state = .queued) .notReprioritizable
  write fun s => { s with
    jobs := s.jobs.update (fun job => job.id = jobId && job.state = .queued) fun job =>
      { job with priority, scheduledAt, updatedAt := now } }
  selectJob jobId

/-- Removes an untouched, unlinked queue row. -/
def removeIfSafe (jobId : JobId) : QueueTx Unit := do
  let job ← selectJob jobId
  require (job.state = .queued ∧ job.currentAttempt = 0 ∧ job.crawlRunId = none ∧
    job.parentJobId = none) .removalUnsafe
  let store ← read
  require (store.attempts.select (fun attempt => attempt.jobId = jobId) = [] ∧
    store.checkpoints.filter (fun checkpoint => checkpoint.jobId = jobId) = [] ∧
    store.progress.select (fun event => event.jobId = jobId) = [] ∧
    store.jobs.select (fun child => child.parentJobId = some jobId) = []) .removalUnsafe
  write fun s => { s with jobs := s.jobs.delete fun job => job.id = jobId }

/-! ## Action children -/

/-- The run relation a durable recovery action selects. -/
inductive ActionRunAssociation : Type where
  | none
  | sameSourceRun
  | newIndependentRun (runId : CrawlRunId) (snapshot : CrawlRunSnapshot)
  deriving DecidableEq, Repr

/-- Whether an active child of the source job satisfies the predicate. -/
def activeChildExists (store : QueueStore) (sourceJobId : JobId) (p : JobKind → Bool) : Bool :=
  store.jobs.rows.any fun child =>
    child.parentJobId = some sourceJobId && p child.kind && child.state.active

/-- An action needs a settled source without an active equivalent child; a
recovery continuation needs one without any active recovery child. -/
def validateActionChildLineage (source : JobRecord) (sourceJobId : JobId)
    (actionKind : JobKind) : QueueTx Unit := do
  let store ← read
  require (source.state.active = false) .illegalTransition
  require (activeChildExists store sourceJobId (fun kind => kind = actionKind) = false)
    .actionAlreadyActive
  require (isRecoveryContinuationKind actionKind = true →
    activeChildExists store sourceJobId isRecoveryContinuationKind = false) .actionAlreadyActive

/-- The run the child is attached to.  A same-run continuation puts the run of
the source back to `QUEUED`, unless it is `RUNNING`. -/
def actionChildCrawlRunId (source : JobRecord) : ActionRunAssociation →
    QueueTx (Option CrawlRunId)
  | .sameSourceRun => do
    let runId ← orFail source.crawlRunId .queueInvariant
    setRunStatus runId (fun old => old != .running) .queued .queueInvariant
    return some runId
  | .newIndependentRun runId snapshot => do
    insertRun runId .queued snapshot
    return some runId
  | .none => return none

/-- Creates one queued child of a settled job with an explicit run association. -/
def enqueueActionChild (sourceJobId childId : JobId) (actionKind : JobKind) (now : ℤ)
    (association : ActionRunAssociation) (maxAttempts : Option ℕ) : QueueTx JobRecord := do
  let source ← selectJob sourceJobId
  validateActionChildLineage source sourceJobId actionKind
  let crawlRunId ← actionChildCrawlRunId source association
  let child : NewJob :=
    { id := childId, kind := actionKind, priority := source.priority,
      parentJobId := some sourceJobId, crawlRunId, scheduledAt := now,
      maxAttempts := maxAttempts.getD source.maxAttempts }
  insertJob (child.record now)
  selectJob childId

end Erabi.Queue

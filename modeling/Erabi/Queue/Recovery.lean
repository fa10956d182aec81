/-
# Acquisition and recovery

The transactions of the job repository that look at the whole queue: the five
queue invariants it checks for itself, recovery checkpoints, the finalization of
expired leases, the acquisition of the next eligible job, the interruption by
storage pressure and the startup recovery.
-/
import Mathlib
import Erabi.Queue.Repository

namespace Erabi.Queue

open Relational Transaction

/-! ## Queue invariants -/

/-- A running job without an attempt or a lease, or a lease on any other job. -/
def leaseInconsistent (job : JobRecord) : Bool :=
  (job.state = .running &&
    (job.currentAttempt = 0 || job.leaseColumns.isNone || job.leaseGeneration = 0)) ||
  (job.state != .running && job.leaseColumns.isSome)

/-- The attempt belongs to the current lease columns of the job. -/
def attemptOfLease (job : JobRecord) (attempt : JobAttempt) : Bool :=
  attempt.leaseGeneration = job.leaseGeneration &&
    job.leaseColumns.all fun c => attempt.leaseId = c.id && attempt.workerId = c.owner

/-- A running job whose current running attempt is missing or is not the one of
its lease. -/
def currentAttemptInconsistent (store : QueueStore) (job : JobRecord) : Bool :=
  job.state = .running &&
    (let current := store.attempts.select fun attempt =>
      attempt.jobId = job.id && attempt.attemptNumber = job.currentAttempt &&
        attempt.outcome = .running
    current.isEmpty || current.any fun attempt => !attemptOfLease job attempt)

/-- A running attempt of a job that is not running. -/
def runningAttemptInconsistent (store : QueueStore) (job : JobRecord) : Bool :=
  job.state != .running &&
    store.attempts.rows.any fun attempt => attempt.jobId = job.id && attempt.outcome = .running

/-- The greatest attempt number recorded for a job, zero without any. -/
def lastAttemptNumber (store : QueueStore) (jobId : JobId) : ℕ :=
  ((store.attempts.select fun attempt => attempt.jobId = jobId).map
    JobAttempt.attemptNumber).foldr max 0

/-- An attempt without a job or beyond the attempt budget of its job. -/
def attemptBudgetInconsistent (store : QueueStore) (attempt : JobAttempt) : Bool :=
  (store.jobs.find? attempt.jobId).all fun job => job.maxAttempts < attempt.attemptNumber

/-- Fails when one of the five relations between jobs, leases and attempts is
violated. -/
def ensureQueueInvariants : QueueTx Unit := do
  let store ← read
  require (store.jobs.rows.any leaseInconsistent = false) .queueInvariant
  require (store.jobs.rows.any (currentAttemptInconsistent store) = false) .queueInvariant
  require (store.jobs.rows.any (runningAttemptInconsistent store) = false) .queueInvariant
  require (store.jobs.rows.any (fun job =>
    job.currentAttempt != lastAttemptNumber store job.id) = false) .queueInvariant
  require (store.attempts.rows.any (attemptBudgetInconsistent store) = false) .queueInvariant

/-! ## Checkpoints -/

/-- The attempt that still owns its job's lease. -/
def activeLineage (store : QueueStore) (jobId : JobId) (attemptId : AttemptId) : Bool :=
  (store.jobs.find? jobId).any fun job =>
    job.state = .running && (store.attempts.find? attemptId).any fun attempt =>
      attempt.jobId = jobId && attempt.attemptNumber = job.currentAttempt &&
        attempt.outcome = .running && job.leaseColumns.isSome && attemptOfLease job attempt

/-- Appends a checkpoint while the lease still owns its running attempt. -/
def appendCheckpoint (jobId : JobId) (attemptId : AttemptId) (lease : JobLease)
    (identity : CheckpointIdentity) (createdAt : ℤ) : QueueTx CheckpointRecord := do
  let store ← read
  let _ ← orFail (store.jobs.find? jobId) (.checkpoint .notFound)
  require (store.jobs.rows.any fun job => holdsLease jobId lease job &&
    job.leaseColumns.any fun c => createdAt < c.expiresAt) (.checkpoint .leaseLost)
  require ((store.attempts.find? attemptId).any (runningAttempt jobId lease))
    (.checkpoint .leaseLost)
  let sequences := (store.checkpoints.filter fun c => c.jobId = jobId).map
    CheckpointRecord.sequence
  let sequence := sequences.foldr max 0 + 1
  require (sequence ≤ u64Max) (.checkpoint .invalidEnvelope)
  let record : CheckpointRecord := ⟨jobId, attemptId, identity, sequence, createdAt⟩
  write fun s => { s with checkpoints := s.checkpoints ++ [record] }
  return record

/-- The newest checkpoint of a job. -/
def latestCheckpoint (store : QueueStore) (jobId : JobId) : Option CheckpointRecord :=
  ((store.checkpoints.filter fun c => c.jobId = jobId).insertionSort
    fun a b => a.sequence ≤ b.sequence).getLast?

/-- Whether the running attempt of the lease has a checkpoint of its own. -/
def hasCheckpointForCurrentAttempt (store : QueueStore) (jobId : JobId) (lease : JobLease) :
    Bool :=
  store.checkpoints.any fun c => c.jobId = jobId &&
    (store.attempts.find? c.attemptId).any fun attempt =>
      attempt.jobId = jobId && attempt.leaseId = lease.id &&
        attempt.leaseGeneration = lease.generation && attempt.outcome = .running

/-- The job has a checkpoint. -/
def hasAnyCheckpoint (store : QueueStore) (jobId : JobId) : Bool :=
  store.checkpoints.any fun c => c.jobId = jobId

/-- What a checkpoint is good for. -/
inductive CheckpointEnvelopeDisposition : Type where
  | resumeCandidate | restartRequired | invalid
  deriving DecidableEq, Repr

/-- What the checkpoints of an expired attempt allow: to resume only from a
checkpoint the attempt itself wrote for the unchanged run. -/
def assessOneStaleJob (store : QueueStore) (jobId : JobId) (runId : Option CrawlRunId) :
    CheckpointEnvelopeDisposition :=
  match latestCheckpoint store jobId with
  | none => .restartRequired
  | some latest =>
    if activeLineage store jobId latest.attemptId = false then .invalid
    else
      match runId with
      | none => .restartRequired
      | some runId =>
        match store.runs.find? runId with
        | none => .invalid
        | some run =>
          if latest.identity =
              ⟨runId, run.snapshot.snapshotHash, run.snapshot.checkpointCompatibilityHash⟩ then
            .resumeCandidate
          else .restartRequired

/-! ## Expired leases -/

/-- Counters of one recovery. -/
structure StaleJobRecovery where
  requeued : ℕ := 0
  failed : ℕ := 0
  resumeCandidates : ℕ := 0
  restartRequired : ℕ := 0
  invalidCheckpoints : ℕ := 0
  deriving DecidableEq, Repr

/-- The disposition that decides whether an expired job may be requeued; there is
none for a job without run and without checkpoint. -/
def staleDisposition (store : QueueStore) (job : JobRecord) :
    Option CheckpointEnvelopeDisposition :=
  if job.crawlRunId.isSome || hasAnyCheckpoint store job.id then
    some (assessOneStaleJob store job.id job.crawlRunId)
  else none

/-- Whether an expired job goes back to the queue. -/
def requeuesStale (store : QueueStore) (job : JobRecord) : Bool :=
  staleDisposition store job != some .restartRequired &&
    staleDisposition store job != some .invalid && job.currentAttempt < job.maxAttempts

/-- Counts one recovered job. -/
def StaleJobRecovery.count (recovery : StaleJobRecovery)
    (disposition : Option CheckpointEnvelopeDisposition) (requeues : Bool) : StaleJobRecovery :=
  let recovery := match disposition with
    | some .resumeCandidate => { recovery with resumeCandidates := recovery.resumeCandidates + 1 }
    | some .restartRequired => { recovery with restartRequired := recovery.restartRequired + 1 }
    | some .invalid => { recovery with invalidCheckpoints := recovery.invalidCheckpoints + 1 }
    | none => recovery
  if requeues then { recovery with requeued := recovery.requeued + 1 }
  else { recovery with failed := recovery.failed + 1 }

/-- Ends the expired attempt of a job whose run is still open, requeues the job
when its checkpoints and its budget allow, and fails job and run otherwise. -/
def expireJob (now : ℤ) (recovery : StaleJobRecovery) (job : JobRecord) (lease : JobLease) :
    QueueTx StaleJobRecovery := do
  let store ← read
  let disposition := staleDisposition store job
  let requeues := requeuesStale store job
  finishAttempt job.id lease now .leaseExpired (some .leaseExpired)
  releaseJob job.id lease now (if requeues then .queued else .failed) (some .leaseExpired)
    (some now)
  if requeues = false ∧ job.crawlRunId.isSome then finalizeCrawlFailure job now
  return recovery.count disposition requeues

/-- Handles one job of the expired list.  A run that already ended decides the
outcome of its job. -/
def recoverExpiredJob (now : ℤ) (recovery : StaleJobRecovery) (jobId : JobId) :
    QueueTx StaleJobRecovery := do
  let job ← selectJob jobId
  let lease ← orFail job.lease .queueInvariant
  if now < lease.expiresAt then
    return recovery
  else
    match ← finishAfterRun jobId job.crawlRunId now with
    | some _ => return recovery
    | none => expireJob now recovery job lease

/-- The running jobs whose lease has expired, in identity order. -/
def expiredJobs (store : QueueStore) (now : ℤ) : List JobId :=
  ((store.jobs.select fun job => job.state = .running &&
    job.leaseColumns.any fun c => c.expiresAt ≤ now).map JobRecord.id).insertionSort (· ≤ ·)

/-- Recovers every job whose lease expired. -/
def recoverExpired (now : ℤ) : QueueTx StaleJobRecovery := do
  let store ← read
  foldEach (recoverExpiredJob now) {} (expiredJobs store now)

/-! ## Acquisition -/

/-- ASCII letters, digits, hyphens, underscores and dots, at most 128 bytes. -/
def validWorkerId (value : String) : Bool :=
  !value.isEmpty && value.utf8ByteSize ≤ 128 &&
    value.toList.all fun c => c.isAlphanum || c = '-' || c = '_' || c = '.'

/-- The queue order: priority descending, then schedule, creation and identity. -/
def eligibleBefore (a b : JobRecord) : Prop :=
  b.priority < a.priority ∨ (a.priority = b.priority ∧
    (a.scheduledAt < b.scheduledAt ∨ (a.scheduledAt = b.scheduledAt ∧
      (a.createdAt < b.createdAt ∨ (a.createdAt = b.createdAt ∧ a.id ≤ b.id)))))

instance : DecidableRel eligibleBefore := fun a b =>
  inferInstanceAs (Decidable (b.priority < a.priority ∨ (a.priority = b.priority ∧
    (a.scheduledAt < b.scheduledAt ∨ (a.scheduledAt = b.scheduledAt ∧
      (a.createdAt < b.createdAt ∨ (a.createdAt = b.createdAt ∧ a.id ≤ b.id)))))))

/-- The first due queued job; blocked admission skips jobs with a run. -/
def selectEligibleJob (store : QueueStore) (now : ℤ) (allowArtifactHeavy : Bool) :
    Option JobId :=
  ((store.jobs.select fun job => job.state = .queued && job.scheduledAt ≤ now &&
    (allowArtifactHeavy || job.crawlRunId.isNone)).insertionSort eligibleBefore).head?.map
      JobRecord.id

/-- Inserts the attempt of a new lease; the attempt number of a job and the lease
identity are unique. -/
def insertAttempt (attempt : JobAttempt) : QueueTx Unit := do
  let store ← read
  require (store.attempts.rows.all (fun other =>
    (other.jobId != attempt.jobId || other.attemptNumber != attempt.attemptNumber) &&
      other.leaseId != attempt.leaseId) = true) .database
  let attempts ← orFail (store.attempts.insert? attempt) .database
  write fun s => { s with attempts }

/-- The identities a new lease draws. -/
structure LeaseIds where
  lease : LeaseId
  attempt : AttemptId
  deriving DecidableEq, Repr

/-- Leases one queued job and creates its attempt. -/
def leaseQueuedJob (jobId : JobId) (workerId : String) (now leaseDurationSeconds : ℤ)
    (allowArtifactHeavy : Bool) (ids : LeaseIds) : QueueTx (JobRecord × JobAttempt) := do
  let job ← selectJob jobId
  require (job.state = .queued ∧ job.scheduledAt ≤ now ∧ job.currentAttempt < job.maxAttempts)
    .illegalTransition
  require (allowArtifactHeavy = true ∨ job.crawlRunId = none) .storageAdmissionBlocked
  let expiresAt ← orFail (checkedAddI64 now leaseDurationSeconds) .queueInvariant
  let generation := job.leaseGeneration + 1
  let attemptNumber := job.currentAttempt + 1
  write fun s => { s with
    jobs := s.jobs.update (fun job => job.id = jobId && job.state = .queued) fun job => { job with
      state := .running, currentAttempt := attemptNumber, leaseGeneration := generation
      leaseColumns := some ⟨ids.lease, workerId, now, expiresAt, now⟩
      failureCode := none, updatedAt := now } }
  let attempt : JobAttempt :=
    { id := ids.attempt, jobId, attemptNumber, leaseId := ids.lease, leaseGeneration := generation,
      workerId, startedAt := now, finishedAt := none, outcome := .running, failureCode := none }
  insertAttempt attempt
  return (← selectJob jobId, attempt)

/-- Finalizes expired leases, then acquires the first eligible job. -/
def acquireNext (workerId : String) (now leaseDurationSeconds : ℤ) (allowArtifactHeavy : Bool)
    (ids : LeaseIds) : QueueTx (Option (JobRecord × JobAttempt)) := do
  require (validWorkerId workerId = true ∧ 0 < leaseDurationSeconds) .queueInvariant
  ensureQueueInvariants
  let _ ← recoverExpired now
  let store ← read
  match selectEligibleJob store now allowArtifactHeavy with
  | none => return none
  | some jobId =>
    return some (← leaseQueuedJob jobId workerId now leaseDurationSeconds allowArtifactHeavy ids)

/-! ## Storage pressure -/

/-- Commits a pressure-interrupted attempt: requeued with a checkpoint of the
attempt and attempts left, failed together with its run otherwise. -/
def requeueAfterStoragePressureTx (jobId : JobId) (lease : JobLease) (now : ℤ) :
    QueueTx (Option TerminalJobReconciliation × JobState) := do
  let job ← selectOwnedRunningJob jobId lease now
  match ← finishAfterRun jobId job.crawlRunId now with
  | some reconciliation => return (some reconciliation, reconciliation.state)
  | none =>
    let store ← read
    let nextState : JobState :=
      if hasCheckpointForCurrentAttempt store jobId lease = true ∧
        job.currentAttempt < job.maxAttempts then .queued else .failed
    finishAttempt jobId lease now .failed (some .storagePressure)
    releaseJob jobId lease now nextState (some .storagePressure) (some now)
    if nextState = .failed ∧ job.crawlRunId.isSome then finalizeCrawlFailure job now
    return (none, nextState)

/-! ## Terminal progress repair -/

/-- Completes a progress stream once.  A different terminal event is an invariant
error and is never overwritten. -/
def appendTerminalProgressIfMissing (jobId : JobId) (terminal : ProgressTerminalState) (now : ℤ) :
    QueueTx Unit := do
  let store ← read
  let stored := (store.progress.select fun event => event.jobId = jobId).filterMap
    ProgressEvent.terminal
  require (∀ value ∈ stored, value = terminal) .queueInvariant
  require (stored.length ≤ 1) .queueInvariant
  if stored.length = 1 then
    return ()
  else
    appendProgress jobId (some terminal) now

/-- The storage-pressure operation with the progress repair that follows its
commit. -/
def requeueAfterStoragePressure (jobId : JobId) (lease : JobLease) (now : ℤ)
    (store : QueueStore) : Except JobRepositoryError JobState × QueueStore :=
  match (requeueAfterStoragePressureTx jobId lease now).commit store with
  | (.error e, store) => (.error e, store)
  | (.ok (none, state), store) => (.ok state, store)
  | (.ok (some reconciliation, _), store) =>
    match (appendTerminalProgressIfMissing jobId reconciliation.progress now).commit store with
    | (.error e, store) => (.error e, store)
    | (.ok (), store) => (.ok reconciliation.state, store)

/-! ## Startup recovery -/

/-- Every job of a terminal run with the status of its run, in identity order. -/
def jobsOfTerminalRuns (store : QueueStore) : List (JobId × CrawlRunStatus) :=
  (store.jobs.rows.insertionSort fun a b => a.id ≤ b.id).filterMap fun job =>
    (job.crawlRunId.bind store.runs.find?).bind fun run =>
      if run.status.terminal then some (job.id, run.status) else none

/-- The repairs of the jobs reconciled so far, oldest first. -/
abbrev ProgressRepairs := List (JobId × ProgressTerminalState)

/-- Settles one job of an ended run. -/
def reconcileRow (now : ℤ) (repairs : ProgressRepairs) (row : JobId × CrawlRunStatus) :
    QueueTx ProgressRepairs := do
  match ← reconcileTerminalJob row.1 row.2 now with
  | some reconciliation => return repairs ++ [(row.1, reconciliation.progress)]
  | none => return repairs

/-- The reconciliation transaction over all jobs of terminal runs. -/
def reconcileTerminalRunsTx (now : ℤ) : QueueTx ProgressRepairs := do
  let store ← read
  foldEach (reconcileRow now) [] (jobsOfTerminalRuns store)

/-- The progress repairs, each in a transaction of its own. -/
def repairTerminalProgress (now : ℤ) :
    ProgressRepairs → QueueStore → Except JobRepositoryError Unit × QueueStore
  | [], store => (.ok (), store)
  | (jobId, terminal) :: repairs, store =>
    match (appendTerminalProgressIfMissing jobId terminal now).commit store with
    | (.error e, store) => (.error e, store)
    | (.ok (), store) => repairTerminalProgress now repairs store

/-- Settles the jobs of ended runs, then repairs their streams. -/
def reconcileTerminalCrawlRuns (now : ℤ) (store : QueueStore) :
    Except JobRepositoryError Unit × QueueStore :=
  match (reconcileTerminalRunsTx now).commit store with
  | (.error e, store) => (.error e, store)
  | (.ok repairs, store) => repairTerminalProgress now repairs store

/-- Recovery in one transaction, invariants first. -/
def recoverStaleTx (now : ℤ) : QueueTx StaleJobRecovery := do
  ensureQueueInvariants
  recoverExpired now

/-- Startup recovery: expired leases first, then every job of a terminal run. -/
def recoverStaleJobs (now : ℤ) (store : QueueStore) :
    Except JobRepositoryError StaleJobRecovery × QueueStore :=
  match (recoverStaleTx now).commit store with
  | (.error e, store) => (.error e, store)
  | (.ok recovery, store) =>
    match reconcileTerminalCrawlRuns now store with
    | (.error e, store) => (.error e, store)
    | (.ok (), store) => (.ok recovery, store)

end Erabi.Queue

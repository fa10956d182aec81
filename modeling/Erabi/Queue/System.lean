/-
# The queue as a system

Every operation that changes jobs or runs, as one input of a deterministic
system: the repository operations, the ends of executions and the explicit
actions.  A refused operation leaves the store alone.  What an operation makes of
the lifecycle is one relation, and the properties of runs follow from it.
-/
import Mathlib
import Erabi.Queue.Actions
import Erabi.Queue.Worker
import Erabi.Queue.Interruption
import Erabi.Transition.Run

namespace Erabi.Queue

open Relational Transaction Lifecycle Transition

/-! ## Operations -/

/-- The operations on the durable queue, each a transaction or a fixed sequence
of transactions. -/
inductive Operation : Type where
  | createQuickScrapeRun (runId : CrawlRunId) (snapshot : CrawlRunSnapshot) (job : NewJob)
      (now : ℤ)
  | createProductionRun (runId : CrawlRunId) (snapshot : CrawlRunSnapshot) (job : NewJob)
      (now : ℤ)
  | enqueue (job : NewJob) (now : ℤ)
  | acquireNext (workerId : String) (now leaseDurationSeconds : ℤ) (allowArtifactHeavy : Bool)
      (ids : LeaseIds)
  | heartbeat (jobId : JobId) (lease : JobLease) (now leaseDurationSeconds : ℤ)
  | succeed (jobId : JobId) (lease : JobLease) (now : ℤ)
  | fail (jobId : JobId) (lease : JobLease) (now : ℤ) (failure : JobFailureCode) (retryAt : ℤ)
  | failTerminal (jobId : JobId) (lease : JobLease) (now : ℤ) (failure : JobFailureCode)
  | failTerminalProduction (jobId : JobId) (lease : JobLease) (now : ℤ)
      (failure : JobFailureCode)
  | cancel (jobId : JobId) (lease : JobLease) (now : ℤ)
  | cancelQueued (jobId : JobId) (now : ℤ)
  | requeueAfterStoragePressure (jobId : JobId) (lease : JobLease) (now : ℤ)
  | reconcileTerminalCommit (execution : ExecutionEnd) (commit : TerminalCrawlRunCommit)
  | reprioritize (jobId : JobId) (priority scheduledAt now : ℤ)
  | removeIfSafe (jobId : JobId)
  | enqueueActionChild (sourceJobId childId : JobId) (actionKind : JobKind) (now : ℤ)
      (association : ActionRunAssociation) (maxAttempts : Option ℕ)
  | appendCheckpoint (jobId : JobId) (attemptId : AttemptId) (lease : JobLease)
      (identity : CheckpointIdentity) (createdAt : ℤ)
  | finalizeRun (runId : CrawlRunId) (status : CrawlRunStatus)
  | transitionExecutionStatus (runId : CrawlRunId) (status : CrawlRunStatus)
  | transitionRecoveryStatus (runId : CrawlRunId)
  | transitionRestartStatus (runId : CrawlRunId)
  | recoverStaleJobs (now : ℤ)

/-- The store after an operation. -/
def apply (s : QueueStore) : Operation → QueueStore
  | .createQuickScrapeRun runId snapshot job now =>
    ((createQuickScrapeRunWithRootJob runId snapshot job now).commit s).2
  | .createProductionRun runId snapshot job now =>
    ((createProductionRunWithRootJob runId snapshot job now).commit s).2
  | .enqueue job now => ((enqueue job now).commit s).2
  | .acquireNext workerId now leaseDurationSeconds allowArtifactHeavy ids =>
    ((acquireNext workerId now leaseDurationSeconds allowArtifactHeavy ids).commit s).2
  | .heartbeat jobId lease now leaseDurationSeconds =>
    ((heartbeat jobId lease now leaseDurationSeconds).commit s).2
  | .succeed jobId lease now => ((succeed jobId lease now).commit s).2
  | .fail jobId lease now failure retryAt => ((failJob jobId lease now failure retryAt).commit s).2
  | .failTerminal jobId lease now failure => ((failTerminal jobId lease now failure).commit s).2
  | .failTerminalProduction jobId lease now failure =>
    ((failTerminalProduction jobId lease now failure).commit s).2
  | .cancel jobId lease now => ((cancel jobId lease now).commit s).2
  | .cancelQueued jobId now => ((cancelQueued jobId now).commit s).2
  | .requeueAfterStoragePressure jobId lease now => (requeueAfterStoragePressure jobId lease now s).2
  | .reconcileTerminalCommit execution commit => (reconcileTerminalCommit execution commit s).2
  | .reprioritize jobId priority scheduledAt now =>
    ((reprioritize jobId priority scheduledAt now).commit s).2
  | .removeIfSafe jobId => ((removeIfSafe jobId).commit s).2
  | .enqueueActionChild sourceJobId childId actionKind now association maxAttempts =>
    ((enqueueActionChild sourceJobId childId actionKind now association maxAttempts).commit s).2
  | .appendCheckpoint jobId attemptId lease identity createdAt =>
    ((appendCheckpoint jobId attemptId lease identity createdAt).commit s).2
  | .finalizeRun runId status => ((finalizeRun runId status).commit s).2
  | .transitionExecutionStatus runId status =>
    ((transitionExecutionStatus runId status).commit s).2
  | .transitionRecoveryStatus runId => ((transitionRecoveryStatus runId).commit s).2
  | .transitionRestartStatus runId => ((transitionRestartStatus runId).commit s).2
  | .recoverStaleJobs now => (recoverStaleJobs now s).2

/-- An explicit action with the evidence it is decided from. -/
inductive JobAction : Type where
  | retry (compatibleCheckpoint : CheckpointEvidence)
  | retryFailedParts (compatibleCheckpoint : CheckpointEvidence)
  | resume (compatibleCheckpoint : CheckpointEvidence)
  | restartFromBeginning
  | rerunFullCrawl
      (independentRerunSnapshot : CrawlRunSnapshot → Except JobActionError CrawlRunSnapshot)
      (runId : CrawlRunId)

/-- What an action asks of the repository. -/
def JobAction.request (s : QueueStore) (jobId : JobId) :
    JobAction → Except JobActionError ActionRequest
  | .retry compatibleCheckpoint => retryRequest s compatibleCheckpoint jobId
  | .retryFailedParts compatibleCheckpoint => retryFailedPartsRequest s compatibleCheckpoint jobId
  | .resume compatibleCheckpoint => resumeRequest s compatibleCheckpoint jobId
  | .restartFromBeginning => restartFromBeginningRequest s jobId
  | .rerunFullCrawl independentRerunSnapshot runId =>
    rerunFullCrawlRequest s independentRerunSnapshot runId jobId

/-- One input of the system. -/
inductive Input : Type where
  | operation (op : Operation)
  | executeAcquired (execution : ExecutionEnd)
  | action (action : JobAction) (jobId childId : JobId) (now : ℤ)

/-- One input of the system. -/
def step (s : QueueStore) : Input → QueueStore
  | .operation op => apply s op
  | .executeAcquired execution => (executeAcquired execution s).2
  | .action (.retry compatibleCheckpoint) jobId childId now =>
    (retry compatibleCheckpoint jobId childId now s).2
  | .action (.retryFailedParts compatibleCheckpoint) jobId childId now =>
    (retryFailedParts compatibleCheckpoint jobId childId now s).2
  | .action (.resume compatibleCheckpoint) jobId childId now =>
    (resume compatibleCheckpoint jobId childId now s).2
  | .action .restartFromBeginning jobId childId now =>
    (restartFromBeginning jobId childId now s).2
  | .action (.rerunFullCrawl independentRerunSnapshot runId) jobId childId now =>
    (rerunFullCrawl independentRerunSnapshot runId jobId childId now s).2

/-! ## Every input is one operation or none -/

/-- The operation that records a failure. -/
def failureOperation (s : QueueStore) (execution : ExecutionEnd) (failure : JobFailureCode)
    (terminal : Bool) : Option Operation :=
  match isProductionContext s execution.jobId execution.kind with
  | .error _ => none
  | .ok true => some (.failTerminalProduction execution.jobId execution.lease
      execution.completedAt failure)
  | .ok false =>
    if terminal then
      some (.failTerminal execution.jobId execution.lease execution.completedAt failure)
    else
      (checkedAddI64 execution.completedAt execution.retryDelaySeconds).map
        (.fail execution.jobId execution.lease execution.completedAt failure)

/-- The operation that ends an execution. -/
def endOperation (s : QueueStore) (execution : ExecutionEnd) : Option Operation :=
  match execution.terminalCrawlRun with
  | some commit => some (.reconcileTerminalCommit execution commit)
  | none =>
    if execution.cancelled then
      some (.cancel execution.jobId execution.lease execution.completedAt)
    else if execution.storagePressureSignalled then
      some (.requeueAfterStoragePressure execution.jobId execution.lease execution.completedAt)
    else
      match execution.result with
      | .ok => some (.succeed execution.jobId execution.lease execution.completedAt)
      | .failed => failureOperation s execution .handlerFailed execution.terminalFailureRequested
      | .panicked => failureOperation s execution .handlerPanicked false

/-- The operation an input performs in a state. -/
def Input.operation? (s : QueueStore) : Input → Option Operation
  | .operation op => some op
  | .executeAcquired execution => endOperation s execution
  | .action requested jobId childId now =>
    match requested.request s jobId with
    | .error _ => none
    | .ok request => some (.enqueueActionChild jobId childId request.kind now request.association
        request.maxAttempts)

/-- The operations that end an execution. -/
def Operation.ends : Operation → Bool
  | .succeed .. | .fail .. | .failTerminal .. | .failTerminalProduction .. | .cancel ..
  | .requeueAfterStoragePressure .. | .reconcileTerminalCommit .. => true
  | _ => false

/-- A failure ends its job. -/
theorem failureOperation_ends {s : QueueStore} {execution : ExecutionEnd}
    {failure : JobFailureCode} {terminal : Bool} {op : Operation}
    (h : failureOperation s execution failure terminal = some op) : op.ends = true := by
  unfold failureOperation at h
  split at h
  · cases h
  · cases h
    rfl
  · split at h
    · cases h
      rfl
    · obtain ⟨_, _, rfl⟩ := Option.map_eq_some_iff.mp h
      rfl

/-- The end of an execution ends its job. -/
theorem endOperation_ends {s : QueueStore} {execution : ExecutionEnd} {op : Operation}
    (h : endOperation s execution = some op) : op.ends = true := by
  unfold endOperation at h
  split at h
  · cases h
    rfl
  · split at h
    · cases h
      rfl
    · split at h
      · cases h
        rfl
      · split at h
        · cases h
          rfl
        · exact failureOperation_ends h
        · exact failureOperation_ends h

/-- Recording a failure applies its operation. -/
theorem recordFailure_store (s : QueueStore) (execution : ExecutionEnd)
    (failure : JobFailureCode) (terminal : Bool) :
    (recordFailure execution failure terminal s).2 =
      ((failureOperation s execution failure terminal).map (apply s)).getD s := by
  unfold recordFailure failureOperation
  rcases isProductionContext s execution.jobId execution.kind with e | _ | _
  · rfl
  · dsimp only
    split
    · exact turn_store _ _ s
    · rcases checkedAddI64 execution.completedAt execution.retryDelaySeconds with _ | retryAt
      · rfl
      · exact turn_store _ _ s
  · exact turn_store _ _ s

/-- The end of an execution applies its operation. -/
theorem executeAcquired_store (s : QueueStore) (execution : ExecutionEnd) :
    (executeAcquired execution s).2 = ((endOperation s execution).map (apply s)).getD s := by
  unfold executeAcquired endOperation
  rcases execution.terminalCrawlRun with _ | commit
  · dsimp only
    split
    · exact turn_store _ _ s
    · split
      · show _ = (requeueAfterStoragePressure _ _ _ s).2
        rcases requeueAfterStoragePressure execution.jobId execution.lease execution.completedAt s
          with ⟨e | state, s'⟩ <;> rfl
      · rcases execution.result with _ | _ | _
        · exact turn_store _ _ s
        · exact recordFailure_store s execution _ _
        · exact recordFailure_store s execution _ _
  · rfl

/-- The system performs one operation per input, or none. -/
theorem step_eq (s : QueueStore) (input : Input) :
    step s input = ((input.operation? s).map (apply s)).getD s := by
  cases input with
  | operation op => rfl
  | executeAcquired execution => exact executeAcquired_store s execution
  | action action jobId childId now =>
    have hperform : step s (.action action jobId childId now) =
        (performAction jobId childId now (action.request s jobId) s).2 := by
      cases action <;> rfl
    rw [hperform, performAction_store, Input.operation?]
    rcases action.request s jobId with e | request <;> rfl

/-- What every operation keeps, every input keeps. -/
theorem step_induction {P : QueueStore → Prop} {s : QueueStore} {input : Input} (hs : P s)
    (h : ∀ op, input.operation? s = some op → P (apply s op)) : P (step s input) := by
  rw [step_eq]
  rcases hop : input.operation? s with _ | op
  · exact hs
  · exact h op hop

/-! ## What an operation makes of the lifecycle -/

/-- What an operation may do to the view. -/
inductive Effect (s : QueueStore) : Operation → Lifecycle → Prop
  | unchanged {op : Operation} : Effect s op s.lifecycle
  | created {op : Operation} {r : CrawlRunId} {j : JobId} :
      s.lifecycle.run r = none → s.lifecycle.job j = none →
      Effect s op ((s.lifecycle.addRun r).addJob j (some r))
  | enqueued {job : NewJob} {now : ℤ} : s.lifecycle.job job.id = none →
      (∀ r ∈ job.crawlRunId, ∃ status, s.lifecycle.run r = some status) →
      Effect s (.enqueue job now) (s.lifecycle.addJob job.id job.crawlRunId)
  | succeeded {j : JobId} {lease : JobLease} {now : ℤ} {run : Option CrawlRunId} :
      s.lifecycle.job j = some ⟨.running, run⟩ →
      Effect s (.succeed j lease now) (s.lifecycle.moveJob j .succeeded)
  | failed {j : JobId} {lease : JobLease} {now retryAt : ℤ} {failure : JobFailureCode}
      {job : JobRecord} : s.jobs.find? j = some job → job.state = .running →
      Effect s (.fail j lease now failure retryAt)
        (s.lifecycle.moveJob j (failedState job false))
  | failedTerminally {j : JobId} {lease : JobLease} {now : ℤ} {failure : JobFailureCode}
      {run : Option CrawlRunId} : s.lifecycle.job j = some ⟨.running, run⟩ →
      Effect s (.failTerminal j lease now failure) (s.lifecycle.moveJob j .failed)
  | failedWithRun {j : JobId} {lease : JobLease} {now : ℤ} {failure : JobFailureCode}
      {r : CrawlRunId} {old : CrawlRunStatus} : s.lifecycle.job j = some ⟨.running, some r⟩ →
      s.lifecycle.run r = some old → executionTransitionFrom .failed old = true →
      Effect s (.failTerminalProduction j lease now failure)
        ((s.lifecycle.moveJob j .failed).setRun r .failed)
  | cancelled {j : JobId} {lease : JobLease} {now : ℤ} {run : Option CrawlRunId} :
      s.lifecycle.job j = some ⟨.running, run⟩ →
      Effect s (.cancel j lease now)
        ((s.lifecycle.moveJob j (cancelledState (run.bind s.lifecycle.run))).cancelOpen run)
  | cancelledQueued {j : JobId} {now : ℤ} {run : Option CrawlRunId} :
      s.lifecycle.job j = some ⟨.queued, run⟩ →
      Effect s (.cancelQueued j now) ((s.lifecycle.moveJob j .cancelled).cancelOpen run)
  | interrupted {j : JobId} {lease : JobLease} {now : ℤ} {job : JobRecord} {l : Lifecycle} :
      s.jobs.find? j = some job → job.state = .running →
      Interrupted s.lifecycle j job.crawlRunId (requeuesPressured s j lease job) l →
      Effect s (.requeueAfterStoragePressure j lease now) l
  | reconciled {op : Operation} {l : Lifecycle} : ReconcileStep s.lifecycle l → Effect s op l
  | removed {op : Operation} {j : JobId} : s.lifecycle.job j = some ⟨.queued, none⟩ →
      Effect s op (s.lifecycle.dropJob j)
  | child {j childId : JobId} {kind : JobKind} {now : ℤ} {association : ActionRunAssociation}
      {maxAttempts : Option ℕ} {source : JobRecord} {run : Option CrawlRunId} {l : Lifecycle} :
      s.jobs.find? j = some source → source.state.active = false →
      AssociationEffect s.lifecycle source.crawlRunId association run l →
      l.job childId = none → (∀ r ∈ run, ∃ status, l.run r = some status) →
      Effect s (.enqueueActionChild j childId kind now association maxAttempts)
        (l.addJob childId run)
  | finalized {r : CrawlRunId} {status old : CrawlRunStatus} :
      s.lifecycle.run r = some old → (old.terminal = false ∨ old = status) →
      Effect s (.finalizeRun r status) (s.lifecycle.setRun r status)
  | transitioned {r : CrawlRunId} {status old : CrawlRunStatus} :
      s.lifecycle.run r = some old → executionTransitionFrom status old = true →
      Effect s (.transitionExecutionStatus r status) (s.lifecycle.setRun r status)
  | reopenedForRecovery {r : CrawlRunId} :
      Effect s (.transitionRecoveryStatus r) (s.lifecycle.setRun r .running)
  | reopenedForRestart {r : CrawlRunId} :
      Effect s (.transitionRestartStatus r) (s.lifecycle.setRun r .running)
  | acquired {workerId : String} {now duration : ℤ} {allow : Bool} {ids : LeaseIds}
      {recovery : StaleJobRecovery} {s₁ : QueueStore} {l : Lifecycle} :
      recoverExpired now s = .ok (recovery, s₁) →
      (l = s₁.lifecycle ∨ ∃ j run, s₁.lifecycle.job j = some ⟨.queued, run⟩ ∧
        l = s₁.lifecycle.moveJob j .running) →
      Effect s (.acquireNext workerId now duration allow ids) l
  | recovered {now : ℤ} {recovery : StaleJobRecovery} {s₁ : QueueStore} {l : Lifecycle} :
      recoverExpired now s = .ok (recovery, s₁) →
      Relation.ReflTransGen ReconcileStep s₁.lifecycle l →
      Effect s (.recoverStaleJobs now) l

/-- A refused transaction has no effect. -/
theorem effect_commit {α : Type} {s : QueueStore} {op : Operation} {x : QueueTx α}
    (h : ∀ a s', x s = .ok (a, s') → Effect s op s'.lifecycle) :
    Effect s op (x.commit s).2.lifecycle := by
  rcases hx : x s with e | ⟨a, s'⟩
  · rw [commit_of_error hx]
    exact .unchanged
  · rw [commit_of_ok hx]
    exact h a s' hx

/-- The end of an execution after its run's commit reconciles its job or nothing. -/
theorem reconcileTerminalCommit_lifecycle (execution : ExecutionEnd)
    (commit : TerminalCrawlRunCommit) (s : QueueStore) :
    (reconcileTerminalCommit execution commit s).2.lifecycle = s.lifecycle ∨
      ReconcileStep s.lifecycle (reconcileTerminalCommit execution commit s).2.lifecycle := by
  unfold reconcileTerminalCommit
  rcases hreconcile : reconcileTerminalCrawlRun execution.jobId execution.lease commit.runId
    execution.completedAt s with e | ⟨reconciliation, s₁⟩
  · rw [commit_of_error hreconcile]
    exact Or.inl rfl
  · rw [commit_of_ok hreconcile]
    have heffect := reconcileTerminalCrawlRun_lifecycle hreconcile
    dsimp only
    split
    · exact heffect
    · rcases hrepair : appendTerminalProgressIfMissing execution.jobId reconciliation.progress
        execution.completedAt s₁ with e | ⟨_, s₂⟩
      · rw [commit_of_error hrepair]
        dsimp only
        split <;> exact heffect
      · rw [commit_of_ok hrepair]
        dsimp only
        rw [appendTerminalProgressIfMissing_lifecycle hrepair]
        exact heffect

/-- Every operation has one of the listed effects. -/
theorem apply_effect (s : QueueStore) (op : Operation) : Effect s op (apply s op).lifecycle := by
  have hcreate : ∀ {op : Operation} {r : CrawlRunId} {snapshot : CrawlRunSnapshot} {job : NewJob}
      {now : ℤ} {u : Unit} {s' : QueueStore},
      createRunWithRootJob r snapshot job now s = .ok (u, s') → Effect s op s'.lifecycle := by
    intro op r snapshot job now u s' h
    obtain ⟨hrun, hjob, hs'⟩ := createRunWithRootJob_lifecycle h
    rw [hs']
    exact .created hrun hjob
  have hsame : ∀ {op : Operation} {s' : QueueStore}, s'.lifecycle = s.lifecycle →
      Effect s op s'.lifecycle := by
    intro op s' h
    rw [h]
    exact .unchanged
  -- each operation commits one transaction, whose effect its lemma states
  cases op with
  | createQuickScrapeRun runId snapshot job now =>
    exact effect_commit fun _ _ h => hcreate (createQuickScrapeRunWithRootJob_eq_ok h)
  | createProductionRun runId snapshot job now =>
    exact effect_commit fun _ _ h => hcreate (createProductionRunWithRootJob_eq_ok h)
  | enqueue job now =>
    refine effect_commit fun _ _ h => ?_
    obtain ⟨hjob, hrun, hs'⟩ := enqueue_lifecycle h
    rw [hs']
    exact .enqueued hjob hrun
  | acquireNext workerId now duration allow ids =>
    refine effect_commit fun _ _ h => ?_
    obtain ⟨recovery, s₁, hrecover, hs'⟩ := acquireNext_lifecycle h
    exact .acquired hrecover hs'
  | heartbeat jobId lease now duration =>
    exact effect_commit fun _ _ h => hsame (heartbeat_lifecycle h)
  | succeed jobId lease now =>
    refine effect_commit fun _ _ h => ?_
    obtain ⟨run, hjob, hs'⟩ := succeed_lifecycle h
    rw [hs']
    exact .succeeded hjob
  | fail jobId lease now failure retryAt =>
    refine effect_commit fun _ _ h => ?_
    obtain ⟨job, hjob, hrunning, rfl, hs'⟩ := failWithDisposition_lifecycle h
    rw [hs']
    exact .failed hjob hrunning
  | failTerminal jobId lease now failure =>
    refine effect_commit fun _ _ h => ?_
    obtain ⟨run, hjob, hs'⟩ := failTerminal_lifecycle h
    rw [hs']
    exact .failedTerminally hjob
  | failTerminalProduction jobId lease now failure =>
    refine effect_commit fun _ _ h => ?_
    obtain ⟨r, old, hjob, hold, hallowed, hs'⟩ := failTerminalProduction_lifecycle h
    rw [hs']
    exact .failedWithRun hjob hold hallowed
  | cancel jobId lease now =>
    refine effect_commit fun _ _ h => ?_
    obtain ⟨run, hjob, hs'⟩ := cancel_lifecycle h
    rw [hs']
    exact .cancelled hjob
  | cancelQueued jobId now =>
    refine effect_commit fun _ _ h => ?_
    rcases cancelQueued_lifecycle h with hs' | ⟨run, hjob, hs'⟩
    · exact hsame hs'
    · rw [hs']
      exact .cancelledQueued hjob
  | requeueAfterStoragePressure jobId lease now =>
    rcases requeueAfterStoragePressure_lifecycle jobId lease now s with hs' | ⟨job, hjob, hrunning, hs'⟩
    · exact hsame hs'
    · exact .interrupted hjob hrunning hs'
  | reconcileTerminalCommit execution commit =>
    rcases reconcileTerminalCommit_lifecycle execution commit s with hs' | hs'
    · exact hsame hs'
    · exact .reconciled hs'
  | reprioritize jobId priority scheduledAt now =>
    exact effect_commit fun _ _ h => hsame (reprioritize_lifecycle h)
  | removeIfSafe jobId =>
    refine effect_commit fun _ _ h => ?_
    obtain ⟨hjob, hs'⟩ := removeIfSafe_lifecycle h
    rw [hs']
    exact .removed hjob
  | enqueueActionChild sourceJobId childId actionKind now association maxAttempts =>
    refine effect_commit fun _ _ h => ?_
    obtain ⟨source, run, l, hsource, hsettled, hassociation, hjob, hrun, hs'⟩ :=
      enqueueActionChild_lifecycle h
    rw [hs']
    exact .child hsource hsettled hassociation hjob hrun
  | appendCheckpoint jobId attemptId lease identity createdAt =>
    exact effect_commit fun _ _ h => hsame (appendCheckpoint_lifecycle h)
  | finalizeRun runId status =>
    refine effect_commit fun _ _ h => ?_
    obtain ⟨⟨old, hold, hallowed⟩, hs'⟩ := finalizeRun_lifecycle h
    rw [hs']
    exact .finalized hold hallowed
  | transitionExecutionStatus runId status =>
    refine effect_commit fun _ _ h => ?_
    obtain ⟨⟨old, hold, hallowed⟩, hs'⟩ := transitionExecutionStatus_lifecycle h
    rw [hs']
    exact .transitioned hold hallowed
  | transitionRecoveryStatus runId =>
    refine effect_commit fun _ _ h => ?_
    rw [(setRunStatus_lifecycle h).2]
    exact .reopenedForRecovery
  | transitionRestartStatus runId =>
    refine effect_commit fun _ _ h => ?_
    rw [(setRunStatus_lifecycle h).2]
    exact .reopenedForRestart
  | recoverStaleJobs now =>
    show Effect s _ (recoverStaleJobs now s).2.lifecycle
    rcases recoverStaleJobs_lifecycle now s with hs' | ⟨recovery, s₁, hrecover, hs'⟩
    · rw [hs']
      exact .unchanged
    · exact .recovered hrecover hs'

end Erabi.Queue

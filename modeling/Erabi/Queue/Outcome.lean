/-
# What each transaction makes of the lifecycle

One lemma for each transaction of the repository: what it needed and which jobs
and runs it moved.  The three ways in which an execution is interrupted without
its own result (expiry, storage pressure, an already ended run) share one relation.
-/
import Mathlib
import Erabi.Queue.Effects

namespace Erabi.Queue

open Relational Transaction Lifecycle

variable {s s' : QueueStore} {j : JobId} {lease : JobLease} {now : ℤ} {u : Unit}

/-! ## Creation -/

/-- Enqueueing adds a job under a run that exists. -/
theorem enqueue_lifecycle {job : NewJob} (h : enqueue job now s = .ok (u, s')) :
    s.lifecycle.job job.id = none ∧
      (∀ r ∈ job.crawlRunId, ∃ status, s.lifecycle.run r = some status) ∧
      s'.lifecycle = s.lifecycle.addJob job.id job.crawlRunId :=
  insertJob_lifecycle rfl h

/-- A run and its root job are added together. -/
theorem createRunWithRootJob_lifecycle {r : CrawlRunId} {snapshot : CrawlRunSnapshot}
    {job : NewJob} (h : createRunWithRootJob r snapshot job now s = .ok (u, s')) :
    s.lifecycle.run r = none ∧ s.lifecycle.job job.id = none ∧
      s'.lifecycle = (s.lifecycle.addRun r).addJob job.id (some r) := by
  obtain ⟨_, s₁, hrun, hjob⟩ := bind_eq_ok.mp h
  obtain ⟨hnone, hs₁⟩ := insertRun_lifecycle hrun
  obtain ⟨hfresh, _, hs'⟩ := insertJob_lifecycle rfl hjob
  rw [hs₁] at hfresh hs'
  exact ⟨hnone, hfresh, hs'⟩

/-- A quick scrape's run is created as any run is. -/
theorem createQuickScrapeRunWithRootJob_eq_ok {r : CrawlRunId} {snapshot : CrawlRunSnapshot}
    {job : NewJob} (h : createQuickScrapeRunWithRootJob r snapshot job now s = .ok (u, s')) :
    createRunWithRootJob r snapshot job now s = .ok (u, s') :=
  (require_bind_eq_ok.mp h).2

/-- A production run is created as any run is. -/
theorem createProductionRunWithRootJob_eq_ok {r : CrawlRunId} {snapshot : CrawlRunSnapshot}
    {job : NewJob} (h : createProductionRunWithRootJob r snapshot job now s = .ok (u, s')) :
    createRunWithRootJob r snapshot job now s = .ok (u, s') :=
  (require_bind_eq_ok.mp h).2

/-! ## Leases and maintenance -/

/-- A heartbeat moves nothing. -/
theorem heartbeat_lifecycle {duration : ℤ} {renewed : JobLease}
    (h : heartbeat j lease now duration s = .ok (renewed, s')) : s'.lifecycle = s.lifecycle := by
  unfold heartbeat at h
  obtain ⟨_, h⟩ := require_bind_eq_ok.mp h
  obtain ⟨expiresAt, _, h⟩ := orFail_bind_eq_ok.mp h
  rw [read_bind] at h
  split at h
  · obtain ⟨_, h⟩ := require_bind_eq_ok.mp h
    cases h
    exact lifecycle_update_jobs s _ _ _ (fun _ => rfl) (fun _ => rfl)
  · rcases hfind : s.jobs.find? j with _ | job
    · rw [hfind] at h
      cases h
    · rw [hfind] at h
      dsimp only at h
      split at h <;> cases h

/-- A change of priority moves nothing. -/
theorem reprioritize_lifecycle {priority scheduledAt : ℤ} {job : JobRecord}
    (h : reprioritize j priority scheduledAt now s = .ok (job, s')) :
    s'.lifecycle = s.lifecycle := by
  obtain ⟨found, _, h⟩ := selectJob_bind_eq_ok.mp h
  obtain ⟨_, h⟩ := require_bind_eq_ok.mp h
  obtain ⟨_, rfl⟩ := selectJob_eq_ok.mp (write_bind _ _ s ▸ h)
  exact lifecycle_update_jobs s _ _ _ (fun _ => rfl) (fun _ => rfl)

/-- Only an unattached queued job is removed. -/
theorem removeIfSafe_lifecycle (h : removeIfSafe j s = .ok (u, s')) :
    s.lifecycle.job j = some ⟨.queued, none⟩ ∧ s'.lifecycle = s.lifecycle.dropJob j := by
  obtain ⟨job, hfind, h⟩ := selectJob_bind_eq_ok.mp h
  obtain ⟨⟨hqueued, _, hrun, _⟩, h⟩ := require_bind_eq_ok.mp h
  obtain ⟨_, h⟩ := require_bind_eq_ok.mp (read_bind _ s ▸ h)
  cases h
  refine ⟨by rw [lifecycle_job hfind, hqueued, hrun], Lifecycle.ext (fun k => ?_) fun r => rfl⟩
  rw [lifecycle_job_eq, dropJob_job, Table.find?_delete]
  rcases hk : s.jobs.find? k with _ | other
  · rw [lifecycle_job_eq, hk]
    split <;> rfl
  · have hid := Table.key_of_find? hk
    by_cases hkj : k = j
    · rw [if_pos hkj, Option.filter_some_neg (by simp [hid, hkj]), Option.map_none]
    · rw [if_neg hkj, Option.filter_some_pos (by simp [hid, hkj]), lifecycle_job hk,
        Option.map_some]

/-! ## Completion and failure -/

/-- Success moves a running job. -/
theorem succeed_lifecycle (h : succeed j lease now s = .ok (u, s')) :
    ∃ run, s.lifecycle.job j = some ⟨.running, run⟩ ∧
      s'.lifecycle = s.lifecycle.moveJob j .succeeded := by
  obtain ⟨job, hfind, hrunning, _, _, h⟩ := selectOwnedRunningJob_bind_eq_ok.mp h
  obtain ⟨howned, rfl⟩ := finish_release_eq_ok.mp h
  exact ⟨job.crawlRunId, by rw [lifecycle_job hfind, hrunning], lifecycle_settled howned⟩

/-- The state a failed execution leaves its job in. -/
def failedState (job : JobRecord) (terminal : Bool) : JobState :=
  if terminal = false ∧ job.currentAttempt < job.maxAttempts then .queued else .failed

/-- A failure moves a running job back to the queue or to failed. -/
theorem failWithDisposition_lifecycle {failure : JobFailureCode} {retryAt : ℤ} {terminal : Bool}
    {state : JobState}
    (h : failWithDisposition j lease now failure retryAt terminal s = .ok (state, s')) :
    ∃ job, s.jobs.find? j = some job ∧ job.state = .running ∧
      state = failedState job terminal ∧ s'.lifecycle = s.lifecycle.moveJob j state := by
  obtain ⟨job, hfind, hrunning, _, _, h⟩ := selectOwnedRunningJob_bind_eq_ok.mp h
  obtain ⟨howned, h⟩ := finish_release_bind_eq_ok.mp h
  cases h
  exact ⟨job, hfind, hrunning, rfl, lifecycle_settled howned⟩

/-- A failure for good moves a running job to failed. -/
theorem failTerminal_lifecycle {failure : JobFailureCode}
    (h : failTerminal j lease now failure s = .ok (u, s')) :
    ∃ run, s.lifecycle.job j = some ⟨.running, run⟩ ∧
      s'.lifecycle = s.lifecycle.moveJob j .failed := by
  obtain ⟨state, s₁, hfail, h⟩ := bind_eq_ok.mp h
  obtain ⟨rfl, rfl⟩ := require_eq_ok.mp h
  obtain ⟨job, hfind, hrunning, _, hs⟩ := failWithDisposition_lifecycle hfail
  exact ⟨job.crawlRunId, by rw [lifecycle_job hfind, hrunning], hs⟩

/-- A transition sets the status of a run that permits it. -/
theorem transitionExecutionStatus_lifecycle {r : CrawlRunId} {status : CrawlRunStatus}
    (h : transitionExecutionStatus r status s = .ok (u, s')) :
    (∃ old, s.lifecycle.run r = some old ∧ executionTransitionFrom status old = true) ∧
      s'.lifecycle = s.lifecycle.setRun r status :=
  setRunStatus_lifecycle h

/-- Progress moves nothing. -/
theorem appendProgress_lifecycle {terminal : Option ProgressTerminalState}
    (h : appendProgress j terminal now s = .ok (u, s')) : s'.lifecycle = s.lifecycle := by
  obtain ⟨_, _, _, _, _, _, rfl⟩ := appendProgress_eq_ok h
  rfl

/-- The run of a failed job fails. -/
theorem finalizeCrawlFailure_lifecycle {job : JobRecord}
    (h : finalizeCrawlFailure job now s = .ok (u, s')) :
    ∃ r old, job.crawlRunId = some r ∧ s.lifecycle.run r = some old ∧
      executionTransitionFrom .failed old = true ∧
      s'.lifecycle = s.lifecycle.setRun r .failed := by
  obtain ⟨r, hr, h⟩ := orFail_bind_eq_ok.mp h
  obtain ⟨_, s₁, hrun, h⟩ := bind_eq_ok.mp h
  obtain ⟨⟨old, hold, hallowed⟩, hs₁⟩ := transitionExecutionStatus_lifecycle hrun
  exact ⟨r, old, hr, hold, hallowed, (appendProgress_lifecycle h).trans hs₁⟩

/-- The store after the worker-owned transition of the run to `FAILED`. -/
def runFailed (r : CrawlRunId) (s : QueueStore) : QueueStore :=
  { s with
    runs := s.runs.update (fun run => run.id = r && executionTransitionFrom .failed run.status)
      fun run => { run with status := .failed } }

/-- Any open run may fail. -/
theorem executionTransitionFrom_failed {status : CrawlRunStatus} (h : status.terminal = false) :
    executionTransitionFrom .failed status = true := by
  cases status <;> first | rfl | cases h

/-- Failing an open run leaves the closing of the stream to do. -/
theorem finalizeCrawlFailure_eq {job : JobRecord} {r : CrawlRunId} {status : CrawlRunStatus}
    (hr : job.crawlRunId = some r) (hstatus : s.lifecycle.run r = some status)
    (hopen : status.terminal = false) :
    finalizeCrawlFailure job now s =
      appendProgress job.id (some .failed) now (runFailed r s) := by
  obtain ⟨run, hrun, rfl⟩ := run_of_lifecycle hstatus
  have hset : transitionExecutionStatus r .failed s = .ok ((), runFailed r s) :=
    setRunStatus_eq_ok.mpr ⟨⟨run, hrun, executionTransitionFrom_failed hopen⟩, rfl⟩
  unfold finalizeCrawlFailure
  rw [hr, bind_of_ok (orFail_eq_ok.mpr ⟨rfl, rfl⟩), bind_of_ok hset]

/-- An open run is set to failed. -/
theorem runFailed_lifecycle {r : CrawlRunId} {status : CrawlRunStatus}
    (hstatus : s.lifecycle.run r = some status) (hopen : status.terminal = false) :
    (runFailed r s).lifecycle = s.lifecycle.setRun r .failed := by
  obtain ⟨run, hrun, rfl⟩ := run_of_lifecycle hstatus
  refine lifecycle_set_run s r _ .failed fun other hother => ?_
  rw [hrun] at hother
  cases hother
  exact executionTransitionFrom_failed hopen

/-- Settling a job and failing its run. -/
theorem settled_finalizeCrawlFailure_lifecycle {job : JobRecord} {outcome : AttemptOutcome}
    {failure : Option JobFailureCode} {scheduledAt : Option ℤ} (howned : Owned s j lease)
    (h : finalizeCrawlFailure job now
      (settled j lease now outcome .failed failure scheduledAt s) = .ok (u, s')) :
    ∃ r old, job.crawlRunId = some r ∧ s.lifecycle.run r = some old ∧
      executionTransitionFrom .failed old = true ∧
      s'.lifecycle = (s.lifecycle.moveJob j .failed).setRun r .failed := by
  obtain ⟨r, old, hr, hold, hallowed, hs'⟩ := finalizeCrawlFailure_lifecycle h
  rw [lifecycle_settled howned] at hold hs'
  exact ⟨r, old, hr, hold, hallowed, hs'⟩

/-- A production job fails together with its run. -/
theorem failTerminalProduction_lifecycle {failure : JobFailureCode}
    (h : failTerminalProduction j lease now failure s = .ok (u, s')) :
    ∃ r old, s.lifecycle.job j = some ⟨.running, some r⟩ ∧ s.lifecycle.run r = some old ∧
      executionTransitionFrom .failed old = true ∧
      s'.lifecycle = (s.lifecycle.moveJob j .failed).setRun r .failed := by
  obtain ⟨job, hfind, hrunning, _, _, h⟩ := selectOwnedRunningJob_bind_eq_ok.mp h
  have hend : (do
      finishAttempt j lease now .failed (some failure)
      releaseJob j lease now .failed (some failure) (some job.scheduledAt)
      finalizeCrawlFailure job now : QueueTx Unit) s = .ok (u, s') →
      ∃ r old, s.lifecycle.job j = some ⟨.running, some r⟩ ∧ s.lifecycle.run r = some old ∧
        executionTransitionFrom .failed old = true ∧
        s'.lifecycle = (s.lifecycle.moveJob j .failed).setRun r .failed := by
    intro hdo
    obtain ⟨howned, hfinal⟩ := finish_release_bind_eq_ok.mp hdo
    obtain ⟨r, old, hr, hold, hallowed, hs'⟩ :=
      settled_finalizeCrawlFailure_lifecycle howned hfinal
    exact ⟨r, old, by rw [lifecycle_job hfind, hrunning, hr], hold, hallowed, hs'⟩
  rw [read_bind] at h
  dsimp only at h
  split at h
  · obtain ⟨r, hr, h⟩ := orFail_bind_eq_ok.mp h
    obtain ⟨run, hrun, h⟩ := orFail_bind_eq_ok.mp h
    obtain ⟨_, h⟩ := require_bind_eq_ok.mp h
    exact hend h
  · exact hend h

/-! ## Cancellation -/

/-- The state a cancelled execution leaves its job in. -/
def cancelledState : Option CrawlRunStatus → JobState
  | some .succeeded | some .partialResult => .succeeded
  | some .failed => .failed
  | _ => .cancelled

/-- Cancelling the run of a job whose run is not open changes nothing. -/
theorem cancelOpen_of_terminal {l : Lifecycle} {r : CrawlRunId} {status : CrawlRunStatus}
    (hrun : l.run r = some status) (hstatus : status.terminal = true) :
    l.cancelOpen (some r) = l := by
  refine Lifecycle.ext (fun k => rfl) fun q => ?_
  show (l.run q).map _ = l.run q
  by_cases hrq : r = q
  · subst hrq
    rw [hrun, Option.map_some, if_neg]
    rw [hstatus]
    exact fun h => Bool.noConfusion h.2
  · cases l.run q with
    | none => rfl
    | some old =>
      rw [Option.map_some, if_neg]
      exact fun h => hrq (Option.some.inj h.1)

/-- Cancelling a run commutes with moving a job. -/
theorem cancelOpen_moveJob (l : Lifecycle) (state : JobState) (run : Option CrawlRunId) :
    (l.moveJob j state).cancelOpen run = (l.cancelOpen run).moveJob j state := rfl

/-- A cancellation either finds that the run ended and settles the job with it,
or cancels the job and then the run. -/
theorem cancel_eq_ok (h : cancel j lease now s = .ok (u, s')) :
    ∃ job, s.jobs.find? j = some job ∧ job.state = .running ∧ Owned s j lease ∧
      ((∃ r status outcome failure, job.crawlRunId = some r ∧
          s.lifecycle.run r = some status ∧ status.terminal = true ∧ outcome ≠ .running ∧
          s' = settled j lease now outcome (cancelledState (some status)) failure none s) ∨
        cancelledState (job.crawlRunId.bind s.lifecycle.run) = .cancelled ∧
          cancelRelatedRun job.crawlRunId
            (settled j lease now .failed .cancelled (some .cancelled) none s) = .ok (u, s')) := by
  obtain ⟨job, hfind, hrunning, _, _, h⟩ := selectOwnedRunningJob_bind_eq_ok.mp h
  refine ⟨job, hfind, hrunning, ?_⟩
  rcases hrun : job.crawlRunId with _ | r
  · rw [hrun] at h
    obtain ⟨howned, h⟩ := finish_release_bind_eq_ok.mp h
    exact ⟨howned, .inr ⟨rfl, h⟩⟩
  rw [hrun] at h
  dsimp only at h
  rw [selectCrawlRunStatus_bind] at h
  rcases hr : s.lifecycle.run r with _ | status
  · rw [hr] at h
    obtain ⟨howned, h⟩ := finish_release_bind_eq_ok.mp h
    exact ⟨howned, .inr ⟨by rw [Option.bind_some, hr]; rfl, h⟩⟩
  rw [hr] at h
  cases status with
  | succeeded | partialResult =>
    obtain ⟨howned, h⟩ := finish_release_eq_ok.mp h
    exact ⟨howned, .inl ⟨r, _, .succeeded, none, rfl, hr, rfl, by decide, h⟩⟩
  | failed =>
    obtain ⟨howned, h⟩ := finish_release_eq_ok.mp h
    exact ⟨howned, .inl ⟨r, _, .failed, some .handlerFailed, rfl, hr, rfl, by decide, h⟩⟩
  | queued | running | cancelled =>
    obtain ⟨howned, h⟩ := finish_release_bind_eq_ok.mp h
    exact ⟨howned, .inr ⟨by rw [Option.bind_some, hr]; rfl, h⟩⟩

/-- A running job and its open run are cancelled. -/
theorem cancel_lifecycle (h : cancel j lease now s = .ok (u, s')) :
    ∃ run, s.lifecycle.job j = some ⟨.running, run⟩ ∧
      s'.lifecycle = (s.lifecycle.moveJob j (cancelledState (run.bind s.lifecycle.run))).cancelOpen
        run := by
  obtain ⟨job, hfind, hrunning, howned, hend⟩ := cancel_eq_ok h
  refine ⟨job.crawlRunId, by rw [lifecycle_job hfind, hrunning], ?_⟩
  rcases hend with ⟨r, status, _, _, hrun, hr, hterminal, _, rfl⟩ | ⟨hstate, hcancel⟩
  · rw [hrun, Option.bind_some, hr, lifecycle_settled howned, cancelOpen_moveJob,
      cancelOpen_of_terminal hr hterminal]
  · rw [hstate, (cancelRelatedRun_lifecycle hcancel).1, lifecycle_settled howned]

/-- A queued job and its open run are cancelled. -/
theorem cancelQueued_lifecycle {state : JobState}
    (h : cancelQueued j now s = .ok (state, s')) :
    s'.lifecycle = s.lifecycle ∨ ∃ run, s.lifecycle.job j = some ⟨.queued, run⟩ ∧
      s'.lifecycle = (s.lifecycle.moveJob j .cancelled).cancelOpen run := by
  obtain ⟨job, hfind, h⟩ := selectJob_bind_eq_ok.mp h
  split at h
  · cases h
    exact Or.inl rfl
  · rename_i hqueued
    rw [ne_eq, not_not] at hqueued
    rw [write_bind] at h
    obtain ⟨_, s₁, hcancel, h⟩ := bind_eq_ok.mp h
    cases h
    refine Or.inr ⟨job.crawlRunId, by rw [lifecycle_job hfind, hqueued], ?_⟩
    rw [(cancelRelatedRun_lifecycle hcancel).1]
    congr 1
    have hid := Table.key_of_find? hfind
    exact lifecycle_move_job s _ _ _ hfind (by simp [hid, hqueued]) (by simp +contextual)
      (fun _ => rfl) (fun _ => rfl)

/-! ## Action children -/

/-- What an action child's association did to the runs, and the run it selected. -/
inductive AssociationEffect (l : Lifecycle) (sourceRun : Option CrawlRunId) :
    ActionRunAssociation → Option CrawlRunId → Lifecycle → Prop
  | none : AssociationEffect l sourceRun .none none l
  | sameSourceRun {r : CrawlRunId} {old : CrawlRunStatus} :
      sourceRun = some r → l.run r = some old → old ≠ .running →
      AssociationEffect l sourceRun .sameSourceRun (some r) (l.setRun r .queued)
  | newIndependentRun {r : CrawlRunId} {snapshot : CrawlRunSnapshot} :
      l.run r = Option.none →
      AssociationEffect l sourceRun (.newIndependentRun r snapshot) (some r) (l.addRun r)

/-- A child is given its source's run, a new one, or none. -/
theorem actionChildCrawlRunId_lifecycle {source : JobRecord}
    {association : ActionRunAssociation} {run : Option CrawlRunId}
    (h : actionChildCrawlRunId source association s = .ok (run, s')) :
    AssociationEffect s.lifecycle source.crawlRunId association run s'.lifecycle := by
  cases association with
  | none =>
    cases h
    exact .none
  | sameSourceRun =>
    obtain ⟨r, hr, h⟩ := orFail_bind_eq_ok.mp h
    obtain ⟨_, s₁, hset, h⟩ := bind_eq_ok.mp h
    cases h
    obtain ⟨⟨old, hold, hallowed⟩, hs⟩ := setRunStatus_lifecycle hset
    rw [hs]
    exact .sameSourceRun hr hold (by simpa using hallowed)
  | newIndependentRun r snapshot =>
    obtain ⟨_, s₁, hinsert, h⟩ := bind_eq_ok.mp h
    cases h
    obtain ⟨hnone, hs⟩ := insertRun_lifecycle hinsert
    rw [hs]
    exact .newIndependentRun hnone

/-- The lineage check of an action child passes for a settled source without an
active child of the kind, and without an active recovery child if it continues. -/
theorem validateActionChildLineage_eq_ok {source : JobRecord} {kind : JobKind} :
    validateActionChildLineage source j kind s = .ok (u, s') ↔
      source.state.active = false ∧ activeChildExists s j (fun k => k = kind) = false ∧
      (isRecoveryContinuationKind kind = true →
        activeChildExists s j isRecoveryContinuationKind = false) ∧ s' = s := by
  unfold validateActionChildLineage
  rw [read_bind, require_bind_eq_ok, require_bind_eq_ok, require_eq_ok]

/-- An action child is a new queued job of a settled source. -/
theorem enqueueActionChild_lifecycle {childId : JobId} {kind : JobKind}
    {association : ActionRunAssociation} {maxAttempts : Option ℕ} {child : JobRecord}
    (h : enqueueActionChild j childId kind now association maxAttempts s = .ok (child, s')) :
    ∃ source run l, s.jobs.find? j = some source ∧ source.state.active = false ∧
      AssociationEffect s.lifecycle source.crawlRunId association run l ∧
      l.job childId = none ∧ (∀ r ∈ run, ∃ status, l.run r = some status) ∧
      s'.lifecycle = l.addJob childId run := by
  obtain ⟨source, hfind, hbody⟩ := selectJob_bind_eq_ok.mp h
  obtain ⟨_, s₁, hlineage, hbody⟩ := bind_eq_ok.mp hbody
  obtain ⟨hsettled, _, _, hs₁⟩ := validateActionChildLineage_eq_ok.mp hlineage
  rw [hs₁] at hbody
  obtain ⟨run, s₂, hassociation, hbody⟩ := bind_eq_ok.mp hbody
  obtain ⟨_, s₃, hinsert, hselect⟩ := bind_eq_ok.mp hbody
  obtain ⟨_, rfl⟩ := selectJob_eq_ok.mp hselect
  obtain ⟨hnone, hrun, hs'⟩ := insertJob_lifecycle rfl hinsert
  exact ⟨source, run, s₂.lifecycle, hfind, hsettled, actionChildCrawlRunId_lifecycle hassociation,
    hnone, hrun, hs'⟩

/-! ## Run transitions -/

/-- A run is finalized from an open status, or again to its own. -/
theorem finalizeRun_lifecycle {r : CrawlRunId} {status : CrawlRunStatus}
    (h : finalizeRun r status s = .ok (u, s')) :
    (∃ old, s.lifecycle.run r = some old ∧ (old.terminal = false ∨ old = status)) ∧
      s'.lifecycle = s.lifecycle.setRun r status := by
  unfold finalizeRun at h
  split at h
  · rename_i hcancelled
    subst hcancelled
    obtain ⟨⟨old, hold, hallowed⟩, hs⟩ := setRunStatus_lifecycle h
    refine ⟨⟨old, hold, ?_⟩, hs⟩
    cases old <;> simp_all [CrawlRunStatus.terminal]
  · obtain ⟨⟨old, hold, hallowed⟩, hs⟩ := transitionExecutionStatus_lifecycle h
    refine ⟨⟨old, hold, ?_⟩, hs⟩
    cases status <;> cases old <;> simp_all [CrawlRunStatus.terminal, executionTransitionFrom]

/-! ## Reconciliation with an ended run -/

/-- The store after the reconciliation of one job: untouched, or with the running
job settled as the run says. -/
theorem reconcileTerminalJob_eq_ok {status : CrawlRunStatus}
    {reconciliation : Option TerminalJobReconciliation}
    (h : reconcileTerminalJob j status now s = .ok (reconciliation, s')) :
    (reconciliation = none ∧ terminalOutcome status = none ∧ s' = s) ∨
    ∃ job state outcome failure progress, s.jobs.find? j = some job ∧
      terminalOutcome status = some (state, outcome, failure, progress) ∧
      reconciliation = some ⟨state, progress⟩ ∧
      ((job.state = state ∧ s' = s) ∨ (job.state = .running ∧ ∃ lease, Owned s j lease ∧
        s' = settled j lease now outcome state failure none s)) := by
  unfold reconcileTerminalJob at h
  rcases hstatus : terminalOutcome status with _ | ⟨state, outcome, failure, progress⟩
  · rw [hstatus] at h
    cases h
    exact Or.inl ⟨rfl, rfl, rfl⟩
  · rw [hstatus] at h
    obtain ⟨job, hfind, h⟩ := selectJob_bind_eq_ok.mp h
    refine Or.inr ⟨job, state, outcome, failure, progress, hfind, rfl, ?_⟩
    rcases hjob : job.state with _ | _ | _ | _ | _
    · rw [hjob] at h
      cases h
    · rw [hjob] at h
      obtain ⟨lease, _, h⟩ := orFail_bind_eq_ok.mp h
      obtain ⟨howned, h⟩ := finish_release_bind_eq_ok.mp h
      cases h
      exact ⟨rfl, Or.inr ⟨rfl, lease, howned, rfl⟩⟩
    all_goals
      rw [hjob] at h
      obtain ⟨rfl, h⟩ := require_bind_eq_ok.mp h
      cases h
      exact ⟨rfl, Or.inl ⟨rfl, rfl⟩⟩

/-- A job of an ended run is moved to the state the run selects, or is there. -/
theorem reconcileTerminalJob_lifecycle {status : CrawlRunStatus}
    {reconciliation : Option TerminalJobReconciliation}
    (h : reconcileTerminalJob j status now s = .ok (reconciliation, s')) :
    (reconciliation = none ∧ status.terminal = false ∧ s' = s) ∨
    ∃ job settled, s.jobs.find? j = some job ∧ settledState status = some settled ∧
      reconciliation.map TerminalJobReconciliation.state = some settled ∧
      ((job.state = settled ∧ s' = s) ∨
        (job.state = .running ∧ s'.lifecycle = s.lifecycle.moveJob j settled)) := by
  rcases reconcileTerminalJob_eq_ok h with
    ⟨hnone, hstatus, hs'⟩ | ⟨job, state, outcome, failure, progress, hfind, hstatus, hsome, hs'⟩
  · refine Or.inl ⟨hnone, ?_, hs'⟩
    cases status <;> first | rfl | cases hstatus
  · refine Or.inr ⟨job, state, hfind, by rw [settledState, hstatus]; rfl, by rw [hsome]; rfl, ?_⟩
    rcases hs' with hs' | ⟨hrunning, lease, howned, rfl⟩
    · exact Or.inl hs'
    · exact Or.inr ⟨hrunning, lifecycle_settled howned⟩

end Erabi.Queue

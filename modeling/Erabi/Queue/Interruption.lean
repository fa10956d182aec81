/-
# Interrupted executions

Expiry, storage pressure and an already ended run end an execution that did not
report its own result.  All three act on the lifecycle in one of four ways, and
acquisition and startup recovery are sequences of such ends.
-/
import Mathlib
import Erabi.Queue.Outcome

namespace Erabi.Queue

open Relational Transaction Lifecycle

variable {s s' : QueueStore} {j : JobId} {lease : JobLease} {now : ℤ} {u : Unit}

/-- How an interrupted running job with this run ends: back in the queue, failed
alone, failed together with its open run, or as its ended run says. -/
inductive Interrupted (l : Lifecycle) (j : JobId) (run : Option CrawlRunId) (requeues : Bool) :
    Lifecycle → Prop
  | requeued : requeues = true →
      (∀ r ∈ run, ∀ status, l.run r = some status → status.terminal = false) →
      Interrupted l j run requeues (l.moveJob j .queued)
  | failed : requeues = false → run = none → Interrupted l j run requeues (l.moveJob j .failed)
  | failedWithRun {r : CrawlRunId} {old : CrawlRunStatus} : requeues = false → run = some r →
      l.run r = some old → old.terminal = false →
      Interrupted l j run requeues ((l.moveJob j .failed).setRun r .failed)
  | reconciled {r : CrawlRunId} {status : CrawlRunStatus} {settled : JobState} : run = some r →
      l.run r = some status → settledState status = some settled →
      Interrupted l j run requeues (l.moveJob j settled)

/-! ## Jobs of ended runs -/

/-- No reconciliation happens while the run is open. -/
theorem finishAfterTerminalCrawlRun_lifecycle {r : CrawlRunId}
    {reconciliation : Option TerminalJobReconciliation}
    (h : finishAfterTerminalCrawlRun j r now s = .ok (reconciliation, s')) :
    (reconciliation = none ∧ s' = s ∧
      ∀ status, s.lifecycle.run r = some status → status.terminal = false) ∨
    ∃ job status settled, s.jobs.find? j = some job ∧ s.lifecycle.run r = some status ∧
      settledState status = some settled ∧
      reconciliation.map TerminalJobReconciliation.state = some settled ∧
      ((job.state = settled ∧ s' = s) ∨
        (job.state = .running ∧ s'.lifecycle = s.lifecycle.moveJob j settled)) := by
  unfold finishAfterTerminalCrawlRun at h
  rw [selectCrawlRunStatus_bind] at h
  rcases hr : s.lifecycle.run r with _ | status
  · rw [hr] at h
    cases h
    exact Or.inl ⟨rfl, rfl, fun status h => by cases h⟩
  · rw [hr] at h
    rcases reconcileTerminalJob_lifecycle h with ⟨hnone, hopen, hs'⟩ | ⟨job, settled, hrest⟩
    · refine Or.inl ⟨hnone, hs', ?_⟩
      intro status' hs
      cases hs
      exact hopen
    · exact Or.inr ⟨job, status, settled, hrest.1, rfl, hrest.2⟩

/-- The check of an interrupted running job: its ended run settles it, or the
run is open and nothing has happened. -/
theorem finishAfterRun_lifecycle {job : JobRecord}
    {reconciliation : Option TerminalJobReconciliation} (hfind : s.jobs.find? j = some job)
    (h : finishAfterRun j job.crawlRunId now s = .ok (reconciliation, s')) :
    (reconciliation = none ∧ s' = s ∧ ∀ r ∈ job.crawlRunId, ∀ status,
      s.lifecycle.run r = some status → status.terminal = false) ∨
    ∃ r status settled, job.crawlRunId = some r ∧ s.lifecycle.run r = some status ∧
      settledState status = some settled ∧
      reconciliation.map TerminalJobReconciliation.state = some settled ∧
      ((job.state = settled ∧ s' = s) ∨
        (job.state = .running ∧ s'.lifecycle = s.lifecycle.moveJob j settled)) := by
  rcases hrun : job.crawlRunId with _ | r
  · rw [hrun] at h
    cases h
    exact Or.inl ⟨rfl, rfl, by simp⟩
  · rw [hrun] at h
    rcases finishAfterTerminalCrawlRun_lifecycle h with
      ⟨hnone, hs', hopen⟩ | ⟨job', status, settled, hjob', hr, hrest⟩
    · exact Or.inl ⟨hnone, hs', by simpa using hopen⟩
    · rw [hfind] at hjob'
      cases hjob'
      exact Or.inr ⟨r, status, settled, rfl, hr, hrest⟩

/-- One job of an ended run is settled as the run says. -/
def ReconcileStep (l l' : Lifecycle) : Prop :=
  ∃ j r status settled, l.job j = some ⟨.running, some r⟩ ∧ l.run r = some status ∧
    settledState status = some settled ∧ l' = l.moveJob j settled

/-- A leased job is reconciled with its run or left. -/
theorem reconcileTerminalCrawlRun_lifecycle {r : CrawlRunId}
    {reconciliation : TerminalJobReconciliation}
    (h : reconcileTerminalCrawlRun j lease r now s = .ok (reconciliation, s')) :
    s'.lifecycle = s.lifecycle ∨ ReconcileStep s.lifecycle s'.lifecycle := by
  unfold reconcileTerminalCrawlRun at h
  rw [selectCrawlRunStatus_bind] at h
  obtain ⟨status, hr, h⟩ := orFail_bind_eq_ok.mp h
  obtain ⟨job, hfind, h⟩ := selectJob_bind_eq_ok.mp h
  obtain ⟨hrun, h⟩ := require_bind_eq_ok.mp h
  obtain ⟨_, h⟩ := require_bind_eq_ok.mp h
  obtain ⟨result, s₁, hreconcile, h⟩ := bind_eq_ok.mp h
  obtain ⟨_, rfl⟩ := orFail_eq_ok.mp h
  rcases reconcileTerminalJob_lifecycle hreconcile with ⟨_, _, hs'⟩ | ⟨job', settled, hjob, hset, _, hs'⟩
  · exact Or.inl (congrArg QueueStore.lifecycle hs')
  · rw [hfind] at hjob
    cases hjob
    rcases hs' with ⟨_, hs'⟩ | ⟨hrunning, hs'⟩
    · exact Or.inl (congrArg QueueStore.lifecycle hs')
    · exact Or.inr ⟨j, r, status, settled, by rw [lifecycle_job hfind, hrunning, hrun], hr, hset,
        hs'⟩

/-! ## Expired leases -/

/-- The store after the expiry of a job: the job settled, and its run and its
progress stream failed unless the job goes back to the queue. -/
theorem expireJob_eq_ok {recovery recovery' : StaleJobRecovery} {job : JobRecord}
    (h : expireJob now recovery job lease s = .ok (recovery', s')) :
    Owned s job.id lease ∧ recovery' = recovery.count (staleDisposition s job) (requeuesStale s job) ∧
    ((requeuesStale s job = true ∧
        s' = settled job.id lease now .leaseExpired .queued (some .leaseExpired) (some now) s) ∨
      (requeuesStale s job = false ∧ job.crawlRunId = none ∧
        s' = settled job.id lease now .leaseExpired .failed (some .leaseExpired) (some now) s) ∨
      (requeuesStale s job = false ∧ ∃ u, finalizeCrawlFailure job now
        (settled job.id lease now .leaseExpired .failed (some .leaseExpired) (some now) s) =
          .ok (u, s'))) := by
  unfold expireJob at h
  rw [read_bind] at h
  dsimp only at h
  obtain ⟨howned, h⟩ := finish_release_bind_eq_ok.mp h
  refine ⟨howned, ?_⟩
  rcases hrequeues : requeuesStale s job with _ | _
  · rw [hrequeues] at h
    rcases hrun : job.crawlRunId with _ | r
    · rw [if_neg (by rw [hrun]; simp)] at h
      cases h
      exact ⟨rfl, Or.inr (Or.inl ⟨rfl, rfl, rfl⟩)⟩
    · rw [if_pos (by rw [hrun]; simp)] at h
      obtain ⟨u, s₁, hfinal, h⟩ := bind_eq_ok.mp h
      cases h
      exact ⟨rfl, Or.inr (Or.inr ⟨rfl, u, hfinal⟩)⟩
  · rw [hrequeues] at h
    rw [if_neg (by simp)] at h
    cases h
    exact ⟨rfl, Or.inl ⟨rfl, rfl⟩⟩

/-- The recovery of an expired job interrupts it. -/
theorem expireJob_lifecycle {recovery recovery' : StaleJobRecovery} {job : JobRecord}
    (hfind : s.jobs.find? job.id = some job)
    (hopen : ∀ r ∈ job.crawlRunId, ∀ status, s.lifecycle.run r = some status →
      status.terminal = false)
    (h : expireJob now recovery job lease s = .ok (recovery', s')) :
    job.state = .running ∧ Interrupted s.lifecycle job.id job.crawlRunId (requeuesStale s job)
      s'.lifecycle := by
  obtain ⟨howned, _, hs'⟩ := expireJob_eq_ok h
  obtain ⟨owner, howner, hholds⟩ := howned.job
  rw [hfind] at howner
  cases howner
  refine ⟨(holdsLease_iff.mp hholds).2.1, ?_⟩
  rcases hs' with ⟨hrequeues, rfl⟩ | ⟨hrequeues, hnone, rfl⟩ | ⟨hrequeues, u, hfinal⟩
  · rw [lifecycle_settled howned]
    exact .requeued hrequeues hopen
  · rw [lifecycle_settled howned]
    exact .failed hrequeues hnone
  · obtain ⟨r, old, hr, hold, _, hs'⟩ := settled_finalizeCrawlFailure_lifecycle howned hfinal
    rw [hs']
    exact .failedWithRun hrequeues hr hold (hopen r hr old hold)

/-- One round of the recovery of expired leases. -/
theorem recoverExpiredJob_lifecycle {recovery recovery' : StaleJobRecovery}
    (h : recoverExpiredJob now recovery j s = .ok (recovery', s')) :
    s'.lifecycle = s.lifecycle ∨ ∃ job, s.jobs.find? j = some job ∧ job.state = .running ∧
      Interrupted s.lifecycle j job.crawlRunId (requeuesStale s job) s'.lifecycle := by
  obtain ⟨job, hfind, h⟩ := selectJob_bind_eq_ok.mp h
  obtain ⟨lease, _, h⟩ := orFail_bind_eq_ok.mp h
  have hid := Table.key_of_find? hfind
  subst hid
  split at h
  · cases h
    exact Or.inl rfl
  · obtain ⟨reconciliation, s₁, hfinish, h⟩ := bind_eq_ok.mp h
    rcases finishAfterRun_lifecycle hfind hfinish with
      ⟨rfl, hs₁, hopen⟩ | ⟨r, status, settled, hrun, hr, hset, hsome, hs₁⟩
    · rw [hs₁] at h
      obtain ⟨hrunning, hend⟩ := expireJob_lifecycle hfind hopen h
      exact Or.inr ⟨job, hfind, hrunning, hend⟩
    · obtain ⟨_, rfl, _⟩ := Option.map_eq_some_iff.mp hsome
      cases h
      rcases hs₁ with ⟨_, rfl⟩ | ⟨hrunning, hs₁⟩
      · exact Or.inl rfl
      · refine Or.inr ⟨job, hfind, hrunning, ?_⟩
        rw [hs₁, hrun]
        exact .reconciled rfl hr hset

/-- One running job is interrupted. -/
def InterruptStep (l l' : Lifecycle) : Prop :=
  ∃ j run requeues, l.job j = some ⟨.running, run⟩ ∧ Interrupted l j run requeues l'

/-- The recovery of expired leases interrupts running jobs one after another. -/
theorem recoverExpired_lifecycle {recovery : StaleJobRecovery}
    (h : recoverExpired now s = .ok (recovery, s')) :
    Relation.ReflTransGen InterruptStep s.lifecycle s'.lifecycle := by
  have hloop : ∀ (jobs : List JobId) (recovery recovery' : StaleJobRecovery)
      (s : QueueStore), foldEach (recoverExpiredJob now) recovery jobs s = .ok (recovery', s') →
      Relation.ReflTransGen InterruptStep s.lifecycle s'.lifecycle := by
    intro jobs
    induction jobs with
    | nil =>
      intro recovery recovery' s hfold
      cases hfold
      exact .refl
    | cons j jobs ih =>
      intro recovery recovery' s hfold
      obtain ⟨recovery₁, s₁, hround, hfold⟩ := bind_eq_ok.mp hfold
      rcases recoverExpiredJob_lifecycle hround with hs₁ | ⟨job, hfind, hrunning, hs₁⟩
      · rw [← hs₁]
        exact ih recovery₁ recovery' s₁ hfold
      · refine .head ⟨j, job.crawlRunId, _, ?_, hs₁⟩ (ih recovery₁ recovery' s₁ hfold)
        rw [lifecycle_job hfind, hrunning]
  exact hloop _ _ _ s h

/-! ## Storage pressure -/

/-- Whether an attempt interrupted by storage pressure goes back to the queue. -/
def requeuesPressured (s : QueueStore) (j : JobId) (lease : JobLease) (job : JobRecord) : Bool :=
  hasCheckpointForCurrentAttempt s j lease && decide (job.currentAttempt < job.maxAttempts)

/-- The store after the storage-pressure transaction: reconciled with the ended
run, or settled like an expired job. -/
theorem requeueAfterStoragePressureTx_eq_ok
    {result : Option TerminalJobReconciliation × JobState}
    (h : requeueAfterStoragePressureTx j lease now s = .ok (result, s')) :
    ∃ job, s.jobs.find? j = some job ∧ job.state = .running ∧ job.lease = some lease ∧
      ((∃ reconciliation, finishAfterRun j job.crawlRunId now s = .ok (some reconciliation, s') ∧
          result = (some reconciliation, reconciliation.state)) ∨
        (finishAfterRun j job.crawlRunId now s = .ok (none, s) ∧ Owned s j lease ∧
          ((requeuesPressured s j lease job = true ∧ result = (none, .queued) ∧
              s' = settled j lease now .failed .queued (some .storagePressure) (some now) s) ∨
            (requeuesPressured s j lease job = false ∧ result = (none, .failed) ∧
              ((job.crawlRunId = none ∧ s' = settled j lease now .failed .failed
                  (some .storagePressure) (some now) s) ∨
                ∃ u, finalizeCrawlFailure job now (settled j lease now .failed .failed
                  (some .storagePressure) (some now) s) = .ok (u, s')))))) := by
  obtain ⟨job, hfind, hrunning, hlease, _, h⟩ := selectOwnedRunningJob_bind_eq_ok.mp h
  obtain ⟨reconciliation, s₁, hreconcile, h⟩ := bind_eq_ok.mp h
  refine ⟨job, hfind, hrunning, hlease, ?_⟩
  cases reconciliation with
  -- the run has ended already, so the job is settled as it says
  | some reconciliation =>
    cases h
    exact Or.inl ⟨reconciliation, hreconcile, rfl⟩
  -- the run is open and the job goes back to the queue or fails
  | none =>
    have hs₁ : s₁ = s := by
      rcases finishAfterRun_lifecycle hfind hreconcile with
        ⟨_, hs₁, _⟩ | ⟨_, _, _, _, _, _, hsome, _⟩
      · exact hs₁
      · cases hsome
    rw [hs₁] at h hreconcile
    change (Transaction.read >>= _) s = _ at h
    obtain ⟨howned, h⟩ := finish_release_bind_eq_ok.mp (read_bind _ s ▸ h)
    refine Or.inr ⟨hreconcile, howned, ?_⟩
    rcases hrequeues : requeuesPressured s j lease job with _ | _
    · have hstate : ¬ (hasCheckpointForCurrentAttempt s j lease = true ∧
          job.currentAttempt < job.maxAttempts) := by
        simpa [requeuesPressured] using hrequeues
      rw [if_neg hstate] at h
      rcases hrun : job.crawlRunId with _ | r
      · rw [if_neg (by rw [hrun]; simp)] at h
        cases h
        exact Or.inr ⟨rfl, rfl, Or.inl ⟨rfl, rfl⟩⟩
      · rw [if_pos (by rw [hrun]; simp)] at h
        obtain ⟨u, s₂, hfinal, h⟩ := bind_eq_ok.mp h
        cases h
        exact Or.inr ⟨rfl, rfl, Or.inr ⟨u, hfinal⟩⟩
    · have hstate : hasCheckpointForCurrentAttempt s j lease = true ∧
          job.currentAttempt < job.maxAttempts := by
        simpa [requeuesPressured] using hrequeues
      rw [if_pos hstate] at h
      rw [if_neg (by simp)] at h
      cases h
      exact Or.inl ⟨rfl, rfl, rfl⟩

/-- The storage-pressure transaction interrupts the owned job. -/
theorem requeueAfterStoragePressureTx_lifecycle
    {result : Option TerminalJobReconciliation × JobState}
    (h : requeueAfterStoragePressureTx j lease now s = .ok (result, s')) :
    ∃ job, s.jobs.find? j = some job ∧ job.state = .running ∧
      Interrupted s.lifecycle j job.crawlRunId (requeuesPressured s j lease job) s'.lifecycle := by
  obtain ⟨job, hfind, hrunning, _, hcases⟩ := requeueAfterStoragePressureTx_eq_ok h
  refine ⟨job, hfind, hrunning, ?_⟩
  rcases hcases with ⟨reconciliation, hfinish, _⟩ | ⟨hfinish, howned, hs'⟩
  · rcases finishAfterRun_lifecycle hfind hfinish with
      ⟨hnone, _⟩ | ⟨r, status, settled, hrun, hr, hset, _, hs₁⟩
    · cases hnone
    · rcases hs₁ with ⟨hsettled, _⟩ | ⟨_, hs₁⟩
      · rw [hrunning] at hsettled
        subst hsettled
        cases status <;> cases hset
      · rw [hs₁, hrun]
        exact .reconciled rfl hr hset
  · have hopen : ∀ r ∈ job.crawlRunId, ∀ status, s.lifecycle.run r = some status →
        status.terminal = false := by
      rcases finishAfterRun_lifecycle hfind hfinish with
        ⟨_, _, hopen⟩ | ⟨_, _, _, _, _, _, hsome, _⟩
      · exact hopen
      · cases hsome
    rcases hs' with ⟨hrequeues, _, rfl⟩ | ⟨hrequeues, _, ⟨hnone, rfl⟩ | ⟨u, hfinal⟩⟩
    · rw [lifecycle_settled howned]
      exact .requeued hrequeues hopen
    · rw [lifecycle_settled howned]
      exact .failed hrequeues hnone
    · obtain ⟨r, old, hr, hold, _, hs'⟩ := settled_finalizeCrawlFailure_lifecycle howned hfinal
      rw [hs']
      exact .failedWithRun hrequeues hr hold (hopen r hr old hold)

/-- The repair of a stream moves nothing. -/
theorem appendTerminalProgressIfMissing_lifecycle {terminal : ProgressTerminalState}
    (h : appendTerminalProgressIfMissing j terminal now s = .ok (u, s')) :
    s'.lifecycle = s.lifecycle := by
  unfold appendTerminalProgressIfMissing at h
  rw [read_bind] at h
  obtain ⟨_, h⟩ := require_bind_eq_ok.mp h
  obtain ⟨_, h⟩ := require_bind_eq_ok.mp h
  split at h
  · cases h
    rfl
  · exact appendProgress_lifecycle h

/-- The whole storage-pressure operation leaves the store alone or interrupts
the owned job; the repair of the progress stream does not show. -/
theorem requeueAfterStoragePressure_lifecycle (j : JobId) (lease : JobLease) (now : ℤ)
    (s : QueueStore) :
    (requeueAfterStoragePressure j lease now s).2.lifecycle = s.lifecycle ∨
    ∃ job, s.jobs.find? j = some job ∧ job.state = .running ∧
      Interrupted s.lifecycle j job.crawlRunId (requeuesPressured s j lease job)
        (requeueAfterStoragePressure j lease now s).2.lifecycle := by
  unfold requeueAfterStoragePressure
  rcases htx : requeueAfterStoragePressureTx j lease now s with e | ⟨⟨reconciliation, state⟩, s₁⟩
  · rw [commit_of_error htx]
    exact Or.inl rfl
  · rw [commit_of_ok htx]
    have heffect := requeueAfterStoragePressureTx_lifecycle htx
    cases reconciliation with
    | none => exact Or.inr heffect
    | some reconciliation =>
      dsimp only
      rcases hrepair : appendTerminalProgressIfMissing j reconciliation.progress now s₁ with
        e | ⟨_, s₂⟩
      · rw [commit_of_error hrepair]
        exact Or.inr heffect
      · rw [commit_of_ok hrepair]
        have hsame := appendTerminalProgressIfMissing_lifecycle hrepair
        dsimp only
        rw [hsame]
        exact Or.inr heffect

/-! ## Acquisition -/

/-- A checkpoint moves nothing. -/
theorem appendCheckpoint_lifecycle {attemptId : AttemptId} {identity : CheckpointIdentity}
    {createdAt : ℤ} {record : CheckpointRecord}
    (h : appendCheckpoint j attemptId lease identity createdAt s = .ok (record, s')) :
    s'.lifecycle = s.lifecycle := by
  unfold appendCheckpoint at h
  rw [read_bind] at h
  obtain ⟨_, _, h⟩ := orFail_bind_eq_ok.mp h
  obtain ⟨_, h⟩ := require_bind_eq_ok.mp h
  obtain ⟨_, h⟩ := require_bind_eq_ok.mp h
  dsimp only at h
  obtain ⟨_, h⟩ := require_bind_eq_ok.mp h
  cases h
  rfl

/-- An attempt is inserted under a new number and lease. -/
theorem insertAttempt_eq_ok {attempt : JobAttempt}
    (h : insertAttempt attempt s = .ok (u, s')) :
    s.attempts.rows.all (fun other =>
      (other.jobId != attempt.jobId || other.attemptNumber != attempt.attemptNumber) &&
        other.leaseId != attempt.leaseId) = true ∧
    ∃ attempts, s.attempts.insert? attempt = some attempts ∧ s' = { s with attempts } := by
  unfold insertAttempt at h
  rw [read_bind] at h
  obtain ⟨hunique, h⟩ := require_bind_eq_ok.mp h
  obtain ⟨attempts, hinsert, h⟩ := orFail_bind_eq_ok.mp h
  cases h
  exact ⟨hunique, attempts, hinsert, rfl⟩

/-- The attempt of a new lease on a queued job. -/
def newAttempt (job : JobRecord) (worker : String) (now : ℤ) (ids : LeaseIds) : JobAttempt :=
  { id := ids.attempt, jobId := job.id, attemptNumber := job.currentAttempt + 1
    leaseId := ids.lease, leaseGeneration := job.leaseGeneration + 1, workerId := worker
    startedAt := now, finishedAt := none, outcome := .running, failureCode := none }

/-- The store after a queued job was leased. -/
def leasedStore (job : JobRecord) (c : LeaseColumns) (now : ℤ)
    (attempts : Table JobAttempt AttemptId JobAttempt.id) (s : QueueStore) : QueueStore :=
  { s with
    attempts
    jobs := s.jobs.update (fun other => other.id = job.id && other.state = .queued) fun other =>
      { other with
        state := .running, currentAttempt := job.currentAttempt + 1
        leaseGeneration := job.leaseGeneration + 1, leaseColumns := some c
        failureCode := none, updatedAt := now } }

/-- What leasing a job demands and does. -/
theorem leaseQueuedJob_eq_ok {worker : String} {duration : ℤ} {allow : Bool}
    {ids : LeaseIds} {acquired : JobRecord × JobAttempt}
    (h : leaseQueuedJob j worker now duration allow ids s = .ok (acquired, s')) :
    ∃ job expiresAt attempts, s.jobs.find? j = some job ∧ job.state = .queued ∧
      job.scheduledAt ≤ now ∧ job.currentAttempt < job.maxAttempts ∧
      (∀ other ∈ s.attempts.rows, other.leaseId ≠ ids.lease) ∧
      s.attempts.insert? (newAttempt job worker now ids) = some attempts ∧
      s' = leasedStore job ⟨ids.lease, worker, now, expiresAt, now⟩ now attempts s := by
  obtain ⟨job, hfind, h⟩ := selectJob_bind_eq_ok.mp h
  obtain ⟨⟨hqueued, hdue, hbudget⟩, h⟩ := require_bind_eq_ok.mp h
  obtain ⟨_, h⟩ := require_bind_eq_ok.mp h
  obtain ⟨expiresAt, _, h⟩ := orFail_bind_eq_ok.mp h
  dsimp only at h
  rw [write_bind] at h
  obtain ⟨_, s₁, hinsert, h⟩ := bind_eq_ok.mp h
  obtain ⟨found, hfound, h⟩ := selectJob_bind_eq_ok.mp h
  cases h
  obtain ⟨hunique, attempts, hattempts, rfl⟩ := insertAttempt_eq_ok hinsert
  have hid := Table.key_of_find? hfind
  subst hid
  refine ⟨job, expiresAt, attempts, hfind, hqueued, hdue, hbudget, fun other hother => ?_,
    hattempts, rfl⟩
  have hdrawn := List.all_eq_true.mp hunique other hother
  rw [Bool.and_eq_true] at hdrawn
  simpa using hdrawn.2

/-- A leased job is running. -/
theorem leaseQueuedJob_lifecycle {worker : String} {duration : ℤ} {allow : Bool}
    {ids : LeaseIds} {acquired : JobRecord × JobAttempt}
    (h : leaseQueuedJob j worker now duration allow ids s = .ok (acquired, s')) :
    ∃ run, s.lifecycle.job j = some ⟨.queued, run⟩ ∧
      s'.lifecycle = s.lifecycle.moveJob j .running := by
  obtain ⟨job, expiresAt, attempts, hfind, hqueued, _, _, _, _, rfl⟩ := leaseQueuedJob_eq_ok h
  refine ⟨job.crawlRunId, by rw [lifecycle_job hfind, hqueued], ?_⟩
  have hid := Table.key_of_find? hfind
  subst hid
  exact lifecycle_move_job s (fun other => other.id = job.id && other.state = .queued)
    (fun other => { other with
      state := .running, currentAttempt := job.currentAttempt + 1
      leaseGeneration := job.leaseGeneration + 1
      leaseColumns := some ⟨ids.lease, worker, now, expiresAt, now⟩
      failureCode := none, updatedAt := now }) (fun _ => rfl) hfind (by simp [hqueued])
    (by simp +contextual) (fun _ => rfl) (fun _ => rfl)

/-- The check of the queue invariants reads only. -/
theorem ensureQueueInvariants_eq_ok (h : ensureQueueInvariants s = .ok (u, s')) : s' = s := by
  unfold ensureQueueInvariants at h
  rw [read_bind] at h
  obtain ⟨_, h⟩ := require_bind_eq_ok.mp h
  obtain ⟨_, h⟩ := require_bind_eq_ok.mp h
  obtain ⟨_, h⟩ := require_bind_eq_ok.mp h
  obtain ⟨_, h⟩ := require_bind_eq_ok.mp h
  exact (require_eq_ok.mp h).2

/-- An acquisition checks the invariants, recovers the expired leases and leases
the job it selects, if any. -/
theorem acquireNext_eq_ok {worker : String} {duration : ℤ} {allow : Bool} {ids : LeaseIds}
    {acquired : Option (JobRecord × JobAttempt)}
    (h : acquireNext worker now duration allow ids s = .ok (acquired, s')) :
    ∃ recovery s₁, recoverExpired now s = .ok (recovery, s₁) ∧
      ((selectEligibleJob s₁ now allow = none ∧ s' = s₁ ∧ acquired = none) ∨
        ∃ j leased, selectEligibleJob s₁ now allow = some j ∧ acquired = some leased ∧
          leaseQueuedJob j worker now duration allow ids s₁ = .ok (leased, s')) := by
  obtain ⟨_, h⟩ := require_bind_eq_ok.mp h
  obtain ⟨_, s₀, hinvariants, h⟩ := bind_eq_ok.mp h
  rw [ensureQueueInvariants_eq_ok hinvariants] at h
  obtain ⟨recovery, s₁, hrecover, h⟩ := bind_eq_ok.mp h
  refine ⟨recovery, s₁, hrecover, ?_⟩
  rw [read_bind] at h
  rcases hselect : selectEligibleJob s₁ now allow with _ | j
  · rw [hselect] at h
    cases h
    exact Or.inl ⟨rfl, rfl, rfl⟩
  · rw [hselect] at h
    obtain ⟨leased, s₂, hlease, h⟩ := bind_eq_ok.mp h
    cases h
    exact Or.inr ⟨j, leased, rfl, rfl, hlease⟩

/-- An acquisition recovers the expired leases and may then lease one queued
job. -/
theorem acquireNext_lifecycle {worker : String} {duration : ℤ} {allow : Bool} {ids : LeaseIds}
    {acquired : Option (JobRecord × JobAttempt)}
    (h : acquireNext worker now duration allow ids s = .ok (acquired, s')) :
    ∃ recovery s₁, recoverExpired now s = .ok (recovery, s₁) ∧
      (s'.lifecycle = s₁.lifecycle ∨ ∃ j run, s₁.lifecycle.job j = some ⟨.queued, run⟩ ∧
        s'.lifecycle = s₁.lifecycle.moveJob j .running) := by
  obtain ⟨recovery, s₁, hrecover, ⟨_, rfl, _⟩ | ⟨j, _, _, _, hlease⟩⟩ := acquireNext_eq_ok h
  · exact ⟨recovery, s', hrecover, Or.inl rfl⟩
  · obtain ⟨run, hqueued, hs'⟩ := leaseQueuedJob_lifecycle hlease
    exact ⟨recovery, s₁, hrecover, Or.inr ⟨j, run, hqueued, hs'⟩⟩

/-! ## Startup recovery -/

/-- The row names a job of a run with this status. -/
def RowOf (l : Lifecycle) (row : JobId × CrawlRunStatus) : Prop :=
  ∃ v r, l.job row.1 = some v ∧ v.run = some r ∧ l.run r = some row.2

/-- The rows of ended runs are rows of the store. -/
theorem rowOf_jobsOfTerminalRuns {row : JobId × CrawlRunStatus}
    (h : row ∈ jobsOfTerminalRuns s) : RowOf s.lifecycle row := by
  obtain ⟨job, hjob, hrow⟩ := List.mem_filterMap.mp h
  obtain ⟨run, hrun, hrow⟩ := Option.bind_eq_some_iff.mp hrow
  obtain ⟨r, hr, hrun⟩ := Option.bind_eq_some_iff.mp hrun
  have hfind := Table.find?_key ((List.mem_insertionSort _).mp hjob)
  split at hrow
  · cases hrow
    exact ⟨_, r, lifecycle_job hfind, hr, lifecycle_run hrun⟩
  · cases hrow

/-- Settling a job of an ended run keeps every row. -/
theorem RowOf.step {l l' : Lifecycle} {row : JobId × CrawlRunStatus} (h : RowOf l row)
    (hstep : ReconcileStep l l') : RowOf l' row := by
  obtain ⟨v, r, hv, hr, hstatus⟩ := h
  obtain ⟨j, _, _, settled, _, _, _, rfl⟩ := hstep
  refine ⟨if row.1 = j then { v with state := settled } else v, r, ?_, ?_, hstatus⟩
  · rw [moveJob_job, hv, Option.map_some]
  · split <;> exact hr

/-- One row is reconciled or left. -/
theorem reconcileRow_lifecycle {repairs repairs' : ProgressRepairs}
    {row : JobId × CrawlRunStatus} (hrow : RowOf s.lifecycle row)
    (h : reconcileRow now repairs row s = .ok (repairs', s')) :
    s'.lifecycle = s.lifecycle ∨ ReconcileStep s.lifecycle s'.lifecycle := by
  obtain ⟨reconciliation, s₁, hreconcile, h⟩ := bind_eq_ok.mp h
  have hs' : s' = s₁ := by
    cases reconciliation <;> cases h <;> rfl
  rw [hs']
  rcases reconcileTerminalJob_lifecycle hreconcile with ⟨_, _, hs₁⟩ | ⟨job, settled, hfind, hset, _, hs₁⟩
  · exact Or.inl (congrArg QueueStore.lifecycle hs₁)
  · obtain ⟨v, r, hv, hr, hstatus⟩ := hrow
    rw [lifecycle_job hfind] at hv
    cases hv
    rcases hs₁ with ⟨_, hs₁⟩ | ⟨hrunning, hs₁⟩
    · exact Or.inl (congrArg QueueStore.lifecycle hs₁)
    · exact Or.inr ⟨row.1, r, row.2, settled, by rw [lifecycle_job hfind, hrunning]; congr 2,
        hstatus, hset, hs₁⟩

theorem reconcileRows_lifecycle {rows : List (JobId × CrawlRunStatus)}
    {repairs repairs' : ProgressRepairs} (hrows : ∀ row ∈ rows, RowOf s.lifecycle row)
    (h : foldEach (reconcileRow now) repairs rows s = .ok (repairs', s')) :
    Relation.ReflTransGen ReconcileStep s.lifecycle s'.lifecycle := by
  induction rows generalizing repairs s with
  | nil =>
    cases h
    exact .refl
  | cons row rows ih =>
    obtain ⟨repairs₁, s₁, hrow, h⟩ := bind_eq_ok.mp h
    rcases reconcileRow_lifecycle (hrows row List.mem_cons_self) hrow with hs₁ | hs₁
    · rw [← hs₁]
      exact ih (fun row hmem => hs₁ ▸ hrows row (List.mem_cons_of_mem _ hmem)) h
    · refine .head hs₁ (ih (fun row hmem => ?_) h)
      exact (hrows row (List.mem_cons_of_mem _ hmem)).step hs₁

/-- The repairs of streams move nothing. -/
theorem repairTerminalProgress_lifecycle (now : ℤ) (repairs : ProgressRepairs)
    (s : QueueStore) : (repairTerminalProgress now repairs s).2.lifecycle = s.lifecycle := by
  induction repairs generalizing s with
  | nil => rfl
  | cons repair repairs ih =>
    obtain ⟨j, terminal⟩ := repair
    unfold repairTerminalProgress
    rcases hrepair : appendTerminalProgressIfMissing j terminal now s with e | ⟨_, s₁⟩
    · rw [commit_of_error hrepair]
    · rw [commit_of_ok hrepair]
      exact (ih s₁).trans (appendTerminalProgressIfMissing_lifecycle hrepair)

/-- The reconciliation of ended runs only settles jobs as their runs say. -/
theorem reconcileTerminalCrawlRuns_lifecycle (now : ℤ) (s : QueueStore) :
    Relation.ReflTransGen ReconcileStep s.lifecycle
      (reconcileTerminalCrawlRuns now s).2.lifecycle := by
  unfold reconcileTerminalCrawlRuns
  rcases htx : reconcileTerminalRunsTx now s with e | ⟨repairs, s₁⟩
  · rw [commit_of_error htx]
  · rw [commit_of_ok htx]
    dsimp only
    rw [repairTerminalProgress_lifecycle]
    exact reconcileRows_lifecycle (fun row hrow => rowOf_jobsOfTerminalRuns hrow) htx

/-- Startup recovery: nothing, or the expired leases and then ended runs. -/
theorem recoverStaleJobs_lifecycle (now : ℤ) (s : QueueStore) :
    (recoverStaleJobs now s).2 = s ∨ ∃ recovery s₁, recoverExpired now s = .ok (recovery, s₁) ∧
      Relation.ReflTransGen ReconcileStep s₁.lifecycle (recoverStaleJobs now s).2.lifecycle := by
  unfold recoverStaleJobs
  rcases htx : recoverStaleTx now s with e | ⟨recovery, s₁⟩
  · rw [commit_of_error htx]
    exact Or.inl rfl
  · rw [commit_of_ok htx]
    obtain ⟨_, s₀, hinvariants, hrecover⟩ := bind_eq_ok.mp htx
    have hs₀ := ensureQueueInvariants_eq_ok hinvariants
    rw [hs₀] at hrecover
    refine Or.inr ⟨recovery, s₁, hrecover, ?_⟩
    have h := reconcileTerminalCrawlRuns_lifecycle now s₁
    dsimp only
    rcases hreconcile : reconcileTerminalCrawlRuns now s₁ with ⟨e | _, s₂⟩ <;>
      rw [hreconcile] at h <;> exact h

end Erabi.Queue

/-
# Settled jobs agree with their ended runs

Startup recovery requires that every job attached to an ended run is running or
in the state the run selects.  A run that was reopened for another job, or that
another job ends, breaks this for the jobs that settled before; the condition of
each operation below says when it does not.
-/
import Mathlib
import Erabi.Queue.Recovers
import Erabi.Queue.Served

namespace Erabi.Queue

open Relational Transaction Lifecycle Transition

variable {s s' : QueueStore} {l l' : Lifecycle} {j : JobId} {now : ℤ} {op : Operation}

/-! ## The condition -/

/-- Every job of the run except `j` agrees with the status. -/
def othersAgree (s : QueueStore) (r : CrawlRunId) (j : JobId) (status : CrawlRunStatus) : Bool :=
  s.jobs.rows.all fun other => other.id = j || other.crawlRunId != some r ||
    decide (Agrees other.state status)

/-- If the run of the job is open, its other jobs agree with the status. -/
def openRunAgrees (s : QueueStore) (j : JobId) (status : CrawlRunStatus) : Bool :=
  (s.jobs.find? j).all fun job => job.crawlRunId.all fun r => (s.runs.find? r).all fun run =>
    run.status.terminal || othersAgree s r j status

/-- The job may take this state beside its run. -/
def settlesInto (s : QueueStore) (j : JobId) (state : JobState) : Bool :=
  (s.jobs.find? j).all fun job => job.crawlRunId.all fun r => (s.runs.find? r).all fun run =>
    decide (Agrees state run.status)

/-- Every job of the run agrees with the status. -/
def attachedAgree (s : QueueStore) (r : CrawlRunId) (status : CrawlRunStatus) : Bool :=
  s.jobs.rows.all fun other => other.crawlRunId != some r || decide (Agrees other.state status)

/-- Beside an expired job that will fail with its open run, the other jobs of the
run have failed or are running and are not about to be requeued themselves. -/
def expiredRunsAgree (s : QueueStore) (now : ℤ) : Bool :=
  (expiredJobs s now).all fun j => (s.jobs.find? j).all fun job => requeuesStale s job ||
    job.crawlRunId.all fun r => (s.runs.find? r).all fun run => run.status.terminal ||
      s.jobs.rows.all fun other => other.id = j || other.crawlRunId != some r ||
        other.state = .failed || (other.state = .running &&
          (!decide (other.id ∈ expiredJobs s now) || !requeuesStale s other))

/-- Whether an operation leaves the other jobs of the runs it ends, and the runs
of the job it settles, in agreement. -/
def keepsOperationReconciled (s : QueueStore) : Operation → Bool
  | .enqueue job _ => job.crawlRunId.all fun r => (s.runs.find? r).all fun run =>
      !run.status.terminal
  | .succeed j _ _ => settlesInto s j .succeeded
  | .fail j _ _ _ _ => (s.jobs.find? j).all fun job => settlesInto s j (failedState job false)
  | .failTerminal j _ _ _ => settlesInto s j .failed
  | .failTerminalProduction j _ _ _ => openRunAgrees s j .failed
  | .cancel j _ _ => openRunAgrees s j .cancelled
  | .cancelQueued j _ => (s.jobs.find? j).all fun job =>
      job.state != .queued || openRunAgrees s j .cancelled
  | .requeueAfterStoragePressure j lease _ => (s.jobs.find? j).all fun job =>
      requeuesPressured s j lease job || openRunAgrees s j .failed
  | .finalizeRun r status | .transitionExecutionStatus r status => attachedAgree s r status
  | .acquireNext _ now _ _ _ | .recoverStaleJobs now => expiredRunsAgree s now
  | _ => true

/-- The operation of a step ends no run against another of its jobs. -/
def EndsRunsInAgreement (s : QueueStore) (input : Input) : Prop :=
  ∀ op ∈ input.operation? s, keepsOperationReconciled s op = true

instance (s : QueueStore) (input : Input) : Decidable (EndsRunsInAgreement s input) := by
  unfold EndsRunsInAgreement
  infer_instance

/-- The check that the other jobs of a run agree. -/
theorem othersAgree_of {r : CrawlRunId} {status : CrawlRunStatus}
    (h : othersAgree s r j status = true) : s.lifecycle.OthersAgree r j status := by
  intro k v hkj hv hr
  obtain ⟨other, hfind, rfl⟩ := job_of_lifecycle hv
  have hother := List.all_eq_true.mp h other (Table.mem_of_find? hfind)
  have hid := Table.key_of_find? hfind
  change other.crawlRunId = some r at hr
  simpa [hid, hkj, hr] using hother

/-- The check on an open run says so of its other jobs. -/
theorem openRunAgrees_of {job : JobRecord} {r : CrawlRunId} {status old : CrawlRunStatus}
    (h : openRunAgrees s j status = true) (hjob : s.jobs.find? j = some job)
    (hr : job.crawlRunId = some r) (hold : s.lifecycle.run r = some old)
    (hopen : old.terminal = false) : s.lifecycle.OthersAgree r j status := by
  obtain ⟨run, hrun, rfl⟩ := run_of_lifecycle hold
  rw [openRunAgrees, hjob, Option.all_some, hr, Option.all_some, hrun, Option.all_some, hopen,
    Bool.false_or] at h
  exact othersAgree_of h

/-- The check that a job settles as its run says. -/
theorem settlesInto_of {state : JobState} (h : settlesInto s j state = true) :
    ∀ v r status, s.lifecycle.job j = some v → v.run = some r → s.lifecycle.run r = some status →
      Agrees state status := by
  intro v r status hv hr hstatus
  obtain ⟨job, hfind, rfl⟩ := job_of_lifecycle hv
  obtain ⟨run, hrun, rfl⟩ := run_of_lifecycle hstatus
  change job.crawlRunId = some r at hr
  rw [settlesInto, hfind, Option.all_some, hr, Option.all_some, hrun, Option.all_some,
    decide_eq_true_eq] at h
  exact h

/-- The check that all jobs of a run agree. -/
theorem attachedAgree_of {r : CrawlRunId} {status : CrawlRunStatus}
    (h : attachedAgree s r status = true) :
    ∀ k v, s.lifecycle.job k = some v → v.run = some r → Agrees v.state status := by
  intro k v hv hr
  obtain ⟨other, hfind, rfl⟩ := job_of_lifecycle hv
  have hother := List.all_eq_true.mp h other (Table.mem_of_find? hfind)
  change other.crawlRunId = some r at hr
  simpa [hr] using hother

/-! ## Interrupted jobs -/

/-- An interruption that fails a run needs its other jobs to agree. -/
theorem Interrupted.keepsReconciled {run : Option CrawlRunId} {requeues : Bool}
    (h : Interrupted l j run requeues l') (hj : l.job j = some ⟨.running, run⟩)
    (hl : l.Reconciled)
    (hothers : requeues = false → ∀ r ∈ run, ∀ status, l.run r = some status →
      status.terminal = false → l.OthersAgree r j .failed) : l'.Reconciled := by
  cases h with
  | requeued _ hopen =>
    refine hl.moveJob fun v r status hv hr hs => ?_
    rw [hj] at hv
    cases hv
    exact agrees_of_open (hopen r hr status hs)
  | failed _ hnone =>
    refine hl.moveJob fun v r status hv hr hs => ?_
    rw [hj] at hv
    cases hv
    rw [hnone] at hr
    cases hr
  | failedWithRun hrequeues hrun hold hopen =>
    refine hl.settleWithRun (agrees_settled rfl) (hothers hrequeues _ hrun _ hold hopen)
      fun v q hv hq => ?_
    rw [hj] at hv
    cases hv
    exact Option.some.inj (hq.symm.trans hrun)
  | reconciled hrun hstatus hset =>
    refine hl.moveJob fun v r status hv hr hs => ?_
    rw [hj] at hv
    cases hv
    cases hr.symm.trans hrun
    rw [hstatus] at hs
    cases hs
    exact agrees_settled hset

/-- Reconciling one job leaves jobs reconciled. -/
theorem ReconcileStep.reconciled (h : ReconcileStep l l') (hl : l.Reconciled) :
    l'.Reconciled := by
  obtain ⟨j, r, status, settled, hj, hstatus, hset, rfl⟩ := h
  have hend : Interrupted l j (some r) true (l.moveJob j settled) :=
    .reconciled rfl hstatus hset
  exact hend.keepsReconciled hj hl fun e => by cases e

/-! ## The recovery of expired leases -/

/-- The condition on the expired jobs that are still to be handled. -/
def ExpiredAgree (rest : List JobId) (s : QueueStore) : Prop :=
  ∀ j ∈ rest, ∀ job, s.jobs.find? j = some job → requeuesStale s job = false →
    ∀ r status, job.crawlRunId = some r → s.lifecycle.run r = some status →
      status.terminal = false → ∀ k other, k ≠ j → s.jobs.find? k = some other →
        other.crawlRunId = some r → other.state = .failed ∨
          (other.state = .running ∧ (k ∈ rest → requeuesStale s other = false))

/-- The check on the runs of expired jobs. -/
theorem expiredAgree_of (h : expiredRunsAgree s now = true) :
    ExpiredAgree (expiredJobs s now) s := by
  intro j hj job hjob hrequeues r status hr hstatus hopen k other hkj hother hrun
  obtain ⟨run, hfind, rfl⟩ := run_of_lifecycle hstatus
  have hall := List.all_eq_true.mp h j hj
  rw [hjob, Option.all_some, hrequeues, Bool.false_or, hr, Option.all_some, hfind,
    Option.all_some, hopen, Bool.false_or] at hall
  have hrow := List.all_eq_true.mp hall other (Table.mem_of_find? hother)
  have hid := Table.key_of_find? hother
  simp only [hid, hkj, decide_false, Bool.false_or, hrun, bne_self_eq_false, Bool.or_eq_true,
    Bool.and_eq_true, decide_eq_true_eq, Bool.not_eq_true', decide_eq_false_iff_not] at hrow
  rcases hrow with hfailed | ⟨hrunning, hnot | hnot⟩
  · exact Or.inl hfailed
  · exact Or.inr ⟨hrunning, fun hmem => absurd hmem hnot⟩
  · exact Or.inr ⟨hrunning, fun _ => hnot⟩

/-- A round never opens a run. -/
theorem Interrupted.run_open {run : Option CrawlRunId} {requeues : Bool}
    (h : Interrupted l j run requeues l') {r : CrawlRunId} {status : CrawlRunStatus}
    (hr : l'.run r = some status) (hopen : status.terminal = false) : l.run r = some status := by
  cases h with
  | requeued | failed | reconciled => exact hr
  | failedWithRun =>
    obtain ⟨before, hbefore, rfl⟩ := run_of_setRun hr
    split at hopen
    · cases hopen
    · rename_i hne
      rw [if_neg hne]
      exact hbefore

/-- An interrupted job keeps its run. -/
theorem Interrupted.run_kept {run : Option CrawlRunId} {requeues : Bool}
    (h : Interrupted l j run requeues l') (hj : l.job j = some ⟨.running, run⟩) {v : JobView}
    (hv : l'.job j = some v) {r : CrawlRunId} (hr : v.run = some r) : run = some r := by
  have hmoved : ∀ state, (l.moveJob j state).job j = some v → run = some r := by
    intro state hm
    obtain ⟨w, hw, hrun, _⟩ := job_of_moveJob hm
    rw [hj] at hw
    cases hw
    exact hrun.symm.trans hr
  cases h with
  | requeued | failed | reconciled => exact hmoved _ hv
  | failedWithRun => exact hmoved _ hv

/-- An interrupted job that is not requeued leaves its run ended. -/
theorem Interrupted.not_open {run : Option CrawlRunId} {requeues : Bool}
    (h : Interrupted l j run requeues l') (hrequeues : requeues = false) {r : CrawlRunId}
    (hrun : run = some r) {status : CrawlRunStatus} (hopen : status.terminal = false) :
    l'.run r ≠ some status := by
  intro hr
  have hbefore := h.run_open hr hopen
  cases h with
  | requeued hyes =>
    rw [hrequeues] at hyes
    cases hyes
  | failed _ hnone =>
    rw [hrun] at hnone
    cases hnone
  | failedWithRun _ hrun' hold =>
    cases hrun.symm.trans hrun'
    rw [setRun_run, moveJob_run, hold, Option.map_some, if_pos rfl] at hr
    cases hr
    cases hopen
  | reconciled hrun' hstatus hset =>
    cases hrun.symm.trans hrun'
    rw [hbefore] at hstatus
    cases hstatus
    rw [settledState_of_open hopen] at hset
    cases hset

/-- One round keeps the agreement, and the condition of the remaining rounds. -/
theorem recoverExpiredJob_reconciled {rest : List JobId} (hj : j ∉ rest)
    {recovery recovery' : StaleJobRecovery} (hl : s.lifecycle.Reconciled)
    (hagree : ExpiredAgree (j :: rest) s)
    (h : recoverExpiredJob now recovery j s = .ok (recovery', s')) :
    s'.lifecycle.Reconciled ∧ ExpiredAgree rest s' := by
  have hothers := recoverExpiredJob_othersUnchanged h
  rcases recoverExpiredJob_lifecycle h with hsame | ⟨job, hjob, hrunning, hend⟩
  · rw [hsame]
    refine ⟨hl, ?_⟩
    intro i hi row hrow hrequeues r status hr hstatus hopen k other hki hother hrun
    have hij : i ≠ j := fun e => hj (e ▸ hi)
    rw [hothers.jobs i hij] at hrow
    have hrowId := Table.key_of_find? hrow
    rw [hothers.requeuesStale (hrowId ▸ hij)] at hrequeues
    rw [hsame] at hstatus
    by_cases hkj : k = j
    · -- the job of this round kept its state and its run
      subst hkj
      obtain ⟨before, hbefore, hview⟩ := job_of_lifecycle (hsame ▸ lifecycle_job hother)
      have hold := hagree i (List.mem_cons_of_mem _ hi) row hrow hrequeues r status hr hstatus hopen
        k before hki hbefore ((JobView.mk.inj hview).2 ▸ hrun)
      rw [← (JobView.mk.inj hview).1] at hold
      rcases hold with hfailed | ⟨hrun', _⟩
      · exact Or.inl hfailed
      · exact Or.inr ⟨hrun', fun hmem => absurd hmem hj⟩
    · rw [hothers.jobs k hkj] at hother
      have hotherId := Table.key_of_find? hother
      rw [hothers.requeuesStale (hotherId ▸ hkj)]
      rcases hagree i (List.mem_cons_of_mem _ hi) row hrow hrequeues r status hr hstatus hopen
        k other hki hother hrun with hfailed | ⟨hrun', hrest⟩
      · exact Or.inl hfailed
      · exact Or.inr ⟨hrun', fun hmem => hrest (List.mem_cons_of_mem _ hmem)⟩
  · have hview : s.lifecycle.job j = some ⟨.running, job.crawlRunId⟩ := by
      rw [lifecycle_job hjob, hrunning]
    constructor
    · refine hend.keepsReconciled hview hl fun hrequeues r hr status hstatus hopen => ?_
      intro k v hkj hv hvr
      obtain ⟨other, hother, rfl⟩ := job_of_lifecycle hv
      rcases hagree j List.mem_cons_self job hjob hrequeues r status hr hstatus hopen k other hkj
        hother hvr with hfailed | ⟨hrun', _⟩
      · exact hfailed ▸ agrees_settled rfl
      · exact hrun' ▸ agrees_running _
    · intro i hi row hrow hrequeues r status hr hstatus hopen k other hki hother hrun
      have hij : i ≠ j := fun e => hj (e ▸ hi)
      rw [hothers.jobs i hij] at hrow
      have hrowId := Table.key_of_find? hrow
      rw [hothers.requeuesStale (hrowId ▸ hij)] at hrequeues
      have hbefore := hend.run_open hstatus hopen
      by_cases hkj : k = j
      · -- the run is still open, so this round requeued its job or left the run alone
        subst hkj
        have hafter := lifecycle_job hother
        have hjobRun : job.crawlRunId = some r := hend.run_kept hview hafter hrun
        rcases hagree i (List.mem_cons_of_mem _ hi) row hrow hrequeues r status hr hbefore hopen
          k job hki hjob hjobRun with hfailed | ⟨_, hrest⟩
        · rw [hfailed] at hrunning
          cases hrunning
        · have hfails := hrest List.mem_cons_self
          exact absurd hstatus (hend.not_open hfails hjobRun hopen)
      · rw [hothers.jobs k hkj] at hother
        have hotherId := Table.key_of_find? hother
        rw [hothers.requeuesStale (hotherId ▸ hkj)]
        rcases hagree i (List.mem_cons_of_mem _ hi) row hrow hrequeues r status hr hbefore hopen
          k other hki hother hrun with hfailed | ⟨hrun', hrest⟩
        · exact Or.inl hfailed
        · exact Or.inr ⟨hrun', fun hmem => hrest (List.mem_cons_of_mem _ hmem)⟩

/-- The recovery of expired jobs, one after another. -/
theorem recoverExpiredLoop_reconciled {rest : List JobId} (hnodup : rest.Nodup)
    {recovery recovery' : StaleJobRecovery} (hl : s.lifecycle.Reconciled)
    (hagree : ExpiredAgree rest s)
    (h : foldEach (recoverExpiredJob now) recovery rest s = .ok (recovery', s')) :
    s'.lifecycle.Reconciled := by
  induction rest generalizing s recovery with
  | nil =>
    cases h
    exact hl
  | cons j rest ih =>
    obtain ⟨hj, hrest⟩ := List.nodup_cons.mp hnodup
    obtain ⟨recovery₁, s₁, hround, h⟩ := bind_eq_ok.mp h
    obtain ⟨hl₁, hagree₁⟩ := recoverExpiredJob_reconciled hj hl hagree hround
    exact ih hrest hl₁ hagree₁ h

/-- Recovery of expired jobs leaves jobs reconciled when their runs agree. -/
theorem recoverExpired_reconciled {recovery : StaleJobRecovery} (hl : s.lifecycle.Reconciled)
    (hagree : expiredRunsAgree s now = true)
    (h : recoverExpired now s = .ok (recovery, s')) : s'.lifecycle.Reconciled :=
  recoverExpiredLoop_reconciled (expiredJobs_nodup s now) hl (expiredAgree_of hagree) h

/-! ## Every operation -/

/-- What a cancelled execution leaves agrees with its run. -/
theorem cancelledState_agrees (status : CrawlRunStatus) :
    Agrees (cancelledState (some status))
      (if status.terminal = false then .cancelled else status) := by
  cases status <;> exact agrees_settled rfl

/-- An operation that ends no run in disagreement leaves jobs reconciled. -/
theorem Effect.reconciledRuns (h : Effect s op l) (hattached : s.lifecycle.Attached)
    (hl : s.lifecycle.Reconciled) (hkeeps : keepsOperationReconciled s op = true) :
    l.Reconciled := by
  cases h with
  | unchanged => exact hl
  | created hrun _ =>
    refine (hl.addRun hrun hattached).addJob fun q hq status hstatus => ?_
    cases hq
    rw [addRun_run, if_pos rfl] at hstatus
    cases hstatus
    rfl
  | enqueued _ _ =>
    refine hl.addJob fun r hr status hstatus => ?_
    obtain ⟨run, hrun, rfl⟩ := run_of_lifecycle hstatus
    rw [keepsOperationReconciled, Option.mem_def.mp hr, Option.all_some, hrun, Option.all_some,
      Bool.not_eq_true'] at hkeeps
    exact hkeeps
  | succeeded => exact hl.moveJob (settlesInto_of hkeeps)
  | failed hjob _ =>
    rw [keepsOperationReconciled, hjob, Option.all_some] at hkeeps
    exact hl.moveJob (settlesInto_of hkeeps)
  | failedTerminally => exact hl.moveJob (settlesInto_of hkeeps)
  | @failedWithRun j _ _ _ r old hj hold hallowed =>
    refine hl.settleWithRun (agrees_settled rfl) ?_ fun v q hv hq => ?_
    · obtain ⟨job, hjob, hview⟩ := job_of_lifecycle hj
      have hr : job.crawlRunId = some r := (JobView.mk.inj hview).2.symm
      rcases hopen : old.terminal with _ | _
      · exact openRunAgrees_of hkeeps hjob hr hold hopen
      · -- an ended run that may still be failed has failed already
        intro k v _ hv hvr
        have hfailed : old = .failed := by
          cases old <;> first | rfl | exact absurd hopen (by decide) | exact absurd hallowed (by decide)
        exact hfailed ▸ hl k v r old hv hvr hold
    · rw [hj] at hv
      cases hv
      exact (Option.some.inj hq).symm
  | @cancelled j _ _ run hj =>
    obtain ⟨job, hjob, hview⟩ := job_of_lifecycle hj
    have hr : job.crawlRunId = run := (JobView.mk.inj hview).2.symm
    refine hl.settleAndCancel (fun v hv => ?_) (fun r hrun status hstatus => ?_)
      fun r hrun status hstatus hopen => ?_
    · rw [hj] at hv
      cases hv
      rfl
    · rw [Option.mem_def.mp hrun, Option.bind_some, hstatus]
      exact cancelledState_agrees status
    · exact openRunAgrees_of hkeeps hjob (hr.trans hrun) hstatus hopen
  | @cancelledQueued j _ run hj =>
    obtain ⟨job, hjob, hview⟩ := job_of_lifecycle hj
    have hr : job.crawlRunId = run := (JobView.mk.inj hview).2.symm
    have hqueued : job.state = .queued := (JobView.mk.inj hview).1.symm
    rw [keepsOperationReconciled, hjob, Option.all_some, hqueued, bne_self_eq_false,
      Bool.false_or] at hkeeps
    refine hl.settleAndCancel (fun v hv => ?_) (fun r hrun status hstatus => ?_)
      fun r hrun status hstatus hopen => ?_
    · rw [hj] at hv
      cases hv
      rfl
    · -- a queued job is attached to an open run
      rw [if_pos (open_of_agrees_queued (hl j _ r status hj hrun hstatus))]
      exact agrees_settled rfl
    · exact openRunAgrees_of hkeeps hjob (hr.trans hrun) hstatus hopen
  | interrupted hjob hrunning hend =>
    refine hend.keepsReconciled (by rw [lifecycle_job hjob, hrunning]) hl
      fun hrequeues r hr status hstatus hopen => ?_
    rw [keepsOperationReconciled, hjob, Option.all_some, hrequeues, Bool.false_or] at hkeeps
    exact openRunAgrees_of hkeeps hjob hr hstatus hopen
  | reconciled hstep => exact hstep.reconciled hl
  | removed => exact hl.dropJob
  | child _ _ hassociation _ _ =>
    cases hassociation with
    | none => exact hl.addJob fun _ hr => by cases hr
    | sameSourceRun _ _ _ =>
      refine (hl.setRun fun _ _ _ _ => agrees_of_open rfl).addJob fun q hq status hstatus => ?_
      cases hq
      obtain ⟨before, _, rfl⟩ := run_of_setRun hstatus
      rw [if_pos rfl]
      rfl
    | newIndependentRun hrun =>
      refine (hl.addRun hrun hattached).addJob fun q hq status hstatus => ?_
      cases hq
      rw [addRun_run, if_pos rfl] at hstatus
      cases hstatus
      rfl
  | finalized | transitioned => exact hl.setRun (attachedAgree_of hkeeps)
  | reopenedForRecovery | reopenedForRestart =>
    exact hl.setRun fun _ _ _ _ => agrees_of_open rfl
  | acquired hrecover hs' =>
    have hs₁ := recoverExpired_reconciled hl hkeeps hrecover
    rcases hs' with rfl | ⟨_, _, _, rfl⟩
    · exact hs₁
    · exact hs₁.moveJob fun _ _ status _ _ _ => agrees_running status
  | recovered hrecover hrows =>
    exact keeps_of_reflTransGen (fun _ _ hstep ha => hstep.reconciled ha) hrows
      (recoverExpired_reconciled hl hkeeps hrecover)

theorem step_reconciled (s : QueueStore) (input : Input) (hattached : s.lifecycle.Attached)
    (hl : s.lifecycle.Reconciled) (hkeeps : EndsRunsInAgreement s input) :
    (step s input).lifecycle.Reconciled :=
  step_induction (P := fun s => s.lifecycle.Reconciled) hl
    fun op hop => (apply_effect s op).reconciledRuns hattached hl (hkeeps op hop)

/-! ## Startup recovery returns -/

/-- Reconciled rows are settled without a failure. -/
theorem reconcileRows_ok {rows : List (JobId × CrawlRunStatus)} {repairs : ProgressRepairs}
    (hs : Consistent s) (hl : s.lifecycle.Reconciled)
    (hrows : ∀ row ∈ rows, RowOf s.lifecycle row) :
    ∃ repairs' s', foldEach (reconcileRow now) repairs rows s = .ok (repairs', s') := by
  induction rows generalizing s repairs with
  | nil => exact ⟨repairs, s, rfl⟩
  | cons row rows ih =>
    have hrow := hrows row List.mem_cons_self
    obtain ⟨v, r, hv, hr, hstatus⟩ := hrow
    obtain ⟨job, hjob, rfl⟩ := job_of_lifecycle hv
    obtain ⟨reconciliation, s₁, hreconcile⟩ :=
      reconcileTerminalJob_ok now hs hjob (hl row.1 _ r row.2 hv hr hstatus)
    obtain ⟨repairs₁, hround⟩ : ∃ repairs₁,
        reconcileRow now repairs row s = .ok (repairs₁, s₁) := by
      cases reconciliation with
      | none => exact ⟨_, bind_eq_ok.mpr ⟨none, s₁, hreconcile, rfl⟩⟩
      | some result => exact ⟨_, bind_eq_ok.mpr ⟨some result, s₁, hreconcile, rfl⟩⟩
    have hs₁ := (reconcileTerminalJob_kept Consistent.maintained hs hreconcile).1
    obtain ⟨repairs', s', hrest⟩ : ∃ repairs' s',
        foldEach (reconcileRow now) repairs₁ rows s₁ = .ok (repairs', s') := by
      rcases reconcileRow_lifecycle (hrows row List.mem_cons_self) hround with hsame | hstep
      · exact ih hs₁ (hsame ▸ hl) fun other hmem =>
          hsame ▸ hrows other (List.mem_cons_of_mem _ hmem)
      · exact ih hs₁ (hstep.reconciled hl) fun other hmem =>
          (hrows other (List.mem_cons_of_mem _ hmem)).step hstep
    exact ⟨repairs', s', bind_eq_ok.mpr ⟨repairs₁, s₁, hround, hrest⟩⟩

/-- The repairs of streams do not fail. -/
theorem repairTerminalProgress_ok (now : ℤ) {repairs : ProgressRepairs} (hs : Consistent s)
    (hrepairs : ∀ repair ∈ repairs, RepairOf s repair) :
    ∃ s', repairTerminalProgress now repairs s = (.ok (), s') := by
  induction repairs generalizing s with
  | nil => exact ⟨s, rfl⟩
  | cons repair repairs ih =>
    obtain ⟨j, terminal⟩ := repair
    have hrepair := hrepairs (j, terminal) List.mem_cons_self
    obtain ⟨s₁, happend⟩ := appendTerminalProgressIfMissing_ok now hs hrepair
    obtain ⟨job, hfind, hterminal⟩ := hrepair
    have hjobs := appendTerminalProgressIfMissing_jobs happend
    obtain ⟨s', hrest⟩ := ih
      (appendTerminalProgressIfMissing_consistent hs hfind hterminal happend) fun other hmem => by
        obtain ⟨row, hrow, hstate⟩ := hrepairs other (List.mem_cons_of_mem _ hmem)
        exact ⟨row, hjobs ▸ hrow, hstate⟩
    refine ⟨s', ?_⟩
    unfold repairTerminalProgress
    rw [commit_of_ok happend]
    exact hrest

/-- Startup recovery returns when the settled jobs agree with their ended runs
and the expired jobs leave it so. -/
theorem recoverStaleJobs_ok (hs : Consistent s) (hattached : s.lifecycle.Attached)
    (hl : s.lifecycle.Reconciled) (hagree : expiredRunsAgree s now = true) :
    ∃ recovery s', recoverStaleJobs now s = (.ok recovery, s') := by
  obtain ⟨recovery, s₁, hrecover⟩ := recoverExpired_ok now hs hattached
  have hs₁ := recoverExpired_kept Consistent.maintained hs hrecover
  have hl₁ := recoverExpired_reconciled hl hagree hrecover
  obtain ⟨repairs, s₂, htx⟩ : ∃ repairs s₂, reconcileTerminalRunsTx now s₁ = .ok (repairs, s₂) :=
    reconcileRows_ok hs₁ hl₁ fun row hrow => rowOf_jobsOfTerminalRuns hrow
  obtain ⟨hs₂, hrepairs⟩ := reconcileRows_kept Consistent.maintained hs₁ (fun _ h => by cases h) htx
  obtain ⟨s', hrepair⟩ := repairTerminalProgress_ok now hs₂ hrepairs
  refine ⟨recovery, s', ?_⟩
  have hstale : recoverStaleTx now s = .ok (recovery, s₁) :=
    bind_eq_ok.mpr ⟨(), s, hs.ensureQueueInvariants, hrecover⟩
  unfold recoverStaleJobs reconcileTerminalCrawlRuns
  rw [commit_of_ok hstale]
  dsimp only
  rw [commit_of_ok htx]
  dsimp only
  rw [hrepair]

theorem empty_reconciled : QueueStore.empty.lifecycle.Reconciled := by
  intro j v r status h
  cases h

/-- In every run whose operations meet the condition, every job of an ended run
is running or in the state the run selects, and startup recovery returns. -/
theorem recoverable_throughout (inputs : List Input)
    (h : Meets step EndsRunsInAgreement .empty inputs) :
    Throughout step (fun s => s.lifecycle.Reconciled ∧
      ∀ now, expiredRunsAgree s now = true →
        ∃ recovery s', recoverStaleJobs now s = (.ok recovery, s')) .empty inputs := by
  have hI : ∀ s input, (s.lifecycle.Attached ∧ Consistent s) →
      (step s input).lifecycle.Attached ∧ Consistent (step s input) :=
    fun s input hs => ⟨step_attached s input hs.1, step_consistent s input hs.2⟩
  have hP : ∀ s : QueueStore, (s.lifecycle.Attached ∧ Consistent s) → s.lifecycle.Reconciled →
      s.lifecycle.Reconciled ∧ ∀ now, expiredRunsAgree s now = true →
        ∃ recovery s', recoverStaleJobs now s = (.ok recovery, s') :=
    fun s hs hl => ⟨hl, fun now hagree => recoverStaleJobs_ok hs.2 hs.1 hl hagree⟩
  refine throughout_of_meets hI (fun s input hs hl hkeeps => ?_) ⟨empty_attached, .empty⟩
    (hP _ ⟨empty_attached, .empty⟩ empty_reconciled) h
  exact hP _ (hI s input hs) (step_reconciled s input hs.1 hl.1 hkeeps)

/-! ## A failed job whose run was reopened and succeeded -/

/-- The lease of the second acquisition of the run below. -/
def restartedLease : JobLease := ⟨101, "a", 1, 0, 60, 0⟩

/-- Job 10 fails with its run, is restarted as job 11 on the same run, and the
restart succeeds. -/
def restartedAfterFailure : List Input :=
  [.operation (.createQuickScrapeRun 1 quickScrapeSnapshot (quickScrapeJob 10 1) 0),
    .operation (.acquireNext "a" 0 60 true ⟨100, 200⟩),
    .operation (.finalizeRun 1 .failed),
    .operation (.fail 10 ⟨100, "a", 1, 0, 60, 0⟩ 0 .handlerFailed 0),
    .action .restartFromBeginning 10 11 0,
    .operation (.acquireNext "a" 0 60 true ⟨101, 201⟩),
    .operation (.finalizeRun 1 .succeeded),
    .operation (.succeed 11 restartedLease 0)]

/-- A run cut short before its restart disagrees. -/
theorem recoverable_throughout_restart :
    Throughout step (fun s => s.lifecycle.Reconciled ∧
      ∀ now, expiredRunsAgree s now = true →
        ∃ recovery s', recoverStaleJobs now s = (.ok recovery, s')) .empty
      (restartedAfterFailure.take 6) :=
  recoverable_throughout (restartedAfterFailure.take 6) (by decide +kernel)

/-- Every later startup recovery fails: job 10 has failed and its run succeeded. -/
theorem restartedAfterFailure_unrecoverable :
    (recoverStaleJobs 100 (after step .empty restartedAfterFailure)).1 =
      .error .queueInvariant ∧
    ¬ (after step .empty restartedAfterFailure).lifecycle.Reconciled := by
  constructor
  · decide +kernel
  · intro h
    have hjob : (after step .empty restartedAfterFailure).lifecycle.job 10 =
        some ⟨.failed, some 1⟩ := by
      decide +kernel
    have hrun : (after step .empty restartedAfterFailure).lifecycle.run 1 = some .succeeded := by
      decide +kernel
    exact absurd (h 10 _ 1 .succeeded hjob rfl hrun) (by decide)

end Erabi.Queue

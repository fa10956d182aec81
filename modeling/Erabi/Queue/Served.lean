/-
# Open runs have an active job

Cancellation, production failure, expiry and storage pressure close the run of a
job together with the job.  Success and the generic failure close only the job;
they rely on the handler having closed the run before it returned, which no
operation checks.
-/
import Mathlib
import Erabi.Queue.Exclusive

namespace Erabi.Queue

open Relational Transaction Lifecycle Transition

variable {s : QueueStore} {l l' : Lifecycle} {op : Operation}

/-! ## The condition -/

/-- Whether the run of the job, if it has one, has ended or has another active
job. -/
def settlesWithoutRun (s : QueueStore) (j : JobId) : Bool :=
  (s.jobs.find? j).all fun job => job.crawlRunId.all fun r => (s.runs.find? r).all fun run =>
    run.status.terminal || s.jobs.rows.any fun other =>
      other.id ≠ j && (other.crawlRunId = some r && other.state.active)

/-- Whether a failure leaves attempts, so that the job goes back to the queue. -/
def requeuesFailure (s : QueueStore) (j : JobId) : Bool :=
  (s.jobs.find? j).all fun job => job.currentAttempt < job.maxAttempts

/-- Whether an operation that settles only its job finds the run closed, and one
that reopens a run finds an active job for it. -/
def keepsOperationServed (s : QueueStore) : Operation → Bool
  | .succeed j _ _ | .failTerminal j _ _ _ => settlesWithoutRun s j
  | .fail j _ _ _ _ => requeuesFailure s j || settlesWithoutRun s j
  | .transitionRecoveryStatus r | .transitionRestartStatus r => hasActiveJob s r
  | _ => true

/-- The operation of a step leaves no open run without an active job. -/
def SettlesClosedRuns (s : QueueStore) (input : Input) : Prop :=
  ∀ op ∈ input.operation? s, keepsOperationServed s op = true

instance (s : QueueStore) (input : Input) : Decidable (SettlesClosedRuns s input) := by
  unfold SettlesClosedRuns
  infer_instance

/-- The check for an active job finds one. -/
theorem activeOn_of_hasActiveJob {r : CrawlRunId} (h : hasActiveJob s r = true) :
    ∃ k, s.lifecycle.ActiveOn r k := by
  obtain ⟨job, hmem, hjob⟩ := List.any_eq_true.mp h
  rw [Bool.and_eq_true, decide_eq_true_eq] at hjob
  exact ⟨job.id, activeOn_iff.mpr ⟨job, Table.find?_key hmem, hjob⟩⟩

/-- What the condition on a settling job means for the lifecycle. -/
theorem otherActive_of_settlesWithoutRun {j : JobId} (h : settlesWithoutRun s j = true) :
    ∀ v r status, s.lifecycle.job j = some v → v.run = some r →
      s.lifecycle.run r = some status → status.terminal = false →
      ∃ k, k ≠ j ∧ s.lifecycle.ActiveOn r k := by
  intro v r status hv hr hstatus hopen
  obtain ⟨job, hfind, rfl⟩ := job_of_lifecycle hv
  obtain ⟨run, hrun, rfl⟩ := run_of_lifecycle hstatus
  change job.crawlRunId = some r at hr
  rw [settlesWithoutRun, hfind, Option.all_some, hr, Option.all_some, hrun, Option.all_some,
    hopen, Bool.false_or] at h
  obtain ⟨other, hmem, hother⟩ := List.any_eq_true.mp h
  rw [Bool.and_eq_true, Bool.and_eq_true, decide_eq_true_eq, decide_eq_true_eq] at hother
  exact ⟨other.id, hother.1, activeOn_iff.mpr ⟨other, Table.find?_key hmem, hother.2⟩⟩

/-! ## What keeps open runs served -/

/-- An interruption leaves runs served. -/
theorem Interrupted.served {j : JobId} {run : Option CrawlRunId} {requeues : Bool}
    (h : Interrupted l j run requeues l') (hj : l.job j = some ⟨.running, run⟩)
    (hl : l.Served) : l'.Served := by
  cases h with
  | requeued => exact hl.moveJob (Or.inl rfl)
  | failed _ hnone =>
    refine hl.moveJob (Or.inr fun v r status hv hr => ?_)
    rw [hj] at hv
    cases hv
    rw [hnone] at hr
    cases hr
  | failedWithRun _ hrun =>
    refine hl.settleWithRun rfl fun v q hv hq => ?_
    rw [hj] at hv
    cases hv
    exact Option.some.inj (hq.symm.trans hrun)
  | reconciled hrun hstatus hset =>
    refine hl.moveJob (Or.inr fun v r status hv hr hs hopen => ?_)
    rw [hj] at hv
    cases hv
    cases hr.symm.trans hrun
    rw [hstatus] at hs
    cases hs
    rw [settledState_of_open hopen] at hset
    cases hset

/-- Reconciling leaves runs served. -/
theorem ReconcileStep.served (h : ReconcileStep l l') (hl : l.Served) : l'.Served := by
  obtain ⟨j, r, status, settled, hj, hstatus, hset, rfl⟩ := h
  have hend : Interrupted l j (some r) false (l.moveJob j settled) :=
    .reconciled rfl hstatus hset
  exact hend.served hj hl

/-- Recovery leaves runs served. -/
theorem recoverExpired_served {now : ℤ} {recovery : StaleJobRecovery} {s' : QueueStore}
    (h : recoverExpired now s = .ok (recovery, s')) (hl : s.lifecycle.Served) :
    s'.lifecycle.Served :=
  keeps_of_reflTransGen (fun _ _ ⟨_, _, _, hj, hend⟩ ha => hend.served hj ha)
    (recoverExpired_lifecycle h) hl

/-- A new job serves the run it is created with or attached to. -/
theorem Served.attach {r : CrawlRunId} {j : JobId} (hl : l.Served)
    (hjob : ∀ k, l'.job k = l.job k) (hrun : ∀ q, q ≠ r → l'.run q = l.run q)
    (hj : l'.job j = none) : (l'.addJob j (some r)).Served := by
  refine Served.addJob_of_run hj fun q status hqr hq hopen => ?_
  rw [hrun q hqr] at hq
  obtain ⟨k, v, hk, hv⟩ := hl q status hq hopen
  exact ⟨k, v, (hjob k).trans hk, hv⟩

/-- An operation that settles only closed runs leaves runs served. -/
theorem Effect.served (h : Effect s op l) (hl : s.lifecycle.Served)
    (hkeeps : keepsOperationServed s op = true) : l.Served := by
  cases h with
  | unchanged => exact hl
  | created hrun hj =>
    exact Served.attach hl (fun _ => rfl) (fun q hqr => if_neg (Ne.symm hqr)) hj
  | enqueued hj _ => exact hl.addJob hj
  | succeeded => exact hl.moveJob (Or.inr (otherActive_of_settlesWithoutRun hkeeps))
  -- the job is put back, or another one of its run is active
  | @failed j _ _ _ _ job hfind hrunning =>
    rcases Bool.or_eq_true _ _ |>.mp hkeeps with hrequeues | hsettles
    · rw [requeuesFailure, hfind, Option.all_some, decide_eq_true_eq] at hrequeues
      exact hl.moveJob (Or.inl (by rw [failedState, if_pos ⟨rfl, hrequeues⟩]; rfl))
    · exact hl.moveJob (Or.inr (otherActive_of_settlesWithoutRun hsettles))
  | failedTerminally => exact hl.moveJob (Or.inr (otherActive_of_settlesWithoutRun hkeeps))
  | failedWithRun hj _ _ =>
    refine hl.settleWithRun rfl fun v q hv hq => ?_
    rw [hj] at hv
    cases hv
    exact (Option.some.inj hq).symm
  | cancelled hj =>
    refine hl.settleAndCancel fun v hv => ?_
    rw [hj] at hv
    cases hv
    rfl
  | cancelledQueued hj =>
    refine hl.settleAndCancel fun v hv => ?_
    rw [hj] at hv
    cases hv
    rfl
  | interrupted hfind hrunning hend =>
    exact hend.served (by rw [lifecycle_job hfind, hrunning]) hl
  | reconciled hstep => exact hstep.served hl
  -- only a job without a run may be removed
  | removed hj =>
    refine hl.dropJob fun v hv => ?_
    rw [hj] at hv
    cases hv
    rfl
  | child hsource _ hassociation hj _ =>
    cases hassociation with
    | none => exact hl.addJob hj
    | sameSourceRun _ _ _ =>
      refine Served.attach hl (fun _ => rfl) (fun q hqr => ?_) hj
      rw [setRun_run]
      simp [hqr]
    | newIndependentRun _ =>
      exact Served.attach hl (fun _ => rfl) (fun q hqr => if_neg (Ne.symm hqr)) hj
  -- a run that stays open was open before, so it had its active job
  | @finalized r status old hold hallowed =>
    refine hl.setRun ?_
    rcases hstatus : status.terminal with _ | _
    · refine Or.inr (hl r old hold ?_)
      rcases hallowed with hopen | rfl
      · exact hopen
      · exact hstatus
    · exact Or.inl rfl
  | @transitioned r status old hold hallowed =>
    refine hl.setRun ?_
    rcases hstatus : status.terminal with _ | _
    · refine Or.inr (hl r old hold ?_)
      cases status with
      | running => cases old <;> first | rfl | cases hallowed
      | queued => cases hallowed
      | succeeded | partialResult | failed | cancelled => cases hstatus
    · exact Or.inl rfl
  | reopenedForRecovery => exact hl.setRun (Or.inr (activeOn_of_hasActiveJob hkeeps))
  | reopenedForRestart => exact hl.setRun (Or.inr (activeOn_of_hasActiveJob hkeeps))
  | acquired hrecover hs' =>
    have hs₁ := recoverExpired_served hrecover hl
    rcases hs' with rfl | ⟨_, _, _, rfl⟩
    · exact hs₁
    · exact hs₁.moveJob (Or.inl rfl)
  | recovered hrecover hrows =>
    exact keeps_of_reflTransGen (fun _ _ hstep ha => hstep.served ha) hrows
      (recoverExpired_served hrecover hl)

theorem step_served (s : QueueStore) (input : Input) (hl : s.lifecycle.Served)
    (hkeeps : SettlesClosedRuns s input) : (step s input).lifecycle.Served :=
  step_induction (P := fun s => s.lifecycle.Served) hl
    fun op hop => (apply_effect s op).served hl (hkeeps op hop)

theorem empty_served : QueueStore.empty.lifecycle.Served := by
  intro r status h
  cases h

/-- In every run that settles a job alone only when its run is closed or served
by another job, no run is ever left open without an active job. -/
theorem served_throughout (inputs : List Input)
    (h : Meets step SettlesClosedRuns .empty inputs) :
    Throughout step (fun s => s.lifecycle.Served) .empty inputs :=
  throughout_of_meets (I := fun _ => True) (fun _ _ _ => trivial)
    (fun s input _ hl hkeeps => step_served s input hl hkeeps) trivial empty_served h

/-! ## A panic after the run was opened -/

/-- The lease of the first acquisition of the run below. -/
def panickedLease : JobLease := ⟨100, "a", 1, 0, 60, 0⟩

/-- A quick scrape with one attempt opens its run and panics. -/
def panickedQuickScrape : List Input :=
  [.operation (.createQuickScrapeRun 1 quickScrapeSnapshot (quickScrapeJob 10 1) 0),
    .operation (.acquireNext "a" 0 60 true ⟨100, 200⟩),
    .operation (.transitionExecutionStatus 1 .running),
    .executeAcquired
      { jobId := 10, kind := .quickScrape, lease := panickedLease, completedAt := 1
        retryDelaySeconds := 5, terminalCrawlRun := none, cancelled := false
        storagePressureSignalled := false, terminalFailureRequested := false
        result := .panicked }]

/-- The same run up to the panic, ended by a handler that closed its run. -/
def finishedQuickScrape : List Input :=
  panickedQuickScrape.take 3 ++ [.operation (.finalizeRun 1 .succeeded),
    .operation (.succeed 10 panickedLease 1)]

/-- A quick scrape that ends well serves its run throughout. -/
theorem served_throughout_finished :
    Throughout step (fun s => s.lifecycle.Served) .empty finishedQuickScrape :=
  served_throughout finishedQuickScrape (by decide +kernel)

/-- The panic strands the run: it stays `RUNNING` without an active job, and a
same-run retry or restart of the failed job is refused. -/
theorem panickedQuickScrape_not_served :
    ¬ Throughout step (fun s => s.lifecycle.Served) .empty panickedQuickScrape ∧
      ∀ kind childId now maxAttempts, ∃ e,
        enqueueActionChild 10 childId kind now .sameSourceRun maxAttempts
          (after step .empty panickedQuickScrape) = .error e := by
  have hrun : (after step .empty panickedQuickScrape).lifecycle.run 1 = some .running := by
    decide +kernel
  have hjobs : (after step .empty panickedQuickScrape).jobs.rows.all
      (fun job => !job.state.active) = true := by
    decide +kernel
  constructor
  · intro h
    obtain ⟨j, hj⟩ := h.atEnd 1 .running hrun rfl
    obtain ⟨job, hfind, _, hactive⟩ := activeOn_iff.mp hj
    have hnot := List.all_eq_true.mp hjobs job (Table.mem_of_find? hfind)
    rw [hactive] at hnot
    cases hnot
  · intro kind childId now maxAttempts
    rcases henqueue : enqueueActionChild 10 childId kind now .sameSourceRun maxAttempts
      (after step .empty panickedQuickScrape) with e | ⟨child, s'⟩
    · exact ⟨e, rfl⟩
    · obtain ⟨source, run, l, hsource, _, hassociation, _⟩ :=
        enqueueActionChild_lifecycle henqueue
      have hsourceRun : (after step .empty panickedQuickScrape).lifecycle.job 10 =
          some ⟨.failed, some 1⟩ := by
        decide +kernel
      rw [lifecycle_job hsource] at hsourceRun
      cases hassociation with
      | sameSourceRun hr hold hnot =>
        rw [Option.some.injEq, JobView.mk.injEq, hr] at hsourceRun
        cases hsourceRun.2
        rw [hrun] at hold
        cases hold
        exact absurd rfl hnot

end Erabi.Queue

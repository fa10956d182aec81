/-
# Settled jobs

A job that has succeeded, failed or been cancelled stays as it is, whatever is done
to the queue.  A worker turn that reports an end, and a cancellation that reports a
terminal state, have settled their job.
-/
import Mathlib
import Erabi.Queue.System

namespace Erabi.Queue

open Relational Transaction Lifecycle Transition

namespace Lifecycle

/-- The job has reached its terminal boundary. -/
def Settled (l : Lifecycle) (j : JobId) : Prop :=
  ∃ v, l.job j = some v ∧ v.state.active = false

variable {l l' : Lifecycle} {j k : JobId}

/-- A job is settled by its own row. -/
theorem Settled.of_job (h : l.Settled j) (hjob : l'.job j = l.job j) : l'.Settled j := by
  obtain ⟨v, hv, hstate⟩ := h
  exact ⟨v, hjob.trans hv, hstate⟩

/-- An active job is another one. -/
theorem Settled.not_active {v : JobView} (h : l.Settled j) (hk : l.job k = some v)
    (hactive : v.state.active = true) : k ≠ j := by
  rintro rfl
  obtain ⟨w, hw, hstate⟩ := h
  rw [hk] at hw
  cases hw
  rw [hactive] at hstate
  cases hstate

/-- Only an active job is moved, so a settled one is another. -/
theorem Settled.moveJob {v : JobView} (h : l.Settled j) (hk : l.job k = some v)
    (hactive : v.state.active = true) (state : JobState) : (l.moveJob k state).Settled j := by
  have hne : j ≠ k := fun hjk => h.not_active hk hactive hjk.symm
  obtain ⟨w, hw, hstate⟩ := h
  refine ⟨w, ?_, hstate⟩
  rw [moveJob_job, hw, Option.map_some, if_neg hne]

/-- A new job settles none and opens none. -/
theorem Settled.addJob {run : Option CrawlRunId} (h : l.Settled j) (hk : l.job k = none) :
    (l.addJob k run).Settled j := by
  obtain ⟨w, hw, hstate⟩ := h
  refine ⟨w, ?_, hstate⟩
  show (if k = j then _ else _) = _
  rw [if_neg, hw]
  rintro rfl
  rw [hk] at hw
  cases hw

/-- An active job that goes is another one. -/
theorem Settled.dropJob {v : JobView} (h : l.Settled j) (hk : l.job k = some v)
    (hactive : v.state.active = true) : (l.dropJob k).Settled j := by
  have hne : j ≠ k := fun hjk => h.not_active hk hactive hjk.symm
  obtain ⟨w, hw, hstate⟩ := h
  refine ⟨w, ?_, hstate⟩
  show (if j = k then _ else _) = _
  rw [if_neg hne, hw]

/-- A job that was moved to an end is settled. -/
theorem settled_moveJob {v : JobView} {state : JobState} (hj : l.job j = some v)
    (hstate : state.active = false) : (l.moveJob j state).Settled j := by
  refine ⟨{ v with state }, ?_, hstate⟩
  rw [moveJob_job, hj, Option.map_some, if_pos rfl]

end Lifecycle

variable {s : QueueStore} {l l' : Lifecycle} {op : Operation} {j : JobId}

/-! ## Settled jobs stay settled -/

/-- An interruption touches running jobs alone. -/
theorem Interrupted.settled {k : JobId} {run : Option CrawlRunId} {requeues : Bool}
    (h : Interrupted l k run requeues l') (hk : l.job k = some ⟨.running, run⟩)
    (hj : l.Settled j) : l'.Settled j := by
  cases h with
  | requeued | failed | reconciled => exact hj.moveJob hk rfl _
  | failedWithRun => exact (hj.moveJob hk rfl _).of_job rfl

/-- Reconciling touches active jobs alone. -/
theorem ReconcileStep.settled (h : ReconcileStep l l') (hj : l.Settled j) : l'.Settled j := by
  obtain ⟨_, _, _, _, hk, _, _, rfl⟩ := h
  exact hj.moveJob hk rfl _

/-- The run of a child touches no job. -/
theorem AssociationEffect.settled {sourceRun run : Option CrawlRunId}
    {association : ActionRunAssociation} (h : AssociationEffect l sourceRun association run l')
    (hj : l.Settled j) : l'.Settled j := by
  cases h with
  | none => exact hj
  | sameSourceRun => exact hj.of_job rfl
  | newIndependentRun => exact hj.of_job rfl

/-- Recovery touches expired jobs alone. -/
theorem recoverExpired_settled {now : ℤ} {recovery : StaleJobRecovery} {s' : QueueStore}
    (h : recoverExpired now s = .ok (recovery, s')) (hj : s.lifecycle.Settled j) :
    s'.lifecycle.Settled j :=
  keeps_of_reflTransGen (Q := fun l => l.Settled j)
    (fun _ _ ⟨_, _, _, hk, hend⟩ ha => hend.settled hk ha) (recoverExpired_lifecycle h) hj

/-- A settled job stays settled in every operation. -/
theorem Effect.settled (h : Effect s op l) (hj : s.lifecycle.Settled j) : l.Settled j := by
  cases h with
  | unchanged => exact hj
  | created _ hk => exact Settled.addJob (hj.of_job rfl) hk
  | enqueued hk _ => exact hj.addJob hk
  | succeeded hk | failedTerminally hk => exact hj.moveJob hk rfl _
  | failed hfind hrunning => exact hj.moveJob (lifecycle_job hfind) (by rw [hrunning]; rfl) _
  | failedWithRun hk _ _ | cancelled hk | cancelledQueued hk =>
    exact (hj.moveJob hk rfl _).of_job rfl
  | interrupted hfind hrunning hend =>
    exact hend.settled (by rw [lifecycle_job hfind, hrunning]) hj
  | reconciled hstep => exact hstep.settled hj
  | removed hk => exact hj.dropJob hk rfl
  | child _ _ hassociation hk _ => exact (hassociation.settled hj).addJob hk
  | finalized | transitioned | reopenedForRecovery | reopenedForRestart => exact hj.of_job rfl
  | acquired hrecover hs' =>
    have hs₁ := recoverExpired_settled hrecover hj
    rcases hs' with rfl | ⟨_, _, hk, rfl⟩
    · exact hs₁
    · exact hs₁.moveJob hk rfl _
  | recovered hrecover hrows =>
    exact keeps_of_reflTransGen (Q := fun l => l.Settled j)
      (fun _ _ hstep ha => hstep.settled ha) hrows (recoverExpired_settled hrecover hj)

theorem apply_settled (s : QueueStore) (op : Operation) (hj : s.lifecycle.Settled j) :
    (apply s op).lifecycle.Settled j :=
  (apply_effect s op).settled hj

theorem step_settled (s : QueueStore) (input : Input) (hj : s.lifecycle.Settled j) :
    (step s input).lifecycle.Settled j :=
  step_induction (P := fun s => s.lifecycle.Settled j) hj fun op _ => apply_settled s op hj

/-! ## What reports an end has settled its job -/

/-- The turns after which a worker gives its cancellation request up. -/
def WorkerTurn.terminal : WorkerTurn → Bool
  | .succeeded | .failed _ | .cancelled => true
  | .retryScheduled _ | .storagePressure _ => false

variable {execution : ExecutionEnd} {result : WorkerTurn}

/-- A cancelled job is in an ended state. -/
theorem cancelledState_active (status : Option CrawlRunStatus) :
    (cancelledState status).active = false := by
  rcases status with _ | status
  · rfl
  · cases status <;> rfl

/-- A turn that is one transaction reports what the transaction did. -/
theorem turn_eq_ok {α : Type} {x : QueueTx α} {f : α → Except JobRuntimeError WorkerTurn}
    (h : (turn x f s).1 = .ok result) :
    ∃ a s', x s = .ok (a, s') ∧ f a = .ok result ∧ (turn x f s).2 = s' := by
  rcases hx : x s with e | ⟨a, s'⟩
  · unfold turn at h
    rw [commit_of_error hx] at h
    cases h
  · unfold turn at h ⊢
    rw [commit_of_ok hx] at h ⊢
    exact ⟨a, s', rfl, h, rfl⟩

/-- A failed production job is settled. -/
theorem failTerminalProduction_settled {lease : JobLease} {now : ℤ} {failure : JobFailureCode}
    {u : Unit} {s' : QueueStore} (h : failTerminalProduction j lease now failure s = .ok (u, s')) :
    s'.lifecycle.Settled j := by
  obtain ⟨r, _, hjob, _, _, hs'⟩ := failTerminalProduction_lifecycle h
  rw [hs']
  exact (settled_moveJob hjob rfl).of_job rfl

/-- A failure that is reported as one has failed the job. -/
theorem recordFailure_settled {failure : JobFailureCode} {terminal : Bool}
    (h : (recordFailure execution failure terminal s).1 = .ok result)
    (hterminal : result.terminal = true) :
    (recordFailure execution failure terminal s).2.lifecycle.Settled execution.jobId := by
  unfold recordFailure at h ⊢
  -- a production job fails with its run; any other may be tried again
  rcases hcontext : isProductionContext s execution.jobId execution.kind with e | _ | _
  · rw [hcontext] at h
    cases h
  · rw [hcontext] at h
    dsimp only at h ⊢
    split at h
    · rename_i hlast
      obtain ⟨_, s', hfail, _, hs'⟩ := turn_eq_ok h
      rw [if_pos hlast, hs']
      obtain ⟨run, hjob, hl⟩ := failTerminal_lifecycle hfail
      rw [hl]
      exact settled_moveJob hjob rfl
    · rename_i hlast
      rw [if_neg hlast]
      rcases hretry : checkedAddI64 execution.completedAt execution.retryDelaySeconds with
        _ | retryAt
      · rw [hretry] at h
        cases h
      · rw [hretry] at h
        dsimp only at h ⊢
        obtain ⟨state, s', hfail, hturn, hs'⟩ := turn_eq_ok h
        rw [hs']
        obtain ⟨job, hfind, _, _, hl⟩ := failWithDisposition_lifecycle hfail
        rw [hl]
        refine settled_moveJob (lifecycle_job hfind) ?_
        cases state with
        | failed => rfl
        | queued =>
          cases hturn
          cases hterminal
        | running | succeeded | cancelled => cases hturn
  · rw [hcontext] at h
    obtain ⟨_, s', hfail, _, hs'⟩ := turn_eq_ok h
    show (turn _ _ s).2.lifecycle.Settled _
    rw [hs']
    exact failTerminalProduction_settled hfail

/-- The reconciliation with an ended run settles the job. -/
theorem reconcileTerminalCrawlRun_settled {lease : JobLease} {r : CrawlRunId} {now : ℤ}
    {reconciliation : TerminalJobReconciliation} {s' : QueueStore}
    (h : reconcileTerminalCrawlRun j lease r now s = .ok (reconciliation, s')) :
    s'.lifecycle.Settled j := by
  unfold reconcileTerminalCrawlRun at h
  rw [selectCrawlRunStatus_bind] at h
  obtain ⟨status, _, h⟩ := orFail_bind_eq_ok.mp h
  obtain ⟨_, _, h⟩ := selectJob_bind_eq_ok.mp h
  obtain ⟨_, h⟩ := require_bind_eq_ok.mp h
  obtain ⟨_, h⟩ := require_bind_eq_ok.mp h
  obtain ⟨result, s₁, hreconcile, h⟩ := bind_eq_ok.mp h
  obtain ⟨hsome, rfl⟩ := orFail_eq_ok.mp h
  rcases reconcileTerminalJob_lifecycle hreconcile with
    ⟨hnone, _, _⟩ | ⟨job, settled, hfind, hset, _, hs'⟩
  · rw [hsome] at hnone
    cases hnone
  · have hend : settled.active = false := by
      rcases hopen : status.terminal with _ | _
      · rw [settledState_of_open hopen] at hset
        cases hset
      · obtain ⟨_, hset', hactive⟩ := settledState_of_terminal hopen
        rw [hset] at hset'
        cases hset'
        exact hactive
    rcases hs' with ⟨hstate, hsame⟩ | ⟨_, hl⟩
    · rw [hsame]
      exact ⟨_, lifecycle_job hfind, by rw [hstate]; exact hend⟩
    · rw [hl]
      exact settled_moveJob (lifecycle_job hfind) hend

/-- A job reconciled with its committed run is settled. -/
theorem reconcileTerminalCommit_settled {commit : TerminalCrawlRunCommit}
    (h : (reconcileTerminalCommit execution commit s).1 = .ok result) :
    (reconcileTerminalCommit execution commit s).2.lifecycle.Settled execution.jobId := by
  unfold reconcileTerminalCommit at h ⊢
  rcases hreconcile : reconcileTerminalCrawlRun execution.jobId execution.lease commit.runId
    execution.completedAt s with e | ⟨reconciliation, s₁⟩
  · rw [commit_of_error hreconcile] at h
    cases h
  · rw [commit_of_ok hreconcile] at h ⊢
    have hs₁ := reconcileTerminalCrawlRun_settled hreconcile
    dsimp only at h ⊢
    split
    · exact hs₁
    · rcases hrepair : appendTerminalProgressIfMissing execution.jobId reconciliation.progress
        execution.completedAt s₁ with e | ⟨_, s₂⟩
      · rw [commit_of_error hrepair]
        dsimp only
        split <;> exact hs₁
      · rw [commit_of_ok hrepair]
        exact hs₁.of_job (congrFun (congrArg Lifecycle.job
          (appendTerminalProgressIfMissing_lifecycle hrepair)) _)

/-- A turn that reports an end has settled the job it executed. -/
theorem executeAcquired_settled (h : (executeAcquired execution s).1 = .ok result)
    (hterminal : result.terminal = true) :
    (executeAcquired execution s).2.lifecycle.Settled execution.jobId := by
  unfold executeAcquired at h ⊢
  -- the order of the cases is the worker's: a committed run, cancellation, pressure, the
  -- result
  rcases hcommit : execution.terminalCrawlRun with _ | commit
  · rw [hcommit] at h
    dsimp only at h ⊢
    split at h
    · rename_i hcancelled
      rw [if_pos hcancelled]
      obtain ⟨_, s', hcancel, _, hs'⟩ := turn_eq_ok h
      rw [hs']
      obtain ⟨run, hjob, hl⟩ := cancel_lifecycle hcancel
      rw [hl]
      exact (settled_moveJob hjob (cancelledState_active _)).of_job rfl
    · rename_i hcancelled
      rw [if_neg hcancelled]
      split at h
      · rename_i hpressure
        rcases hrequeue : requeueAfterStoragePressure execution.jobId execution.lease
          execution.completedAt s with ⟨e | state, s'⟩
        · rw [hrequeue] at h
          cases h
        · rw [hrequeue] at h
          cases h
          cases hterminal
      · rename_i hpressure
        rw [if_neg hpressure]
        rcases hresult : execution.result with _ | _ | _
        · rw [hresult] at h
          obtain ⟨_, s', hsucceed, _, hs'⟩ := turn_eq_ok h
          show (turn _ _ s).2.lifecycle.Settled _
          rw [hs']
          obtain ⟨run, hjob, hl⟩ := succeed_lifecycle hsucceed
          rw [hl]
          exact settled_moveJob hjob rfl
        · rw [hresult] at h
          exact recordFailure_settled h hterminal
        · rw [hresult] at h
          exact recordFailure_settled h hterminal
  · rw [hcommit] at h
    exact reconcileTerminalCommit_settled h

/-- A cancellation of queued work that reports a terminal state found it or made
it. -/
theorem cancelQueued_settled {now : ℤ} {state : JobState} {s' : QueueStore}
    (h : cancelQueued j now s = .ok (state, s')) (hstate : state.active = false) :
    s'.lifecycle.Settled j := by
  obtain ⟨job, hfind, h⟩ := selectJob_bind_eq_ok.mp h
  split at h
  · cases h
    exact ⟨_, lifecycle_job hfind, hstate⟩
  · rename_i hqueued
    rw [ne_eq, not_not] at hqueued
    rw [write_bind] at h
    obtain ⟨_, s₁, hcancel, h⟩ := bind_eq_ok.mp h
    cases h
    have hid := Table.key_of_find? hfind
    refine Settled.of_job (l := s.lifecycle.moveJob j .cancelled) ?_ ?_
    · exact settled_moveJob (lifecycle_job hfind) rfl
    · rw [(cancelRelatedRun_lifecycle hcancel).1]
      show (QueueStore.lifecycle _).job j = _
      refine congrFun (congrArg Lifecycle.job ?_) j
      exact lifecycle_move_job s _ _ _ hfind (by simp [hid, hqueued]) (by simp +contextual)
        (fun _ => rfl) (fun _ => rfl)

end Erabi.Queue

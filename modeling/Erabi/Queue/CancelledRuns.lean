/-
# The runs of cancelled jobs

A cancellation leaves no open run behind: the run of the cancelled job has ended, or
is cancelled with it, and a run that had ended keeps its status.  Only a recovery
action or a recovery continuation opens the run again.
-/
import Mathlib
import Erabi.Queue.Exclusive
import Erabi.Queue.Settled

namespace Erabi.Queue

open Relational Transaction Lifecycle Transition

namespace Lifecycle

/-- If the job is cancelled, then its run has ended. -/
def ClosedFor (l : Lifecycle) (j : JobId) : Prop :=
  ∀ r status, l.job j = some ⟨.cancelled, some r⟩ → l.run r = some status →
    status.terminal = true

variable {l l' : Lifecycle} {j k : JobId}

/-- The job stays as it is, and no run is opened. -/
theorem ClosedFor.of_job (h : l.ClosedFor j) (hjob : l'.job j = l.job j)
    (hrun : ∀ r status, l'.run r = some status → status.terminal = false →
      ∃ old, l.run r = some old ∧ old.terminal = false) : l'.ClosedFor j := by
  intro r status hj hr
  rw [hjob] at hj
  rcases hopen : status.terminal with _ | _
  · obtain ⟨old, hold, hopen⟩ := hrun r status hr hopen
    rw [h r old hj hold] at hopen
    cases hopen
  · rfl

/-- A job that is not cancelled closes no run. -/
theorem closedFor_of_state (h : ∀ run, l.job j ≠ some ⟨.cancelled, run⟩) : l.ClosedFor j :=
  fun _ _ hj => absurd hj (h _)

/-- A job moved to another end than `CANCELLED` needs no ended run. -/
theorem ClosedFor.moveJob {state : JobState} (h : l.ClosedFor j) (hstate : state ≠ .cancelled) :
    (l.moveJob k state).ClosedFor j := by
  by_cases hjk : j = k
  · refine closedFor_of_state fun run hj => ?_
    obtain ⟨_, _, _, hmoved⟩ := job_of_moveJob hj
    rw [if_pos hjk] at hmoved
    exact hstate hmoved.symm
  · refine h.of_job ?_ fun r status hr hopen => ⟨status, hr, hopen⟩
    rw [moveJob_job]
    rcases l.job j with _ | v
    · rfl
    · rw [Option.map_some, if_neg hjk]

/-- A job settled by its run has the state the run selects. -/
theorem ClosedFor.reconcile {r : CrawlRunId} {status : CrawlRunStatus} {settled state : JobState}
    (h : l.ClosedFor j) (hk : l.job k = some ⟨state, some r⟩) (hr : l.run r = some status)
    (hset : settledState status = some settled) : (l.moveJob k settled).ClosedFor j := by
  have hterminal : status.terminal = true := by
    rcases hopen : status.terminal with _ | _
    · rw [settledState_of_open hopen] at hset
      cases hset
    · rfl
  by_cases hjk : j = k
  · intro q other hj hq
    obtain ⟨w, hw, hrun, _⟩ := job_of_moveJob hj
    rw [hjk, hk] at hw
    cases hw
    cases hrun
    change l.run r = _ at hq
    rw [hr] at hq
    cases hq
    exact hterminal
  · refine h.of_job ?_ fun r status hr hopen => ⟨status, hr, hopen⟩
    rw [moveJob_job]
    rcases l.job j with _ | v
    · rfl
    · rw [Option.map_some, if_neg hjk]

/-- Open runs after the cancellation of a run were open before. -/
theorem run_of_cancelOpen {run : Option CrawlRunId} {r : CrawlRunId} {status : CrawlRunStatus}
    (hr : (l.cancelOpen run).run r = some status) (hopen : status.terminal = false) :
    l.run r = some status ∧ run ≠ some r := by
  obtain ⟨old, hold, hstatus⟩ := Option.map_eq_some_iff.mp hr
  split at hstatus
  · rw [← hstatus] at hopen
    cases hopen
  · rename_i hnot
    rw [← hstatus] at hopen ⊢
    exact ⟨hold, fun hrun => hnot ⟨hrun, hopen⟩⟩

/-- A run that has ended keeps its status when a run is cancelled. -/
theorem cancelOpen_terminal {run : Option CrawlRunId} {r : CrawlRunId} {status : CrawlRunStatus}
    (hr : l.run r = some status) (hterminal : status.terminal = true) :
    (l.cancelOpen run).run r = some status := by
  rw [cancelOpen_run, hr, Option.map_some, if_neg]
  rw [hterminal]
  exact fun h => Bool.noConfusion h.2

/-- The run of a job cancelled together with its run has ended. -/
theorem ClosedFor.cancel {run : Option CrawlRunId} {state state' : JobState} (h : l.ClosedFor j)
    (hk : l.job k = some ⟨state, run⟩) : ((l.moveJob k state').cancelOpen run).ClosedFor j := by
  by_cases hjk : j = k
  · intro r status hj hr
    obtain ⟨w, hw, hrun, _⟩ := job_of_moveJob (l := l) hj
    rw [hjk, hk] at hw
    cases hw
    rcases hopen : status.terminal with _ | _
    · exact absurd hrun.symm (run_of_cancelOpen (l := l.moveJob k state') hr hopen).2
    · rfl
  · refine h.of_job ?_ fun r status hr hopen => ?_
    · show (l.moveJob k state').job j = _
      rw [moveJob_job]
      rcases l.job j with _ | v
      · rfl
      · rw [Option.map_some, if_neg hjk]
    · exact ⟨status, (run_of_cancelOpen (l := l.moveJob k state') hr hopen).1, hopen⟩

/-- A run that is given an ended status stays ended, and so do the others. -/
theorem ClosedFor.setRun {q : CrawlRunId} {status : CrawlRunStatus} (h : l.ClosedFor j)
    (hkeeps : status.terminal = true ∨ ∃ old, l.run q = some old ∧ old.terminal = false) :
    (l.setRun q status).ClosedFor j := by
  refine h.of_job rfl fun r other hr hopen => ?_
  obtain ⟨old, hold, hother⟩ := run_of_setRun hr
  by_cases hrq : r = q
  · rw [if_pos hrq] at hother
    rcases hkeeps with hterminal | ⟨before, hbefore, hopen'⟩
    · rw [hother, hterminal] at hopen
      cases hopen
    · exact ⟨before, hrq ▸ hbefore, hopen'⟩
  · rw [if_neg hrq] at hother
    rw [hother] at hopen
    exact ⟨old, hold, hopen⟩

/-- A new job is not cancelled. -/
theorem ClosedFor.addJob {run : Option CrawlRunId} (h : l.ClosedFor j) :
    (l.addJob k run).ClosedFor j := by
  by_cases hkj : k = j
  · refine closedFor_of_state fun other hj => ?_
    rw [addJob_job, if_pos hkj] at hj
    cases hj
  · refine h.of_job ?_ fun r status hr hopen => ⟨status, hr, hopen⟩
    rw [addJob_job, if_neg hkj]

/-- A new run is attached to no job yet. -/
theorem ClosedFor.addRun {q : CrawlRunId} (h : l.ClosedFor j) (hattached : l.Attached)
    (hq : l.run q = none) : (l.addRun q).ClosedFor j := by
  intro r status hj hr
  have hne : q ≠ r := by
    rintro rfl
    obtain ⟨old, hold⟩ := hattached j _ q hj rfl
    rw [hq] at hold
    cases hold
  rw [addRun_run, if_neg hne] at hr
  exact h r status hj hr

end Lifecycle

variable {s : QueueStore} {l l' : Lifecycle} {op : Operation} {j : JobId}

/-! ## The condition -/

/-- The run an operation opens although it may have ended. -/
def reopenedRun (s : QueueStore) : Operation → Option CrawlRunId
  | .transitionRecoveryStatus r =>
    if (s.runs.find? r).any fun run => run.status != .succeeded then some r else none
  | .transitionRestartStatus r => if (s.runs.find? r).isSome then some r else none
  | .enqueueActionChild sourceJobId childId actionKind now .sameSourceRun maxAttempts =>
    match enqueueActionChild sourceJobId childId actionKind now .sameSourceRun maxAttempts s with
    | .ok _ => (s.jobs.find? sourceJobId).bind JobRecord.crawlRunId
    | .error _ => none
  | _ => none

/-- The job is cancelled and attached to this run. -/
def cancelledOn (s : QueueStore) (j : JobId) (r : CrawlRunId) : Bool :=
  (s.jobs.find? j).any fun job => job.state = .cancelled && job.crawlRunId = some r

/-- The input does not open the run of the cancelled job again. -/
def LeavesClosed (j : JobId) (s : QueueStore) (input : Input) : Prop :=
  ∀ op ∈ input.operation? s, ∀ r ∈ reopenedRun s op, cancelledOn s j r = false

instance (j : JobId) (s : QueueStore) (input : Input) : Decidable (LeavesClosed j s input) := by
  unfold LeavesClosed
  infer_instance

/-- The check that a job was cancelled on a run. -/
theorem cancelledOn_iff {r : CrawlRunId} : cancelledOn s j r = true ↔
    s.lifecycle.job j = some ⟨.cancelled, some r⟩ := by
  rw [lifecycle_job_eq, cancelledOn]
  rcases s.jobs.find? j with _ | job
  · simp
  · simp [JobView.mk.injEq]

/-! ## What keeps the runs of cancelled jobs closed -/

/-- An interruption opens no run of a cancelled job. -/
theorem Interrupted.closedFor {k : JobId} {run : Option CrawlRunId} {requeues : Bool}
    (h : Interrupted l k run requeues l') (hk : l.job k = some ⟨.running, run⟩)
    (hj : l.ClosedFor j) : l'.ClosedFor j := by
  cases h with
  | requeued | failed => exact hj.moveJob (by decide)
  | failedWithRun _ _ hr hopen =>
    exact ClosedFor.setRun (l := l.moveJob k .failed) (hj.moveJob (by decide)) (Or.inl rfl)
  | reconciled hrun hr hset =>
    cases hrun
    exact hj.reconcile hk hr hset

/-- Reconciling opens no run. -/
theorem ReconcileStep.closedFor (h : ReconcileStep l l') (hj : l.ClosedFor j) :
    l'.ClosedFor j := by
  obtain ⟨_, _, _, _, hk, hr, hset, rfl⟩ := h
  exact hj.reconcile hk hr hset

/-- Recovery opens no run of a cancelled job. -/
theorem recoverExpired_closedFor {now : ℤ} {recovery : StaleJobRecovery} {s' : QueueStore}
    (h : recoverExpired now s = .ok (recovery, s')) (hj : s.lifecycle.ClosedFor j) :
    s'.lifecycle.ClosedFor j :=
  keeps_of_reflTransGen (Q := fun l => l.ClosedFor j)
    (fun _ _ ⟨_, _, _, hk, hend⟩ ha => hend.closedFor hk ha) (recoverExpired_lifecycle h) hj

/-- An operation that opens no run again keeps the runs of cancelled jobs closed. -/
theorem Effect.closedFor (h : Effect s op l) (hattached : s.lifecycle.Attached)
    (hj : s.lifecycle.ClosedFor j) (hrecovery : ∀ r, op ≠ .transitionRecoveryStatus r)
    (hrestart : ∀ r, op ≠ .transitionRestartStatus r)
    (hchild : ∀ source child kind now attempts,
      op ≠ .enqueueActionChild source child kind now .sameSourceRun attempts) :
    l.ClosedFor j := by
  cases h with
  | unchanged => exact hj
  | created hr _ => exact (hj.addRun hattached hr).addJob
  | enqueued _ _ => exact hj.addJob
  | succeeded _ | failedTerminally _ => exact hj.moveJob (by decide)
  | failed _ _ =>
    refine hj.moveJob ?_
    unfold failedState
    split <;> decide
  | failedWithRun _ _ _ =>
    exact ClosedFor.setRun (l := s.lifecycle.moveJob _ .failed) (hj.moveJob (by decide)) (Or.inl rfl)
  | cancelled hk | cancelledQueued hk => exact hj.cancel hk
  | interrupted hfind hrunning hend =>
    exact hend.closedFor (by rw [lifecycle_job hfind, hrunning]) hj
  | reconciled hstep => exact hstep.closedFor hj
  -- a removed job was never cancelled on a run
  | removed _ =>
    rename_i k _
    by_cases hjk : j = k
    · refine closedFor_of_state fun run hdropped => ?_
      rw [dropJob_job, if_pos hjk] at hdropped
      cases hdropped
    · refine hj.of_job ?_ fun r status hr hopen => ⟨status, hr, hopen⟩
      rw [dropJob_job, if_neg hjk]
  | child _ _ hassociation _ _ =>
    cases hassociation with
    | none => exact hj.addJob
    | sameSourceRun => exact absurd rfl (hchild _ _ _ _ _)
    | newIndependentRun hr => exact (hj.addRun hattached hr).addJob
  -- a final status is ended unless the run had it open already
  | finalized hold hallowed =>
    rename_i r status old
    refine hj.setRun ?_
    rcases hallowed with hopen | hsame
    · exact Or.inr ⟨old, hold, hopen⟩
    · rcases hopen : status.terminal with _ | _
      · exact Or.inr ⟨old, hold, hsame ▸ hopen⟩
      · exact Or.inl rfl
  | transitioned hold hallowed =>
    rename_i r status old
    refine hj.setRun ?_
    rcases hopen : old.terminal with _ | _
    · exact Or.inr ⟨old, hold, hopen⟩
    · left
      cases status <;> cases old <;>
        simp_all [CrawlRunStatus.terminal, executionTransitionFrom]
  -- the two ways to open an ended run again are excluded by hypothesis
  | reopenedForRecovery => exact absurd rfl (hrecovery _)
  | reopenedForRestart => exact absurd rfl (hrestart _)
  | acquired hrecover hs' =>
    have hs₁ := recoverExpired_closedFor hrecover hj
    rcases hs' with rfl | ⟨_, _, _, rfl⟩
    · exact hs₁
    · exact hs₁.moveJob (by decide)
  | recovered hrecover hrows =>
    exact keeps_of_reflTransGen (Q := fun l => l.ClosedFor j)
      (fun _ _ hstep ha => hstep.closedFor ha) hrows (recoverExpired_closedFor hrecover hj)

/-- Opening a run keeps a cancelled job's run closed exactly if it is another run. -/
theorem closedFor_reopen {r : CrawlRunId} {status old : CrawlRunStatus}
    (hopen : status.terminal = false) (hr : l.run r = some old) (hj : l.ClosedFor j)
    (hjob : l'.job j = l.job j) (hrun : ∀ q, l'.run q = (l.setRun r status).run q) :
    l'.ClosedFor j ↔ l.job j ≠ some ⟨.cancelled, some r⟩ := by
  constructor
  · intro hclosed hcancelled
    have hnow : l'.run r = some status := by
      rw [hrun, setRun_run, hr, Option.map_some, if_pos rfl]
    rw [hclosed r status (hjob.trans hcancelled) hnow] at hopen
    cases hopen
  · intro hnot q other hcancelled hq
    rw [hjob] at hcancelled
    have hne : q ≠ r := by
      rintro rfl
      exact hnot hcancelled
    rw [hrun, setRun_run] at hq
    obtain ⟨before, hbefore, hother⟩ := Option.map_eq_some_iff.mp hq
    rw [if_neg hne] at hother
    rw [← hother]
    exact hj q before hcancelled hbefore

/-- An open status suits a run that no cancelled job is on. -/
theorem closedFor_setRun {r : CrawlRunId} {status old : CrawlRunStatus}
    (hopen : status.terminal = false) (hr : l.run r = some old) (hj : l.ClosedFor j) :
    (l.setRun r status).ClosedFor j ↔ l.job j ≠ some ⟨.cancelled, some r⟩ :=
  closedFor_reopen hopen hr hj rfl fun _ => rfl

/-- The update of a run status that is allowed sets it. -/
theorem setRunStatus_commit {r : CrawlRunId} {allowed : CrawlRunStatus → Bool}
    {status : CrawlRunStatus} {e : JobRepositoryError} :
    ((setRunStatus r allowed status e).commit s).2.lifecycle =
      if (s.runs.find? r).any (fun run => allowed run.status) then s.lifecycle.setRun r status
      else s.lifecycle := by
  rcases hset : setRunStatus r allowed status e s with e | ⟨u, s'⟩
  · rw [commit_of_error hset, if_neg]
    intro hallowed
    obtain ⟨run, hrun, hallowed⟩ := (Option.any_eq_true _ _).mp hallowed
    rw [setRunStatus_eq_ok (u := ()).mpr ⟨⟨run, hrun, hallowed⟩, rfl⟩] at hset
    cases hset
  · obtain ⟨run, hrun, hallowed⟩ := (setRunStatus_eq_ok.mp hset).1
    rw [commit_of_ok hset, if_pos ((Option.any_eq_true _ _).mpr ⟨run, hrun, hallowed⟩),
      (setRunStatus_lifecycle hset).2]

/-- The check that a job was not cancelled on a run. -/
theorem cancelledOn_eq_false {r : CrawlRunId} : cancelledOn s j r = false ↔
    s.lifecycle.job j ≠ some ⟨.cancelled, some r⟩ := by
  rw [← Bool.not_eq_true, cancelledOn_iff]

/-- A recovery action opens the run of its source. -/
theorem enqueueActionChild_closedFor {source child : JobId} {kind : JobKind} {now : ℤ}
    {attempts : Option ℕ} (hj : s.lifecycle.ClosedFor j) :
    (apply s (.enqueueActionChild source child kind now .sameSourceRun attempts)).lifecycle.ClosedFor
        j ↔
      ∀ r ∈ reopenedRun s (.enqueueActionChild source child kind now .sameSourceRun attempts),
        cancelledOn s j r = false := by
  show ((enqueueActionChild source child kind now .sameSourceRun attempts).commit
    s).2.lifecycle.ClosedFor j ↔ _
  rcases hchild : enqueueActionChild source child kind now .sameSourceRun attempts s with
    e | ⟨job, s'⟩
  · rw [commit_of_error hchild]
    simpa only [reopenedRun, hchild, Option.mem_def, reduceCtorEq, false_implies, implies_true,
      iff_true] using hj
  · rw [commit_of_ok hchild]
    obtain ⟨row, run, l, hsource, _, hassociation, hnone, _, hs'⟩ :=
      enqueueActionChild_lifecycle hchild
    generalize hsame : ActionRunAssociation.sameSourceRun = association at hassociation
    cases hassociation with
    | none => cases hsame
    | newIndependentRun => cases hsame
    | @sameSourceRun r old hr hold _ =>
      simp only [reopenedRun, hchild, hsource, Option.bind_some, hr, Option.mem_def,
        Option.some.injEq, forall_eq', cancelledOn_eq_false]
      change s.lifecycle.job child = none at hnone
      by_cases hnew : child = j
      · rw [← hnew, hnone]
        refine iff_of_true (closedFor_of_state fun q hcancelled => ?_) (by simp)
        show False
        rw [hs', addJob_job, if_pos rfl] at hcancelled
        cases hcancelled
      · refine closedFor_reopen (rfl : CrawlRunStatus.queued.terminal = false) hold hj ?_ fun q => ?_
        · rw [hs', addJob_job, if_neg hnew]
          rfl
        · rw [hs']
          rfl

/-- One operation keeps the run of a cancelled job closed exactly if it does not
open that run again. -/
theorem apply_closedFor (hattached : s.lifecycle.Attached) (hj : s.lifecycle.ClosedFor j) :
    (apply s op).lifecycle.ClosedFor j ↔ ∀ r ∈ reopenedRun s op, cancelledOn s j r = false := by
  have hother := (apply_effect s op).closedFor hattached hj
  cases op with
  | transitionRecoveryStatus r =>
    have hcommit : (apply s (.transitionRecoveryStatus r)).lifecycle = _ := setRunStatus_commit
    rw [hcommit, reopenedRun]
    split
    · rename_i hallowed
      obtain ⟨run, hrun, _⟩ := (Option.any_eq_true _ _).mp hallowed
      rw [closedFor_setRun rfl (lifecycle_run hrun) hj, ← cancelledOn_eq_false]
      simp
    · exact iff_of_true hj (by simp)
  | transitionRestartStatus r =>
    have hcommit : (apply s (.transitionRestartStatus r)).lifecycle = _ := setRunStatus_commit
    rw [hcommit, reopenedRun]
    rcases hrun : s.runs.find? r with _ | run
    · exact iff_of_true hj (by simp)
    · show (s.lifecycle.setRun r .running).ClosedFor j ↔ ∀ q ∈ some r, _
      rw [closedFor_setRun rfl (lifecycle_run hrun) hj, ← cancelledOn_eq_false]
      simp
  | enqueueActionChild source child kind now association attempts =>
    cases association with
    | sameSourceRun => exact enqueueActionChild_closedFor hj
    | none | newIndependentRun =>
      exact iff_of_true (hother (by simp) (by simp) (by simp)) (by simp [reopenedRun])
  | _ => exact iff_of_true (hother (by simp) (by simp) (by simp)) (by simp [reopenedRun])

/-- A step leaves the run closed exactly when it does not open it. -/
theorem step_closedFor (input : Input) (hattached : s.lifecycle.Attached)
    (hj : s.lifecycle.ClosedFor j) :
    (step s input).lifecycle.ClosedFor j ↔ LeavesClosed j s input := by
  rw [step_eq, LeavesClosed]
  rcases hop : input.operation? s with _ | op
  · exact iff_of_true hj (by simp)
  · rw [Option.map_some, Option.getD_some, apply_closedFor hattached hj]
    simp

/-! ## Cancellations -/

/-- The two cancellations, of an active attempt and of queued work. -/
def Operation.cancels : Operation → Bool
  | .cancel .. | .cancelQueued .. => true
  | _ => false

/-- A cancellation leaves ended runs alone. -/
theorem apply_cancels_terminal {r : CrawlRunId} {status : CrawlRunStatus}
    (hop : op.cancels = true) (hr : s.lifecycle.run r = some status)
    (hterminal : status.terminal = true) : (apply s op).lifecycle.run r = some status := by
  cases op with
  | cancel j lease now =>
    show ((cancel j lease now).commit s).2.lifecycle.run r = _
    rcases hcancel : cancel j lease now s with e | ⟨u, s'⟩
    · rw [commit_of_error hcancel]
      exact hr
    · obtain ⟨run, _, hs'⟩ := cancel_lifecycle hcancel
      rw [commit_of_ok hcancel, hs']
      exact cancelOpen_terminal (l := s.lifecycle.moveJob j _) hr hterminal
  | cancelQueued j now =>
    show ((cancelQueued j now).commit s).2.lifecycle.run r = _
    rcases hcancel : cancelQueued j now s with e | ⟨state, s'⟩
    · rw [commit_of_error hcancel]
      exact hr
    · rw [commit_of_ok hcancel]
      rcases cancelQueued_lifecycle hcancel with hs' | ⟨run, _, hs'⟩
      · rw [hs']
        exact hr
      · rw [hs']
        exact cancelOpen_terminal (l := s.lifecycle.moveJob j .cancelled) hr hterminal
  | _ => cases hop

/-- The cancellations and the operations that end a run. -/
def Operation.cancelsOrCompletes : Operation → Bool
  | .cancel .. | .cancelQueued .. | .finalizeRun .. | .transitionExecutionStatus .. => true
  | _ => false

/-- Neither cancellations nor completions open a run again. -/
theorem meets_of_cancelsOrCompletes {inputs : List Input} (h : ∀ input ∈ inputs,
    ∃ op : Operation, input = .operation op ∧ op.cancelsOrCompletes = true) :
    Meets step (LeavesClosed j) s inputs := by
  induction inputs generalizing s with
  | nil => trivial
  | cons input inputs ih =>
    refine ⟨?_, ih fun other hother => h other (List.mem_cons_of_mem _ hother)⟩
    obtain ⟨op, rfl, hop⟩ := h input List.mem_cons_self
    intro other hother q hq
    cases hother
    cases op with
    | cancel | cancelQueued | finalizeRun | transitionExecutionStatus => cases hq
    | _ => cases hop

/-- From every state the queue can reach on: if the run of a job has ended or the
job is not cancelled, then the job is never cancelled with an open run, exactly if no
recovery opens the run of the cancelled job again; cancellations and completions never
do, and no cancellation changes the status of a run that has ended. -/
theorem cancelled_runs_closed (before inputs : List Input) :
    (∀ j, (after step .empty before).lifecycle.ClosedFor j →
      (Throughout step (fun s => s.lifecycle.ClosedFor j) (after step .empty before) inputs ↔
        Meets step (LeavesClosed j) (after step .empty before) inputs)) ∧
    (∀ j, (after step .empty before).lifecycle.ClosedFor j →
      (∀ input ∈ inputs, ∃ op : Operation, input = .operation op ∧ op.cancelsOrCompletes = true) →
      Throughout step (fun s => s.lifecycle.ClosedFor j) (after step .empty before) inputs) ∧
    ∀ op r status, op.cancels = true →
      (after step .empty before).lifecycle.run r = some status → status.terminal = true →
        (apply (after step .empty before) op).lifecycle.run r = some status := by
  have hattached : (after step .empty before).lifecycle.Attached :=
    after_invariant (I := fun s : QueueStore => s.lifecycle.Attached) step_attached empty_attached
      before
  have hexact : ∀ j, (after step .empty before).lifecycle.ClosedFor j →
      (Throughout step (fun s => s.lifecycle.ClosedFor j) (after step .empty before) inputs ↔
        Meets step (LeavesClosed j) (after step .empty before) inputs) := by
    intro j hj
    exact throughout_iff_meets (I := fun s : QueueStore => s.lifecycle.Attached) step_attached
      (fun s input hattached hclosed => step_closedFor input hattached hclosed) hattached hj
  refine ⟨hexact, fun j hj hinputs => ?_, fun op r status hop hr hterminal =>
    apply_cancels_terminal hop hr hterminal⟩
  exact (hexact j hj).mpr (meets_of_cancelsOrCompletes hinputs)

/-- A cancelled quick scrape is restarted, and its cancellation is asked for again. -/
def restartedCancellation : List Input :=
  [.operation (.createQuickScrapeRun 1 quickScrapeSnapshot (quickScrapeJob 10 1) 0),
    .operation (.cancelQueued 10 1), .action .restartFromBeginning 10 11 2,
    .operation (.cancelQueued 10 3)]

/-- The restart puts the run back to `QUEUED` while the first job stays cancelled. -/
theorem restartedCancellation_open :
    ¬ Throughout step (fun s => ∀ j, s.lifecycle.ClosedFor j) .empty restartedCancellation := by
  intro h
  have hclosed := h.atEnd 10 1 .queued (by decide +kernel) (by decide +kernel)
  cases hclosed

end Erabi.Queue

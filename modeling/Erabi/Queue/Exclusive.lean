/-
# One active job per run

The repository only looks for active children of the source job when it attaches
a new job to the run of that source.  A run stays exclusive exactly as long as
no job is attached to a run that already has an active one, which the children
of one source do not show: two generations of restarts share the run too.
-/
import Mathlib
import Erabi.Queue.System

namespace Erabi.Queue

open Relational Transaction Lifecycle Transition

variable {s : QueueStore} {l l' : Lifecycle} {op : Operation}

/-! ## Every job keeps an existing run -/

/-- An interruption keeps jobs attached. -/
theorem Interrupted.attached {j : JobId} {run : Option CrawlRunId} {requeues : Bool}
    (h : Interrupted l j run requeues l') (hl : l.Attached) : l'.Attached := by
  cases h with
  | requeued | failed | reconciled => exact hl.moveJob _
  | failedWithRun => exact (hl.moveJob _).setRun _

/-- Reconciling keeps jobs attached. -/
theorem ReconcileStep.attached (h : ReconcileStep l l') (hl : l.Attached) : l'.Attached := by
  obtain ⟨_, _, _, _, _, _, _, rfl⟩ := h
  exact hl.moveJob _

/-- The run of a child keeps jobs attached. -/
theorem AssociationEffect.attached {sourceRun run : Option CrawlRunId}
    {association : ActionRunAssociation} (h : AssociationEffect l sourceRun association run l')
    (hl : l.Attached) : l'.Attached := by
  cases h with
  | none => exact hl
  | sameSourceRun => exact hl.setRun _
  | newIndependentRun => exact hl.addRun

/-- Recovery keeps jobs attached. -/
theorem recoverExpired_attached {now : ℤ} {recovery : StaleJobRecovery} {s' : QueueStore}
    (h : recoverExpired now s = .ok (recovery, s')) (hl : s.lifecycle.Attached) :
    s'.lifecycle.Attached :=
  keeps_of_reflTransGen (fun _ _ ⟨_, _, _, _, hend⟩ ha => hend.attached ha)
    (recoverExpired_lifecycle h) hl

/-- Every operation keeps jobs attached. -/
theorem Effect.attached (h : Effect s op l) (hl : s.lifecycle.Attached) : l.Attached := by
  cases h with
  | unchanged => exact hl
  | created => exact hl.addRun.addJob fun r hr => ⟨.queued, by cases hr; exact if_pos rfl⟩
  | enqueued _ hrun => exact hl.addJob hrun
  | succeeded | failed | failedTerminally => exact hl.moveJob _
  | failedWithRun => exact (hl.moveJob _).setRun _
  | cancelled | cancelledQueued => exact (hl.moveJob _).cancelOpen _
  | interrupted _ _ hend => exact hend.attached hl
  | reconciled hstep => exact hstep.attached hl
  | removed => exact hl.dropJob
  | child _ _ hassociation _ hrun => exact (hassociation.attached hl).addJob hrun
  | finalized | transitioned | reopenedForRecovery | reopenedForRestart => exact hl.setRun _
  | acquired hrecover hs' =>
    have hs₁ := recoverExpired_attached hrecover hl
    rcases hs' with rfl | ⟨_, _, _, rfl⟩
    · exact hs₁
    · exact hs₁.moveJob _
  | recovered hrecover hrows =>
    exact keeps_of_reflTransGen (fun _ _ hstep ha => hstep.attached ha) hrows
      (recoverExpired_attached hrecover hl)

theorem step_attached (s : QueueStore) (input : Input) (hl : s.lifecycle.Attached) :
    (step s input).lifecycle.Attached :=
  step_induction (P := fun s => s.lifecycle.Attached) hl
    fun op _ => (apply_effect s op).attached hl

/-! ## The condition -/

/-- The existing run an operation attaches a new job to. -/
def attachedRun (s : QueueStore) : Operation → Option CrawlRunId
  | .enqueue job _ => job.crawlRunId
  | .enqueueActionChild sourceJobId _ _ _ .sameSourceRun _ =>
    (s.jobs.find? sourceJobId).bind JobRecord.crawlRunId
  | _ => none

/-- Whether a queued or running job is attached to the run. -/
def hasActiveJob (s : QueueStore) (r : CrawlRunId) : Bool :=
  s.jobs.rows.any fun job => job.crawlRunId = some r && job.state.active

/-- The active jobs of a run are rows of the table. -/
theorem activeOn_iff {r : CrawlRunId} {j : JobId} : s.lifecycle.ActiveOn r j ↔
    ∃ job, s.jobs.find? j = some job ∧ job.crawlRunId = some r ∧ job.state.active = true := by
  constructor
  · rintro ⟨v, hv, hr, hactive⟩
    obtain ⟨job, hfind, rfl⟩ := job_of_lifecycle hv
    exact ⟨job, hfind, hr, hactive⟩
  · rintro ⟨job, hfind, hr, hactive⟩
    exact ⟨_, lifecycle_job hfind, hr, hactive⟩

/-- An idle run has no active job. -/
theorem not_activeOn_of_idle {r : CrawlRunId} (h : hasActiveJob s r = false) (j : JobId) :
    ¬ s.lifecycle.ActiveOn r j := by
  intro hj
  obtain ⟨job, hfind, hr, hactive⟩ := activeOn_iff.mp hj
  have hnot := List.any_eq_false.mp h job (Table.mem_of_find? hfind)
  simp [hr, hactive] at hnot

/-- The input does not ask to attach a job to a run with an active job. -/
def AttachesToIdleRun (s : QueueStore) (input : Input) : Prop :=
  ∀ op ∈ input.operation? s, ∀ r ∈ attachedRun s op, hasActiveJob s r = false

instance (s : QueueStore) (input : Input) : Decidable (AttachesToIdleRun s input) := by
  unfold AttachesToIdleRun
  infer_instance

/-! ## What keeps runs exclusive -/

/-- An interruption keeps exclusivity. -/
theorem Interrupted.exclusive {j : JobId} {run : Option CrawlRunId} {requeues : Bool}
    (h : Interrupted l j run requeues l') (hj : l.job j = some ⟨.running, run⟩)
    (hl : l.Exclusive) : l'.Exclusive := by
  have hactive : ∃ v, l.job j = some v ∧ v.state.active = true := ⟨_, hj, rfl⟩
  cases h with
  | requeued | failed | reconciled => exact hl.moveJob fun _ => hactive
  | failedWithRun => exact hl.moveJob fun _ => hactive

/-- Reconciling keeps exclusivity. -/
theorem ReconcileStep.exclusive (h : ReconcileStep l l') (hl : l.Exclusive) : l'.Exclusive := by
  obtain ⟨j, r, _, _, hj, _, _, rfl⟩ := h
  exact hl.moveJob fun _ => ⟨_, hj, rfl⟩

/-- Recovery keeps exclusivity. -/
theorem recoverExpired_exclusive {now : ℤ} {recovery : StaleJobRecovery} {s' : QueueStore}
    (h : recoverExpired now s = .ok (recovery, s')) (hl : s.lifecycle.Exclusive) :
    s'.lifecycle.Exclusive :=
  keeps_of_reflTransGen (fun _ _ ⟨_, _, _, hj, hend⟩ ha => hend.exclusive hj ha)
    (recoverExpired_lifecycle h) hl

/-- Only the attachment of a job to an existing run can break exclusivity. -/
theorem Effect.exclusive (h : Effect s op l) (hattached : s.lifecycle.Attached)
    (hl : s.lifecycle.Exclusive)
    (hidle : ∀ r ∈ attachedRun s op, ∀ j, ¬ s.lifecycle.ActiveOn r j) : l.Exclusive := by
  cases h with
  | unchanged => exact hl
  -- nothing can be active on a run that was not there
  | created hrun _ =>
    refine Exclusive.addJob (l := s.lifecycle.addRun _) hl fun r hr k => ?_
    cases hr
    exact hattached.not_activeOn hrun
  | enqueued _ _ => exact hl.addJob hidle
  | succeeded hj => exact hl.moveJob fun _ => ⟨_, hj, rfl⟩
  | failed hfind hrunning =>
    exact hl.moveJob fun _ => ⟨_, lifecycle_job hfind, by rw [hrunning]; rfl⟩
  | failedTerminally hj => exact hl.moveJob fun _ => ⟨_, hj, rfl⟩
  | failedWithRun hj _ _ => exact hl.moveJob fun _ => ⟨_, hj, rfl⟩
  | cancelled hj => exact hl.moveJob fun _ => ⟨_, hj, rfl⟩
  | cancelledQueued hj => exact hl.moveJob fun _ => ⟨_, hj, rfl⟩
  | interrupted hfind hrunning hend =>
    exact hend.exclusive (by rw [lifecycle_job hfind, hrunning]) hl
  | reconciled hstep => exact hstep.exclusive hl
  | removed => exact hl.dropJob
  | child hsource _ hassociation _ _ =>
    cases hassociation with
    | none => exact hl.addJob fun _ hr => by cases hr
    -- the only case in which a job joins a run that exists
    | sameSourceRun hr _ _ =>
      refine Exclusive.addJob (l := s.lifecycle.setRun _ _) hl fun q hq k => ?_
      cases hq
      exact hidle _ (by rw [attachedRun, hsource]; exact hr) k
    | newIndependentRun hrun =>
      refine Exclusive.addJob (l := s.lifecycle.addRun _) hl fun r hr k => ?_
      cases hr
      exact hattached.not_activeOn hrun
  | finalized | transitioned | reopenedForRecovery | reopenedForRestart => exact hl
  | acquired hrecover hs' =>
    have hs₁ := recoverExpired_exclusive hrecover hl
    rcases hs' with rfl | ⟨_, _, hj, rfl⟩
    · exact hs₁
    · exact hs₁.moveJob fun _ => ⟨_, hj, rfl⟩
  | recovered hrecover hrows =>
    exact keeps_of_reflTransGen (fun _ _ hstep ha => hstep.exclusive ha) hrows
      (recoverExpired_exclusive hrecover hl)

/-- A step that attaches jobs to idle runs alone keeps exclusivity. -/
theorem step_exclusive (s : QueueStore) (input : Input) (hattached : s.lifecycle.Attached)
    (hl : s.lifecycle.Exclusive) (hidle : AttachesToIdleRun s input) :
    (step s input).lifecycle.Exclusive :=
  step_induction (P := fun s => s.lifecycle.Exclusive) hl
    fun op hop => (apply_effect s op).exclusive hattached hl
      fun r hr => not_activeOn_of_idle (hidle op hop r hr)

theorem empty_attached : QueueStore.empty.lifecycle.Attached := by
  intro j v r h
  cases h

theorem empty_exclusive : QueueStore.empty.lifecycle.Exclusive := by
  rintro r j k ⟨v, h, _⟩
  cases h

/-- In every run that asks to attach jobs to idle runs only, no crawl run ever has
two queued or running jobs. -/
theorem exclusive_throughout (inputs : List Input)
    (h : Meets step AttachesToIdleRun .empty inputs) :
    Throughout step (fun s => s.lifecycle.Exclusive) .empty inputs :=
  throughout_of_meets step_attached
    (fun s input hattached hl hidle => step_exclusive s input hattached hl hidle)
    empty_attached empty_exclusive h

/-! ## Two generations of restarts -/

/-- The frozen snapshot of a quick scrape. -/
def quickScrapeSnapshot : CrawlRunSnapshot := ⟨.quickScrape, .quickScrape, 1, 1⟩

/-- A root job of a quick scrape with this budget. -/
def quickScrapeJob (id : JobId) (maxAttempts : ℕ) : NewJob :=
  ⟨id, .quickScrape, 0, none, none, 0, maxAttempts⟩

/-- Job 10 is cancelled and restarted as job 11, which is cancelled and restarted
as job 12; then job 10, whose only child is settled, is restarted again as job
13, and two workers acquire jobs 12 and 13. -/
def restartedTwice : List Input :=
  [.operation (.createQuickScrapeRun 1 quickScrapeSnapshot (quickScrapeJob 10 3) 0),
    .operation (.cancelQueued 10 0),
    .action .restartFromBeginning 10 11 0,
    .operation (.cancelQueued 11 0),
    .action .restartFromBeginning 11 12 0,
    .action .restartFromBeginning 10 13 0,
    .operation (.acquireNext "a" 0 60 true ⟨100, 200⟩),
    .operation (.acquireNext "b" 0 60 true ⟨101, 201⟩)]

/-- The run of a single restart meets the condition. -/
theorem exclusive_throughout_restart :
    Throughout step (fun s => s.lifecycle.Exclusive) .empty (restartedTwice.take 4) :=
  exclusive_throughout (restartedTwice.take 4) (by decide +kernel)

theorem restartedTwice_not_exclusive :
    ¬ Throughout step (fun s => s.lifecycle.Exclusive) .empty restartedTwice := by
  intro h
  have hend := h.atEnd
  have hfirst : (after step .empty restartedTwice).lifecycle.job 12 = some ⟨.running, some 1⟩ := by
    decide +kernel
  have hsecond : (after step .empty restartedTwice).lifecycle.job 13 = some ⟨.running, some 1⟩ := by
    decide +kernel
  exact absurd (hend 1 12 13 ⟨_, hfirst, rfl, rfl⟩ ⟨_, hsecond, rfl, rfl⟩) (by decide)

end Erabi.Queue

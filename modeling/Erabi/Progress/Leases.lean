/-
# Leases beside arbitrary streams

The progress service appends to the stream of a job whatever the job does, so the
streams of a reachable store need not agree with its jobs.  Jobs, leases and
attempts still agree among themselves, and every attached job keeps its run.
-/
import Mathlib
import Erabi.Progress.Stream
import Erabi.Queue.Recovers

namespace Erabi.Progress

open Relational Transaction Queue Transition

variable {s s' : QueueStore} {j : JobId} {lease : JobLease} {now : ℤ} {u : Unit}

/-! ## The invariant -/

/-- Jobs, leases and attempts agree, whatever the streams hold. -/
def ConsistentLeases (s : QueueStore) : Prop := Consistent { s with progress := .empty }

theorem ConsistentLeases.empty : ConsistentLeases .empty := Consistent.empty

/-- Leases depend on jobs and attempts. -/
theorem ConsistentLeases.of_same (hs : ConsistentLeases s) (hjobs : s'.jobs = s.jobs)
    (hattempts : s'.attempts = s.attempts) : ConsistentLeases s' :=
  Consistent.of_same hs hjobs hattempts rfl

/-- Settling a job keeps leases consistent. -/
theorem ConsistentLeases.settled (hs : ConsistentLeases s) (howned : Owned s j lease)
    {outcome : AttemptOutcome} {state : JobState} {failure : Option JobFailureCode}
    {scheduledAt : Option ℤ} (houtcome : outcome ≠ .running) (hstate : state ≠ .running)
    (hqueued : state = .queued → ∀ job, s.jobs.find? j = some job →
      job.currentAttempt < job.maxAttempts) :
    ConsistentLeases (settled j lease now outcome state failure scheduledAt s) :=
  Consistent.settled hs howned houtcome hstate hqueued

/-- The lease of a running job owns it. -/
theorem ConsistentLeases.owned (hs : ConsistentLeases s) {job : JobRecord}
    (hjob : s.jobs.find? j = some job) (hrunning : job.state = .running)
    (hlease : job.lease = some lease) : Owned s j lease := by
  obtain ⟨held, hheld, howned⟩ := Consistent.owned hs hjob hrunning
  rw [hlease] at hheld
  cases hheld
  exact howned

/-- Consistent leases meet the invariants. -/
theorem ConsistentLeases.queueInvariants (hs : ConsistentLeases s) : QueueInvariants s := by
  have hinvariants := Consistent.queueInvariants hs
  exact ⟨hinvariants.leased, hinvariants.executed, hinvariants.idle, hinvariants.numbered,
    hinvariants.budgeted⟩

/-! ## Runs -/

/-- The failure of a run leaves jobs and attempts. -/
theorem finalizeCrawlFailure_jobs {job : JobRecord}
    (h : finalizeCrawlFailure job now s = .ok (u, s')) :
    s'.jobs = s.jobs ∧ s'.attempts = s.attempts := by
  obtain ⟨r, _, h⟩ := orFail_bind_eq_ok.mp h
  obtain ⟨_, s₁, hrun, h⟩ := bind_eq_ok.mp h
  obtain ⟨_, rfl⟩ := setRunStatus_eq_ok.mp hrun
  obtain ⟨_, _, _, _, _, _, rfl⟩ := appendProgress_eq_ok h
  exact ⟨rfl, rfl⟩

/-- The repair of a stream changes progress alone. -/
theorem appendTerminalProgressIfMissing_eq_ok {terminal : ProgressTerminalState}
    (h : appendTerminalProgressIfMissing j terminal now s = .ok (u, s')) :
    ∃ progress, s' = { s with progress } := by
  unfold appendTerminalProgressIfMissing at h
  rw [read_bind] at h
  obtain ⟨_, h⟩ := require_bind_eq_ok.mp h
  obtain ⟨_, h⟩ := require_bind_eq_ok.mp h
  split at h
  · cases h
    exact ⟨_, rfl⟩
  · obtain ⟨_, _, _, progress, _, _, rfl⟩ := appendProgress_eq_ok h
    exact ⟨progress, rfl⟩

/-- Every operation keeps leases consistent. -/
theorem ConsistentLeases.maintained : Maintained ConsistentLeases where
  same hs hjobs hattempts _ := hs.of_same hjobs hattempts
  harmless hs hf := Consistent.harmless hs hf
  insertJob hs hinsert hqueued hnone hattempt hmax :=
    Consistent.insertJob hs hinsert hqueued hnone hattempt hmax
  settled hs howned houtcome hstate hqueued := hs.settled howned houtcome hstate hqueued
  cancelQueued hs := Consistent.cancelQueued hs
  removed hs hattempts _ := Consistent.removed hs hattempts fun event hevent => by cases hevent
  leased hs hjob hqueued hbudget hinsert hexecutes :=
    Consistent.leaseQueued hs hjob hqueued hbudget hinsert hexecutes
  failed hs _ howned houtcome h := by
    obtain ⟨hjobs, hattempts⟩ := finalizeCrawlFailure_jobs h
    exact (hs.settled howned houtcome (by decide) (fun e => by cases e)).of_same hjobs hattempts
  repaired hs _ _ h := by
    obtain ⟨_, rfl⟩ := appendTerminalProgressIfMissing_eq_ok h
    exact hs.of_same rfl rfl

/-- An append of the progress service and a repair of terminal progress read the
jobs and write the streams. -/
theorem progressStep_consistentLeases (s : QueueStore) (input : ProgressInput)
    (hs : ConsistentLeases s) : ConsistentLeases (progressStep s input) := by
  cases input with
  | queue input => exact step_kept ConsistentLeases.maintained s input hs
  | append event createdAt =>
    show ConsistentLeases (appendAt event createdAt s).2
    unfold appendAt
    rcases h : appendInTransaction event createdAt s with e | ⟨committed, s'⟩
    · rw [commit_of_error h]
      exact hs
    · rw [commit_of_ok h]
      obtain ⟨_, _, progress, _, rfl⟩ := appendInTransaction_eq_ok h
      exact hs.of_same rfl rfl
  | repairTerminal jobId terminal now =>
    refine commit_kept hs fun _ _ h => ?_
    obtain ⟨_, rfl⟩ := appendTerminalProgressIfMissing_eq_ok h
    exact hs.of_same rfl rfl

/-- In every run leases are consistent. -/
theorem after_consistentLeases (inputs : List ProgressInput) :
    ConsistentLeases (after progressStep .empty inputs) :=
  after_invariant progressStep_consistentLeases ConsistentLeases.empty inputs

/-- The run of every attached job of a reachable store exists. -/
theorem after_attached (inputs : List ProgressInput) :
    ∀ job ∈ (after progressStep .empty inputs).jobs.rows, ∀ r ∈ job.crawlRunId,
      ((after progressStep .empty inputs).runs.find? r).isSome :=
  after_invariant
    (I := fun s : QueueStore => ∀ job ∈ s.jobs.rows, ∀ r ∈ job.crawlRunId,
      (s.runs.find? r).isSome)
    (fun _ input hs => progressStep_keeps (fun _ _ h hs => statement_attached h hs)
      (fun _ _ hs => hs) input hs)
    (fun _ hjob => by cases hjob) inputs

/-- In every run streams are well numbered. -/
theorem after_wellNumbered (inputs : List ProgressInput) :
    WellNumbered (after progressStep .empty inputs) :=
  (after_appends .empty inputs).numbered .empty

end Erabi.Progress

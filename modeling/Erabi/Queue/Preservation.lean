/-
# Every operation keeps the queue consistent

The statements keep the relations between jobs, leases, attempts and progress;
here the transactions and the operations do, and from the empty database every
reachable store is consistent and passes the check of its own invariants.
-/
import Mathlib
import Erabi.Queue.Integrity
import Erabi.Queue.Exclusive

namespace Erabi.Queue

open Relational Transaction Lifecycle Transition

variable {s s' : QueueStore} {j : JobId} {lease : JobLease} {now : ℤ} {u : Unit}

/-! ## The check of the queue invariants -/

/-- The newest attempt has no greater number than any bound on them. -/
theorem lastAttemptNumber_le {n : ℕ}
    (h : ∀ a ∈ s.attempts.rows, a.jobId = j → a.attemptNumber ≤ n) :
    lastAttemptNumber s j ≤ n := by
  unfold lastAttemptNumber
  have hfold : ∀ l : List ℕ, (∀ m ∈ l, m ≤ n) → l.foldr max 0 ≤ n := by
    intro l
    induction l with
    | nil => intro _; exact Nat.zero_le n
    | cons m l ih =>
      intro hl
      exact max_le (hl m List.mem_cons_self) (ih fun k hk => hl k (List.mem_cons_of_mem _ hk))
  refine hfold _ fun m hm => ?_
  obtain ⟨a, ha, rfl⟩ := List.mem_map.mp hm
  obtain ⟨hmem, hid⟩ := Table.mem_select.mp ha
  exact h a hmem (by simpa using hid)

/-- No attempt of a job has a greater number than its newest. -/
theorem le_lastAttemptNumber {a : JobAttempt} (ha : a ∈ s.attempts.rows) (hid : a.jobId = j) :
    a.attemptNumber ≤ lastAttemptNumber s j := by
  unfold lastAttemptNumber
  have hfold : ∀ l : List ℕ, ∀ m ∈ l, m ≤ l.foldr max 0 := by
    intro l
    induction l with
    | nil => intro m hm; cases hm
    | cons k l ih =>
      intro m hm
      rcases List.mem_cons.mp hm with rfl | hm
      · exact le_max_left _ _
      · exact (ih m hm).trans (le_max_right _ _)
  refine hfold _ _ (List.mem_map.mpr ⟨a, Table.mem_select.mpr ⟨ha, ?_⟩, rfl⟩)
  simpa using hid

/-- The greatest attempt number of a job of a consistent queue. -/
theorem Consistent.lastAttemptNumber_eq (h : Consistent s) {job : JobRecord}
    (hjob : job ∈ s.jobs.rows) : lastAttemptNumber s job.id = job.currentAttempt := by
  refine le_antisymm (lastAttemptNumber_le fun a ha hid => ?_) ?_
  · obtain ⟨owner, howner, _, hle⟩ := h.owner a ha
    rw [hid, Table.find?_key hjob] at howner
    cases howner
    exact hle
  · rcases h.current job hjob with hzero | ⟨a, ha, hid, hnumber⟩
    · omega
    · exact hnumber ▸ le_lastAttemptNumber ha hid

/-- The attempt that executes a job is the one its lease stands for. -/
theorem Executes.attemptOfLease {job : JobRecord} {c : LeaseColumns} {a : JobAttempt}
    (h : Executes job c a) (hc : job.leaseColumns = some c) :
    attemptOfLease job a = true := by
  simp [Queue.attemptOfLease, hc, h.generation, h.lease, h.worker]

/-- A consistent queue passes its own check. -/
theorem Consistent.ensureQueueInvariants (h : Consistent s) :
    ensureQueueInvariants s = .ok ((), s) := by
  have hlease : s.jobs.rows.any leaseInconsistent = false := by
    refine List.any_eq_false.mpr fun job hjob => ?_
    by_cases hrunning : job.state = .running
    · obtain ⟨hcurrent, hgeneration, c, hc, _⟩ := h.leased job hjob hrunning
      simp [leaseInconsistent, hrunning, hc]
      omega
    · simp [leaseInconsistent, hrunning, h.unleased job hjob hrunning]
  have hcurrent : s.jobs.rows.any (currentAttemptInconsistent s) = false := by
    refine List.any_eq_false.mpr fun job hjob => ?_
    by_cases hrunning : job.state = .running
    · obtain ⟨_, _, c, hc, a, ha, hexecutes⟩ := h.leased job hjob hrunning
      rw [currentAttemptInconsistent, Bool.not_eq_true, Bool.and_eq_false_iff]
      refine Or.inr ?_
      rw [Bool.or_eq_false_iff]
      constructor
      · rw [List.isEmpty_eq_false_iff]
        refine List.ne_nil_of_mem (Table.mem_select.mpr ⟨ha, ?_⟩)
        simp [hexecutes.jobId, hexecutes.number, hexecutes.running]
      -- any other running attempt of the job is this one
      · refine List.any_eq_false.mpr fun b hb => ?_
        obtain ⟨hb, hp⟩ := Table.mem_select.mp hb
        simp only [Bool.and_eq_true, decide_eq_true_eq] at hp
        rw [h.oneRunning b hb a ha hp.2 hexecutes.running (hp.1.1.trans hexecutes.jobId.symm),
          hexecutes.attemptOfLease hc]
        simp
    · simp [currentAttemptInconsistent, hrunning]
  have hrunning : s.jobs.rows.any (runningAttemptInconsistent s) = false := by
    refine List.any_eq_false.mpr fun job hjob hbad => ?_
    rw [runningAttemptInconsistent, Bool.and_eq_true] at hbad
    obtain ⟨hnot, hany⟩ := hbad
    obtain ⟨a, ha, hp⟩ := List.any_eq_true.mp hany
    simp only [Bool.and_eq_true, decide_eq_true_eq] at hp
    obtain ⟨owner, howner, hstill, _⟩ := h.owner a ha
    rw [hp.1, Table.find?_key hjob] at howner
    cases howner
    simp [hstill hp.2] at hnot
  have hnumber : s.jobs.rows.any
      (fun job => job.currentAttempt != lastAttemptNumber s job.id) = false := by
    refine List.any_eq_false.mpr fun job hjob => ?_
    simp [h.lastAttemptNumber_eq hjob]
  have hbudget : s.attempts.rows.any (attemptBudgetInconsistent s) = false := by
    refine List.any_eq_false.mpr fun a ha => ?_
    obtain ⟨owner, howner, _, hle⟩ := h.owner a ha
    have hmax := (h.budget owner (Table.mem_of_find? howner)).1
    rw [attemptBudgetInconsistent, howner]
    simp
    omega
  unfold Queue.ensureQueueInvariants
  rw [read_bind]
  refine require_bind_eq_ok.mpr ⟨hlease, require_bind_eq_ok.mpr ⟨hcurrent,
    require_bind_eq_ok.mpr ⟨hrunning, require_bind_eq_ok.mpr ⟨hnumber, ?_⟩⟩⟩⟩
  exact require_eq_ok.mpr ⟨hbudget, rfl⟩

/-! ## Progress -/

/-- A job that is not settled has no progress yet. -/
theorem Consistent.progress_free (h : Consistent s) {job : JobRecord}
    (hjob : s.jobs.find? j = some job) (hopen : terminalProgress job.state = none) :
    ∀ event ∈ s.progress.rows, event.jobId ≠ j := by
  intro event hevent hid
  obtain ⟨_, found, terminal, hfound, hterminal, _⟩ := h.progress event hevent
  rw [hid, hjob] at hfound
  cases hfound
  rw [hopen] at hterminal
  cases hterminal

/-- A job without progress events numbers from the start. -/
theorem lastSequence_of_free (h : ∀ event ∈ s.progress.rows, event.jobId ≠ j) :
    lastSequence s j = 0 := by
  have hnone : s.progress.rows.filter (fun event => event.jobId = j) = [] :=
    List.filter_eq_nil_iff.mpr fun event hevent => by simpa using h event hevent
  rw [lastSequence, progressSequences, hnone]
  rfl

/-- The first event of a settled job keeps the queue consistent. -/
theorem appendProgress_consistent (hs : Consistent s) {job : JobRecord}
    {terminal : ProgressTerminalState} (hjob : s.jobs.find? j = some job)
    (hterminal : terminalProgress job.state = some terminal)
    (hfree : ∀ event ∈ s.progress.rows, event.jobId ≠ j)
    (h : appendProgress j (some terminal) now s = .ok (u, s')) : Consistent s' := by
  obtain ⟨_, _, next, progress, hnext, hinsert, rfl⟩ := appendProgress_eq_ok h
  rw [lastSequence_of_free hfree] at hnext
  have hone : next.toNat = 1 := by
    have := checkedAddI64_eq_some hnext
    omega
  exact hs.appendProgress ⟨j, none, next.toNat, .completed, [], some terminal, now⟩ hjob
    hterminal rfl hone hinsert

/-- The terminal event of an ended job completes its stream. -/
theorem appendTerminalProgressIfMissing_consistent (hs : Consistent s) {job : JobRecord}
    {terminal : ProgressTerminalState} (hjob : s.jobs.find? j = some job)
    (hterminal : terminalProgress job.state = some terminal)
    (h : appendTerminalProgressIfMissing j terminal now s = .ok (u, s')) : Consistent s' := by
  unfold appendTerminalProgressIfMissing at h
  rw [read_bind] at h
  obtain ⟨_, h⟩ := require_bind_eq_ok.mp h
  obtain ⟨hlength, h⟩ := require_bind_eq_ok.mp h
  split at h
  · cases h
    exact hs
  · rename_i hnot
    refine appendProgress_consistent hs hjob hterminal (fun event hevent hid => ?_) h
    -- every stored event is terminal, so a stored event of the job would count
    have hstored : terminal ∈ (s.progress.select fun event => event.jobId = j).filterMap
        ProgressEvent.terminal := by
      obtain ⟨_, found, stored, hfound, hstored, hevent'⟩ := hs.progress event hevent
      rw [hid, hjob] at hfound
      cases hfound
      rw [hterminal] at hstored
      cases hstored
      exact List.mem_filterMap.mpr ⟨event, Table.mem_select.mpr ⟨hevent, by simpa using hid⟩,
        hevent'⟩
    have hpos := List.length_pos_of_mem hstored
    omega

/-- A failed job ends its run and its stream with it. -/
theorem finalizeCrawlFailure_consistent (hs : Consistent s) {job failed : JobRecord}
    (hjob : s.jobs.find? job.id = some failed) (hfailed : failed.state = .failed)
    (hfree : ∀ event ∈ s.progress.rows, event.jobId ≠ job.id)
    (h : finalizeCrawlFailure job now s = .ok (u, s')) : Consistent s' := by
  obtain ⟨r, _, h⟩ := orFail_bind_eq_ok.mp h
  obtain ⟨_, s₁, hrun, h⟩ := bind_eq_ok.mp h
  obtain ⟨_, hs₁⟩ := setRunStatus_eq_ok.mp hrun
  have hjobs : s₁.jobs = s.jobs := by rw [hs₁]
  have hprogress : s₁.progress = s.progress := by rw [hs₁]
  exact appendProgress_consistent (s := s₁) (hs.of_same hjobs (by rw [hs₁]) hprogress)
    (hjobs ▸ hjob) (by rw [hfailed]; rfl) (hprogress ▸ hfree) h

/-- Settling an owned job as failed, with its run and its progress. -/
theorem settled_finalizeCrawlFailure_consistent (hs : Consistent s) {job : JobRecord}
    {outcome : AttemptOutcome} {failure : Option JobFailureCode} {scheduledAt : Option ℤ}
    (hjob : s.jobs.find? job.id = some job) (howned : Owned s job.id lease)
    (houtcome : outcome ≠ .running)
    (h : finalizeCrawlFailure job now
      (settled job.id lease now outcome .failed failure scheduledAt s) = .ok (u, s')) :
    Consistent s' := by
  obtain ⟨owner, howner, hholds⟩ := howned.job
  rw [hjob] at howner
  cases howner
  have hrunning := (holdsLease_iff.mp hholds).2.1
  obtain ⟨failed, hfind, hfailed⟩ : ∃ failed,
      (settled job.id lease now outcome .failed failure scheduledAt s).jobs.find? job.id =
        some failed ∧ failed.state = .failed :=
    ⟨_, by rw [settled_find?, hjob, Option.map_some, if_pos hholds], rfl⟩
  exact finalizeCrawlFailure_consistent
    (hs.settled howned houtcome (by decide) (fun e => by cases e)) hfind hfailed
    (hs.progress_free hjob (by rw [hrunning]; rfl)) h

/-! ## Recovery in terms of the store -/

/-- One round of the recovery of expired leases, in terms of the store. -/
theorem recoverExpiredJob_eq_ok {recovery recovery' : StaleJobRecovery}
    (h : recoverExpiredJob now recovery j s = .ok (recovery', s')) :
    ∃ job lease, s.jobs.find? j = some job ∧ job.lease = some lease ∧
      ((now < lease.expiresAt ∧ s' = s ∧ recovery' = recovery) ∨ (lease.expiresAt ≤ now ∧
        ∃ reconciliation s₁, finishAfterRun j job.crawlRunId now s = .ok (reconciliation, s₁) ∧
          ((reconciliation.isSome ∧ s' = s₁ ∧ recovery' = recovery) ∨ (reconciliation = none ∧
            s₁ = s ∧ expireJob now recovery job lease s = .ok (recovery', s'))))) := by
  obtain ⟨job, hfind, h⟩ := selectJob_bind_eq_ok.mp h
  obtain ⟨lease, hlease, h⟩ := orFail_bind_eq_ok.mp h
  refine ⟨job, lease, hfind, hlease, ?_⟩
  split at h
  · rename_i hnow
    cases h
    exact Or.inl ⟨hnow, rfl, rfl⟩
  · rename_i hnow
    obtain ⟨reconciliation, s₁, hfinish, h⟩ := bind_eq_ok.mp h
    refine Or.inr ⟨le_of_not_gt hnow, reconciliation, s₁, hfinish, ?_⟩
    rcases finishAfterRun_lifecycle hfind hfinish with
      ⟨rfl, hs₁, _⟩ | ⟨_, _, _, _, _, _, hsome, _⟩
    · rw [hs₁] at h
      exact Or.inr ⟨rfl, hs₁, h⟩
    · obtain ⟨_, rfl, _⟩ := Option.map_eq_some_iff.mp hsome
      cases h
      exact Or.inl ⟨rfl, rfl, rfl⟩

/-- The job of a collected repair is settled as the repair says. -/
def RepairOf (s : QueueStore) (repair : JobId × ProgressTerminalState) : Prop :=
  ∃ job, s.jobs.find? repair.1 = some job ∧ terminalProgress job.state = some repair.2

/-- Settled rows are not touched by the reconciliation of another row. -/
theorem RepairOf.reconcile {status : CrawlRunStatus}
    {reconciliation : Option TerminalJobReconciliation} {repair : JobId × ProgressTerminalState}
    (hrepair : RepairOf s repair)
    (h : reconcileTerminalJob j status now s = .ok (reconciliation, s')) :
    RepairOf s' repair := by
  rcases reconcileTerminalJob_eq_ok h with
    ⟨_, _, rfl⟩ | ⟨_, _, _, _, _, _, _, _, ⟨_, rfl⟩ | ⟨_, lease, _, rfl⟩⟩
  · exact hrepair
  · exact hrepair
  · obtain ⟨job, hfind, hterminal⟩ := hrepair
    refine ⟨job, ?_, hterminal⟩
    rw [settled_find?, hfind, Option.map_some, if_neg]
    intro hholds
    rw [(holdsLease_iff.mp hholds).2.1] at hterminal
    cases hterminal

/-- Repairing progress streams leaves the jobs alone. -/
theorem appendTerminalProgressIfMissing_jobs {terminal : ProgressTerminalState}
    (h : appendTerminalProgressIfMissing j terminal now s = .ok (u, s')) :
    s'.jobs = s.jobs := by
  unfold appendTerminalProgressIfMissing at h
  rw [read_bind] at h
  obtain ⟨_, h⟩ := require_bind_eq_ok.mp h
  obtain ⟨_, h⟩ := require_bind_eq_ok.mp h
  split at h
  · cases h
    rfl
  · obtain ⟨_, _, _, _, _, _, rfl⟩ := appendProgress_eq_ok h
    rfl

/-! ## Properties that the changes of rows keep -/

/-- What a property of stores needs so that every transaction keeps it. -/
structure Maintained (P : QueueStore → Prop) : Prop where
  same : ∀ {s s'}, P s → s'.jobs = s.jobs → s'.attempts = s.attempts →
    s'.progress = s.progress → P s'
  harmless : ∀ {s} {p : JobRecord → Bool} {f : JobRecord → JobRecord}, P s → (hf : Harmless f) →
    P { s with jobs := s.jobs.update p f hf.id }
  insertJob : ∀ {s} {job : JobRecord} {jobs : Table JobRecord JobId JobRecord.id}, P s →
    s.jobs.insert? job = some jobs → job.state = .queued → job.leaseColumns = none →
    job.currentAttempt = 0 → 1 ≤ job.maxAttempts → P { s with jobs }
  settled : ∀ {s j lease now outcome state failure scheduledAt}, P s → Owned s j lease →
    outcome ≠ .running → state ≠ .running →
    (state = .queued → ∀ job, s.jobs.find? j = some job → job.currentAttempt < job.maxAttempts) →
    P (settled j lease now outcome state failure scheduledAt s)
  cancelQueued : ∀ {s j now}, P s → P { s with
    jobs := s.jobs.update (fun job => job.id = j && job.state = .queued) fun job =>
      { job with state := .cancelled, failureCode := some .cancelled, updatedAt := now } }
  removed : ∀ {s j}, P s → (∀ a ∈ s.attempts.rows, a.jobId ≠ j) →
    (∀ event ∈ s.progress.rows, event.jobId ≠ j) →
    P { s with jobs := s.jobs.delete fun job => job.id = j }
  leased : ∀ {s job} {c : LeaseColumns} {now} {attempt : JobAttempt}
    {attempts : Table JobAttempt AttemptId JobAttempt.id}, P s →
    s.jobs.find? job.id = some job → job.state = .queued →
    job.currentAttempt < job.maxAttempts → s.attempts.insert? attempt = some attempts →
    Executes { job with
      currentAttempt := job.currentAttempt + 1, leaseGeneration := job.leaseGeneration + 1 }
      c attempt → P (leasedStore job c now attempts s)
  failed : ∀ {s s' job lease now outcome failure scheduledAt u}, P s →
    s.jobs.find? job.id = some job → Owned s job.id lease → outcome ≠ .running →
    finalizeCrawlFailure job now
      (Queue.settled job.id lease now outcome .failed failure scheduledAt s) = .ok (u, s') → P s'
  repaired : ∀ {s s' j job terminal now u}, P s → s.jobs.find? j = some job →
    terminalProgress job.state = some terminal →
    appendTerminalProgressIfMissing j terminal now s = .ok (u, s') → P s'

/-- Consistency is kept by every statement that the operations are made of. -/
theorem Consistent.maintained : Maintained Consistent where
  same hs hjobs hattempts hprogress := hs.of_same hjobs hattempts hprogress
  harmless hs hf := hs.harmless hf
  insertJob hs hinsert hqueued hnone hattempt hmax :=
    hs.insertJob hinsert hqueued hnone hattempt hmax
  settled hs howned houtcome hstate hqueued := hs.settled howned houtcome hstate hqueued
  cancelQueued hs := hs.cancelQueued
  removed hs hattempts hprogress := hs.removed hattempts hprogress
  leased hs hjob hqueued hbudget hinsert hexecutes :=
    hs.leaseQueued hjob hqueued hbudget hinsert hexecutes
  failed hs hjob howned houtcome h :=
    settled_finalizeCrawlFailure_consistent hs hjob howned houtcome h
  repaired hs hjob hterminal h :=
    appendTerminalProgressIfMissing_consistent hs hjob hterminal h

section Maintained

variable {P : QueueStore → Prop} (hP : Maintained P)

include hP

/-! ## Transactions that settle jobs -/

/-- A job succeeds. -/
theorem succeed_kept (hs : P s) (h : succeed j lease now s = .ok (u, s')) :
    P s' := by
  obtain ⟨_, _, _, _, _, h⟩ := selectOwnedRunningJob_bind_eq_ok.mp h
  obtain ⟨howned, rfl⟩ := finish_release_eq_ok.mp h
  exact hP.settled hs howned (by decide) (by decide) (fun e => by cases e)

/-- A job fails, for good or to be tried again. -/
theorem failWithDisposition_kept (hs : P s) {failure : JobFailureCode}
    {retryAt : ℤ} {terminal : Bool} {state : JobState}
    (h : failWithDisposition j lease now failure retryAt terminal s = .ok (state, s')) :
    P s' := by
  obtain ⟨job, hfind, _, _, _, h⟩ := selectOwnedRunningJob_bind_eq_ok.mp h
  obtain ⟨howned, h⟩ := finish_release_bind_eq_ok.mp h
  cases h
  refine hP.settled hs howned (by decide) ?_ fun hqueued other hother => ?_
  · split <;> decide
  · rw [hfind] at hother
    cases hother
    by_contra hnot
    rw [if_neg fun hand => hnot hand.2] at hqueued
    cases hqueued

/-- A job fails for good. -/
theorem failTerminal_kept (hs : P s) {failure : JobFailureCode}
    (h : failTerminal j lease now failure s = .ok (u, s')) : P s' := by
  obtain ⟨state, s₁, hfail, h⟩ := bind_eq_ok.mp h
  obtain ⟨_, rfl⟩ := require_eq_ok.mp h
  exact failWithDisposition_kept hP hs hfail

/-- A production job fails for good, and its run with it. -/
theorem failTerminalProduction_kept (hs : P s) {failure : JobFailureCode}
    (h : failTerminalProduction j lease now failure s = .ok (u, s')) : P s' := by
  obtain ⟨job, hfind, _, _, _, h⟩ := selectOwnedRunningJob_bind_eq_ok.mp h
  have hid := Table.key_of_find? hfind
  subst hid
  have hend : (do
      finishAttempt job.id lease now .failed (some failure)
      releaseJob job.id lease now .failed (some failure) (some job.scheduledAt)
      finalizeCrawlFailure job now : QueueTx Unit) s = .ok (u, s') → P s' := by
    intro hdo
    obtain ⟨howned, hfinal⟩ := finish_release_bind_eq_ok.mp hdo
    exact hP.failed hs hfind howned (by decide) hfinal
  rw [read_bind] at h
  dsimp only at h
  split at h
  · obtain ⟨r, _, h⟩ := orFail_bind_eq_ok.mp h
    obtain ⟨run, _, h⟩ := orFail_bind_eq_ok.mp h
    obtain ⟨_, h⟩ := require_bind_eq_ok.mp h
    exact hend h
  · exact hend h

/-- The run of a cancelled job is cancelled while it is open. -/
theorem cancelRelatedRun_kept (hs : P s) {run : Option CrawlRunId}
    (h : cancelRelatedRun run s = .ok (u, s')) : P s' := by
  cases run <;> cases h
  · exact hs
  · exact hP.same hs rfl rfl rfl

/-- The worker cancels the job it executes. -/
theorem cancel_kept (hs : P s) (h : cancel j lease now s = .ok (u, s')) :
    P s' := by
  obtain ⟨_, _, _, howned, hend⟩ := cancel_eq_ok h
  rcases hend with ⟨_, status, _, _, _, _, _, houtcome, rfl⟩ | ⟨_, hcancel⟩
  · have hsettled : cancelledState (some status) ≠ .running ∧
        cancelledState (some status) ≠ .queued := by
      cases status <;> decide
    exact hP.settled hs howned houtcome hsettled.1 fun e => absurd e hsettled.2
  · exact cancelRelatedRun_kept hP
      (hP.settled hs howned (by decide) (by decide) (fun e => by cases e)) hcancel

/-- A queued job is cancelled. -/
theorem cancelQueued_kept (hs : P s) {state : JobState}
    (h : cancelQueued j now s = .ok (state, s')) : P s' := by
  obtain ⟨job, hfind, h⟩ := selectJob_bind_eq_ok.mp h
  split at h
  · cases h
    exact hs
  · rw [write_bind] at h
    obtain ⟨_, s₁, hcancel, h⟩ := bind_eq_ok.mp h
    cases h
    exact cancelRelatedRun_kept hP (hP.cancelQueued hs) hcancel

/-! ## Reconciliation, expiry and pressure -/

/-- A reconciled job is settled, and its progress state is the reported one. -/
theorem reconcileTerminalJob_kept (hs : P s) {status : CrawlRunStatus}
    {reconciliation : Option TerminalJobReconciliation}
    (h : reconcileTerminalJob j status now s = .ok (reconciliation, s')) :
    P s' ∧ ∀ r ∈ reconciliation, ∃ job, s'.jobs.find? j = some job ∧
      terminalProgress job.state = some r.progress := by
  rcases reconcileTerminalJob_eq_ok h with
    ⟨rfl, _, rfl⟩ | ⟨job, state, outcome, failure, progress, hfind, hstatus, rfl, hs'⟩
  · exact ⟨hs, fun r hr => by cases hr⟩
  · have hpair : terminalProgress state = some progress ∧ state ≠ .running ∧
        outcome ≠ .running ∧ state ≠ .queued := by
      cases status <;> cases hstatus <;> exact ⟨rfl, by decide, by decide, by decide⟩
    obtain ⟨hprogress, hstate, houtcome, hqueued⟩ := hpair
    rcases hs' with ⟨rfl, rfl⟩ | ⟨_, lease, howned, rfl⟩
    · exact ⟨hs, fun r hr => by cases hr; exact ⟨job, hfind, hprogress⟩⟩
    · refine ⟨hP.settled hs howned houtcome hstate fun e => absurd e hqueued, fun r hr => ?_⟩
      cases hr
      obtain ⟨owner, howner, hholds⟩ := howned.job
      refine ⟨_, by rw [settled_find?, howner, Option.map_some], ?_⟩
      rw [if_pos hholds]
      exact hprogress

/-- A job whose run has ended is settled as the run says. -/
theorem finishAfterRun_kept (hs : P s) {run : Option CrawlRunId}
    {reconciliation : Option TerminalJobReconciliation}
    (h : finishAfterRun j run now s = .ok (reconciliation, s')) :
    P s' ∧ ∀ r ∈ reconciliation, ∃ job, s'.jobs.find? j = some job ∧
      terminalProgress job.state = some r.progress := by
  cases run with
  | none =>
    cases h
    exact ⟨hs, fun r hr => by cases hr⟩
  | some r =>
    unfold finishAfterRun finishAfterTerminalCrawlRun at h
    dsimp only at h
    rw [selectCrawlRunStatus_bind] at h
    rcases hr : s.lifecycle.run r with _ | status
    · rw [hr] at h
      cases h
      exact ⟨hs, fun r hr => by cases hr⟩
    · rw [hr] at h
      exact reconcileTerminalJob_kept hP hs h

/-- A job whose lease has expired goes back to the queue or fails. -/
theorem expireJob_kept (hs : P s) {recovery recovery' : StaleJobRecovery}
    {job : JobRecord} (hjob : s.jobs.find? job.id = some job)
    (h : expireJob now recovery job lease s = .ok (recovery', s')) : P s' := by
  obtain ⟨howned, _, ⟨hrequeues, rfl⟩ | ⟨_, _, rfl⟩ | ⟨_, u, hfinal⟩⟩ := expireJob_eq_ok h
  · refine hP.settled hs howned (by decide) (by decide) fun _ other hother => ?_
    rw [hjob] at hother
    cases hother
    rw [requeuesStale, Bool.and_eq_true, decide_eq_true_eq] at hrequeues
    exact hrequeues.2
  · exact hP.settled hs howned (by decide) (by decide) (fun e => by cases e)
  · exact hP.failed hs hjob howned (by decide) hfinal

/-- One row of the recovery, which looks at the job again before it writes. -/
theorem recoverExpiredJob_kept (hs : P s) {recovery recovery' : StaleJobRecovery}
    (h : recoverExpiredJob now recovery j s = .ok (recovery', s')) : P s' := by
  obtain ⟨job, lease, hfind, _, ⟨_, rfl, _⟩ | ⟨_, reconciliation, s₁, hfinish, hend⟩⟩ :=
    recoverExpiredJob_eq_ok h
  · exact hs
  · have hid := Table.key_of_find? hfind
    subst hid
    rcases hend with ⟨_, rfl, _⟩ | ⟨_, _, hexpire⟩
    · exact (finishAfterRun_kept hP hs hfinish).1
    · exact expireJob_kept hP hs hfind hexpire

/-- The recovery of all jobs with expired leases. -/
theorem recoverExpired_kept (hs : P s) {recovery : StaleJobRecovery}
    (h : recoverExpired now s = .ok (recovery, s')) : P s' :=
  Keeps.foldEach (I := P)
    (fun _ _ _ _ _ hround hs => recoverExpiredJob_kept hP hs hround) _ _ s recovery s' h hs

/-- A job is put back, failed or settled under storage pressure. -/
theorem requeueAfterStoragePressureTx_kept (hs : P s)
    {result : Option TerminalJobReconciliation × JobState}
    (h : requeueAfterStoragePressureTx j lease now s = .ok (result, s')) :
    P s' ∧ ∀ r ∈ result.1, ∃ job, s'.jobs.find? j = some job ∧
      terminalProgress job.state = some r.progress := by
  obtain ⟨job, hfind, _, _, ⟨reconciliation, hfinish, rfl⟩ | ⟨_, howned, hs'⟩⟩ :=
    requeueAfterStoragePressureTx_eq_ok h
  · exact finishAfterRun_kept hP hs hfinish
  · rcases hs' with ⟨hrequeues, rfl, rfl⟩ | ⟨_, rfl, hs'⟩
    · refine ⟨hP.settled hs howned (by decide) (by decide) fun _ other hother => ?_,
        fun r hr => by cases hr⟩
      rw [hfind] at hother
      cases hother
      rw [requeuesPressured, Bool.and_eq_true, decide_eq_true_eq] at hrequeues
      exact hrequeues.2
    · refine ⟨?_, fun r hr => by cases hr⟩
      have hid := Table.key_of_find? hfind
      subst hid
      rcases hs' with ⟨_, rfl⟩ | ⟨u, hfinal⟩
      · exact hP.settled hs howned (by decide) (by decide) (fun e => by cases e)
      · exact hP.failed hs hfind howned (by decide) hfinal

/-- The repair of a progress stream that follows a committed reconciliation. -/
theorem repair_kept (now : ℤ) (hs : P s) {terminal : ProgressTerminalState}
    (hjob : ∃ job, s.jobs.find? j = some job ∧ terminalProgress job.state = some terminal) :
    P ((appendTerminalProgressIfMissing j terminal now).commit s).2 := by
  obtain ⟨job, hfind, hterminal⟩ := hjob
  rcases hrepair : appendTerminalProgressIfMissing j terminal now s with e | ⟨_, s₂⟩
  · rw [commit_of_error hrepair]
    exact hs
  · rw [commit_of_ok hrepair]
    exact hP.repaired hs hfind hterminal hrepair

/-- The same with the events that were missing. -/
theorem requeueAfterStoragePressure_kept (hs : P s) :
    P (requeueAfterStoragePressure j lease now s).2 := by
  unfold requeueAfterStoragePressure
  rcases htx : requeueAfterStoragePressureTx j lease now s with e | ⟨⟨reconciliation, state⟩, s₁⟩
  · rw [commit_of_error htx]
    exact hs
  · rw [commit_of_ok htx]
    obtain ⟨hs₁, hrow⟩ := requeueAfterStoragePressureTx_kept hP hs htx
    cases reconciliation with
    | none => exact hs₁
    | some reconciliation =>
      have hrepair := repair_kept hP now hs₁ (hrow reconciliation rfl)
      dsimp only
      rcases happend : (appendTerminalProgressIfMissing j reconciliation.progress now).commit s₁
        with ⟨e | _, s₂⟩ <;> rw [happend] at hrepair <;> exact hrepair

/-- The job of a run that has ended is ended as well. -/
theorem reconcileTerminalCrawlRun_kept (hs : P s) {r : CrawlRunId}
    {reconciliation : TerminalJobReconciliation}
    (h : reconcileTerminalCrawlRun j lease r now s = .ok (reconciliation, s')) :
    P s' ∧ ∃ job, s'.jobs.find? j = some job ∧
      terminalProgress job.state = some reconciliation.progress := by
  unfold reconcileTerminalCrawlRun at h
  rw [selectCrawlRunStatus_bind] at h
  obtain ⟨status, hr, h⟩ := orFail_bind_eq_ok.mp h
  obtain ⟨job, hfind, h⟩ := selectJob_bind_eq_ok.mp h
  obtain ⟨_, h⟩ := require_bind_eq_ok.mp h
  obtain ⟨_, h⟩ := require_bind_eq_ok.mp h
  obtain ⟨result, s₁, hreconcile, h⟩ := bind_eq_ok.mp h
  obtain ⟨rfl, rfl⟩ := orFail_eq_ok.mp h
  obtain ⟨hs', hrow⟩ := reconcileTerminalJob_kept hP hs hreconcile
  exact ⟨hs', hrow reconciliation rfl⟩

/-- An execution that ended its run ends its job after it. -/
theorem reconcileTerminalCommit_kept (hs : P s) (execution : ExecutionEnd)
    (commit : TerminalCrawlRunCommit) :
    P (reconcileTerminalCommit execution commit s).2 := by
  unfold reconcileTerminalCommit
  rcases hreconcile : reconcileTerminalCrawlRun execution.jobId execution.lease commit.runId
    execution.completedAt s with e | ⟨reconciliation, s₁⟩
  · rw [commit_of_error hreconcile]
    exact hs
  · rw [commit_of_ok hreconcile]
    obtain ⟨hs₁, hrow⟩ := reconcileTerminalCrawlRun_kept hP hs hreconcile
    dsimp only
    split
    · exact hs₁
    · have hrepair := repair_kept hP execution.completedAt hs₁ hrow
      rcases happend : (appendTerminalProgressIfMissing execution.jobId reconciliation.progress
        execution.completedAt).commit s₁ with ⟨e | _, s₂⟩ <;> rw [happend] at hrepair
      · dsimp only
        split <;> exact hrepair
      · exact hrepair

/-! ## Startup recovery -/

/-- The reconciliation works off the open jobs of ended runs. -/
theorem reconcileRows_kept {rows : List (JobId × CrawlRunStatus)}
    {repairs repairs' : ProgressRepairs} (hs : P s)
    (hrepairs : ∀ repair ∈ repairs, RepairOf s repair)
    (h : foldEach (reconcileRow now) repairs rows s = .ok (repairs', s')) :
    P s' ∧ ∀ repair ∈ repairs', RepairOf s' repair := by
  induction rows generalizing repairs s with
  | nil =>
    cases h
    exact ⟨hs, hrepairs⟩
  | cons row rows ih =>
    obtain ⟨repairs₁, s₁, hrow, h⟩ := bind_eq_ok.mp h
    obtain ⟨reconciliation, s₂, hreconcile, hrow⟩ := bind_eq_ok.mp hrow
    obtain ⟨hs₂, hjob⟩ := reconcileTerminalJob_kept hP hs hreconcile
    have hold : ∀ repair ∈ repairs, RepairOf s₂ repair :=
      fun repair hmem => (hrepairs repair hmem).reconcile hreconcile
    cases reconciliation with
    | none =>
      cases hrow
      exact ih hs₂ hold h
    | some reconciliation =>
      cases hrow
      refine ih hs₂ (fun repair hmem => ?_) h
      rcases List.mem_append.mp hmem with hmem | hmem
      · exact hold repair hmem
      · rw [List.mem_singleton.mp hmem]
        exact hjob reconciliation rfl

/-- The repairs append the events that they name. -/
theorem repairTerminalProgress_kept (hs : P s) {repairs : ProgressRepairs}
    (hrepairs : ∀ repair ∈ repairs, RepairOf s repair) :
    P (repairTerminalProgress now repairs s).2 := by
  induction repairs generalizing s with
  | nil => exact hs
  | cons repair repairs ih =>
    obtain ⟨j, terminal⟩ := repair
    obtain ⟨job, hfind, hterminal⟩ := hrepairs (j, terminal) List.mem_cons_self
    unfold repairTerminalProgress
    rcases happend : appendTerminalProgressIfMissing j terminal now s with e | ⟨_, s₁⟩
    · rw [commit_of_error happend]
      exact hs
    · rw [commit_of_ok happend]
      have hjobs := appendTerminalProgressIfMissing_jobs happend
      refine ih (hP.repaired hs hfind hterminal happend) ?_
      intro repair hmem
      obtain ⟨other, hother, hstate⟩ := hrepairs repair (List.mem_cons_of_mem _ hmem)
      exact ⟨other, hjobs ▸ hother, hstate⟩

/-- The reconciliation with its repairs. -/
theorem reconcileTerminalCrawlRuns_kept (now : ℤ) (hs : P s) :
    P (reconcileTerminalCrawlRuns now s).2 := by
  unfold reconcileTerminalCrawlRuns
  rcases htx : reconcileTerminalRunsTx now s with e | ⟨repairs, s₁⟩
  · rw [commit_of_error htx]
    exact hs
  · rw [commit_of_ok htx]
    obtain ⟨hs₁, hrepairs⟩ := reconcileRows_kept hP hs (fun _ h => by cases h) htx
    exact repairTerminalProgress_kept hP hs₁ hrepairs

/-- The recovery at the start: expiry first, then reconciliation. -/
theorem recoverStaleJobs_kept (hs : P s) :
    P (recoverStaleJobs now s).2 := by
  unfold recoverStaleJobs
  rcases htx : recoverStaleTx now s with e | ⟨recovery, s₁⟩
  · rw [commit_of_error htx]
    exact hs
  · rw [commit_of_ok htx]
    obtain ⟨_, s₀, hinvariants, hrecover⟩ := bind_eq_ok.mp htx
    rw [ensureQueueInvariants_eq_ok hinvariants] at hrecover
    have hs₁ := recoverExpired_kept hP hs hrecover
    have hs₂ := reconcileTerminalCrawlRuns_kept hP now hs₁
    dsimp only
    rcases hreconcile : reconcileTerminalCrawlRuns now s₁ with ⟨e | _, s₂⟩ <;>
      rw [hreconcile] at hs₂ <;> exact hs₂

/-! ## Creation, leases and maintenance -/

/-- A run is inserted. -/
theorem insertRun_kept (hs : P s) {r : CrawlRunId} {status : CrawlRunStatus}
    {snapshot : CrawlRunSnapshot} (h : insertRun r status snapshot s = .ok (u, s')) :
    P s' := by
  obtain ⟨runs, _, rfl⟩ := insertRun_eq_ok.mp h
  exact hP.same hs rfl rfl rfl

/-- A queued job is inserted, without lease and attempts. -/
theorem insertJob_kept (hs : P s) {job : JobRecord}
    (hqueued : job.state = .queued) (hnone : job.leaseColumns = none)
    (hattempt : job.currentAttempt = 0) (h : insertJob job s = .ok (u, s')) : P s' := by
  obtain ⟨_, _, hmax, jobs, hinsert, rfl⟩ := insertJob_eq_ok.mp h
  exact hP.insertJob hs hinsert hqueued hnone hattempt hmax

/-- A run is created together with its first job. -/
theorem createRunWithRootJob_kept (hs : P s) {r : CrawlRunId}
    {snapshot : CrawlRunSnapshot} {job : NewJob}
    (h : createRunWithRootJob r snapshot job now s = .ok (u, s')) : P s' := by
  obtain ⟨_, s₁, hrun, hjob⟩ := bind_eq_ok.mp h
  exact insertJob_kept hP (insertRun_kept hP hs hrun) rfl rfl rfl hjob

/-- An action enqueues its job, on the run of its parent or on a new one. -/
theorem enqueueActionChild_kept (hs : P s) {childId : JobId} {kind : JobKind}
    {association : ActionRunAssociation} {maxAttempts : Option ℕ} {child : JobRecord}
    (h : enqueueActionChild j childId kind now association maxAttempts s = .ok (child, s')) :
    P s' := by
  obtain ⟨source, _, hbody⟩ := selectJob_bind_eq_ok.mp h
  obtain ⟨_, s₁, hlineage, hbody⟩ := bind_eq_ok.mp hbody
  obtain ⟨_, _, _, hs₁⟩ := validateActionChildLineage_eq_ok.mp hlineage
  rw [hs₁] at hbody
  obtain ⟨run, s₂, hassociation, hbody⟩ := bind_eq_ok.mp hbody
  have hs₂ : P s₂ := by
    cases association with
    | none =>
      cases hassociation
      exact hs
    | sameSourceRun =>
      obtain ⟨r, _, hassociation⟩ := orFail_bind_eq_ok.mp hassociation
      obtain ⟨_, s₃, hset, hassociation⟩ := bind_eq_ok.mp hassociation
      cases hassociation
      obtain ⟨_, rfl⟩ := setRunStatus_eq_ok.mp hset
      exact hP.same hs rfl rfl rfl
    | newIndependentRun r snapshot =>
      obtain ⟨_, s₃, hinsert, hassociation⟩ := bind_eq_ok.mp hassociation
      cases hassociation
      exact insertRun_kept hP hs hinsert
  obtain ⟨_, s₃, hinsert, hselect⟩ := bind_eq_ok.mp hbody
  obtain ⟨_, rfl⟩ := selectJob_eq_ok.mp hselect
  exact insertJob_kept hP hs₂ rfl rfl rfl hinsert

/-- A lease is renewed by its holder. -/
theorem heartbeat_kept (hs : P s) {duration : ℤ} {renewed : JobLease}
    (h : heartbeat j lease now duration s = .ok (renewed, s')) : P s' := by
  unfold heartbeat at h
  obtain ⟨_, h⟩ := require_bind_eq_ok.mp h
  obtain ⟨expiresAt, _, h⟩ := orFail_bind_eq_ok.mp h
  rw [read_bind] at h
  split at h
  · obtain ⟨_, h⟩ := require_bind_eq_ok.mp h
    cases h
    refine hP.harmless hs (f := fun job => { job with
        leaseColumns := job.leaseColumns.map fun c => { c with heartbeatAt := now, expiresAt }
        updatedAt := now }) ⟨fun _ => rfl, fun _ => rfl, fun _ => rfl, fun _ => rfl, fun _ => rfl,
      fun job => ?_⟩
    rw [Option.map_map]
    rfl
  · rcases hfind : s.jobs.find? j with _ | job
    · rw [hfind] at h
      cases h
    · rw [hfind] at h
      dsimp only at h
      split at h <;> cases h

/-- A queued job is moved in the queue. -/
theorem reprioritize_kept (hs : P s) {priority scheduledAt : ℤ} {job : JobRecord}
    (h : reprioritize j priority scheduledAt now s = .ok (job, s')) : P s' := by
  obtain ⟨found, _, h⟩ := selectJob_bind_eq_ok.mp h
  obtain ⟨_, h⟩ := require_bind_eq_ok.mp h
  obtain ⟨_, rfl⟩ := selectJob_eq_ok.mp (write_bind _ _ s ▸ h)
  exact hP.harmless hs (f := fun job => { job with priority, scheduledAt, updatedAt := now })
    ⟨fun _ => rfl, fun _ => rfl, fun _ => rfl, fun _ => rfl, fun _ => rfl, fun _ => rfl⟩

/-- A job that nothing depends on is removed. -/
theorem removeIfSafe_kept (hs : P s) (h : removeIfSafe j s = .ok (u, s')) :
    P s' := by
  obtain ⟨job, hfind, h⟩ := selectJob_bind_eq_ok.mp h
  obtain ⟨_, h⟩ := require_bind_eq_ok.mp h
  obtain ⟨⟨hattempts, _, hprogress, _⟩, h⟩ := require_bind_eq_ok.mp (read_bind _ s ▸ h)
  cases h
  refine hP.removed hs (fun a ha hid => ?_) (fun event hevent hid => ?_)
  · have hmem : a ∈ s.attempts.select (fun attempt => attempt.jobId = j) :=
      Table.mem_select.mpr ⟨ha, by simpa using hid⟩
    rw [hattempts] at hmem
    cases hmem
  · have hmem : event ∈ s.progress.select (fun event => event.jobId = j) :=
      Table.mem_select.mpr ⟨hevent, by simpa using hid⟩
    rw [hprogress] at hmem
    cases hmem

/-- A running attempt appends a checkpoint. -/
theorem appendCheckpoint_kept (hs : P s) {attemptId : AttemptId}
    {identity : CheckpointIdentity} {createdAt : ℤ} {record : CheckpointRecord}
    (h : appendCheckpoint j attemptId lease identity createdAt s = .ok (record, s')) :
    P s' := by
  unfold appendCheckpoint at h
  rw [read_bind] at h
  obtain ⟨_, _, h⟩ := orFail_bind_eq_ok.mp h
  obtain ⟨_, h⟩ := require_bind_eq_ok.mp h
  obtain ⟨_, h⟩ := require_bind_eq_ok.mp h
  dsimp only at h
  obtain ⟨_, h⟩ := require_bind_eq_ok.mp h
  cases h
  exact hP.same hs rfl rfl rfl

/-- A queued job is leased, with a new attempt. -/
theorem leaseQueuedJob_kept (hs : P s) {worker : String} {duration : ℤ}
    {allow : Bool} {ids : LeaseIds} {acquired : JobRecord × JobAttempt}
    (h : leaseQueuedJob j worker now duration allow ids s = .ok (acquired, s')) :
    P s' := by
  obtain ⟨job, expiresAt, attempts, hfind, hqueued, _, hbudget, _, hinsert, rfl⟩ :=
    leaseQueuedJob_eq_ok h
  have hid := Table.key_of_find? hfind
  subst hid
  exact hP.leased hs hfind hqueued hbudget hinsert ⟨rfl, rfl, rfl, rfl, rfl, rfl⟩

/-- A worker takes the next job, after the leases that ran out. -/
theorem acquireNext_kept (hs : P s) {worker : String} {duration : ℤ}
    {allow : Bool} {ids : LeaseIds} {acquired : Option (JobRecord × JobAttempt)}
    (h : acquireNext worker now duration allow ids s = .ok (acquired, s')) : P s' := by
  obtain ⟨recovery, s₁, hrecover, ⟨_, rfl, _⟩ | ⟨j, leased, _, _, hlease⟩⟩ := acquireNext_eq_ok h
  · exact recoverExpired_kept hP hs hrecover
  · exact leaseQueuedJob_kept hP (recoverExpired_kept hP hs hrecover) hlease

/-- A run is given another status. -/
theorem setRunStatus_kept (hs : P s) {r : CrawlRunId}
    {allowed : CrawlRunStatus → Bool} {status : CrawlRunStatus} {e : JobRepositoryError}
    (h : setRunStatus r allowed status e s = .ok (u, s')) : P s' := by
  obtain ⟨_, rfl⟩ := setRunStatus_eq_ok.mp h
  exact hP.same hs rfl rfl rfl

/-- A run is ended with its summary. -/
theorem finalizeRun_kept (hs : P s) {r : CrawlRunId} {status : CrawlRunStatus}
    (h : finalizeRun r status s = .ok (u, s')) : P s' := by
  unfold finalizeRun at h
  split at h
  · exact setRunStatus_kept hP hs h
  · exact setRunStatus_kept hP hs h

/-! ## Every operation -/

omit hP in
/-- What every committed result has, the store has after the commit. -/
theorem commit_kept {α : Type} {x : QueueTx α} (hs : P s)
    (h : ∀ a s', x s = .ok (a, s') → P s') : P (x.commit s).2 := by
  rcases hx : x s with e | ⟨a, s'⟩
  · rw [commit_of_error hx]
    exact hs
  · rw [commit_of_ok hx]
    exact h a s' hx

/-- **Every operation** of the queue, committed or rolled back. -/
theorem apply_kept (s : QueueStore) (op : Operation) (hs : P s) :
    P (apply s op) := by
  cases op with
  | createQuickScrapeRun runId snapshot job now =>
    exact commit_kept hs fun _ _ h =>
      createRunWithRootJob_kept hP hs (createQuickScrapeRunWithRootJob_eq_ok h)
  | createProductionRun runId snapshot job now =>
    exact commit_kept hs fun _ _ h =>
      createRunWithRootJob_kept hP hs (createProductionRunWithRootJob_eq_ok h)
  | enqueue job now =>
    exact commit_kept hs fun _ _ h => insertJob_kept hP hs rfl rfl rfl h
  | acquireNext => exact commit_kept hs fun _ _ h => acquireNext_kept hP hs h
  | heartbeat => exact commit_kept hs fun _ _ h => heartbeat_kept hP hs h
  | succeed => exact commit_kept hs fun _ _ h => succeed_kept hP hs h
  | fail => exact commit_kept hs fun _ _ h => failWithDisposition_kept hP hs h
  | failTerminal => exact commit_kept hs fun _ _ h => failTerminal_kept hP hs h
  | failTerminalProduction =>
    exact commit_kept hs fun _ _ h => failTerminalProduction_kept hP hs h
  | cancel => exact commit_kept hs fun _ _ h => cancel_kept hP hs h
  | cancelQueued => exact commit_kept hs fun _ _ h => cancelQueued_kept hP hs h
  | requeueAfterStoragePressure => exact requeueAfterStoragePressure_kept hP hs
  | reconcileTerminalCommit execution commit =>
    exact reconcileTerminalCommit_kept hP hs execution commit
  | reprioritize => exact commit_kept hs fun _ _ h => reprioritize_kept hP hs h
  | removeIfSafe => exact commit_kept hs fun _ _ h => removeIfSafe_kept hP hs h
  | enqueueActionChild => exact commit_kept hs fun _ _ h => enqueueActionChild_kept hP hs h
  | appendCheckpoint => exact commit_kept hs fun _ _ h => appendCheckpoint_kept hP hs h
  | finalizeRun => exact commit_kept hs fun _ _ h => finalizeRun_kept hP hs h
  | transitionExecutionStatus =>
    exact commit_kept hs fun _ _ h => setRunStatus_kept hP hs h
  | transitionRecoveryStatus =>
    exact commit_kept hs fun _ _ h => setRunStatus_kept hP hs h
  | transitionRestartStatus =>
    exact commit_kept hs fun _ _ h => setRunStatus_kept hP hs h
  | recoverStaleJobs => exact recoverStaleJobs_kept hP hs

/-- **Every step** of the queue is operations. -/
theorem step_kept (s : QueueStore) (input : Input) (hs : P s) :
    P (step s input) :=
  step_induction hs fun op _ => apply_kept hP s op hs

end Maintained

/-- Consistency is kept by every step. -/
theorem step_consistent (s : QueueStore) (input : Input) (hs : Consistent s) :
    Consistent (step s input) := step_kept Consistent.maintained s input hs

/-- Every reachable store is consistent. -/
theorem after_consistent (inputs : List Input) : Consistent (after step .empty inputs) :=
  after_invariant step_consistent Consistent.empty inputs

/-! ## The queue's own check -/

/-- The five relations between jobs, leases and attempts. -/
structure QueueInvariants (s : QueueStore) : Prop where
  leased : ∀ job ∈ s.jobs.rows, job.state = .running ↔ job.leaseColumns.isSome
  executed : ∀ job ∈ s.jobs.rows, job.state = .running →
    ∃ c, job.leaseColumns = some c ∧ ∃ a ∈ s.attempts.rows, Executes job c a ∧
      ∀ b ∈ s.attempts.rows, b.jobId = job.id → b.outcome = .running → b = a
  idle : ∀ a ∈ s.attempts.rows, a.outcome = .running →
    ∃ job, s.jobs.find? a.jobId = some job ∧ job.state = .running
  numbered : ∀ job ∈ s.jobs.rows, job.currentAttempt = lastAttemptNumber s job.id
  budgeted : ∀ job ∈ s.jobs.rows, job.currentAttempt ≤ job.maxAttempts

/-- What the queue checks of itself follows from consistency. -/
theorem Consistent.queueInvariants (h : Consistent s) : QueueInvariants s where
  leased job hjob := by
    constructor
    · intro hrunning
      obtain ⟨_, _, c, hc, _⟩ := h.leased job hjob hrunning
      rw [hc]
      rfl
    · intro hsome
      by_contra hnot
      rw [h.unleased job hjob hnot] at hsome
      cases hsome
  executed job hjob hrunning := by
    obtain ⟨_, _, c, hc, a, ha, hexecutes⟩ := h.leased job hjob hrunning
    refine ⟨c, hc, a, ha, hexecutes, fun b hb hid hrun => ?_⟩
    exact h.oneRunning b hb a ha hrun hexecutes.running (hid.trans hexecutes.jobId.symm)
  idle a ha hrunning := by
    obtain ⟨job, hjob, hstate, _⟩ := h.owner a ha
    exact ⟨job, hjob, hstate hrunning⟩
  numbered job hjob := (h.lastAttemptNumber_eq hjob).symm
  budgeted job hjob := (h.budget job hjob).1

/-- Every reachable store meets the five relations, and the check of the queue
finds that it does. -/
theorem queueInvariants_after (inputs : List Input) :
    QueueInvariants (after step .empty inputs) ∧
      ensureQueueInvariants (after step .empty inputs) = .ok ((), after step .empty inputs) :=
  ⟨(after_consistent inputs).queueInvariants, (after_consistent inputs).ensureQueueInvariants⟩

end Erabi.Queue

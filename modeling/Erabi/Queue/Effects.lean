/-
# What the statements and transactions of the queue do

One lemma for each statement says what a returning statement did, and one for
each transaction what it made of the lifecycle.  Later proofs use these and
never unfold a transaction.
-/
import Mathlib
import Erabi.Queue.Lifecycle
import Erabi.Queue.Recovery

namespace Erabi.Queue

open Relational Transaction Lifecycle

/-- The lifecycle a store records. -/
def QueueStore.lifecycle (s : QueueStore) : Lifecycle where
  job j := (s.jobs.find? j).map fun job => ⟨job.state, job.crawlRunId⟩
  run r := (s.runs.find? r).map CrawlRun.status

/-- The view of a job comes from its row. -/
theorem lifecycle_job_eq (s : QueueStore) (j : JobId) : s.lifecycle.job j =
    (s.jobs.find? j).map fun job => ⟨job.state, job.crawlRunId⟩ := rfl

/-- The view of a run comes from its row. -/
theorem lifecycle_run_eq (s : QueueStore) (r : CrawlRunId) :
    s.lifecycle.run r = (s.runs.find? r).map CrawlRun.status := rfl

/-- A job's row gives its view. -/
theorem lifecycle_job {s : QueueStore} {j : JobId} {job : JobRecord}
    (h : s.jobs.find? j = some job) : s.lifecycle.job j = some ⟨job.state, job.crawlRunId⟩ := by
  rw [lifecycle_job_eq, h, Option.map_some]

/-- A run's row gives its status. -/
theorem lifecycle_run {s : QueueStore} {r : CrawlRunId} {run : CrawlRun}
    (h : s.runs.find? r = some run) : s.lifecycle.run r = some run.status := by
  rw [lifecycle_run_eq, h, Option.map_some]

/-- A job in the view has a row. -/
theorem job_of_lifecycle {s : QueueStore} {j : JobId} {v : JobView}
    (h : s.lifecycle.job j = some v) :
    ∃ job, s.jobs.find? j = some job ∧ v = ⟨job.state, job.crawlRunId⟩ := by
  obtain ⟨job, hjob, hv⟩ := Option.map_eq_some_iff.mp h
  exact ⟨job, hjob, hv.symm⟩

/-- A run in the view has a row. -/
theorem run_of_lifecycle {s : QueueStore} {r : CrawlRunId} {status : CrawlRunStatus}
    (h : s.lifecycle.run r = some status) :
    ∃ run, s.runs.find? r = some run ∧ run.status = status :=
  Option.map_eq_some_iff.mp h

/-- An update that keeps state and run of every job keeps the lifecycle. -/
theorem lifecycle_update_jobs (s : QueueStore) (p : JobRecord → Bool) (f : JobRecord → JobRecord)
    (hkey : ∀ job, (f job).id = job.id) (hstate : ∀ job, (f job).state = job.state)
    (hrun : ∀ job, (f job).crawlRunId = job.crawlRunId) :
    QueueStore.lifecycle { s with jobs := s.jobs.update p f hkey } = s.lifecycle := by
  refine Lifecycle.ext (fun j => ?_) (fun r => rfl)
  show ((s.jobs.update p f hkey).find? j).map _ = _
  rw [Table.find?_update, Option.map_map]
  show Option.map _ (s.jobs.find? j) = Option.map _ (s.jobs.find? j)
  congr 1
  funext job
  by_cases hp : p job = true
  · simp [hp, hstate, hrun]
  · simp [hp]

/-- An update that gives one job a new state and keeps its run. -/
theorem lifecycle_move_job (s : QueueStore) (p : JobRecord → Bool) (f : JobRecord → JobRecord)
    (hkey : ∀ job, (f job).id = job.id) {j : JobId} {state : JobState} {job : JobRecord}
    (hjob : s.jobs.find? j = some job) (hp : p job = true)
    (honly : ∀ other, p other = true → other.id = j)
    (hstate : ∀ job, (f job).state = state) (hrun : ∀ job, (f job).crawlRunId = job.crawlRunId) :
    QueueStore.lifecycle { s with jobs := s.jobs.update p f hkey } =
      s.lifecycle.moveJob j state := by
  refine Lifecycle.ext (fun k => ?_) (fun r => rfl)
  show ((s.jobs.update p f hkey).find? k).map _ = _
  rw [Table.find?_update, moveJob_job]
  rcases hk : s.jobs.find? k with _ | other
  · rw [lifecycle_job_eq, hk]
    rfl
  · rw [lifecycle_job hk, Option.map_some, Option.map_some, Option.map_some]
    by_cases hkj : k = j
    · subst hkj
      rw [hjob] at hk
      cases hk
      rw [if_pos hp, if_pos rfl, hstate, hrun]
    · have hother : p other ≠ true := by
        intro h
        exact hkj ((Table.key_of_find? hk).symm.trans (honly other h))
      rw [if_neg hother, if_neg hkj]

/-! ## Reading -/

/-- A job is read when it has a row. -/
theorem selectJob_eq_ok {j : JobId} {s s' : QueueStore} {job : JobRecord} :
    selectJob j s = .ok (job, s') ↔ s.jobs.find? j = some job ∧ s' = s := by
  show orFail (s.jobs.find? j) _ s = _ ↔ _
  rw [orFail_eq_ok]

/-- A running job is read under its own live lease. -/
theorem selectOwnedRunningJob_eq_ok {j : JobId} {lease : JobLease} {now : ℤ}
    {s s' : QueueStore} {job : JobRecord} :
    selectOwnedRunningJob j lease now s = .ok (job, s') ↔
      s.jobs.find? j = some job ∧ job.state = .running ∧ job.lease = some lease ∧
        now < lease.expiresAt ∧ s' = s := by
  unfold selectOwnedRunningJob
  constructor
  · intro h
    obtain ⟨found, s₁, hsel, hrest⟩ := bind_eq_ok.mp h
    obtain ⟨hfind, rfl⟩ := selectJob_eq_ok.mp hsel
    obtain ⟨hrunning, hrest⟩ := require_bind_eq_ok.mp hrest
    obtain ⟨⟨hlease, hnow⟩, hrest⟩ := require_bind_eq_ok.mp hrest
    cases hrest
    exact ⟨hfind, hrunning, hlease, hnow, rfl⟩
  · rintro ⟨hfind, hrunning, hlease, hnow, rfl⟩
    refine bind_eq_ok.mpr ⟨job, s', selectJob_eq_ok.mpr ⟨hfind, rfl⟩, ?_⟩
    exact require_bind_eq_ok.mpr ⟨hrunning, require_bind_eq_ok.mpr ⟨⟨hlease, hnow⟩, rfl⟩⟩

/-- What follows on a job that was read. -/
theorem selectJob_bind_eq_ok {α : Type} {f : JobRecord → QueueTx α} {j : JobId}
    {s s' : QueueStore} {a : α} :
    (selectJob j >>= f) s = .ok (a, s') ↔
      ∃ job, s.jobs.find? j = some job ∧ f job s = .ok (a, s') := by
  rw [bind_eq_ok]
  constructor
  · rintro ⟨job, s₁, hsel, hf⟩
    obtain ⟨hfind, rfl⟩ := selectJob_eq_ok.mp hsel
    exact ⟨job, hfind, hf⟩
  · rintro ⟨job, hfind, hf⟩
    exact ⟨job, s, selectJob_eq_ok.mpr ⟨hfind, rfl⟩, hf⟩

/-- What follows on a job read under its lease. -/
theorem selectOwnedRunningJob_bind_eq_ok {α : Type} {f : JobRecord → QueueTx α} {j : JobId}
    {lease : JobLease} {now : ℤ} {s s' : QueueStore} {a : α} :
    (selectOwnedRunningJob j lease now >>= f) s = .ok (a, s') ↔
      ∃ job, s.jobs.find? j = some job ∧ job.state = .running ∧ job.lease = some lease ∧
        now < lease.expiresAt ∧ f job s = .ok (a, s') := by
  rw [bind_eq_ok]
  constructor
  · rintro ⟨job, s₁, hsel, hf⟩
    obtain ⟨hfind, hrunning, hlease, hnow, rfl⟩ := selectOwnedRunningJob_eq_ok.mp hsel
    exact ⟨job, hfind, hrunning, hlease, hnow, hf⟩
  · rintro ⟨job, hfind, hrunning, hlease, hnow, hf⟩
    exact ⟨job, s, selectOwnedRunningJob_eq_ok.mpr ⟨hfind, hrunning, hlease, hnow, rfl⟩, hf⟩

/-- What follows on the status of a run. -/
theorem selectCrawlRunStatus_bind {α : Type} (r : CrawlRunId)
    (f : Option CrawlRunStatus → QueueTx α) (s : QueueStore) :
    (selectCrawlRunStatus r >>= f) s = f (s.lifecycle.run r) s := rfl

/-! ## Insertion -/

/-- A run is inserted under a new name. -/
theorem insertRun_eq_ok {r : CrawlRunId} {status : CrawlRunStatus} {snapshot : CrawlRunSnapshot}
    {s s' : QueueStore} {u : Unit} :
    insertRun r status snapshot s = .ok (u, s') ↔
      ∃ runs, s.runs.insert? ⟨r, snapshot, status⟩ = some runs ∧ s' = { s with runs } := by
  show (orFail _ _ >>= fun runs => write fun s => { s with runs }) s = _ ↔ _
  rw [orFail_bind_eq_ok]
  constructor
  · rintro ⟨runs, h, hs⟩
    cases hs
    exact ⟨runs, h, rfl⟩
  · rintro ⟨runs, h, rfl⟩
    exact ⟨runs, h, rfl⟩

/-- A job is inserted under a new name, beside its parent and run. -/
theorem insertJob_eq_ok {job : JobRecord} {s s' : QueueStore} {u : Unit} :
    insertJob job s = .ok (u, s') ↔
      (∀ parent ∈ job.parentJobId, (s.jobs.find? parent).isSome) ∧
      (∀ runId ∈ job.crawlRunId, (s.runs.find? runId).isSome) ∧ 1 ≤ job.maxAttempts ∧
      ∃ jobs, s.jobs.insert? job = some jobs ∧ s' = { s with jobs } := by
  show (require _ _ >>= fun _ => require _ _ >>= fun _ => require _ _ >>= fun _ =>
    orFail _ _ >>= fun jobs => write fun s => { s with jobs }) s = _ ↔ _
  rw [require_bind_eq_ok, require_bind_eq_ok, require_bind_eq_ok, orFail_bind_eq_ok]
  refine and_congr_right fun _ => and_congr_right fun _ => and_congr_right fun _ => ?_
  constructor
  · rintro ⟨jobs, h, hs⟩
    cases hs
    exact ⟨jobs, h, rfl⟩
  · rintro ⟨jobs, h, rfl⟩
    exact ⟨jobs, h, rfl⟩

/-- A new run was not there before and is queued. -/
theorem insertRun_lifecycle {r : CrawlRunId} {snapshot : CrawlRunSnapshot}
    {s s' : QueueStore} {u : Unit} (h : insertRun r .queued snapshot s = .ok (u, s')) :
    s.lifecycle.run r = none ∧ s'.lifecycle = s.lifecycle.addRun r := by
  obtain ⟨runs, hruns, rfl⟩ := insertRun_eq_ok.mp h
  have hnone := (Table.insert?_eq_some.mp hruns).1
  refine ⟨by rw [lifecycle_run_eq, hnone, Option.map_none],
    Lifecycle.ext (fun j => rfl) fun q => ?_⟩
  show (runs.find? q).map _ = if r = q then _ else _
  rw [Table.find?_insert hruns]
  show Option.map _ (if r = q then _ else _) = _
  split <;> rfl

/-- A new job was not there before, is queued, and names an existing run. -/
theorem insertJob_lifecycle {job : JobRecord} {s s' : QueueStore} {u : Unit}
    (hqueued : job.state = .queued) (h : insertJob job s = .ok (u, s')) :
    s.lifecycle.job job.id = none ∧
      (∀ r ∈ job.crawlRunId, ∃ status, s.lifecycle.run r = some status) ∧
      s'.lifecycle = s.lifecycle.addJob job.id job.crawlRunId := by
  obtain ⟨_, hrun, _, jobs, hjobs, rfl⟩ := insertJob_eq_ok.mp h
  have hnone := (Table.insert?_eq_some.mp hjobs).1
  refine ⟨by rw [lifecycle_job_eq, hnone, Option.map_none],
    fun r hr => ?_, Lifecycle.ext (fun k => ?_) fun r => rfl⟩
  · obtain ⟨run, hfind⟩ := Option.isSome_iff_exists.mp (hrun r hr)
    exact ⟨run.status, lifecycle_run hfind⟩
  · show (jobs.find? k).map _ = if job.id = k then _ else _
    rw [Table.find?_insert hjobs]
    split
    · rw [Option.map_some, hqueued]
    · rfl

/-! ## Ending an attempt -/

/-- The lease owns the running job and its running attempt. -/
def Owned (s : QueueStore) (j : JobId) (lease : JobLease) : Prop :=
  s.attempts.changed (runningAttempt j lease) = 1 ∧ s.jobs.changed (holdsLease j lease) = 1

section Settle

variable {j : JobId} {lease : JobLease} {now : ℤ} {outcome : AttemptOutcome} {state : JobState}
  {failure : Option JobFailureCode} {scheduledAt : Option ℤ} {s s' : QueueStore}

/-- The owner closes the attempt and releases the job. -/
theorem finish_release_bind {α : Type} (howned : Owned s j lease) (f : Unit → QueueTx α) :
    (finishAttempt j lease now outcome failure >>= fun _ =>
      releaseJob j lease now state failure scheduledAt >>= f) s =
    f () (settled j lease now outcome state failure scheduledAt s) := by
  have hfinish : ∃ s₁, finishAttempt j lease now outcome failure s = .ok ((), s₁) ∧
      releaseJob j lease now state failure scheduledAt s₁ =
        .ok ((), settled j lease now outcome state failure scheduledAt s) :=
    ⟨_, require_bind_eq_ok.mpr ⟨howned.1, rfl⟩, require_bind_eq_ok.mpr ⟨howned.2, rfl⟩⟩
  obtain ⟨s₁, hattempt, hjob⟩ := hfinish
  rw [bind_of_ok hattempt, bind_of_ok hjob]

/-- Closing the attempt and releasing the job succeed exactly for the owner. -/
theorem finish_release_bind_eq_ok {α : Type} {f : Unit → QueueTx α} {a : α} :
    (finishAttempt j lease now outcome failure >>= fun _ =>
      releaseJob j lease now state failure scheduledAt >>= f) s = .ok (a, s') ↔
    Owned s j lease ∧
      f () (settled j lease now outcome state failure scheduledAt s) = .ok (a, s') := by
  constructor
  · intro h
    obtain ⟨_, s₁, hfinish, h⟩ := bind_eq_ok.mp h
    obtain ⟨_, s₂, hrelease, h⟩ := bind_eq_ok.mp h
    obtain ⟨hattempt, hfinish⟩ := require_bind_eq_ok.mp hfinish
    cases hfinish
    obtain ⟨hjob, hrelease⟩ := require_bind_eq_ok.mp hrelease
    cases hrelease
    exact ⟨⟨hattempt, hjob⟩, h⟩
  · rintro ⟨howned, h⟩
    rw [finish_release_bind howned]
    exact h

/-- An attempt ended and its job released together settle the job. -/
theorem finish_release_eq_ok {u : Unit} :
    (finishAttempt j lease now outcome failure >>= fun _ =>
      releaseJob j lease now state failure scheduledAt) s = .ok (u, s') ↔
    Owned s j lease ∧ s' = settled j lease now outcome state failure scheduledAt s := by
  constructor
  · intro h
    obtain ⟨_, s₁, hfinish, hrelease⟩ := bind_eq_ok.mp h
    obtain ⟨hattempt, hfinish⟩ := require_bind_eq_ok.mp hfinish
    cases hfinish
    obtain ⟨hjob, hrelease⟩ := require_bind_eq_ok.mp hrelease
    cases hrelease
    exact ⟨⟨hattempt, hjob⟩, rfl⟩
  · rintro ⟨⟨hattempt, hjob⟩, rfl⟩
    refine bind_eq_ok.mpr ⟨(), _, require_bind_eq_ok.mpr ⟨hattempt, rfl⟩, ?_⟩
    exact require_bind_eq_ok.mpr ⟨hjob, rfl⟩

/-- The rows that a lease owns. -/
theorem holdsLease_iff {job : JobRecord} : holdsLease j lease job = true ↔
    job.id = j ∧ job.state = .running ∧ job.leaseGeneration = lease.generation ∧
      ∃ c, job.leaseColumns = some c ∧ c.id = lease.id ∧ c.owner = lease.owner := by
  simp only [holdsLease, Bool.and_eq_true, decide_eq_true_eq, Option.any_eq_true, and_assoc]

/-- The row of an owned job. -/
theorem Owned.job (h : Owned s j lease) :
    ∃ job, s.jobs.find? j = some job ∧ holdsLease j lease job = true :=
  (Table.changed_eq_one_iff fun _ hp => (holdsLease_iff.mp hp).1).mp h.2

/-- Settling moves the job and nothing else. -/
theorem lifecycle_settled (h : Owned s j lease) :
    (settled j lease now outcome state failure scheduledAt s).lifecycle =
      s.lifecycle.moveJob j state := by
  obtain ⟨job, hjob, hholds⟩ := h.job
  exact lifecycle_move_job s (holdsLease j lease) (fun job => { job with
      state, leaseColumns := none, failureCode := failure, updatedAt := now
      scheduledAt := scheduledAt.getD job.scheduledAt }) (fun _ => rfl) hjob hholds
    (fun other hp => (holdsLease_iff.mp hp).1) (fun _ => rfl) (fun _ => rfl)

end Settle

/-! ## Runs -/

/-- A status is set on a run in an allowed one. -/
theorem setRunStatus_eq_ok {r : CrawlRunId} {allowed : CrawlRunStatus → Bool}
    {status : CrawlRunStatus} {e : JobRepositoryError} {s s' : QueueStore} {u : Unit} :
    setRunStatus r allowed status e s = .ok (u, s') ↔
      (∃ run, s.runs.find? r = some run ∧ allowed run.status = true) ∧
      s' = { s with
        runs := s.runs.update (fun run => run.id = r && allowed run.status)
          fun run => { run with status } } := by
  show (require _ _ >>= fun _ => write _) s = _ ↔ _
  have hkey : ∀ run : CrawlRun, (decide (run.id = r) && allowed run.status) = true → run.id = r := by
    intro run h
    rw [Bool.and_eq_true, decide_eq_true_eq] at h
    exact h.1
  rw [require_bind_eq_ok, Table.changed_eq_one_iff hkey]
  constructor
  · rintro ⟨⟨run, hfind, hp⟩, hs⟩
    cases hs
    exact ⟨⟨run, hfind, (Bool.and_eq_true _ _ ▸ hp).2⟩, rfl⟩
  · rintro ⟨⟨run, hfind, hp⟩, rfl⟩
    refine ⟨⟨run, hfind, ?_⟩, rfl⟩
    rw [Bool.and_eq_true]
    exact ⟨by simpa using Table.key_of_find? hfind, hp⟩

/-- The view of the runs after an update. -/
theorem lifecycle_update_runs (s : QueueStore) (p : CrawlRun → Bool) (f : CrawlRun → CrawlRun)
    (hkey : ∀ run, (f run).id = run.id) (q : CrawlRunId) :
    (QueueStore.lifecycle { s with runs := s.runs.update p f hkey }).run q =
      (s.runs.find? q).map fun run => (if p run then f run else run).status := by
  rw [lifecycle_run_eq, Table.find?_update, Option.map_map]
  rfl

/-- An update of the status of one run. -/
theorem lifecycle_set_run (s : QueueStore) (r : CrawlRunId) (allowed : CrawlRunStatus → Bool)
    (status : CrawlRunStatus)
    (h : ∀ run, s.runs.find? r = some run → allowed run.status = true) :
    QueueStore.lifecycle { s with
      runs := s.runs.update (fun run => run.id = r && allowed run.status)
        fun run => { run with status } } = s.lifecycle.setRun r status := by
  refine Lifecycle.ext (fun j => rfl) fun q => ?_
  rw [lifecycle_update_runs, setRun_run]
  rcases hq : s.runs.find? q with _ | run
  · rw [lifecycle_run_eq, hq]
    rfl
  · rw [lifecycle_run hq, Option.map_some, Option.map_some]
    have hid := Table.key_of_find? hq
    by_cases hqr : q = r
    · subst hqr
      have hp : (decide (run.id = q) && allowed run.status) = true := by
        rw [Bool.and_eq_true, decide_eq_true_eq]
        exact ⟨hid, h run hq⟩
      rw [if_pos rfl, if_pos hp]
    · have hp : (decide (run.id = r) && allowed run.status) ≠ true := by
        rw [ne_eq, Bool.and_eq_true, decide_eq_true_eq]
        exact fun h => hqr (hid.symm.trans h.1)
      rw [if_neg hqr, if_neg hp]

/-- Setting a status is what it is on the view. -/
theorem setRunStatus_lifecycle {r : CrawlRunId} {allowed : CrawlRunStatus → Bool}
    {status : CrawlRunStatus} {e : JobRepositoryError} {s s' : QueueStore} {u : Unit}
    (h : setRunStatus r allowed status e s = .ok (u, s')) :
    (∃ old, s.lifecycle.run r = some old ∧ allowed old = true) ∧
      s'.lifecycle = s.lifecycle.setRun r status := by
  obtain ⟨⟨run, hfind, hallowed⟩, rfl⟩ := setRunStatus_eq_ok.mp h
  refine ⟨⟨run.status, lifecycle_run hfind, hallowed⟩, lifecycle_set_run s r allowed status ?_⟩
  intro other ho
  rw [hfind] at ho
  cases ho
  exact hallowed

/-- Cancelling the run of a job cancels it when open. -/
theorem cancelRelatedRun_lifecycle {run : Option CrawlRunId} {s s' : QueueStore} {u : Unit}
    (h : cancelRelatedRun run s = .ok (u, s')) :
    s'.lifecycle = s.lifecycle.cancelOpen run ∧ s'.jobs = s.jobs := by
  unfold cancelRelatedRun at h
  cases run with
  | none =>
    cases h
    refine ⟨Lifecycle.ext (fun j => rfl) fun q => ?_, rfl⟩
    show s.lifecycle.run q = (s.lifecycle.run q).map _
    cases s.lifecycle.run q <;> simp
  | some r =>
    cases h
    refine ⟨Lifecycle.ext (fun j => rfl) fun q => ?_, rfl⟩
    rw [lifecycle_update_runs]
    show _ = (s.lifecycle.run q).map _
    rcases hq : s.runs.find? q with _ | found
    · rw [lifecycle_run_eq, hq]
      rfl
    · rw [lifecycle_run hq, Option.map_some, Option.map_some]
      have hid := Table.key_of_find? hq
      subst hid
      rcases found with ⟨i, snapshot, status⟩
      by_cases hir : i = r
      · subst hir
        cases status <;> simp [CrawlRunStatus.terminal]
      · simp [hir, Ne.symm hir]

/-! ## Progress -/

section Progress

variable {s s' : QueueStore} {j : JobId} {terminal : Option ProgressTerminalState} {now : ℤ}

/-- An event is appended with the next number to an open stream. -/
theorem appendProgress_eq_ok {u : Unit} (h : appendProgress j terminal now s = .ok (u, s')) :
    (s.jobs.find? j).isSome ∧
      (s.progress.find? (j, lastSequence s j)).bind ProgressEvent.terminal = none ∧
      ∃ next progress, checkedAddI64 (lastSequence s j) 1 = some next ∧
      s.progress.insert? ⟨j, none, next.toNat, .completed, [], terminal, now⟩ = some progress ∧
      s' = { s with progress } := by
  unfold appendProgress at h
  obtain ⟨hjob, h⟩ := require_bind_eq_ok.mp (read_bind _ s ▸ h)
  obtain ⟨hopened, h⟩ := require_bind_eq_ok.mp h
  obtain ⟨next, hnext, h⟩ := orFail_bind_eq_ok.mp h
  obtain ⟨progress, hprogress, h⟩ := orFail_bind_eq_ok.mp h
  cases h
  exact ⟨hjob, hopened, next, progress, hnext, hprogress, rfl⟩

/-- A refused append breaks an invariant. -/
theorem appendProgress_eq_error {e : JobRepositoryError}
    (h : appendProgress j terminal now s = .error e) : e = .queueInvariant := by
  unfold appendProgress at h
  rw [read_bind] at h
  rcases require_bind_eq_error.mp h with ⟨_, he⟩ | ⟨_, h⟩
  · exact he
  · rcases require_bind_eq_error.mp h with ⟨_, he⟩ | ⟨_, h⟩
    · exact he
    · rcases orFail_bind_eq_error.mp h with ⟨_, he⟩ | ⟨_, _, h⟩
      · exact he
      · rcases orFail_bind_eq_error.mp h with ⟨_, he⟩ | ⟨_, _, h⟩
        · exact he
        · cases h

/-- The stream takes one more event: its last event is not terminal and the next
sequence is a 64-bit integer. -/
structure StreamOpen (s : QueueStore) (j : JobId) : Prop where
  opened : (s.progress.find? (j, lastSequence s j)).bind ProgressEvent.terminal = none
  fits : (lastSequence s j : ℤ) < i64Max

/-- From `s` to `s'` the next event of the job is appended, and nothing else
changes. -/
def AppendsNext (s : QueueStore) (j : JobId) (terminal : Option ProgressTerminalState) (now : ℤ)
    (s' : QueueStore) : Prop :=
  ∃ progress, s.progress.insert?
    ⟨j, none, lastSequence s j + 1, .completed, [], terminal, now⟩ = some progress ∧
    s' = { s with progress }

/-- A stream is open by its progress alone. -/
theorem StreamOpen.of_progress (h : StreamOpen s j) (hprogress : s'.progress = s.progress) :
    StreamOpen s' j := by
  obtain ⟨hopened, hfits⟩ := h
  constructor
  · rw [lastSequence, progressSequences, hprogress]
    exact hopened
  · rw [lastSequence, progressSequences, hprogress]
    exact hfits

/-- The next sequence of a stream is free. -/
theorem find?_next_progress (s : QueueStore) (j : JobId) :
    s.progress.find? (j, lastSequence s j + 1) = none := by
  refine Table.find?_eq_none.mpr fun event hevent hkey => ?_
  obtain ⟨hjob, hsequence⟩ := Prod.mk.inj hkey
  have hmem : event.sequence ∈ progressSequences s j :=
    List.mem_map_of_mem (List.mem_filter.mpr ⟨hevent, by simpa using hjob⟩)
  have hle : event.sequence ≤ lastSequence s j := List.le_max_of_le' 0 hmem le_rfl
  omega

/-- An open stream of an existing job takes the next event. -/
theorem StreamOpen.appendProgress (h : StreamOpen s j) (hjob : (s.jobs.find? j).isSome)
    (terminal : Option ProgressTerminalState) (now : ℤ) :
    ∃ s', appendProgress j terminal now s = .ok ((), s') ∧ AppendsNext s j terminal now s' := by
  have hnext : checkedAddI64 (lastSequence s j) 1 = some ((lastSequence s j : ℤ) + 1) := by
    have hfits := h.fits
    unfold checkedAddI64
    rw [if_pos ⟨by unfold i64Min; omega, by omega⟩]
  have hsequence : ((lastSequence s j : ℤ) + 1).toNat = lastSequence s j + 1 := by omega
  let event : ProgressEvent := ⟨j, none, lastSequence s j + 1, .completed, [], terminal, now⟩
  have hfree : s.progress.find? (event.jobId, event.sequence) = none := find?_next_progress s j
  have hinsert : s.progress.insert? event =
      some ⟨_, s.progress.insert_keysNodup event hfree⟩ := dif_pos hfree
  refine ⟨_, ?_, _, hinsert, rfl⟩
  unfold Queue.appendProgress
  rw [read_bind]
  refine require_bind_eq_ok.mpr ⟨hjob, require_bind_eq_ok.mpr ⟨h.opened, ?_⟩⟩
  refine orFail_bind_eq_ok.mpr ⟨_, hnext, orFail_bind_eq_ok.mpr ⟨_, ?_, rfl⟩⟩
  rw [hsequence]
  exact hinsert

/-- A closed or exhausted stream refuses every append. -/
theorem appendProgress_of_not_streamOpen (h : ¬ StreamOpen s j) :
    appendProgress j terminal now s = .error .queueInvariant := by
  rcases happend : appendProgress j terminal now s with e | ⟨u, s'⟩
  · rw [appendProgress_eq_error happend]
  · obtain ⟨_, hopened, next, _, hnext, _⟩ := appendProgress_eq_ok happend
    have hadd := checkedAddI64_eq_some hnext
    have hfits := checkedAddI64_le hnext
    exact absurd ⟨hopened, by omega⟩ h

end Progress

end Erabi.Queue

/-
# The relations between jobs, leases, attempts and progress

The five conditions the queue checks for itself, stated row by row, with the
shape of the terminal progress the repository writes.  Every statement that
touches these rows keeps them.
-/
import Mathlib
import Erabi.Queue.System

namespace Erabi.Queue

open Relational Transaction

/-! ## The invariant -/

/-- The attempt is the running attempt of the job under its current lease. -/
structure Executes (job : JobRecord) (c : LeaseColumns) (attempt : JobAttempt) : Prop where
  jobId : attempt.jobId = job.id
  running : attempt.outcome = .running
  number : attempt.attemptNumber = job.currentAttempt
  generation : attempt.leaseGeneration = job.leaseGeneration
  lease : attempt.leaseId = c.id
  worker : attempt.workerId = c.owner

/-- The terminal progress of a job in this state. -/
def terminalProgress : JobState → Option ProgressTerminalState
  | .queued | .running => none
  | .succeeded => some .succeeded
  | .failed => some .failed
  | .cancelled => some .cancelled

/-- Jobs, leases, attempts and terminal progress agree. -/
structure Consistent (s : QueueStore) : Prop where
  leased : ∀ job ∈ s.jobs.rows, job.state = .running → 1 ≤ job.currentAttempt ∧
    1 ≤ job.leaseGeneration ∧ ∃ c, job.leaseColumns = some c ∧
      ∃ attempt ∈ s.attempts.rows, Executes job c attempt
  unleased : ∀ job ∈ s.jobs.rows, job.state ≠ .running → job.leaseColumns = none
  oneRunning : ∀ a ∈ s.attempts.rows, ∀ b ∈ s.attempts.rows, a.outcome = .running →
    b.outcome = .running → a.jobId = b.jobId → a = b
  owner : ∀ a ∈ s.attempts.rows, ∃ job, s.jobs.find? a.jobId = some job ∧
    (a.outcome = .running → job.state = .running) ∧ a.attemptNumber ≤ job.currentAttempt
  current : ∀ job ∈ s.jobs.rows, job.currentAttempt = 0 ∨
    ∃ a ∈ s.attempts.rows, a.jobId = job.id ∧ a.attemptNumber = job.currentAttempt
  budget : ∀ job ∈ s.jobs.rows, job.currentAttempt ≤ job.maxAttempts ∧
    (job.state = .queued → job.currentAttempt < job.maxAttempts)
  progress : ∀ event ∈ s.progress.rows, event.sequence = 1 ∧ ∃ job terminal,
    s.jobs.find? event.jobId = some job ∧ terminalProgress job.state = some terminal ∧
      event.terminal = some terminal

theorem Consistent.empty : Consistent .empty where
  leased := fun _ h => by cases h
  unleased := fun _ h => by cases h
  oneRunning := fun _ h => by cases h
  owner := fun _ h => by cases h
  current := fun _ h => by cases h
  budget := fun _ h => by cases h
  progress := fun _ h => by cases h

variable {s s' : QueueStore} {j : JobId} {lease : JobLease} {now : ℤ} {u : Unit}

/-- Runs and checkpoints do not matter. -/
theorem Consistent.of_same (h : Consistent s) (hjobs : s'.jobs = s.jobs)
    (hattempts : s'.attempts = s.attempts) (hprogress : s'.progress = s.progress) :
    Consistent s' := by
  obtain ⟨jobs', attempts', runs', checkpoints', progress'⟩ := s'
  cases hjobs
  cases hattempts
  cases hprogress
  exact ⟨h.leased, h.unleased, h.oneRunning, h.owner, h.current, h.budget, h.progress⟩

/-! ## Updates of single jobs -/

/-- The update of a job row keeps what the invariant reads. -/
structure Harmless (f : JobRecord → JobRecord) : Prop where
  id : ∀ job, (f job).id = job.id
  state : ∀ job, (f job).state = job.state
  attempt : ∀ job, (f job).currentAttempt = job.currentAttempt
  maxAttempts : ∀ job, (f job).maxAttempts = job.maxAttempts
  generation : ∀ job, (f job).leaseGeneration = job.leaseGeneration
  columns : ∀ job, ((f job).leaseColumns.map fun c => (c.id, c.owner)) =
    job.leaseColumns.map fun c => (c.id, c.owner)

/-- A harmless change keeps an attempt executed by its job. -/
theorem Executes.of_harmless {f : JobRecord → JobRecord} (hf : Harmless f) {job : JobRecord}
    {c c' : LeaseColumns} {a : JobAttempt} (h : Executes job c a)
    (hc : (c'.id, c'.owner) = (c.id, c.owner)) : Executes (f job) c' a where
  jobId := h.jobId.trans (hf.id job).symm
  running := h.running
  number := h.number.trans (hf.attempt job).symm
  generation := h.generation.trans (hf.generation job).symm
  lease := h.lease.trans (Prod.mk.inj hc).1.symm
  worker := h.worker.trans (Prod.mk.inj hc).2.symm

/-- A harmless change keeps the store consistent. -/
theorem Consistent.harmless (h : Consistent s) {p : JobRecord → Bool}
    {f : JobRecord → JobRecord} (hf : Harmless f) :
    Consistent { s with jobs := s.jobs.update p f hf.id } := by
  have hrow : ∀ job' ∈ (s.jobs.update p f hf.id).rows, ∃ job ∈ s.jobs.rows,
      job' = job ∨ job' = f job := by
    intro job' hjob'
    obtain ⟨job, hjob, rfl⟩ := Table.mem_update.mp hjob'
    refine ⟨job, hjob, ?_⟩
    split
    · exact Or.inr rfl
    · exact Or.inl rfl
  have hfind : ∀ k job, s.jobs.find? k = some job →
      ∃ job', (s.jobs.update p f hf.id).find? k = some job' ∧ (job' = job ∨ job' = f job) := by
    intro k job hk
    refine ⟨if p job then f job else job, by rw [Table.find?_update, hk, Option.map_some], ?_⟩
    split
    · exact Or.inr rfl
    · exact Or.inl rfl
  -- each relation is about rows that are old ones or their images
  constructor
  · intro job' hjob' hrunning
    obtain ⟨job, hjob, rfl | rfl⟩ := hrow job' hjob'
    · exact h.leased job' hjob hrunning
    · obtain ⟨hattempt, hgeneration, c, hc, a, ha, hexecutes⟩ :=
        h.leased job hjob ((hf.state job).symm.trans hrunning)
      have hcolumns := hf.columns job
      rw [hc, Option.map_some] at hcolumns
      obtain ⟨c', hc', hsame⟩ := Option.map_eq_some_iff.mp hcolumns
      exact ⟨(hf.attempt job).symm ▸ hattempt, (hf.generation job).symm ▸ hgeneration, c', hc', a,
        ha, hexecutes.of_harmless hf hsame⟩
  · intro job' hjob' hnot
    obtain ⟨job, hjob, rfl | rfl⟩ := hrow job' hjob'
    · exact h.unleased job' hjob hnot
    · have hcolumns := hf.columns job
      rw [h.unleased job hjob (fun e => hnot ((hf.state job).trans e)), Option.map_none] at hcolumns
      exact Option.map_eq_none_iff.mp hcolumns
  · exact h.oneRunning
  · intro a ha
    obtain ⟨job, hjob, hrunning, hnumber⟩ := h.owner a ha
    obtain ⟨job', hjob', rfl | rfl⟩ := hfind _ job hjob
    · exact ⟨job', hjob', hrunning, hnumber⟩
    · exact ⟨f job, hjob', fun e => (hf.state job).trans (hrunning e),
        (hf.attempt job).symm ▸ hnumber⟩
  · intro job' hjob'
    obtain ⟨job, hjob, rfl | rfl⟩ := hrow job' hjob'
    · exact h.current job' hjob
    · rw [hf.attempt, hf.id]
      exact h.current job hjob
  · intro job' hjob'
    obtain ⟨job, hjob, rfl | rfl⟩ := hrow job' hjob'
    · exact h.budget job' hjob
    · rw [hf.attempt, hf.maxAttempts, hf.state]
      exact h.budget job hjob
  · intro event hevent
    obtain ⟨hsequence, job, terminal, hjob, hstate, hterminal⟩ := h.progress event hevent
    obtain ⟨job', hjob', rfl | rfl⟩ := hfind _ job hjob
    · exact ⟨hsequence, job', terminal, hjob', hstate, hterminal⟩
    · exact ⟨hsequence, f job, terminal, hjob', (hf.state job).symm ▸ hstate, hterminal⟩

/-- A job without an attempt that waits for its first lease may be added. -/
theorem Consistent.insertJob (h : Consistent s) {job : JobRecord}
    {jobs : Table JobRecord JobId JobRecord.id} (hinsert : s.jobs.insert? job = some jobs)
    (hqueued : job.state = .queued) (hnone : job.leaseColumns = none)
    (hattempt : job.currentAttempt = 0) (hmax : 1 ≤ job.maxAttempts) :
    Consistent { s with jobs } := by
  have hmem := fun r => @Table.mem_insert _ _ _ _ s.jobs jobs job r hinsert
  have hfresh := (Table.insert?_eq_some.mp hinsert).1
  have hfind : ∀ k found, s.jobs.find? k = some found → jobs.find? k = some found := by
    intro k found hk
    rw [Table.find?_insert hinsert, if_neg, hk]
    rintro rfl
    rw [hfresh] at hk
    cases hk
  constructor
  · intro r hr hrunning
    rcases (hmem r).mp hr with hr | rfl
    · exact h.leased r hr hrunning
    · rw [hqueued] at hrunning
      cases hrunning
  · intro r hr hnot
    rcases (hmem r).mp hr with hr | rfl
    · exact h.unleased r hr hnot
    · exact hnone
  · exact h.oneRunning
  · intro a ha
    obtain ⟨found, hfound, hrest⟩ := h.owner a ha
    exact ⟨found, hfind _ found hfound, hrest⟩
  · intro r hr
    rcases (hmem r).mp hr with hr | rfl
    · exact h.current r hr
    · exact Or.inl hattempt
  · intro r hr
    rcases (hmem r).mp hr with hr | rfl
    · exact h.budget r hr
    · exact ⟨by omega, fun _ => by omega⟩
  · intro event hevent
    obtain ⟨hsequence, found, terminal, hfound, hrest⟩ := h.progress event hevent
    exact ⟨hsequence, found, terminal, hfind _ found hfound, hrest⟩

/-! ## The end of an attempt -/

/-- The attempts that run under a lease. -/
theorem runningAttempt_iff {attempt : JobAttempt} : runningAttempt j lease attempt = true ↔
    attempt.jobId = j ∧ attempt.leaseId = lease.id ∧
      attempt.leaseGeneration = lease.generation ∧ attempt.workerId = lease.owner ∧
      attempt.outcome = .running := by
  simp only [runningAttempt, Bool.and_eq_true, decide_eq_true_eq, and_assoc]

/-- The attempt of an owned job. -/
theorem Owned.attempt (h : Owned s j lease) :
    ∃ a ∈ s.attempts.rows, runningAttempt j lease a = true := by
  refine List.countP_pos_iff.mp ?_
  have hone : s.attempts.rows.countP (runningAttempt j lease) = 1 := h.1
  omega

section Settle

variable {outcome : AttemptOutcome} {state : JobState} {failure : Option JobFailureCode}
  {scheduledAt : Option ℤ}

/-- The jobs after one is settled. -/
theorem settled_jobs : (settled j lease now outcome state failure scheduledAt s).jobs =
    s.jobs.update (holdsLease j lease) fun job => { job with
      state, leaseColumns := none, failureCode := failure, updatedAt := now
      scheduledAt := scheduledAt.getD job.scheduledAt } := rfl

/-- The attempts after one is ended. -/
theorem settled_attempts : (settled j lease now outcome state failure scheduledAt s).attempts =
    s.attempts.update (runningAttempt j lease) fun attempt => { attempt with
      finishedAt := some now, outcome, failureCode := failure } := rfl

/-- The row of a job after the settlement: released if it held the lease. -/
theorem settled_find? (k : JobId) :
    (settled j lease now outcome state failure scheduledAt s).jobs.find? k =
      (s.jobs.find? k).map fun job => if holdsLease j lease job then { job with
        state, leaseColumns := none, failureCode := failure, updatedAt := now
        scheduledAt := scheduledAt.getD job.scheduledAt } else job := by
  rw [settled_jobs, Table.find?_update]

/-- An attempt after the settlement is an old one, and still running only if it
was not the attempt of the lease. -/
theorem mem_settled_attempts {a' : JobAttempt}
    (h : a' ∈ (settled j lease now outcome state failure scheduledAt s).attempts.rows) :
    ∃ a ∈ s.attempts.rows, a'.jobId = a.jobId ∧ a'.attemptNumber = a.attemptNumber ∧
      ((a' = a ∧ runningAttempt j lease a = false) ∨
        (a'.outcome = outcome ∧ runningAttempt j lease a = true)) := by
  rw [settled_attempts] at h
  obtain ⟨a, ha, rfl⟩ := Table.mem_update.mp h
  refine ⟨a, ha, ?_⟩
  by_cases hp : runningAttempt j lease a = true
  · simp [hp]
  · simp [hp]

/-- Settling an owned job keeps the invariant, when the job does not stay
running and goes back to the queue with attempts left only. -/
theorem Consistent.settled (h : Consistent s) (howned : Owned s j lease)
    (houtcome : outcome ≠ .running) (hstate : state ≠ .running)
    (hqueued : state = .queued → ∀ job, s.jobs.find? j = some job →
      job.currentAttempt < job.maxAttempts) :
    Consistent (Queue.settled j lease now outcome state failure scheduledAt s) := by
  obtain ⟨holder, hholder, hholds⟩ := howned.job
  obtain ⟨active, hactive, hmatches⟩ := howned.attempt
  have hmatched := runningAttempt_iff.mp hmatches
  have hholderRunning := (holdsLease_iff.mp hholds).2.1
  -- a job that does not hold the lease is another job
  have hother : ∀ job ∈ s.jobs.rows, holdsLease j lease job ≠ true → job.id ≠ j := by
    intro job hjob hnot hid
    have hsame := Table.find?_key hjob
    rw [hid, hholder] at hsame
    cases hsame
    exact hnot hholds
  have hrow : ∀ job' ∈ (Queue.settled j lease now outcome state failure scheduledAt s).jobs.rows,
      ∃ job ∈ s.jobs.rows, (job' = job ∧ job.id ≠ j) ∨ (job.id = j ∧ job'.id = job.id ∧
        job'.state = state ∧ job'.leaseColumns = none ∧
        job'.currentAttempt = job.currentAttempt ∧ job'.maxAttempts = job.maxAttempts) := by
    intro job' hjob'
    rw [settled_jobs] at hjob'
    obtain ⟨job, hjob, rfl⟩ := Table.mem_update.mp hjob'
    refine ⟨job, hjob, ?_⟩
    by_cases hp : holdsLease j lease job = true
    · rw [if_pos hp]
      exact Or.inr ⟨(holdsLease_iff.mp hp).1, rfl, rfl, rfl, rfl, rfl⟩
    · rw [if_neg hp]
      exact Or.inl ⟨rfl, hother job hjob hp⟩
  have hattempt : ∀ a ∈ s.attempts.rows, ∃ a' ∈
      (Queue.settled j lease now outcome state failure scheduledAt s).attempts.rows,
      a'.jobId = a.jobId ∧ a'.attemptNumber = a.attemptNumber ∧ (a.jobId ≠ j → a' = a) := by
    intro a ha
    rw [settled_attempts]
    refine ⟨_, Table.mem_update.mpr ⟨a, ha, rfl⟩, ?_⟩
    split
    · rename_i hp
      exact ⟨rfl, rfl, fun hne => absurd (runningAttempt_iff.mp hp).1 hne⟩
    · exact ⟨rfl, rfl, fun _ => rfl⟩
  constructor
  · intro job' hjob' hrunning
    obtain ⟨job, hjob, ⟨rfl, hne⟩ | ⟨_, _, hs, _⟩⟩ := hrow job' hjob'
    · obtain ⟨hcurrent, hgeneration, c, hc, a, ha, hexecutes⟩ := h.leased job' hjob hrunning
      obtain ⟨a', ha', _, _, hsame⟩ := hattempt a ha
      rw [hsame (hexecutes.jobId ▸ hne)] at ha'
      exact ⟨hcurrent, hgeneration, c, hc, a, ha', hexecutes⟩
    · exact absurd (hs.symm.trans hrunning) hstate
  · intro job' hjob' hnot
    obtain ⟨job, hjob, ⟨rfl, _⟩ | ⟨_, _, _, hnone, _⟩⟩ := hrow job' hjob'
    · exact h.unleased job' hjob hnot
    · exact hnone
  · intro a' ha' b' hb' haRunning hbRunning hid
    obtain ⟨a, ha, _, _, ⟨rfl, _⟩ | ⟨ho, _⟩⟩ := mem_settled_attempts ha'
    · obtain ⟨b, hb, _, _, ⟨rfl, _⟩ | ⟨ho, _⟩⟩ := mem_settled_attempts hb'
      · exact h.oneRunning a' ha b' hb haRunning hbRunning hid
      · exact absurd (ho.symm.trans hbRunning) houtcome
    · exact absurd (ho.symm.trans haRunning) houtcome
  · intro a' ha'
    obtain ⟨a, ha, hid, hnumber, hcases⟩ := mem_settled_attempts ha'
    obtain ⟨job, hjob, hrunning, hle⟩ := h.owner a ha
    rw [hid, hnumber, settled_find?, hjob, Option.map_some]
    refine ⟨_, rfl, ?_, by split <;> exact hle⟩
    intro haRunning
    rcases hcases with ⟨rfl, hnot⟩ | ⟨ho, _⟩
    · have hstill := hrunning haRunning
      rw [if_neg]
      · exact hstill
      · intro hp
        -- the running attempt of the lease holder is the attempt of the lease
        have hj := (holdsLease_iff.mp hp).1
        have hjobId := Table.key_of_find? hjob
        have hsame := h.oneRunning a' ha active hactive haRunning hmatched.2.2.2.2
          ((hjobId.symm.trans hj).trans hmatched.1.symm)
        rw [hsame, hmatches] at hnot
        cases hnot
    · exact absurd (ho.symm.trans haRunning) houtcome
  · intro job' hjob'
    have hkeep : ∀ job ∈ s.jobs.rows, job.currentAttempt = 0 ∨ ∃ a' ∈
        (Queue.settled j lease now outcome state failure scheduledAt s).attempts.rows,
        a'.jobId = job.id ∧ a'.attemptNumber = job.currentAttempt := by
      intro job hjob
      rcases h.current job hjob with hzero | ⟨a, ha, hid, hnumber⟩
      · exact Or.inl hzero
      · obtain ⟨a', ha', hid', hnumber', _⟩ := hattempt a ha
        exact Or.inr ⟨a', ha', hid'.trans hid, hnumber'.trans hnumber⟩
    obtain ⟨job, hjob, ⟨rfl, _⟩ | ⟨_, hid, _, _, hcurrent, _⟩⟩ := hrow job' hjob'
    · exact hkeep job' hjob
    · rw [hid, hcurrent]
      exact hkeep job hjob
  · intro job' hjob'
    obtain ⟨job, hjob, ⟨rfl, _⟩ | ⟨hid, _, hs, _, hcurrent, hmax⟩⟩ := hrow job' hjob'
    · exact h.budget job' hjob
    · rw [hcurrent, hmax, hs]
      exact ⟨(h.budget job hjob).1, fun e => hqueued e job (hid ▸ Table.find?_key hjob)⟩
  · intro event hevent
    obtain ⟨hsequence, job, terminal, hjob, hterminal, hevent'⟩ := h.progress event hevent
    refine ⟨hsequence, job, terminal, ?_, hterminal, hevent'⟩
    rw [settled_find?, hjob, Option.map_some, if_neg]
    intro hp
    rw [(holdsLease_iff.mp hp).2.1] at hterminal
    cases hterminal

end Settle

/-! ## Cancellation of queued work -/

/-- Cancelling queued jobs keeps the store consistent. -/
theorem Consistent.cancelQueued (h : Consistent s) :
    Consistent { s with
      jobs := s.jobs.update (fun job => job.id = j && job.state = .queued) fun job =>
        { job with state := .cancelled, failureCode := some .cancelled, updatedAt := now } } := by
  have hrow : ∀ job' ∈ (s.jobs.update (fun job => job.id = j && job.state = .queued) fun job =>
      { job with state := .cancelled, failureCode := some .cancelled, updatedAt := now }).rows,
      ∃ job ∈ s.jobs.rows, job' = job ∨ (job.state = .queued ∧ job'.state = .cancelled ∧
        job'.id = job.id ∧ job'.leaseColumns = job.leaseColumns ∧
        job'.currentAttempt = job.currentAttempt ∧ job'.maxAttempts = job.maxAttempts) := by
    intro job' hjob'
    obtain ⟨job, hjob, rfl⟩ := Table.mem_update.mp hjob'
    refine ⟨job, hjob, ?_⟩
    split
    · rename_i hp
      rw [Bool.and_eq_true, decide_eq_true_eq, decide_eq_true_eq] at hp
      exact Or.inr ⟨hp.2, rfl, rfl, rfl, rfl, rfl⟩
    · exact Or.inl rfl
  -- a job that is not queued keeps its row
  have hfind : ∀ k job, s.jobs.find? k = some job → ∃ job',
      (s.jobs.update (fun job => job.id = j && job.state = .queued) fun job => { job with
        state := .cancelled, failureCode := some .cancelled, updatedAt := now }).find? k =
        some job' ∧ job'.currentAttempt = job.currentAttempt ∧
        (job.state ≠ .queued → job' = job) := by
    intro k job hk
    refine ⟨_, by rw [Table.find?_update, hk, Option.map_some], ?_⟩
    split
    · rename_i hp
      rw [Bool.and_eq_true, decide_eq_true_eq, decide_eq_true_eq] at hp
      exact ⟨rfl, fun hne => absurd hp.2 hne⟩
    · exact ⟨rfl, fun _ => rfl⟩
  constructor
  · intro job' hjob' hrunning
    obtain ⟨job, hjob, rfl | ⟨_, hs, _⟩⟩ := hrow job' hjob'
    · exact h.leased job' hjob hrunning
    · rw [hs] at hrunning
      cases hrunning
  · intro job' hjob' hnot
    obtain ⟨job, hjob, rfl | ⟨hq, _, _, hcolumns, _⟩⟩ := hrow job' hjob'
    · exact h.unleased job' hjob hnot
    · rw [hcolumns]
      exact h.unleased job hjob (by rw [hq]; decide)
  · exact h.oneRunning
  · intro a ha
    obtain ⟨job, hjob, hrunning, hle⟩ := h.owner a ha
    obtain ⟨job', hjob', hcurrent, hsame⟩ := hfind _ job hjob
    refine ⟨job', hjob', fun haRunning => ?_, hcurrent.symm ▸ hle⟩
    have hstill := hrunning haRunning
    rw [hsame (by rw [hstill]; decide)]
    exact hstill
  · intro job' hjob'
    obtain ⟨job, hjob, rfl | ⟨_, _, hid, _, hcurrent, _⟩⟩ := hrow job' hjob'
    · exact h.current job' hjob
    · rw [hid, hcurrent]
      exact h.current job hjob
  · intro job' hjob'
    obtain ⟨job, hjob, rfl | ⟨_, hs, _, _, hcurrent, hmax⟩⟩ := hrow job' hjob'
    · exact h.budget job' hjob
    · rw [hcurrent, hmax, hs]
      exact ⟨(h.budget job hjob).1, fun e => by cases e⟩
  · intro event hevent
    obtain ⟨hsequence, job, terminal, hjob, hterminal, hevent'⟩ := h.progress event hevent
    obtain ⟨job', hjob', _, hsame⟩ := hfind _ job hjob
    have hne : job.state ≠ .queued := by
      intro e
      rw [e] at hterminal
      cases hterminal
    rw [hsame hne] at hjob'
    exact ⟨hsequence, job, terminal, hjob', hterminal, hevent'⟩

/-! ## Removal -/

/-- A job that nothing names may be removed. -/
theorem Consistent.removed (h : Consistent s)
    (hattempts : ∀ a ∈ s.attempts.rows, a.jobId ≠ j)
    (hprogress : ∀ event ∈ s.progress.rows, event.jobId ≠ j) :
    Consistent { s with jobs := s.jobs.delete fun job => job.id = j } := by
  have hrow : ∀ job ∈ (s.jobs.delete fun job => job.id = j).rows, job ∈ s.jobs.rows :=
    fun job hjob => (Table.mem_delete.mp hjob).1
  have hfind : ∀ k job, k ≠ j → s.jobs.find? k = some job →
      (s.jobs.delete fun job => job.id = j).find? k = some job := by
    intro k job hkj hk
    rw [Table.find?_delete, hk, Option.filter_some_pos]
    simpa [Table.key_of_find? hk] using hkj
  constructor
  · exact fun job hjob => h.leased job (hrow job hjob)
  · exact fun job hjob => h.unleased job (hrow job hjob)
  · exact h.oneRunning
  · intro a ha
    obtain ⟨job, hjob, hrest⟩ := h.owner a ha
    exact ⟨job, hfind _ job (hattempts a ha) hjob, hrest⟩
  · exact fun job hjob => h.current job (hrow job hjob)
  · exact fun job hjob => h.budget job (hrow job hjob)
  · intro event hevent
    obtain ⟨hsequence, job, terminal, hjob, hrest⟩ := h.progress event hevent
    exact ⟨hsequence, job, terminal, hfind _ job (hprogress event hevent) hjob, hrest⟩

/-! ## Leasing -/

/-- Leasing a queued job with a fresh attempt of the next number. -/
theorem Consistent.leaseQueued (h : Consistent s) {job : JobRecord} {c : LeaseColumns}
    {attempt : JobAttempt} {attempts : Table JobAttempt AttemptId JobAttempt.id}
    (hjob : s.jobs.find? j = some job) (hqueued : job.state = .queued)
    (hbudget : job.currentAttempt < job.maxAttempts)
    (hinsert : s.attempts.insert? attempt = some attempts)
    (hexecutes : Executes { job with
      currentAttempt := job.currentAttempt + 1, leaseGeneration := job.leaseGeneration + 1 }
      c attempt) :
    Consistent { s with
      attempts
      jobs := s.jobs.update (fun job => job.id = j && job.state = .queued) fun other => { other with
        state := .running, currentAttempt := job.currentAttempt + 1
        leaseGeneration := job.leaseGeneration + 1, leaseColumns := some c
        failureCode := none, updatedAt := now } } := by
  have hid := Table.key_of_find? hjob
  have hmem := fun a => @Table.mem_insert _ _ _ _ s.attempts attempts attempt a hinsert
  have hattemptJob : attempt.jobId = j := hexecutes.jobId.trans hid
  -- the leased row, and every other row unchanged
  have hrow : ∀ job' ∈ (s.jobs.update (fun job => job.id = j && job.state = .queued) fun other =>
      { other with
        state := .running, currentAttempt := job.currentAttempt + 1
        leaseGeneration := job.leaseGeneration + 1, leaseColumns := some c
        failureCode := none, updatedAt := now }).rows,
      (job' ∈ s.jobs.rows ∧ job'.id ≠ j) ∨ (job'.id = j ∧ job'.state = .running ∧
        job'.currentAttempt = job.currentAttempt + 1 ∧ job'.maxAttempts = job.maxAttempts ∧
        job'.leaseGeneration = job.leaseGeneration + 1 ∧ job'.leaseColumns = some c) := by
    intro job' hjob'
    obtain ⟨other, hother, rfl⟩ := Table.mem_update.mp hjob'
    by_cases hkey : other.id = j
    · have hsame := Table.find?_key hother
      rw [hkey, hjob] at hsame
      cases hsame
      rw [if_pos (by simp [hkey, hqueued])]
      exact Or.inr ⟨hkey, rfl, rfl, rfl, rfl, rfl⟩
    · rw [if_neg (by simp [hkey])]
      exact Or.inl ⟨hother, hkey⟩
  have hfind : ∀ k found, s.jobs.find? k = some found → ∃ found',
      (s.jobs.update (fun job => job.id = j && job.state = .queued) fun other => { other with
        state := .running, currentAttempt := job.currentAttempt + 1
        leaseGeneration := job.leaseGeneration + 1, leaseColumns := some c
        failureCode := none, updatedAt := now }).find? k = some found' ∧
      ((k ≠ j ∧ found' = found) ∨ (k = j ∧ found = job ∧ found'.state = .running ∧
        found'.currentAttempt = job.currentAttempt + 1)) := by
    intro k found hk
    refine ⟨_, by rw [Table.find?_update, hk, Option.map_some], ?_⟩
    have hkey := Table.key_of_find? hk
    by_cases hkj : k = j
    · subst hkj
      rw [hjob] at hk
      cases hk
      rw [if_pos (by simp [hkey, hqueued])]
      exact Or.inr ⟨rfl, rfl, rfl, rfl⟩
    · rw [if_neg (by simp [hkey, hkj])]
      exact Or.inl ⟨hkj, rfl⟩
  have hnotRunning : ∀ a ∈ s.attempts.rows, a.jobId = j → a.outcome ≠ .running := by
    intro a ha haj hrunning
    obtain ⟨owner, howner, hstill, _⟩ := h.owner a ha
    rw [haj, hjob] at howner
    cases howner
    rw [hqueued] at hstill
    cases hstill hrunning
  constructor
  · intro job' hjob' hrunning
    rcases hrow job' hjob' with ⟨hold, hne⟩ | ⟨hkey, _, hcurrent, _, hgeneration, hcolumns⟩
    · obtain ⟨hcurrent, hgeneration, c', hc', a, ha, ha'⟩ := h.leased job' hold hrunning
      exact ⟨hcurrent, hgeneration, c', hc', a, (hmem a).mpr (Or.inl ha), ha'⟩
    · refine ⟨by omega, by omega, c, hcolumns, attempt, (hmem attempt).mpr (Or.inr rfl), ?_⟩
      exact ⟨hattemptJob.trans hkey.symm, hexecutes.running, hexecutes.number.trans hcurrent.symm,
        hexecutes.generation.trans hgeneration.symm, hexecutes.lease, hexecutes.worker⟩
  · intro job' hjob' hnot
    rcases hrow job' hjob' with ⟨hold, _⟩ | ⟨_, hrunning, _⟩
    · exact h.unleased job' hold hnot
    · exact absurd hrunning hnot
  · intro a ha b hb haRunning hbRunning hsame
    rcases (hmem a).mp ha with ha | rfl
    · rcases (hmem b).mp hb with hb | rfl
      · exact h.oneRunning a ha b hb haRunning hbRunning hsame
      · exact absurd haRunning (hnotRunning a ha (hsame.trans hattemptJob))
    · rcases (hmem b).mp hb with hb | rfl
      · exact absurd hbRunning (hnotRunning b hb (hsame.symm.trans hattemptJob))
      · rfl
  · intro a ha
    rcases (hmem a).mp ha with ha | rfl
    · obtain ⟨owner, howner, hrunning, hle⟩ := h.owner a ha
      obtain ⟨owner', howner', ⟨_, rfl⟩ | ⟨_, rfl, hr, hcurrent⟩⟩ := hfind _ owner howner
      · exact ⟨owner', howner', hrunning, hle⟩
      · exact ⟨owner', howner', fun _ => hr, by omega⟩
    · obtain ⟨owner', howner', ⟨hne, _⟩ | ⟨_, _, hr, hcurrent⟩⟩ := hfind j job hjob
      · exact absurd rfl hne
      · rw [hattemptJob]
        refine ⟨owner', howner', fun _ => hr, ?_⟩
        rw [hcurrent]
        exact hexecutes.number.le
  · intro job' hjob'
    rcases hrow job' hjob' with ⟨hold, _⟩ | ⟨hkey, _, hcurrent, _⟩
    · rcases h.current job' hold with hzero | ⟨a, ha, ha'⟩
      · exact Or.inl hzero
      · exact Or.inr ⟨a, (hmem a).mpr (Or.inl ha), ha'⟩
    · exact Or.inr ⟨attempt, (hmem attempt).mpr (Or.inr rfl), hattemptJob.trans hkey.symm,
        hexecutes.number.trans hcurrent.symm⟩
  · intro job' hjob'
    rcases hrow job' hjob' with ⟨hold, _⟩ | ⟨_, hrunning, hcurrent, hmax, _⟩
    · exact h.budget job' hold
    · refine ⟨by omega, fun e => ?_⟩
      rw [hrunning] at e
      cases e
  · intro event hevent
    obtain ⟨hsequence, found, terminal, hfound, hterminal, hevent'⟩ := h.progress event hevent
    obtain ⟨found', hfound', ⟨_, rfl⟩ | ⟨_, rfl, _⟩⟩ := hfind _ found hfound
    · exact ⟨hsequence, found', terminal, hfound', hterminal, hevent'⟩
    · rw [hqueued] at hterminal
      cases hterminal

/-! ## Terminal progress -/

/-- The first terminal event of a settled job. -/
theorem Consistent.appendProgress (h : Consistent s) {job : JobRecord}
    {terminal : ProgressTerminalState} (event : ProgressEvent)
    {progress : Table ProgressEvent (JobId × ℕ) fun event => (event.jobId, event.sequence)}
    (hjob : s.jobs.find? event.jobId = some job)
    (hterminal : terminalProgress job.state = some terminal)
    (hevent : event.terminal = some terminal) (hsequence : event.sequence = 1)
    (hinsert : s.progress.insert? event = some progress) : Consistent { s with progress } where
  leased := h.leased
  unleased := h.unleased
  oneRunning := h.oneRunning
  owner := h.owner
  current := h.current
  budget := h.budget
  progress := by
    intro other hother
    rcases (Table.mem_insert hinsert).mp hother with hother | rfl
    · exact h.progress other hother
    · exact ⟨hsequence, job, terminal, hjob, hterminal, hevent⟩

end Erabi.Queue

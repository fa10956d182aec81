/-
# Storage pressure

A worker that meets storage pressure gives its execution up.  The job goes back to
the queue, fails alone or together with its run and its progress stream, or is
settled as its already ended run says.  Job, attempt, lease and run agree after
each of these ends, and the stream agrees with them whenever it was open.
-/
import Mathlib
import Erabi.Progress.Leases
import Erabi.Queue.Exclusive

namespace Erabi.Progress

open Relational Transaction Queue Lifecycle Transition

variable {s s' : QueueStore} {j : JobId} {job : JobRecord} {lease : JobLease} {now : ℤ}
  {r : CrawlRunId} {terminal : ProgressTerminalState}

/-! ## Closing a stream -/

/-- The terminal events stored for a job. -/
def terminalsOf (s : QueueStore) (j : JobId) : List ProgressTerminalState :=
  (progressOf s j).filterMap ProgressEvent.terminal

/-- The terminal events depend on the table of progress. -/
theorem terminalsOf_of_progress (hprogress : s'.progress = s.progress) (j : JobId) :
    terminalsOf s' j = terminalsOf s j := by
  rw [terminalsOf, progressOf, hprogress]
  rfl

/-- The repair of a stream, in terms of its terminal events. -/
theorem appendTerminalProgressIfMissing_eq (s : QueueStore) (j : JobId)
    (terminal : ProgressTerminalState) (now : ℤ) :
    appendTerminalProgressIfMissing j terminal now s = (do
      require (∀ value ∈ terminalsOf s j, value = terminal) JobRepositoryError.queueInvariant
      require ((terminalsOf s j).length ≤ 1) .queueInvariant
      if (terminalsOf s j).length = 1 then return () else
        appendProgress j (some terminal) now : QueueTx Unit) s := rfl

/-- The repair closes a stream without a terminal event. -/
theorem appendTerminalProgressIfMissing_of_nil (h : terminalsOf s j = []) :
    appendTerminalProgressIfMissing j terminal now s = appendProgress j (some terminal) now s := by
  rw [appendTerminalProgressIfMissing_eq, h]
  rw [require_bind_of (by simp), require_bind_of (by simp)]
  rfl

/-- The repair accepts the terminal event it would append. -/
theorem appendTerminalProgressIfMissing_of_same (h : terminalsOf s j = [terminal]) :
    appendTerminalProgressIfMissing j terminal now s = .ok ((), s) := by
  rw [appendTerminalProgressIfMissing_eq, h]
  rw [require_bind_of (by simp), require_bind_of (by simp)]
  rfl

/-- The repair refuses every other terminal event, and a second one. -/
theorem appendTerminalProgressIfMissing_of_other (h : terminalsOf s j ≠ [])
    (hother : terminalsOf s j ≠ [terminal]) :
    appendTerminalProgressIfMissing j terminal now s = .error .queueInvariant := by
  rw [appendTerminalProgressIfMissing_eq]
  refine require_bind_eq_error.mpr ?_
  by_cases hsame : ∀ value ∈ terminalsOf s j, value = terminal
  · refine Or.inr ⟨hsame, require_bind_eq_error.mpr (Or.inl ⟨fun hlength => hother ?_, rfl⟩)⟩
    obtain ⟨value, hvalue⟩ := List.exists_mem_of_ne_nil _ h
    obtain ⟨single, hsingle⟩ := List.length_eq_one_iff.mp
      (le_antisymm hlength (List.length_pos_of_mem hvalue))
    rw [hsingle, hsame single (by rw [hsingle]; exact List.mem_singleton_self _)]
  · exact Or.inl ⟨hsame, rfl⟩

/-- Only the last event of a numbered stream may be terminal, so an open stream
holds no terminal event. -/
theorem terminalsOf_of_streamOpen (h : StreamOpen s j) (hs : WellNumbered s) :
    terminalsOf s j = [] := by
  refine List.filterMap_eq_nil_iff.mpr fun event hevent => ?_
  obtain ⟨hpos, hle, hget⟩ := (hs j).getElem?_number hevent
  rcases lt_or_eq_of_le hle with hlt | hlast
  · simpa [closesStream] using (hs j).closes_eq_false hevent hlt
  · have hfind := hs.find?_eq_some.mpr ⟨hpos, hget⟩
    have hopened := h.opened
    rw [hs.lastSequence_eq, ← hlast, hfind] at hopened
    exact hopened

/-- A terminal event is appended last. -/
theorem terminalsOf_appendsNext (h : AppendsNext s j (some terminal) now s') :
    terminalsOf s' j = terminalsOf s j ++ [terminal] := by
  obtain ⟨progress, hinsert, rfl⟩ := h
  have hstream : progressOf { s with progress } j =
      progressOf s j ++ [(terminalEvent j terminal).stored (lastSequence s j + 1) now] :=
    (progressOf_insert hinsert).trans (if_pos rfl)
  rw [terminalsOf, hstream, List.filterMap_append]
  rfl

/-- An append moves no job. -/
theorem lifecycle_appendsNext (h : AppendsNext s j (some terminal) now s') :
    s'.lifecycle = s.lifecycle := by
  obtain ⟨_, _, rfl⟩ := h
  rfl

/-! ## The ends of a pressured execution -/

/-- The run of the job has not ended. -/
def RunOpen (s : QueueStore) (job : JobRecord) : Prop :=
  ∀ r ∈ job.crawlRunId, ∀ status, s.lifecycle.run r = some status → status.terminal = false

/-- The store after the attempt has failed with `STORAGE_PRESSURE` and the job has
been moved to `state`. -/
def pressured (j : JobId) (lease : JobLease) (now : ℤ) (state : JobState) (s : QueueStore) :
    QueueStore :=
  settled j lease now .failed state (some .storagePressure) (some now) s

/-- What storage pressure makes of a job that runs under the lease: the result and
the store that are left behind. -/
inductive PressureEnd (s : QueueStore) (j : JobId) (job : JobRecord) (lease : JobLease) (now : ℤ) :
    Except JobRepositoryError JobState → QueueStore → Prop
  | requeued : RunOpen s job → requeuesPressured s j lease job = true →
      PressureEnd s j job lease now (.ok .queued) (pressured j lease now .queued s)
  | failed : requeuesPressured s j lease job = false → job.crawlRunId = none →
      PressureEnd s j job lease now (.ok .failed) (pressured j lease now .failed s)
  | failedWithRun {r : CrawlRunId} {status : CrawlRunStatus} {s' : QueueStore} :
      requeuesPressured s j lease job = false → job.crawlRunId = some r →
      s.lifecycle.run r = some status → status.terminal = false → StreamOpen s j →
      AppendsNext (runFailed r (pressured j lease now .failed s)) j (some .failed) now s' →
      PressureEnd s j job lease now (.ok .failed) s'
  | refused {r : CrawlRunId} {status : CrawlRunStatus} :
      requeuesPressured s j lease job = false → job.crawlRunId = some r →
      s.lifecycle.run r = some status → status.terminal = false → ¬ StreamOpen s j →
      PressureEnd s j job lease now (.error .queueInvariant) s
  | ended {r : CrawlRunId} {status : CrawlRunStatus} {state : JobState} {outcome : AttemptOutcome}
      {failure : Option JobFailureCode} {terminal : ProgressTerminalState} {s' : QueueStore} :
      job.crawlRunId = some r → s.lifecycle.run r = some status →
      terminalOutcome status = some (state, outcome, failure, terminal) →
      ((terminalsOf s j = [terminal] ∧ s' = settled j lease now outcome state failure none s) ∨
        (terminalsOf s j = [] ∧ StreamOpen s j ∧
          AppendsNext (settled j lease now outcome state failure none s) j (some terminal) now
            s')) →
      PressureEnd s j job lease now (.ok state) s'
  | unrepaired {r : CrawlRunId} {status : CrawlRunStatus} {state : JobState}
      {outcome : AttemptOutcome} {failure : Option JobFailureCode}
      {terminal : ProgressTerminalState} :
      job.crawlRunId = some r → s.lifecycle.run r = some status →
      terminalOutcome status = some (state, outcome, failure, terminal) →
      terminalsOf s j ≠ [terminal] → (terminalsOf s j = [] → ¬ StreamOpen s j) →
      PressureEnd s j job lease now (.error .queueInvariant)
        (settled j lease now outcome state failure none s)

/-! ## The operation has no other end -/

/-- Under an open run nothing is finished. -/
theorem finishAfterRun_of_open (hopen : RunOpen s job) :
    finishAfterRun j job.crawlRunId now s = .ok (none, s) := by
  rcases hrun : job.crawlRunId with _ | r
  · rfl
  · unfold finishAfterRun finishAfterTerminalCrawlRun
    dsimp only
    rw [selectCrawlRunStatus_bind]
    rcases hstatus : s.lifecycle.run r with _ | status
    · rfl
    · have hnone := hopen r hrun status hstatus
      cases status <;> first | rfl | cases hnone

/-- Under an ended run the job is settled as the run says. -/
theorem finishAfterRun_of_ended {status : CrawlRunStatus} {state : JobState}
    {outcome : AttemptOutcome} {failure : Option JobFailureCode}
    (hjob : s.jobs.find? j = some job) (hrunning : job.state = .running)
    (hlease : job.lease = some lease) (howned : Owned s j lease) (hr : job.crawlRunId = some r)
    (hstatus : s.lifecycle.run r = some status)
    (houtcome : terminalOutcome status = some (state, outcome, failure, terminal)) :
    finishAfterRun j job.crawlRunId now s =
      .ok (some ⟨state, terminal⟩, settled j lease now outcome state failure none s) := by
  rw [hr]
  unfold finishAfterRun finishAfterTerminalCrawlRun
  dsimp only
  rw [selectCrawlRunStatus_bind, hstatus]
  dsimp only
  unfold reconcileTerminalJob
  rw [houtcome]
  refine selectJob_bind_eq_ok.mpr ⟨job, hjob, ?_⟩
  rw [hrunning]
  exact orFail_bind_eq_ok.mpr ⟨lease, hlease, finish_release_bind_eq_ok.mpr ⟨howned, rfl⟩⟩

/-- The transaction of an owned job whose run is open. -/
theorem requeueAfterStoragePressureTx_of_open {state : JobState}
    (hjob : s.jobs.find? j = some job) (hrunning : job.state = .running)
    (hlease : job.lease = some lease) (hnow : now < lease.expiresAt) (howned : Owned s j lease)
    (hopen : RunOpen s job)
    (hstate : (if requeuesPressured s j lease job then JobState.queued else .failed) = state) :
    requeueAfterStoragePressureTx j lease now s = (do
      if state = .failed ∧ job.crawlRunId.isSome then finalizeCrawlFailure job now
      return (none, state) : QueueTx (Option TerminalJobReconciliation × JobState))
      (pressured j lease now state s) := by
  have hselect : selectOwnedRunningJob j lease now s = .ok (job, s) :=
    selectOwnedRunningJob_eq_ok.mpr ⟨hjob, hrunning, hlease, hnow, rfl⟩
  have hnext : (if hasCheckpointForCurrentAttempt s j lease = true ∧
      job.currentAttempt < job.maxAttempts then JobState.queued else .failed) = state := by
    rw [← hstate]
    simp [requeuesPressured]
  unfold requeueAfterStoragePressureTx
  rw [bind_of_ok hselect, bind_of_ok (finishAfterRun_of_open hopen)]
  dsimp only
  rw [read_bind, hnext]
  exact finish_release_bind howned _

/-- Pressure settles a job whose run has ended. -/
theorem requeueAfterStoragePressureTx_of_ended {status : CrawlRunStatus} {state : JobState}
    {outcome : AttemptOutcome} {failure : Option JobFailureCode}
    (hjob : s.jobs.find? j = some job) (hrunning : job.state = .running)
    (hlease : job.lease = some lease) (hnow : now < lease.expiresAt) (howned : Owned s j lease)
    (hr : job.crawlRunId = some r) (hstatus : s.lifecycle.run r = some status)
    (houtcome : terminalOutcome status = some (state, outcome, failure, terminal)) :
    requeueAfterStoragePressureTx j lease now s =
      .ok ((some ⟨state, terminal⟩, state), settled j lease now outcome state failure none s) := by
  have hselect : selectOwnedRunningJob j lease now s = .ok (job, s) :=
    selectOwnedRunningJob_eq_ok.mpr ⟨hjob, hrunning, hlease, hnow, rfl⟩
  unfold requeueAfterStoragePressureTx
  rw [bind_of_ok hselect, bind_of_ok (finishAfterRun_of_ended hjob hrunning hlease howned hr
    hstatus houtcome)]
  rfl

/-- A settled job is still there. -/
theorem settled_isSome {outcome : AttemptOutcome} {state : JobState}
    {failure : Option JobFailureCode} {scheduledAt : Option ℤ} (hjob : s.jobs.find? j = some job) :
    ((settled j lease now outcome state failure scheduledAt s).jobs.find? j).isSome := by
  rw [settled_find?, hjob]
  rfl

/-- The ends of a job whose run has ended: the transaction settles the job, and
the repair of its stream succeeds or is refused. -/
theorem requeueAfterStoragePressure_of_ended {status : CrawlRunStatus} {state : JobState}
    {outcome : AttemptOutcome} {failure : Option JobFailureCode}
    (hjob : s.jobs.find? j = some job) (hrunning : job.state = .running)
    (hlease : job.lease = some lease) (hnow : now < lease.expiresAt) (howned : Owned s j lease)
    (hr : job.crawlRunId = some r) (hstatus : s.lifecycle.run r = some status)
    (houtcome : terminalOutcome status = some (state, outcome, failure, terminal)) :
    PressureEnd s j job lease now (requeueAfterStoragePressure j lease now s).1
      (requeueAfterStoragePressure j lease now s).2 := by
  have htx := requeueAfterStoragePressureTx_of_ended hjob hrunning hlease hnow howned hr hstatus
    houtcome
  let s₁ := settled j lease now outcome state failure none s
  have hstream : terminalsOf s₁ j = terminalsOf s j := terminalsOf_of_progress rfl j
  unfold requeueAfterStoragePressure
  rw [commit_of_ok htx]
  dsimp only
  by_cases hsame : terminalsOf s j = [terminal]
  · rw [commit_of_ok (appendTerminalProgressIfMissing_of_same (hstream.trans hsame))]
    exact .ended hr hstatus houtcome (Or.inl ⟨hsame, rfl⟩)
  · by_cases hnil : terminalsOf s j = []
    · have hrepair : appendTerminalProgressIfMissing j terminal now s₁ =
          appendProgress j (some terminal) now s₁ :=
        appendTerminalProgressIfMissing_of_nil (hstream.trans hnil)
      by_cases hopen : StreamOpen s j
      · have hopen₁ : StreamOpen s₁ j := hopen.of_progress rfl
        obtain ⟨s₂, happend, hnext⟩ :=
          hopen₁.appendProgress (settled_isSome hjob) (some terminal) now
        rw [commit_of_ok (hrepair.trans happend)]
        exact .ended hr hstatus houtcome (Or.inr ⟨hnil, hopen, hnext⟩)
      · have hrefused : ¬ StreamOpen s₁ j := fun h => hopen (h.of_progress rfl)
        rw [commit_of_error (hrepair.trans (appendProgress_of_not_streamOpen hrefused))]
        exact .unrepaired hr hstatus houtcome hsame fun _ => hopen
    · rw [commit_of_error (appendTerminalProgressIfMissing_of_other
        (fun h => hnil (hstream.symm.trans h)) fun h => hsame (hstream.symm.trans h))]
      exact .unrepaired hr hstatus houtcome hsame fun h => absurd h hnil

/-- The ends of a job whose run is open, or that has none. -/
theorem requeueAfterStoragePressure_of_open (hjob : s.jobs.find? j = some job)
    (hrunning : job.state = .running) (hlease : job.lease = some lease)
    (hnow : now < lease.expiresAt) (howned : Owned s j lease) (hopen : RunOpen s job)
    (hattached : ∀ r ∈ job.crawlRunId, ∃ status, s.lifecycle.run r = some status) :
    PressureEnd s j job lease now (requeueAfterStoragePressure j lease now s).1
      (requeueAfterStoragePressure j lease now s).2 := by
  have htx := requeueAfterStoragePressureTx_of_open hjob hrunning hlease hnow howned hopen rfl
  unfold requeueAfterStoragePressure
  rcases hrequeues : requeuesPressured s j lease job with _ | _
  · rw [hrequeues] at htx
    rcases hrun : job.crawlRunId with _ | r
    · rw [if_neg Bool.false_ne_true, if_neg (by simp [hrun])] at htx
      rw [commit_of_ok htx]
      exact .failed hrequeues hrun
    · obtain ⟨status, hstatus⟩ := hattached r hrun
      have hstatusOpen := hopen r hrun status hstatus
      have hid := Table.key_of_find? hjob
      subst hid
      let s₁ := runFailed r (pressured job.id lease now .failed s)
      have hfinal : finalizeCrawlFailure job now (pressured job.id lease now .failed s) =
          Queue.appendProgress job.id (some .failed) now s₁ :=
        finalizeCrawlFailure_eq hrun hstatus hstatusOpen
      rw [if_neg Bool.false_ne_true, if_pos ⟨rfl, by rw [hrun]; rfl⟩] at htx
      by_cases hstream : StreamOpen s job.id
      · have hstream₁ : StreamOpen s₁ job.id := hstream.of_progress rfl
        have hexists : ((pressured job.id lease now .failed s).jobs.find? job.id).isSome :=
          settled_isSome hjob
        obtain ⟨s', happend, hnext⟩ := hstream₁.appendProgress hexists (some .failed) now
        rw [bind_of_ok (hfinal.trans happend)] at htx
        rw [commit_of_ok htx]
        exact .failedWithRun hrequeues hrun hstatus hstatusOpen hstream hnext
      · -- the refusal of the terminal event rolls the whole transaction back
        have hrefused : ¬ StreamOpen s₁ job.id := fun h => hstream (h.of_progress rfl)
        have herror := htx.trans (bind_eq_error.mpr
          (Or.inl (hfinal.trans (appendProgress_of_not_streamOpen hrefused))))
        rw [commit_of_error herror]
        exact .refused hrequeues hrun hstatus hstatusOpen hstream
  · rw [hrequeues, if_pos rfl, if_neg (by simp)] at htx
    rw [commit_of_ok htx]
    exact .requeued hopen hrequeues

/-- Every end of a reachable job that storage pressure interrupts. -/
theorem requeueAfterStoragePressure_ends (hs : ConsistentLeases s)
    (hattached : ∀ job ∈ s.jobs.rows, ∀ r ∈ job.crawlRunId, (s.runs.find? r).isSome)
    (hjob : s.jobs.find? j = some job) (hrunning : job.state = .running)
    (hlease : job.lease = some lease) (hnow : now < lease.expiresAt) :
    PressureEnd s j job lease now (requeueAfterStoragePressure j lease now s).1
      (requeueAfterStoragePressure j lease now s).2 := by
  have howned := hs.owned hjob hrunning hlease
  by_cases hopen : RunOpen s job
  · refine requeueAfterStoragePressure_of_open hjob hrunning hlease hnow howned hopen ?_
    intro r hr
    obtain ⟨run, hrun⟩ := Option.isSome_iff_exists.mp
      (hattached job (Table.mem_of_find? hjob) r hr)
    exact ⟨run.status, lifecycle_run hrun⟩
  · unfold RunOpen at hopen
    push Not at hopen
    obtain ⟨r, hr, status, hstatus, hended⟩ := hopen
    have houtcome : ∃ state outcome failure terminal,
        terminalOutcome status = some (state, outcome, failure, terminal) := by
      cases status <;> first | exact absurd rfl hended | exact ⟨_, _, _, _, rfl⟩
    obtain ⟨state, outcome, failure, terminal, houtcome⟩ := houtcome
    exact requeueAfterStoragePressure_of_ended hjob hrunning hlease hnow howned hr hstatus
      houtcome

/-! ## Agreement -/

/-- The run of the job says what its state says: it is open while the job is
active, and afterwards it has ended with a status that selects the state. -/
def RunMatches (l : Lifecycle) (j : JobId) : Prop :=
  ∀ v r, l.job j = some v → v.run = some r → ∃ status, l.run r = some status ∧
    settledState status = if v.state.active then none else some v.state

/-- The state that an ended run settles in. -/
theorem settledState_of_outcome {status : CrawlRunStatus} {state : JobState}
    {outcome : AttemptOutcome} {failure : Option JobFailureCode}
    (h : terminalOutcome status = some (state, outcome, failure, terminal)) :
    settledState status = if state.active then none else some state := by
  cases status <;> cases h <;> rfl

/-- A job moved as its run says matches it. -/
theorem runMatches_moveJob {l : Lifecycle} {v : JobView} {state : JobState}
    (hj : l.job j = some v)
    (hrun : ∀ r, v.run = some r → ∃ status, l.run r = some status ∧
      settledState status = if state.active then none else some state) :
    RunMatches (l.moveJob j state) j := by
  intro w r hw hr
  rw [moveJob_job, hj, Option.map_some, if_pos rfl] at hw
  cases hw
  exact hrun r hr

/-- Whatever the end, job and run agree. -/
theorem PressureEnd.runMatches {result : Except JobRepositoryError JobState}
    (h : PressureEnd s j job lease now result s') (hjob : s.jobs.find? j = some job)
    (hrunning : job.state = .running) (howned : Owned s j lease)
    (hattached : ∀ r ∈ job.crawlRunId, ∃ status, s.lifecycle.run r = some status) :
    RunMatches s'.lifecycle j := by
  have hview := lifecycle_job hjob
  cases h with
  | requeued hopen _ =>
    rw [pressured, lifecycle_settled howned]
    refine runMatches_moveJob hview fun r hr => ?_
    obtain ⟨status, hstatus⟩ := hattached r hr
    exact ⟨status, hstatus, settledState_of_open (hopen r hr status hstatus)⟩
  | failed _ hnone =>
    rw [pressured, lifecycle_settled howned]
    refine runMatches_moveJob hview fun r hr => ?_
    rw [hnone] at hr
    cases hr
  | @failedWithRun r status _ _ hr hstatus hopen _ hnext =>
    have hpressured : (pressured j lease now .failed s).lifecycle.run r = some status := hstatus
    rw [lifecycle_appendsNext hnext, runFailed_lifecycle hpressured hopen, pressured,
      lifecycle_settled howned]
    intro v q hv hq
    rw [setRun_job, moveJob_job, hview, Option.map_some, if_pos rfl] at hv
    cases hv
    rw [hr] at hq
    cases hq
    refine ⟨.failed, ?_, rfl⟩
    rw [setRun_run, moveJob_run, hstatus, Option.map_some, if_pos rfl]
  | @refused r status _ hr hstatus hopen _ =>
    intro v q hv hq
    rw [hview] at hv
    cases hv
    rw [hr] at hq
    cases hq
    refine ⟨status, hstatus, ?_⟩
    rw [settledState_of_open hopen, hrunning]
    rfl
  | @ended r status state outcome failure terminal _ hr hstatus houtcome hstream =>
    have hsettled : s'.lifecycle = s.lifecycle.moveJob j state := by
      rcases hstream with ⟨_, rfl⟩ | ⟨_, _, hnext⟩
      · exact lifecycle_settled howned
      · exact (lifecycle_appendsNext hnext).trans (lifecycle_settled howned)
    rw [hsettled]
    refine runMatches_moveJob hview fun q hq => ⟨status, ?_, settledState_of_outcome houtcome⟩
    rw [hr] at hq
    cases hq
    exact hstatus
  | @unrepaired r status state outcome failure terminal hr hstatus houtcome _ _ =>
    rw [lifecycle_settled howned]
    refine runMatches_moveJob hview fun q hq => ⟨status, ?_, settledState_of_outcome houtcome⟩
    rw [hr] at hq
    cases hq
    exact hstatus

/-- The job is in the state that is reported. -/
theorem PressureEnd.reported {state : JobState} (h : PressureEnd s j job lease now (.ok state) s')
    (hjob : s.jobs.find? j = some job) (howned : Owned s j lease) :
    s'.lifecycle.job j = some ⟨state, job.crawlRunId⟩ := by
  have hmoved : ∀ state, (s.lifecycle.moveJob j state).job j = some ⟨state, job.crawlRunId⟩ := by
    intro state
    rw [moveJob_job, lifecycle_job hjob, Option.map_some, if_pos rfl]
  cases h with
  | requeued _ _ =>
    rw [pressured, lifecycle_settled howned]
    exact hmoved .queued
  | failed _ _ =>
    rw [pressured, lifecycle_settled howned]
    exact hmoved .failed
  | @failedWithRun r status _ _ _ hstatus hopen _ hnext =>
    have hpressured : (pressured j lease now .failed s).lifecycle.run r = some status := hstatus
    rw [lifecycle_appendsNext hnext, runFailed_lifecycle hpressured hopen, setRun_job, pressured,
      lifecycle_settled howned]
    exact hmoved .failed
  | ended _ _ _ hstream =>
    rcases hstream with ⟨_, rfl⟩ | ⟨_, _, hnext⟩
    · rw [lifecycle_settled howned]
      exact hmoved state
    · rw [lifecycle_appendsNext hnext, lifecycle_settled howned]
      exact hmoved state

/-- With an open stream the operation returns, and the stream of an attached job
then holds exactly the terminal event of the reported state. -/
theorem PressureEnd.stream {result : Except JobRepositoryError JobState}
    (h : PressureEnd s j job lease now result s') (hs : WellNumbered s) (hopen : StreamOpen s j) :
    ∃ state, result = .ok state ∧
      (job.crawlRunId.isSome → terminalsOf s' j = (terminalProgress state).toList) := by
  have hnil := terminalsOf_of_streamOpen hopen hs
  have hsame : ∀ s₁ : QueueStore, s₁.progress = s.progress → terminalsOf s₁ j = [] :=
    fun s₁ hprogress => (terminalsOf_of_progress hprogress j).trans hnil
  cases h with
  | requeued _ _ => exact ⟨.queued, rfl, fun _ => hsame _ rfl⟩
  | failed _ hnone =>
    refine ⟨.failed, rfl, fun hsome => ?_⟩
    rw [hnone] at hsome
    cases hsome
  | failedWithRun _ _ _ _ _ hnext =>
    refine ⟨.failed, rfl, fun _ => ?_⟩
    rw [terminalsOf_appendsNext hnext, hsame (runFailed _ (pressured j lease now .failed s)) rfl]
    rfl
  | refused _ _ _ _ hclosed => exact absurd hopen hclosed
  | @ended _ status state _ _ terminal _ _ _ houtcome hstream =>
    refine ⟨state, rfl, fun _ => ?_⟩
    have hterminal : terminalProgress state = some terminal := by
      cases status <;> cases houtcome <;> rfl
    rw [hterminal]
    rcases hstream with ⟨hstored, _⟩ | ⟨_, _, hnext⟩
    · rw [hnil] at hstored
      cases hstored
    · rw [terminalsOf_appendsNext hnext, hsame (settled j lease now _ state _ none s) rfl]
      rfl
  | unrepaired _ _ _ _ hclosed => exact absurd hopen (hclosed hnil)

/-- The repair after the transaction writes the streams only. -/
theorem requeueAfterStoragePressure_repairs (j : JobId) (lease : JobLease) (now : ℤ)
    (s : QueueStore) :
    let s₁ := ((requeueAfterStoragePressureTx j lease now).commit s).2
    let s' := (requeueAfterStoragePressure j lease now s).2
    s'.jobs = s₁.jobs ∧ s'.attempts = s₁.attempts ∧ s'.lifecycle = s₁.lifecycle := by
  unfold requeueAfterStoragePressure
  rcases htx : requeueAfterStoragePressureTx j lease now s with e | ⟨⟨reconciliation, state⟩, s₁⟩
  · rw [commit_of_error htx]
    exact ⟨rfl, rfl, rfl⟩
  · rw [commit_of_ok htx]
    cases reconciliation with
    | none => exact ⟨rfl, rfl, rfl⟩
    | some reconciliation =>
      dsimp only
      rcases hrepair : appendTerminalProgressIfMissing j reconciliation.progress now s₁ with
        e | ⟨_, s₂⟩
      · rw [commit_of_error hrepair]
        exact ⟨rfl, rfl, rfl⟩
      · rw [commit_of_ok hrepair]
        obtain ⟨_, rfl⟩ := appendTerminalProgressIfMissing_eq_ok hrepair
        exact ⟨rfl, rfl, rfl⟩

/-- The job is put back exactly while its run is open and its attempt can be resumed. -/
theorem PressureEnd.queued_iff {result : Except JobRepositoryError JobState}
    (h : PressureEnd s j job lease now result s') :
    result = .ok .queued ↔ RunOpen s job ∧ requeuesPressured s j lease job = true := by
  cases h with
  | requeued hopen hrequeues => exact iff_of_true rfl ⟨hopen, hrequeues⟩
  | failed hfails _ | failedWithRun hfails _ _ _ _ _ | refused hfails _ _ _ _ =>
    refine iff_of_false (fun h => by cases h) ?_
    rintro ⟨_, hrequeues⟩
    rw [hfails] at hrequeues
    cases hrequeues
  | @ended r status state _ _ _ _ hr hstatus houtcome _ =>
    refine iff_of_false (fun h => ?_) ?_
    · cases h
      cases status <;> cases houtcome
    · rintro ⟨hopen, _⟩
      rw [terminalOutcome_of_open (hopen r hr status hstatus)] at houtcome
      cases houtcome
  | @unrepaired r status _ _ _ _ hr hstatus houtcome _ _ =>
    refine iff_of_false (fun h => by cases h) ?_
    rintro ⟨hopen, _⟩
    rw [terminalOutcome_of_open (hopen r hr status hstatus)] at houtcome
    cases houtcome

/-! ## Reachable stores -/

/-- The rows of the job agree: the invariants of the queue hold of its lease and
its attempts, and its run matches its state. -/
structure Agreement (s : QueueStore) (j : JobId) : Prop where
  queue : QueueInvariants s
  run : RunMatches s.lifecycle j

/-- Storage pressure in a reachable store, for a job that runs under the presented
lease: the six ends, when the job goes back to the queue, and that the rows agree
after the transaction and after the repair of the stream. -/
theorem storagePressure_ends_agreeing (inputs : List ProgressInput)
    (hjob : (after progressStep .empty inputs).jobs.find? j = some job)
    (hrunning : job.state = .running) (hlease : job.lease = some lease)
    (hnow : now < lease.expiresAt) :
    let s := after progressStep .empty inputs
    let result := (requeueAfterStoragePressure j lease now s).1
    let s' := (requeueAfterStoragePressure j lease now s).2
    PressureEnd s j job lease now result s' ∧
      (result = .ok .queued ↔ RunOpen s job ∧ hasCheckpointForCurrentAttempt s j lease = true ∧
        job.currentAttempt < job.maxAttempts) ∧
      (∀ state, result = .ok state → s'.lifecycle.job j = some ⟨state, job.crawlRunId⟩) ∧
      Agreement ((requeueAfterStoragePressureTx j lease now).commit s).2 j ∧ Agreement s' j ∧
      (StreamOpen s j → ∃ state, result = .ok state ∧
        (job.crawlRunId.isSome → terminalsOf s' j = (terminalProgress state).toList)) := by
  intro s result s'
  have hs : ConsistentLeases s := after_consistentLeases inputs
  have howned := hs.owned hjob hrunning hlease
  have hend : PressureEnd s j job lease now result s' :=
    requeueAfterStoragePressure_ends hs (after_attached inputs) hjob hrunning hlease hnow
  have hattached : ∀ r ∈ job.crawlRunId, ∃ status, s.lifecycle.run r = some status := by
    intro r hr
    obtain ⟨run, hrun⟩ := Option.isSome_iff_exists.mp
      (after_attached inputs job (Table.mem_of_find? hjob) r hr)
    exact ⟨run.status, lifecycle_run hrun⟩
  have hleases : ConsistentLeases s' :=
    requeueAfterStoragePressure_kept ConsistentLeases.maintained hs
  have hagree : Agreement s' j :=
    ⟨hleases.queueInvariants, hend.runMatches hjob hrunning howned hattached⟩
  refine ⟨hend, ?_, ?_, ?_, hagree, hend.stream (after_wellNumbered inputs)⟩
  · rw [hend.queued_iff, requeuesPressured, Bool.and_eq_true, decide_eq_true_eq]
  · intro state hstate
    rw [hstate] at hend
    exact hend.reported hjob howned
  · obtain ⟨hjobs, hattempts, hlifecycle⟩ := requeueAfterStoragePressure_repairs j lease now s
    exact ⟨(hleases.of_same hjobs.symm hattempts.symm).queueInvariants, hlifecycle ▸ hagree.run⟩

/-- The lease of the sample. -/
def scrapeLease : JobLease := ⟨100, "a", 1, 20, 80, 20⟩

/-- A quick scrape that has written one checkpoint. -/
def checkpointedScrape : List ProgressInput :=
  [.queue (.operation (.createQuickScrapeRun 1 quickScrapeSnapshot (quickScrapeJob 10 2) 0)),
    .queue (.operation (.acquireNext "a" 20 60 true ⟨100, 200⟩)),
    .queue (.operation (.appendCheckpoint 10 200 scrapeLease ⟨2, 1, 1⟩ 30))]

/-- Its job, running under the lease of its first attempt. -/
def scrapeJob : JobRecord where
  id := 10
  kind := .quickScrape
  priority := 0
  state := .running
  parentJobId := none
  crawlRunId := some 1
  scheduledAt := 0
  currentAttempt := 1
  maxAttempts := 2
  leaseGeneration := 1
  leaseColumns := some ⟨100, "a", 20, 80, 20⟩
  failureCode := none
  createdAt := 0
  updatedAt := 20

/-- A job with a checkpoint goes back to the queue. -/
theorem storagePressure_requeues_checkpointed :
    let s := after progressStep .empty checkpointedScrape
    let result := requeueAfterStoragePressure 10 scrapeLease 40 s
    result.1 = .ok .queued ∧ Agreement result.2 10 ∧ terminalsOf result.2 10 = [] := by
  have hresult : (requeueAfterStoragePressure 10 scrapeLease 40
      (after progressStep .empty checkpointedScrape)).1 = .ok .queued := by decide +kernel
  have hjob : (after progressStep .empty checkpointedScrape).jobs.find? 10 = some scrapeJob := by
    decide +kernel
  have hlease : scrapeJob.lease = some scrapeLease := rfl
  have hnow : 40 < scrapeLease.expiresAt := by decide
  obtain ⟨_, _, _, _, hagree, hstream⟩ :=
    storagePressure_ends_agreeing checkpointedScrape hjob rfl hlease hnow
  obtain ⟨state, hstate, hterminals⟩ := hstream ⟨by decide +kernel, by decide +kernel⟩
  rw [hresult] at hstate
  cases hstate
  exact ⟨hresult, hagree, hterminals rfl⟩

/-- When the run of that scrape has succeeded before the pressure is met, the job
succeeds although its attempt has a checkpoint and another attempt remains. -/
theorem succeeded_run_not_requeued :
    ¬ ∀ (inputs : List ProgressInput) (j : JobId) (job : JobRecord) (lease : JobLease) (now : ℤ),
      (after progressStep .empty inputs).jobs.find? j = some job → job.state = .running →
      job.lease = some lease → now < lease.expiresAt →
      ((requeueAfterStoragePressure j lease now (after progressStep .empty inputs)).1 =
          .ok .queued ↔
        hasCheckpointForCurrentAttempt (after progressStep .empty inputs) j lease = true ∧
          job.currentAttempt < job.maxAttempts) := by
  intro h
  let inputs := checkpointedScrape ++ [.queue (.operation (.finalizeRun 1 .succeeded))]
  have hresult : (requeueAfterStoragePressure 10 scrapeLease 40
      (after progressStep .empty inputs)).1 = .ok .succeeded := by decide +kernel
  have hresumable : hasCheckpointForCurrentAttempt (after progressStep .empty inputs) 10
      scrapeLease = true := by decide +kernel
  have hjob : (after progressStep .empty inputs).jobs.find? 10 = some scrapeJob := by
    decide +kernel
  have hqueued := (h inputs 10 scrapeJob scrapeLease 40 hjob rfl rfl
    (by decide)).mpr ⟨hresumable, by decide⟩
  rw [hresult] at hqueued
  cases hqueued

end Erabi.Progress

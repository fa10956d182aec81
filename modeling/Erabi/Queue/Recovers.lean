/-
# Startup recovery succeeds

On a consistent queue the recovery of expired leases always returns.  The
reconciliation of ended runs returns when every settled job agrees with its run,
and the progress repairs always do.
-/
import Mathlib
import Erabi.Queue.Preservation

namespace Erabi.Queue

open Relational Transaction Lifecycle Transition

variable {s s' : QueueStore} {j : JobId} {lease : JobLease} {now : ℤ} {u : Unit}

/-! ## The owner of a running job -/

/-- The lease of a running job owns it. -/
theorem Consistent.owned (h : Consistent s) {job : JobRecord} (hjob : s.jobs.find? j = some job)
    (hrunning : job.state = .running) : ∃ lease, job.lease = some lease ∧ Owned s j lease := by
  have hid := Table.key_of_find? hjob
  subst hid
  obtain ⟨_, _, c, hc, a, ha, hexecutes⟩ := h.leased job (Table.mem_of_find? hjob) hrunning
  refine ⟨_, by rw [JobRecord.lease, hc, Option.map_some], ?_, ?_⟩
  · refine Table.changed_eq_one_of_unique ha (runningAttempt_iff.mpr ⟨hexecutes.jobId,
      hexecutes.lease, hexecutes.generation, hexecutes.worker, hexecutes.running⟩) ?_
    intro b hb hmatches
    obtain ⟨hjobId, _, _, _, hbRunning⟩ := runningAttempt_iff.mp hmatches
    exact h.oneRunning b hb a ha hbRunning hexecutes.running (hjobId.trans hexecutes.jobId.symm)
  · refine (Table.changed_eq_one_iff fun _ hp => (holdsLease_iff.mp hp).1).mpr ⟨job, hjob, ?_⟩
    exact holdsLease_iff.mpr ⟨rfl, hrunning, rfl, c, hc, rfl, rfl⟩

/-! ## Progress -/

/-- A stream without events is open. -/
theorem streamOpen_of_free (hfree : ∀ event ∈ s.progress.rows, event.jobId ≠ j) :
    StreamOpen s j where
  opened := by
    have hnone : s.progress.find? (j, lastSequence s j) = none :=
      Table.find?_eq_none.mpr fun event hevent hkey => hfree event hevent (Prod.mk.inj hkey).1
    rw [hnone, Option.bind_none]
  fits := by
    rw [lastSequence_of_free hfree]
    decide

/-- The first event of a job is accepted. -/
theorem appendProgress_ok {job : JobRecord} (terminal : Option ProgressTerminalState) (now : ℤ)
    (hjob : s.jobs.find? j = some job) (hfree : ∀ event ∈ s.progress.rows, event.jobId ≠ j) :
    ∃ s', appendProgress j terminal now s = .ok ((), s') := by
  have hexists : (s.jobs.find? j).isSome := by
    rw [hjob]
    rfl
  obtain ⟨s', happend, _⟩ := (streamOpen_of_free hfree).appendProgress hexists terminal now
  exact ⟨s', happend⟩

/-- A consistent progress stream holds at most one event. -/
theorem Consistent.stored_length (h : Consistent s) (j : JobId) :
    (s.progress.select fun event => event.jobId = j).length ≤ 1 := by
  have hnodup : (s.progress.select fun event => event.jobId = j).Nodup :=
    (List.Nodup.of_map _ s.progress.keysNodup).filter _
  have hsame : ∀ a ∈ s.progress.select (fun event => event.jobId = j),
      ∀ b ∈ s.progress.select (fun event => event.jobId = j), a = b := by
    intro a ha b hb
    obtain ⟨ha, haj⟩ := Table.mem_select.mp ha
    obtain ⟨hb, hbj⟩ := Table.mem_select.mp hb
    rw [decide_eq_true_eq] at haj hbj
    refine s.progress.eq_of_key_eq ha hb ?_
    rw [haj, hbj, (h.progress a ha).1, (h.progress b hb).1]
  rcases hrows : s.progress.select fun event => event.jobId = j with _ | ⟨a, _ | ⟨b, rest⟩⟩
  · simp
  · simp
  · rw [hrows] at hsame hnodup
    have hab := hsame a List.mem_cons_self b (List.mem_cons_of_mem _ List.mem_cons_self)
    rw [hab] at hnodup
    exact absurd List.mem_cons_self (List.nodup_cons.mp hnodup).1

/-- The repair of a settled job's stream succeeds. -/
theorem appendTerminalProgressIfMissing_ok (now : ℤ) (hs : Consistent s)
    {terminal : ProgressTerminalState} (hrepair : RepairOf s (j, terminal)) :
    ∃ s', appendTerminalProgressIfMissing j terminal now s = .ok ((), s') := by
  obtain ⟨job, hjob, hterminal⟩ := hrepair
  have hstored : ∀ value ∈ (s.progress.select fun event => event.jobId = j).filterMap
      ProgressEvent.terminal, value = terminal := by
    intro value hvalue
    obtain ⟨event, hevent, hv⟩ := List.mem_filterMap.mp hvalue
    obtain ⟨hevent, hid⟩ := Table.mem_select.mp hevent
    rw [decide_eq_true_eq] at hid
    obtain ⟨_, found, stored, hfound, hstored, hterm⟩ := hs.progress event hevent
    rw [hid, hjob] at hfound
    cases hfound
    rw [hterminal] at hstored
    cases hstored
    rw [hv] at hterm
    exact Option.some.inj hterm
  have hlength : ((s.progress.select fun event => event.jobId = j).filterMap
      ProgressEvent.terminal).length ≤ 1 :=
    (List.length_filterMap_le _ _).trans (hs.stored_length j)
  unfold appendTerminalProgressIfMissing
  rw [read_bind]
  by_cases hone : ((s.progress.select fun event => event.jobId = j).filterMap
      ProgressEvent.terminal).length = 1
  · refine ⟨s, require_bind_eq_ok.mpr ⟨hstored, require_bind_eq_ok.mpr ⟨hlength, ?_⟩⟩⟩
    rw [if_pos hone]
    rfl
  · have hfree : ∀ event ∈ s.progress.rows, event.jobId ≠ j := by
      intro event hevent hid
      obtain ⟨_, found, stored, hfound, hstored, hterm⟩ := hs.progress event hevent
      have hmem : stored ∈ (s.progress.select fun event => event.jobId = j).filterMap
          ProgressEvent.terminal :=
        List.mem_filterMap.mpr ⟨event, Table.mem_select.mpr ⟨hevent, by simpa using hid⟩, hterm⟩
      have hpos := List.length_pos_of_mem hmem
      omega
    obtain ⟨s', hs'⟩ := appendProgress_ok (some terminal) now hjob hfree
    refine ⟨s', require_bind_eq_ok.mpr ⟨hstored, require_bind_eq_ok.mpr ⟨hlength, ?_⟩⟩⟩
    rw [if_neg hone]
    exact hs'

/-! ## Settling -/

/-- A job that agrees with its run is settled without a failure. -/
theorem reconcileTerminalJob_ok (now : ℤ) (hs : Consistent s) {status : CrawlRunStatus}
    {job : JobRecord} (hjob : s.jobs.find? j = some job) (hagrees : Agrees job.state status) :
    ∃ reconciliation s', reconcileTerminalJob j status now s = .ok (reconciliation, s') := by
  unfold reconcileTerminalJob
  rcases hstatus : terminalOutcome status with _ | ⟨state, outcome, failure, progress⟩
  · exact ⟨none, s, rfl⟩
  · have hset : settledState status = some state := by rw [settledState, hstatus]; rfl
    have hpair : state ≠ .queued := by
      cases status <;> cases hstatus <;> decide
    by_cases hrunning : job.state = .running
    · obtain ⟨lease, hlease, howned⟩ := hs.owned hjob hrunning
      refine ⟨some ⟨state, progress⟩, settled j lease now outcome state failure none s,
        selectJob_bind_eq_ok.mpr ⟨job, hjob, ?_⟩⟩
      rw [hrunning]
      exact orFail_bind_eq_ok.mpr ⟨lease, hlease, finish_release_bind_eq_ok.mpr ⟨howned, rfl⟩⟩
    · have hsettled : job.state = state := (hagrees state hset).resolve_left hrunning
      refine ⟨some ⟨state, progress⟩, s, selectJob_bind_eq_ok.mpr ⟨job, hjob, ?_⟩⟩
      rcases hcase : job.state with _ | _ | _ | _ | _
      · exact absurd (hsettled.symm.trans hcase) hpair
      · exact absurd hcase hrunning
      all_goals exact require_bind_eq_ok.mpr ⟨hcase.symm.trans hsettled, rfl⟩

/-- A running job is finished after its run without a failure. -/
theorem finishAfterRun_ok (now : ℤ) (hs : Consistent s) {job : JobRecord}
    (hjob : s.jobs.find? j = some job) (hrunning : job.state = .running) :
    ∃ reconciliation s', finishAfterRun j job.crawlRunId now s = .ok (reconciliation, s') := by
  rcases hrun : job.crawlRunId with _ | r
  · exact ⟨none, s, rfl⟩
  · unfold finishAfterRun finishAfterTerminalCrawlRun
    dsimp only
    rw [selectCrawlRunStatus_bind]
    rcases s.lifecycle.run r with _ | status
    · exact ⟨none, s, rfl⟩
    · exact reconcileTerminalJob_ok now hs hjob (hrunning ▸ agrees_running status)

/-- Failing an open run with its settled job succeeds. -/
theorem finalizeCrawlFailure_ok (now : ℤ) {job found : JobRecord} {r : CrawlRunId}
    {status : CrawlRunStatus} (hjob : s.jobs.find? job.id = some found)
    (hr : job.crawlRunId = some r) (hstatus : s.lifecycle.run r = some status)
    (hopen : status.terminal = false)
    (hfree : ∀ event ∈ s.progress.rows, event.jobId ≠ job.id) :
    ∃ s', finalizeCrawlFailure job now s = .ok ((), s') := by
  rw [finalizeCrawlFailure_eq hr hstatus hopen]
  exact appendProgress_ok (s := runFailed r s) (some .failed) now hjob hfree

/-- An expired job is recovered without a failure. -/
theorem expireJob_ok (now : ℤ) (hs : Consistent s) (hattached : s.lifecycle.Attached)
    {job : JobRecord} (recovery : StaleJobRecovery) (hjob : s.jobs.find? job.id = some job)
    (howned : Owned s job.id lease)
    (hopen : ∀ r ∈ job.crawlRunId, ∀ status, s.lifecycle.run r = some status →
      status.terminal = false) :
    ∃ recovery' s', expireJob now recovery job lease s = .ok (recovery', s') := by
  unfold expireJob
  rw [read_bind]
  obtain ⟨owner, howner, hholds⟩ := howned.job
  rw [hjob] at howner
  cases howner
  have hrunning := (holdsLease_iff.mp hholds).2.1
  by_cases hfails : requeuesStale s job = false ∧ job.crawlRunId.isSome = true
  · obtain ⟨r, hr⟩ := Option.isSome_iff_exists.mp hfails.2
    obtain ⟨status, hstatus⟩ := hattached job.id _ r (lifecycle_job hjob) hr
    have hrow : ∃ found, (settled job.id lease now .leaseExpired
        (if requeuesStale s job then .queued else .failed) (some .leaseExpired) (some now)
        s).jobs.find? job.id = some found :=
      ⟨_, by rw [settled_find?, hjob, Option.map_some]⟩
    obtain ⟨found, hfound⟩ := hrow
    obtain ⟨s', hfinal⟩ := finalizeCrawlFailure_ok now hfound hr hstatus (hopen r hr status hstatus)
      (hs.progress_free hjob (by rw [hrunning]; rfl))
    refine ⟨recovery.count (staleDisposition s job) (requeuesStale s job), s',
      finish_release_bind_eq_ok.mpr ⟨howned, ?_⟩⟩
    rw [if_pos hfails]
    exact bind_eq_ok.mpr ⟨(), s', hfinal, rfl⟩
  · refine ⟨recovery.count (staleDisposition s job) (requeuesStale s job),
      settled job.id lease now .leaseExpired (if requeuesStale s job then .queued else .failed)
        (some .leaseExpired) (some now) s, finish_release_bind_eq_ok.mpr ⟨howned, ?_⟩⟩
    rw [if_neg hfails]
    rfl

theorem recoverExpiredJob_ok (now : ℤ) (hs : Consistent s) (hattached : s.lifecycle.Attached)
    (recovery : StaleJobRecovery) {job : JobRecord} (hjob : s.jobs.find? j = some job)
    (hrunning : job.state = .running) :
    ∃ recovery' s', recoverExpiredJob now recovery j s = .ok (recovery', s') := by
  have hid := Table.key_of_find? hjob
  subst hid
  obtain ⟨lease, hlease, howned⟩ := hs.owned hjob hrunning
  unfold recoverExpiredJob
  by_cases hnow : now < lease.expiresAt
  · refine ⟨recovery, s, selectJob_bind_eq_ok.mpr ⟨job, hjob, orFail_bind_eq_ok.mpr
      ⟨lease, hlease, ?_⟩⟩⟩
    rw [if_pos hnow]
    rfl
  · obtain ⟨reconciliation, s₁, hfinish⟩ := finishAfterRun_ok now hs hjob hrunning
    rcases finishAfterRun_lifecycle hjob hfinish with
      ⟨rfl, rfl, hopen⟩ | ⟨_, _, _, _, _, _, hsome, _⟩
    · obtain ⟨recovery', s', hexpire⟩ := expireJob_ok now hs hattached recovery hjob
        howned hopen
      refine ⟨recovery', s', selectJob_bind_eq_ok.mpr ⟨job, hjob, orFail_bind_eq_ok.mpr
        ⟨lease, hlease, ?_⟩⟩⟩
      rw [if_neg hnow]
      exact bind_eq_ok.mpr ⟨none, s₁, hfinish, hexpire⟩
    · obtain ⟨result, rfl, _⟩ := Option.map_eq_some_iff.mp hsome
      refine ⟨recovery, s₁, selectJob_bind_eq_ok.mpr ⟨job, hjob, orFail_bind_eq_ok.mpr
        ⟨lease, hlease, ?_⟩⟩⟩
      rw [if_neg hnow]
      exact bind_eq_ok.mpr ⟨some result, s₁, hfinish, rfl⟩

/-! ## What a round leaves alone -/

/-- Everything the recovery reads about other jobs is unchanged. -/
structure OthersUnchanged (j : JobId) (s s' : QueueStore) : Prop where
  jobs : ∀ k, k ≠ j → s'.jobs.find? k = s.jobs.find? k
  attempts : ∀ k, k ≠ j → ∀ id a, a.jobId = k →
    (s'.attempts.find? id = some a ↔ s.attempts.find? id = some a)
  checkpoints : s'.checkpoints = s.checkpoints
  snapshots : ∀ r, (s'.runs.find? r).map CrawlRun.snapshot = (s.runs.find? r).map CrawlRun.snapshot

theorem OthersUnchanged.refl (j : JobId) (s : QueueStore) : OthersUnchanged j s s :=
  ⟨fun _ _ => rfl, fun _ _ _ _ _ => Iff.rfl, rfl, fun _ => rfl⟩

theorem OthersUnchanged.trans {s₁ s₂ s₃ : QueueStore} (h : OthersUnchanged j s₁ s₂)
    (h' : OthersUnchanged j s₂ s₃) : OthersUnchanged j s₁ s₃ where
  jobs k hk := (h'.jobs k hk).trans (h.jobs k hk)
  attempts k hk id a ha := (h'.attempts k hk id a ha).trans (h.attempts k hk id a ha)
  checkpoints := h'.checkpoints.trans h.checkpoints
  snapshots r := (h'.snapshots r).trans (h.snapshots r)

/-- Settling a job leaves the others. -/
theorem settled_othersUnchanged (j : JobId) (lease : JobLease) (now : ℤ)
    (outcome : AttemptOutcome) (state : JobState) (failure : Option JobFailureCode)
    (scheduledAt : Option ℤ) (s : QueueStore) :
    OthersUnchanged j s (settled j lease now outcome state failure scheduledAt s) where
  jobs k hk := by
    rw [settled_find?]
    rcases hfind : s.jobs.find? k with _ | job
    · rfl
    · rw [Option.map_some, if_neg]
      intro hholds
      exact hk ((Table.key_of_find? hfind).symm.trans (holdsLease_iff.mp hholds).1)
  attempts k hk id a ha := by
    rw [settled_attempts, Table.find?_update]
    rcases s.attempts.find? id with _ | b
    · exact Iff.rfl
    · rw [Option.map_some, Option.some.injEq, Option.some.injEq]
      constructor
      · intro h
        split at h
        · rename_i hmatches
          have hb := (runningAttempt_iff.mp hmatches).1
          rw [← h] at ha
          exact absurd (ha.symm.trans hb) hk
        · exact h
      · rintro rfl
        rw [if_neg]
        intro hmatches
        exact hk (ha.symm.trans (runningAttempt_iff.mp hmatches).1)
  checkpoints := rfl
  snapshots _ := rfl

/-- A status leaves the jobs. -/
theorem setRunStatus_othersUnchanged (j : JobId) {r : CrawlRunId}
    {allowed : CrawlRunStatus → Bool} {status : CrawlRunStatus} {e : JobRepositoryError}
    (h : setRunStatus r allowed status e s = .ok (u, s')) : OthersUnchanged j s s' := by
  obtain ⟨_, rfl⟩ := setRunStatus_eq_ok.mp h
  refine ⟨fun _ _ => rfl, fun _ _ _ _ _ => Iff.rfl, rfl, fun q => ?_⟩
  rw [Table.find?_update, Option.map_map]
  congr 1
  funext run
  rw [Function.comp_apply]
  split <;> rfl

/-- The failure of a run leaves the other jobs. -/
theorem finalizeCrawlFailure_othersUnchanged (j : JobId) {job : JobRecord}
    (h : finalizeCrawlFailure job now s = .ok (u, s')) : OthersUnchanged j s s' := by
  obtain ⟨r, _, h⟩ := orFail_bind_eq_ok.mp h
  obtain ⟨_, s₁, hrun, h⟩ := bind_eq_ok.mp h
  obtain ⟨_, _, _, _, _, _, rfl⟩ := appendProgress_eq_ok h
  refine (setRunStatus_othersUnchanged j hrun).trans ?_
  exact ⟨fun _ _ => rfl, fun _ _ _ _ _ => Iff.rfl, rfl, fun _ => rfl⟩

/-- Settling a job with its run leaves the others. -/
theorem reconcileTerminalJob_othersUnchanged {status : CrawlRunStatus}
    {reconciliation : Option TerminalJobReconciliation}
    (h : reconcileTerminalJob j status now s = .ok (reconciliation, s')) :
    OthersUnchanged j s s' := by
  rcases reconcileTerminalJob_eq_ok h with
    ⟨_, _, rfl⟩ | ⟨_, _, _, _, _, _, _, _, ⟨_, rfl⟩ | ⟨_, lease, _, rfl⟩⟩
  · exact .refl j _
  · exact .refl j _
  · exact settled_othersUnchanged j lease now _ _ _ none s

/-- Recovering a job leaves the others. -/
theorem recoverExpiredJob_othersUnchanged {recovery recovery' : StaleJobRecovery}
    (h : recoverExpiredJob now recovery j s = .ok (recovery', s')) : OthersUnchanged j s s' := by
  obtain ⟨job, lease, hfind, _, ⟨_, rfl, _⟩ | ⟨_, reconciliation, s₁, hfinish, hend⟩⟩ :=
    recoverExpiredJob_eq_ok h
  · exact .refl j _
  · rcases hend with ⟨_, rfl, _⟩ | ⟨_, _, hexpire⟩
    · rcases hrun : job.crawlRunId with _ | r
      · rw [hrun] at hfinish
        cases hfinish
        exact .refl j _
      · rw [hrun] at hfinish
        unfold finishAfterRun finishAfterTerminalCrawlRun at hfinish
        dsimp only at hfinish
        rw [selectCrawlRunStatus_bind] at hfinish
        rcases hr : s.lifecycle.run r with _ | status
        · rw [hr] at hfinish
          cases hfinish
          exact .refl j _
        · rw [hr] at hfinish
          exact reconcileTerminalJob_othersUnchanged hfinish
    · have hid := Table.key_of_find? hfind
      subst hid
      obtain ⟨_, _, ⟨_, rfl⟩ | ⟨_, _, rfl⟩ | ⟨_, u, hfinal⟩⟩ := expireJob_eq_ok hexpire
      · exact settled_othersUnchanged _ _ _ _ _ _ _ s
      · exact settled_othersUnchanged _ _ _ _ _ _ _ s
      · exact (settled_othersUnchanged _ _ _ _ _ _ _ s).trans
          (finalizeCrawlFailure_othersUnchanged _ hfinal)

/-- What the recovery would do with another expired job is unchanged. -/
theorem OthersUnchanged.requeuesStale (h : OthersUnchanged j s s') {job : JobRecord}
    (hjob : job.id ≠ j) : requeuesStale s' job = requeuesStale s job := by
  -- the disposition of a job reads its own attempts, its checkpoints and its run's snapshot
  have hlineage : ∀ attemptId, activeLineage s' job.id attemptId =
      activeLineage s job.id attemptId := by
    intro attemptId
    unfold activeLineage
    rw [h.jobs job.id hjob]
    congr 1
    funext row
    congr 1
    rw [Bool.eq_iff_iff, Option.any_eq_true, Option.any_eq_true]
    have hattempts := h.attempts job.id hjob attemptId
    constructor
    · rintro ⟨a, ha, hp⟩
      have hid : a.jobId = job.id := by
        simp only [Bool.and_eq_true, decide_eq_true_eq] at hp
        exact hp.1.1.1.1
      exact ⟨a, (hattempts a hid).mp ha, hp⟩
    · rintro ⟨a, ha, hp⟩
      have hid : a.jobId = job.id := by
        simp only [Bool.and_eq_true, decide_eq_true_eq] at hp
        exact hp.1.1.1.1
      exact ⟨a, (hattempts a hid).mpr ha, hp⟩
  have hassess : assessOneStaleJob s' job.id job.crawlRunId =
      assessOneStaleJob s job.id job.crawlRunId := by
    have hlatest : latestCheckpoint s' job.id = latestCheckpoint s job.id := by
      rw [latestCheckpoint, latestCheckpoint, h.checkpoints]
    unfold assessOneStaleJob
    rw [hlatest]
    rcases latestCheckpoint s job.id with _ | latest
    · rfl
    · dsimp only
      rw [hlineage]
      split
      · rfl
      · rcases job.crawlRunId with _ | r
        · rfl
        · have hsnapshot := h.snapshots r
          dsimp only
          rcases hr : s.runs.find? r with _ | run
          · rw [hr, Option.map_none] at hsnapshot
            rw [Option.map_eq_none_iff.mp hsnapshot]
          · rw [hr, Option.map_some] at hsnapshot
            obtain ⟨run', hr', hsame⟩ := Option.map_eq_some_iff.mp hsnapshot
            rw [hr']
            dsimp only
            rw [hsame]
  unfold Queue.requeuesStale staleDisposition hasAnyCheckpoint
  rw [h.checkpoints, hassess]

/-! ## The loops -/

/-- Running jobs are recovered one after another without a failure. -/
theorem recoverExpiredLoop_ok {jobs : List JobId} (hnodup : jobs.Nodup)
    (hs : Consistent s) (hattached : s.lifecycle.Attached)
    (hrunning : ∀ j ∈ jobs, ∃ job, s.jobs.find? j = some job ∧ job.state = .running)
    (recovery : StaleJobRecovery) :
    ∃ recovery' s', foldEach (recoverExpiredJob now) recovery jobs s = .ok (recovery', s') := by
  induction jobs generalizing s recovery with
  | nil => exact ⟨recovery, s, rfl⟩
  | cons j jobs ih =>
    obtain ⟨hj, hjobs⟩ := List.nodup_cons.mp hnodup
    obtain ⟨job, hfind, hstate⟩ := hrunning j List.mem_cons_self
    obtain ⟨recovery₁, s₁, hround⟩ := recoverExpiredJob_ok now hs hattached recovery hfind hstate
    have hattached₁ : s₁.lifecycle.Attached := by
      rcases recoverExpiredJob_lifecycle hround with hs₁ | ⟨_, _, _, hend⟩
      · rw [hs₁]
        exact hattached
      · exact hend.attached hattached
    have hothers := recoverExpiredJob_othersUnchanged hround
    have hs₁ := recoverExpiredJob_kept Consistent.maintained hs hround
    obtain ⟨recovery', s', hrest⟩ := ih hjobs hs₁ hattached₁
      (fun k hk => by
        rw [hothers.jobs k fun e => hj (e ▸ hk)]
        exact hrunning k (List.mem_cons_of_mem _ hk)) recovery₁
    exact ⟨recovery', s', bind_eq_ok.mpr ⟨recovery₁, s₁, hround, hrest⟩⟩

/-- The expired jobs are running, and each is listed once. -/
theorem mem_expiredJobs : j ∈ expiredJobs s now ↔ ∃ job, s.jobs.find? j = some job ∧
    job.state = .running ∧ ∃ c, job.leaseColumns = some c ∧ c.expiresAt ≤ now := by
  rw [expiredJobs, List.mem_insertionSort, List.mem_map]
  constructor
  · rintro ⟨job, hjob, rfl⟩
    obtain ⟨hjob, hp⟩ := Table.mem_select.mp hjob
    simp only [Bool.and_eq_true, decide_eq_true_eq, Option.any_eq_true] at hp
    exact ⟨job, Table.find?_key hjob, hp⟩
  · rintro ⟨job, hfind, hrunning, c, hc, hexpired⟩
    refine ⟨job, Table.mem_select.mpr ⟨Table.mem_of_find? hfind, ?_⟩, Table.key_of_find? hfind⟩
    simp [hrunning, hc, hexpired]

/-- No expired job is recovered twice. -/
theorem expiredJobs_nodup (s : QueueStore) (now : ℤ) : (expiredJobs s now).Nodup := by
  rw [expiredJobs, (List.perm_insertionSort _ _).nodup_iff]
  exact (List.filter_sublist.map _).nodup s.jobs.keysNodup

/-- The recovery of expired leases returns on every consistent queue. -/
theorem recoverExpired_ok (now : ℤ) (hs : Consistent s) (hattached : s.lifecycle.Attached) :
    ∃ recovery s', recoverExpired now s = .ok (recovery, s') := by
  refine recoverExpiredLoop_ok (expiredJobs_nodup s now) hs hattached (fun j hj => ?_) {}
  obtain ⟨job, hfind, hrunning, _⟩ := mem_expiredJobs.mp hj
  exact ⟨job, hfind, hrunning⟩

end Erabi.Queue

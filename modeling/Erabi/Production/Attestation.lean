/-
# Checkpoints follow their attempts

The checkpoints of a production job are appended by the attempts that have entered
their crawl stage, for the run of the job.  So the newest checkpoint of a job that was
put back is the one of the interrupted attempt, until the next attempt enters.
-/
import Mathlib
import Erabi.Queue.Fencing
import Erabi.Queue.Lineage

namespace Erabi.Production

open Relational Transaction Transition Queue

/-! ## Production jobs -/

/-- `is_production_job_kind` -/
def isProductionJobKind (kind : JobKind) : Bool :=
  kind = .productionCrawl || kind = .retry || kind = .retryFailedParts ||
    kind = .resumeCheckpoint || kind = .rerunFullCrawl

/-- The kinds that continue the run of their source job. -/
def isContinuationKind (kind : JobKind) : Bool :=
  kind = .retry || kind = .retryFailedParts || kind = .resumeCheckpoint

/-- The identity a checkpoint of this run carries. -/
def checkpointIdentity (run : CrawlRun) : CheckpointIdentity :=
  ⟨run.id, run.snapshot.snapshotHash, run.snapshot.checkpointCompatibilityHash⟩

/-- The job of a production run, with its run. -/
def productionRunOf (store : QueueStore) (job : JobRecord) : Option CrawlRun :=
  if isProductionJobKind job.kind then
    (job.crawlRunId.bind store.runs.find?).filter fun run =>
      run.snapshot.configuration = .crawlerVersion
  else none

/-- The run of a production job. -/
def productionRun (store : QueueStore) (jobId : JobId) : Option CrawlRun :=
  (store.jobs.find? jobId).bind (productionRunOf store)

/-- The attempt a running job is executed by. -/
def runningAttemptOf (store : QueueStore) (jobId : JobId) : Option JobAttempt :=
  store.attempts.rows.find? fun attempt => attempt.jobId = jobId && attempt.outcome = .running

/-- The newest checkpoint of the attempt before the current one, when that attempt
ended because its lease expired or storage ran short. -/
def interruptedCheckpoint (store : QueueStore) (jobId : JobId) : Option CheckpointRecord := do
  let job ← store.jobs.find? jobId
  let attempt ← store.attempts.rows.find? fun attempt =>
    attempt.jobId = jobId && attempt.attemptNumber + 1 = job.currentAttempt &&
      (attempt.failureCode = some .leaseExpired || attempt.failureCode = some .storagePressure)
  (store.checkpoints.filter fun c => c.attemptId = attempt.id).getLast?

/-! ## What the statements of the queue keep -/

section Statements

variable {new : JobRecord → Prop} {s s' : QueueStore} {j : JobId}

/-- The production run of a job. -/
theorem productionRunOf_eq_some {store : QueueStore} {job : JobRecord} {run : CrawlRun} :
    productionRunOf store job = some run ↔ isProductionJobKind job.kind = true ∧
      ∃ r, job.crawlRunId = some r ∧ store.runs.find? r = some run ∧
        run.snapshot.configuration = .crawlerVersion := by
  unfold productionRunOf
  split
  · rename_i hkind
    simp only [Option.filter_eq_some_iff, Option.bind_eq_some_iff, decide_eq_true_eq, hkind,
      true_and]
    constructor
    · rintro ⟨⟨r, hr, hfind⟩, hconfiguration⟩
      exact ⟨r, hr, hfind, hconfiguration⟩
    · rintro ⟨r, hr, hfind, hconfiguration⟩
      exact ⟨⟨r, hr, hfind⟩, hconfiguration⟩
  · rename_i hkind
    simp [hkind]

/-- A job with attempts stays, with its kind and its run. -/
theorem statement_job (h : Statement new s s') {job : JobRecord}
    (hjob : s.jobs.find? j = some job) (hattempt : ∃ a ∈ s.attempts.rows, a.jobId = j) :
    ∃ job', s'.jobs.find? j = some job' ∧ job'.kind = job.kind ∧
      job'.crawlRunId = job.crawlRunId := by
  cases h with
  | @updateJobs p f hid hkept =>
    refine ⟨if p job then f job else job, ?_, ?_⟩
    · show (s.jobs.update p f hid).find? j = _
      rw [Table.find?_update, hjob]
      rfl
    · split
      · rename_i hp
        have hcontinues := hkept job (Table.mem_of_find? hjob) hp
        exact ⟨hcontinues.kind, hcontinues.run⟩
      · exact ⟨rfl, rfl⟩
  | insertJob _ _ _ hinsert =>
    refine ⟨job, ?_, rfl, rfl⟩
    show Table.find? _ j = _
    rw [Table.find?_insert hinsert, if_neg, hjob]
    rintro rfl
    rw [(Table.insert?_eq_some.mp hinsert).1] at hjob
    cases hjob
  | @deleteJob k hnone _ _ _ =>
    obtain ⟨a, ha, rfl⟩ := hattempt
    refine ⟨job, ?_, rfl, rfl⟩
    show (s.jobs.delete fun job => job.id = k).find? a.jobId = _
    rw [Table.find?_delete, hjob, Option.filter_some_pos]
    have hid := Table.key_of_find? hjob
    simpa [hid] using hnone a ha
  | _ => exact ⟨job, hjob, rfl, rfl⟩

/-- The run of a production job with attempts has been its run before, with the same
snapshot. -/
theorem statement_productionRun (h : Statement new s s')
    (hattached : ∀ job ∈ s.jobs.rows, ∀ r ∈ job.crawlRunId, (s.runs.find? r).isSome)
    (hcovered : (s.jobs.find? j).isSome) (hattempt : ∃ a ∈ s.attempts.rows, a.jobId = j)
    {run' : CrawlRun} (hrun' : productionRun s' j = some run') :
    ∃ run, productionRun s j = some run ∧ run.id = run'.id ∧ run.snapshot = run'.snapshot := by
  obtain ⟨job', hjob', hof'⟩ := Option.bind_eq_some_iff.mp hrun'
  obtain ⟨job, hjob⟩ := Option.isSome_iff_exists.mp hcovered
  obtain ⟨job'', hjob'', hkind, hrunId⟩ := statement_job h hjob hattempt
  rw [hjob'] at hjob''
  cases hjob''
  obtain ⟨hproduction, r, hr, hfind', hconfiguration⟩ := productionRunOf_eq_some.mp hof'
  rw [hkind] at hproduction
  rw [hrunId] at hr
  obtain ⟨run, hfind⟩ := Option.isSome_iff_exists.mp
    (hattached job (Table.mem_of_find? hjob) r hr)
  obtain ⟨run'', hfind'', hsnapshot⟩ := statement_run h hfind
  rw [hfind'] at hfind''
  cases hfind''
  rw [hsnapshot] at hconfiguration
  refine ⟨run, Option.bind_eq_some_iff.mpr ⟨job, hjob,
    productionRunOf_eq_some.mpr ⟨hproduction, r, hr, hfind, hconfiguration⟩⟩, ?_, hsnapshot.symm⟩
  rw [Table.key_of_find? hfind, Table.key_of_find? hfind']

/-- The identity of a checkpoint is that of its run's snapshot. -/
theorem checkpointIdentity_congr {run run' : CrawlRun} (hid : run.id = run'.id)
    (hsnapshot : run.snapshot = run'.snapshot) :
    checkpointIdentity run = checkpointIdentity run' := by
  rw [checkpointIdentity, checkpointIdentity, hid, hsnapshot]

end Statements

/-! ## Checkpoints follow their attempts -/

/-- Checkpoints belong to attempts of their job and grow with the attempts in
number; those of production jobs come from attempts that have entered their stage. -/
structure Attested (entered : AttemptId → Prop) (s : QueueStore) : Prop where
  rooted : Rooted s
  attached : ∀ job ∈ s.jobs.rows, ∀ r ∈ job.crawlRunId, (s.runs.find? r).isSome
  covered : ∀ c ∈ s.checkpoints, (s.jobs.find? c.jobId).isSome
  owned : ∀ c ∈ s.checkpoints, ∃ a ∈ s.attempts.rows, a.id = c.attemptId ∧ a.jobId = c.jobId
  numbered : ∀ a ∈ s.attempts.rows, ∀ b ∈ s.attempts.rows, a.jobId = b.jobId →
    a.attemptNumber = b.attemptNumber → a = b
  ordered : s.checkpoints.Pairwise fun c c' => c.jobId = c'.jobId → c.sequence < c'.sequence ∧
    ∀ a ∈ s.attempts.rows, ∀ a' ∈ s.attempts.rows, a.id = c.attemptId → a'.id = c'.attemptId →
      a.attemptNumber ≤ a'.attemptNumber
  disciplined : ∀ c ∈ s.checkpoints, ∀ run, productionRun s c.jobId = some run →
    entered c.attemptId ∧ c.identity = checkpointIdentity run

section Attested

variable {new : JobRecord → Prop} {entered : AttemptId → Prop} {s s' : QueueStore}

theorem Attested.empty : Attested entered .empty where
  rooted := .empty
  attached := fun _ h => by cases h
  covered := fun _ h => by cases h
  owned := fun _ h => by cases h
  numbered := fun _ h => by cases h
  ordered := .nil
  disciplined := fun _ h => by cases h

/-- More attempts may have entered. -/
theorem Attested.mono {entered' : AttemptId → Prop} (h : Attested entered s)
    (hmono : ∀ attemptId, entered attemptId → entered' attemptId) : Attested entered' s :=
  { h with disciplined := fun c hc run hrun =>
      ⟨hmono _ (h.disciplined c hc run hrun).1, (h.disciplined c hc run hrun).2⟩ }

/-- Every statement keeps the relations. -/
theorem Attested.statement (h : Attested entered s) (hs : Statement new s s') :
    Attested entered s' := by
  have hcheckpoints := statement_checkpoints hs
  have hattempt : ∀ c ∈ s.checkpoints, ∃ a ∈ s.attempts.rows, a.jobId = c.jobId := by
    intro c hc
    obtain ⟨a, ha, _, hjob⟩ := h.owned c hc
    exact ⟨a, ha, hjob⟩
  refine ⟨h.rooted.statement hs, statement_attached hs h.attached, ?_, ?_,
    statement_numbered hs h.numbered, ?_, ?_⟩
  · intro c hc
    rw [hcheckpoints] at hc
    obtain ⟨job, hjob⟩ := Option.isSome_iff_exists.mp (h.covered c hc)
    obtain ⟨job', hjob', _⟩ := statement_job hs hjob (hattempt c hc)
    rw [hjob']
    rfl
  · intro c hc
    rw [hcheckpoints] at hc
    obtain ⟨a, ha, hid, hjob⟩ := h.owned c hc
    obtain ⟨a', ha', hid', hjob', _⟩ := statement_attempt hs ha
    exact ⟨a', ha', hid'.trans hid, hjob'.trans hjob⟩
  · rw [hcheckpoints]
    have hnumber : ∀ c ∈ s.checkpoints, ∀ a' ∈ s'.attempts.rows, a'.id = c.attemptId →
        ∃ a ∈ s.attempts.rows, a.id = c.attemptId ∧ a'.attemptNumber = a.attemptNumber := by
      intro c hc a' ha' hid
      rcases statement_attempt_back hs ha' with ⟨a, ha, hida, _, hnumber⟩ | hfresh
      · exact ⟨a, ha, hida.symm.trans hid, hnumber⟩
      · obtain ⟨a, ha, hida, _⟩ := h.owned c hc
        exact absurd (hida.trans hid.symm) (hfresh a ha).1
    refine h.ordered.imp_of_mem fun {c c'} hc hc' hrel hjob => ?_
    obtain ⟨hsequence, hnumbers⟩ := hrel hjob
    refine ⟨hsequence, fun a' ha' b' hb' hida hidb => ?_⟩
    obtain ⟨a, ha, hidc, hna⟩ := hnumber c hc a' ha' hida
    obtain ⟨b, hb, hidc', hnb⟩ := hnumber c' hc' b' hb' hidb
    rw [hna, hnb]
    exact hnumbers a ha b hb hidc hidc'
  · intro c hc run' hrun'
    rw [hcheckpoints] at hc
    obtain ⟨run, hrun, hid, hsnapshot⟩ := statement_productionRun hs h.attached
      (h.covered c hc) (hattempt c hc) hrun'
    obtain ⟨hentered, hidentity⟩ := h.disciplined c hc run hrun
    exact ⟨hentered, hidentity.trans (checkpointIdentity_congr hid hsnapshot)⟩

/-- Statements of the queue keep checkpoints attested. -/
theorem Attested.statements (h : Attested entered s) (hs : Statements new s s') :
    Attested entered s' := by
  induction hs with
  | refl => exact h
  | tail _ hstatement ih => exact ih.statement hstatement

/-- A running attempt is the current one of its job. -/
theorem current_of_running (hs : Consistent s) {a : JobAttempt} (ha : a ∈ s.attempts.rows)
    (hrunning : a.outcome = .running) :
    ∃ job, s.jobs.find? a.jobId = some job ∧ a.attemptNumber = job.currentAttempt := by
  obtain ⟨job, hjob, hstate, _⟩ := hs.owner a ha
  obtain ⟨_, _, c, _, b, hb, hexecutes⟩ :=
    hs.leased job (Table.mem_of_find? hjob) (hstate hrunning)
  have hsame : b = a := hs.oneRunning b hb a ha hexecutes.running hrunning
    (hexecutes.jobId.trans (Table.key_of_find? hjob))
  rw [← hsame]
  exact ⟨job, hsame ▸ hjob, hexecutes.number⟩

/-- An appended checkpoint comes from the current attempt, the last of its job. -/
theorem Attested.append (h : Attested entered s) (hs : Consistent s) {j : JobId}
    {attemptId : AttemptId} {lease : JobLease} {identity : CheckpointIdentity} {createdAt : ℤ}
    {record : CheckpointRecord}
    (happend : appendCheckpoint j attemptId lease identity createdAt s = .ok (record, s'))
    (hmay : ∀ run, productionRun s j = some run →
      entered attemptId ∧ identity = checkpointIdentity run) : Attested entered s' := by
  obtain ⟨hjob, hattempt, hidentity, hlast, ⟨b, hfind, hruns⟩, rfl⟩ := appendCheckpoint_eq_ok happend
  have hb := Table.mem_of_find? hfind
  have hbid : b.id = attemptId := Table.key_of_find? hfind
  obtain ⟨hbj, _, _, _, hrunning⟩ := runningAttempt_iff.mp hruns
  -- the attempt that appends is the job's current one, so no later attempt has a checkpoint
  obtain ⟨job, hfindJob, hnumber⟩ := current_of_running hs hb hrunning
  have hmem : ∀ {c}, c ∈ s.checkpoints ++ [record] ↔ c ∈ s.checkpoints ∨ c = record := by
    simp
  refine ⟨⟨h.rooted.present, h.rooted.other, h.rooted.earlier⟩, h.attached, ?_, ?_, h.numbered,
    ?_, ?_⟩
  · intro c hc
    rcases hmem.mp hc with hc | rfl
    · exact h.covered c hc
    · rw [hjob, ← hbj, hfindJob]
      rfl
  · intro c hc
    rcases hmem.mp hc with hc | rfl
    · exact h.owned c hc
    · exact ⟨b, hb, hbid.trans hattempt.symm, hbj.trans hjob.symm⟩
  -- an earlier checkpoint of the job is of an attempt with no greater number
  · refine List.pairwise_append.mpr ⟨h.ordered, List.pairwise_singleton _ _, ?_⟩
    intro c hc c' hc' hsame
    rw [List.mem_singleton.mp hc'] at hsame ⊢
    refine ⟨hlast c hc (hsame.trans hjob), fun a ha a' ha' hida hida' => ?_⟩
    obtain ⟨a₀, ha₀, hid₀, hjob₀⟩ := h.owned c hc
    have hac : a = a₀ := s.attempts.eq_of_key_eq ha ha₀ (hida.trans hid₀.symm)
    have hab : a' = b := s.attempts.eq_of_key_eq ha' hb
      (hida'.trans (hattempt.trans hbid.symm))
    obtain ⟨job', hfind', _, hle⟩ := hs.owner a ha
    have hjobs : a.jobId = b.jobId := by
      rw [hac, hjob₀, hsame, hjob, hbj]
    rw [hjobs, hfindJob] at hfind'
    cases hfind'
    rw [hab, hnumber]
    exact hle
  · intro c hc run hrun
    rcases hmem.mp hc with hc | rfl
    · exact h.disciplined c hc run hrun
    · rw [hjob] at hrun
      rw [hattempt, hidentity]
      exact hmay run hrun

/-! ## The checkpoint of an interrupted attempt -/

/-- The running attempt of a job is one of its attempts. -/
theorem runningAttemptOf_eq_some {store : QueueStore} {j : JobId} {attempt : JobAttempt}
    (h : runningAttemptOf store j = some attempt) :
    attempt ∈ store.attempts.rows ∧ attempt.jobId = j ∧ attempt.outcome = .running := by
  have hmem := List.mem_of_find?_eq_some h
  have hp := List.find?_some h
  simp only [Bool.and_eq_true, decide_eq_true_eq] at hp
  exact ⟨hmem, hp⟩

end Attested

end Erabi.Production

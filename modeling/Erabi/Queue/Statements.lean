/-
# The statements of the queue

Every operation is a sequence of statements on single tables.  What none of them
changes holds of the whole queue: attempts are never lost or opened again, jobs
keep their kind, their parent and their run, settled jobs stay settled, runs keep
their snapshot, and progress and checkpoints are only appended.
-/
import Mathlib
import Erabi.Queue.System

namespace Erabi.Queue

open Relational Transaction

/-! ## Statements -/

/-- The job and the lease an attempt was created for. -/
def JobAttempt.ownership (attempt : JobAttempt) : JobId × LeaseId × ℕ × String :=
  (attempt.jobId, attempt.leaseId, attempt.leaseGeneration, attempt.workerId)

/-- What a statement makes of a job row.  Its identity, its kind and where it
belongs stay; a settled job stays as it is settled; an attempt begins only when a
queued job with attempts left is leased. -/
structure Continues (job job' : JobRecord) : Prop where
  kind : job'.kind = job.kind
  parent : job'.parentJobId = job.parentJobId
  run : job'.crawlRunId = job.crawlRunId
  maxAttempts : job'.maxAttempts = job.maxAttempts
  attempts : (job'.currentAttempt = job.currentAttempt ∧
      (job.state.active = false → job'.state = job.state)) ∨
    (job.state = .queued ∧ job'.state = .running ∧
      job'.currentAttempt = job.currentAttempt + 1 ∧ job.currentAttempt < job.maxAttempts)

/-- The event comes next in the stream of its job, and the stream is open. -/
structure ComesNext (s : QueueStore) (event : ProgressEvent) : Prop where
  job : (s.jobs.find? event.jobId).isSome
  sequence : event.sequence = lastSequence s event.jobId + 1
  fits : (event.sequence : ℤ) ≤ i64Max
  opened : (s.progress.find? (event.jobId, lastSequence s event.jobId)).bind
    ProgressEvent.terminal = none

/-- One statement on the rows of the queue, other than the checkpoint append.
Inserted jobs are among `new`. -/
inductive Statement (new : JobRecord → Prop) (s : QueueStore) : QueueStore → Prop
  | updateJobs {p : JobRecord → Bool} {f : JobRecord → JobRecord} (hid : ∀ job, (f job).id = job.id)
      (hkept : ∀ job ∈ s.jobs.rows, p job = true → Continues job (f job)) :
      Statement new s { s with jobs := s.jobs.update p f hid }
  | insertJob {job : JobRecord} {jobs : Table JobRecord JobId JobRecord.id} : new job →
      (∀ parent ∈ job.parentJobId, (s.jobs.find? parent).isSome) →
      (∀ r ∈ job.crawlRunId, (s.runs.find? r).isSome) →
      s.jobs.insert? job = some jobs → Statement new s { s with jobs }
  | deleteJob {j : JobId} : (∀ a ∈ s.attempts.rows, a.jobId ≠ j) →
      (∀ c ∈ s.checkpoints, c.jobId ≠ j) → (∀ event ∈ s.progress.rows, event.jobId ≠ j) →
      (∀ child ∈ s.jobs.rows, child.parentJobId ≠ some j) →
      Statement new s { s with jobs := s.jobs.delete fun job => job.id = j }
  | closeAttempts {p : JobAttempt → Bool} {f : JobAttempt → JobAttempt}
      (hid : ∀ a, (f a).id = a.id)
      (hkept : ∀ a, (f a).ownership = a.ownership ∧ (f a).attemptNumber = a.attemptNumber)
      (hclosed : ∀ a, (f a).outcome ≠ .running) :
      Statement new s { s with attempts := s.attempts.update p f hid }
  | openAttempt {attempt : JobAttempt} {attempts : Table JobAttempt AttemptId JobAttempt.id} :
      0 < attempt.attemptNumber → (∀ other ∈ s.attempts.rows, (other.jobId ≠ attempt.jobId ∨
        other.attemptNumber ≠ attempt.attemptNumber) ∧ other.leaseId ≠ attempt.leaseId) →
      s.attempts.insert? attempt = some attempts → Statement new s { s with attempts }
  | updateRuns {p : CrawlRun → Bool} {f : CrawlRun → CrawlRun} (hid : ∀ run, (f run).id = run.id)
      (hkept : ∀ run, (f run).snapshot = run.snapshot) :
      Statement new s { s with runs := s.runs.update p f hid }
  | insertRun {run : CrawlRun} {runs : Table CrawlRun CrawlRunId CrawlRun.id} :
      s.runs.insert? run = some runs → Statement new s { s with runs }
  | insertProgress {event : ProgressEvent} {progress : Table ProgressEvent (JobId × ℕ)
      fun event => (event.jobId, event.sequence)} : ComesNext s event →
      s.progress.insert? event = some progress → Statement new s { s with progress }

/-- A sequence of statements. -/
abbrev Statements (new : JobRecord → Prop) : QueueStore → QueueStore → Prop :=
  Relation.ReflTransGen (Statement new)

variable {new : JobRecord → Prop} {s s' : QueueStore} {j : JobId} {lease : JobLease} {now : ℤ}

/-! ## What every statement keeps -/

/-- No statement of the job table touches checkpoints. -/
theorem statement_checkpoints (h : Statement new s s') : s'.checkpoints = s.checkpoints := by
  cases h <;> rfl

/-- Attempts keep their identity, their job and their number. -/
theorem statement_attempt (h : Statement new s s') {a : JobAttempt} (ha : a ∈ s.attempts.rows) :
    ∃ a' ∈ s'.attempts.rows, a'.id = a.id ∧ a'.jobId = a.jobId ∧
      a'.attemptNumber = a.attemptNumber := by
  cases h with
  | @closeAttempts p f hid hkept _ =>
    refine ⟨if p a then f a else a, List.mem_map.mpr ⟨a, ha, rfl⟩, ?_⟩
    split
    · exact ⟨hid a, congrArg Prod.fst (hkept a).1, (hkept a).2⟩
    · exact ⟨rfl, rfl, rfl⟩
  | openAttempt _ _ hinsert => exact ⟨a, (Table.mem_insert hinsert).mpr (Or.inl ha), rfl, rfl, rfl⟩
  | _ => exact ⟨a, ha, rfl, rfl, rfl⟩

/-- An attempt was there before, or neither its identity nor its number was. -/
theorem statement_attempt_back (h : Statement new s s') {a' : JobAttempt}
    (ha' : a' ∈ s'.attempts.rows) :
    (∃ a ∈ s.attempts.rows, a'.id = a.id ∧ a'.jobId = a.jobId ∧
      a'.attemptNumber = a.attemptNumber) ∨
    ∀ a ∈ s.attempts.rows, a.id ≠ a'.id ∧
      (a.jobId ≠ a'.jobId ∨ a.attemptNumber ≠ a'.attemptNumber) := by
  cases h with
  | @closeAttempts p f hid hkept _ =>
    obtain ⟨a, ha, rfl⟩ := List.mem_map.mp ha'
    refine Or.inl ⟨a, ha, ?_⟩
    split
    · exact ⟨hid a, congrArg Prod.fst (hkept a).1, (hkept a).2⟩
    · exact ⟨rfl, rfl, rfl⟩
  | openAttempt _ hunique hinsert =>
    rcases (Table.mem_insert hinsert).mp ha' with ha | rfl
    · exact Or.inl ⟨a', ha, rfl, rfl, rfl⟩
    · have hfresh := Table.find?_eq_none.mp (Table.insert?_eq_some.mp hinsert).1
      exact Or.inr fun a ha => ⟨hfresh a ha, (hunique a ha).1⟩
  | _ => exact Or.inl ⟨a', ha', rfl, rfl, rfl⟩

/-- Runs keep their snapshot. -/
theorem statement_run (h : Statement new s s') {r : CrawlRunId} {run : CrawlRun}
    (hrun : s.runs.find? r = some run) :
    ∃ run', s'.runs.find? r = some run' ∧ run'.snapshot = run.snapshot := by
  cases h with
  | @updateRuns p f hid hkept =>
    refine ⟨if p run then f run else run, ?_, ?_⟩
    · show (s.runs.update p f hid).find? r = _
      rw [Table.find?_update, hrun]
      rfl
    · split
      · exact hkept run
      · rfl
  | insertRun hinsert =>
    refine ⟨run, ?_, rfl⟩
    show Table.find? _ r = _
    rw [Table.find?_insert hinsert, if_neg, hrun]
    rintro rfl
    rw [(Table.insert?_eq_some.mp hinsert).1] at hrun
    cases hrun
  | _ => exact ⟨run, hrun, rfl⟩

/-- Every attached job keeps an existing run. -/
theorem statement_attached (h : Statement new s s')
    (hs : ∀ job ∈ s.jobs.rows, ∀ r ∈ job.crawlRunId, (s.runs.find? r).isSome) :
    ∀ job ∈ s'.jobs.rows, ∀ r ∈ job.crawlRunId, (s'.runs.find? r).isSome := by
  intro job' hjob' r hr
  have hold : ∀ job ∈ s.jobs.rows, r ∈ job.crawlRunId → (s'.runs.find? r).isSome := by
    intro job hjob hr
    obtain ⟨run, hrun⟩ := Option.isSome_iff_exists.mp (hs job hjob r hr)
    obtain ⟨run', hrun', _⟩ := statement_run h hrun
    rw [hrun']
    rfl
  cases h with
  | @updateJobs p f hid hkept =>
    obtain ⟨job, hjob, rfl⟩ := List.mem_map.mp hjob'
    refine hold job hjob ?_
    split at hr
    · rename_i hp
      rwa [(hkept job hjob hp).run] at hr
    · exact hr
  | insertJob _ _ hrun hinsert =>
    rcases (Table.mem_insert hinsert).mp hjob' with hjob | rfl
    · exact hold job' hjob hr
    · exact hrun r hr
  | deleteJob => exact hold job' (Table.mem_delete.mp hjob').1 hr
  | _ => exact hold job' hjob' hr

/-- The number of an attempt is its own among the attempts of its job. -/
theorem statement_numbered (h : Statement new s s')
    (hs : ∀ a ∈ s.attempts.rows, ∀ b ∈ s.attempts.rows, a.jobId = b.jobId →
      a.attemptNumber = b.attemptNumber → a = b) :
    ∀ a ∈ s'.attempts.rows, ∀ b ∈ s'.attempts.rows, a.jobId = b.jobId →
      a.attemptNumber = b.attemptNumber → a = b := by
  intro a' ha' b' hb' hjob hnumber
  cases h with
  | @closeAttempts p f hid hkept _ =>
    obtain ⟨a, ha, rfl⟩ := List.mem_map.mp ha'
    obtain ⟨b, hb, rfl⟩ := List.mem_map.mp hb'
    have hsame : ∀ a, (if p a then f a else a).jobId = a.jobId ∧
        (if p a then f a else a).attemptNumber = a.attemptNumber := by
      intro a
      split
      · exact ⟨congrArg Prod.fst (hkept a).1, (hkept a).2⟩
      · exact ⟨rfl, rfl⟩
    rw [(hsame a).1, (hsame b).1] at hjob
    rw [(hsame a).2, (hsame b).2] at hnumber
    rw [hs a ha b hb hjob hnumber]
  | openAttempt _ hunique hinsert =>
    rcases (Table.mem_insert hinsert).mp ha' with ha | rfl
    · rcases (Table.mem_insert hinsert).mp hb' with hb | rfl
      · exact hs a' ha b' hb hjob hnumber
      · exact absurd hnumber ((hunique a' ha).1.resolve_left fun e => e hjob)
    · rcases (Table.mem_insert hinsert).mp hb' with hb | rfl
      · exact absurd hnumber.symm ((hunique b' hb).1.resolve_left fun e => e hjob.symm)
      · rfl
  | _ => exact hs a' ha' b' hb' hjob hnumber

/-! ## Reading and the single statements -/

/-- Reading a job changes nothing. -/
theorem selectJob_performs : Performs (Statement new) (selectJob j) :=
  .bind .read fun _ => .orFail _ _

/-- Reading the status of a run changes nothing. -/
theorem selectCrawlRunStatus_performs {r : CrawlRunId} :
    Performs (Statement new) (selectCrawlRunStatus r) := .bind .read fun _ => .pure _

/-- Checking a lease changes nothing. -/
theorem selectOwnedRunningJob_performs : Performs (Statement new) (selectOwnedRunningJob j lease now) :=
  .bind selectJob_performs fun _ => .bind (.require _ _) fun _ => .bind (.require _ _) fun _ =>
    .pure _

theorem insertRun_performs {r : CrawlRunId} {status : CrawlRunStatus}
    {snapshot : CrawlRunSnapshot} : Performs (Statement new) (insertRun r status snapshot) := by
  refine .of_statement fun s _ s' h => ?_
  obtain ⟨runs, hinsert, rfl⟩ := insertRun_eq_ok.mp h
  exact .insertRun hinsert

theorem insertJob_performs {job : JobRecord} (hnew : new job) :
    Performs (Statement new) (insertJob job) := by
  refine .of_statement fun s _ s' h => ?_
  obtain ⟨hparent, hrun, _, jobs, hinsert, rfl⟩ := insertJob_eq_ok.mp h
  exact .insertJob hnew hparent hrun hinsert

theorem setRunStatus_performs {r : CrawlRunId} {allowed : CrawlRunStatus → Bool}
    {status : CrawlRunStatus} {e : JobRepositoryError} :
    Performs (Statement new) (setRunStatus r allowed status e) :=
  .bind .read fun _ => .bind (.require _ _) fun _ =>
    .write fun _ => .updateRuns _ (by simp)

theorem finishAttempt_performs {outcome : AttemptOutcome} {failure : Option JobFailureCode}
    (houtcome : outcome ≠ .running) :
    Performs (Statement new) (finishAttempt j lease now outcome failure) :=
  .bind .read fun _ => .bind (.require _ _) fun _ =>
    .write fun _ => .closeAttempts _ (by simp [JobAttempt.ownership]) (by simp [houtcome])

theorem releaseJob_performs {state : JobState} {failure : Option JobFailureCode}
    {scheduledAt : Option ℤ} :
    Performs (Statement new) (releaseJob j lease now state failure scheduledAt) := by
  refine .bind .read fun _ => .bind (.require _ _) fun _ =>
    .write fun _ => .updateJobs _ fun job _ hholds => ?_
  refine ⟨rfl, rfl, rfl, rfl, Or.inl ⟨rfl, fun hsettled => ?_⟩⟩
  rw [(holdsLease_iff.mp hholds).2.1] at hsettled
  cases hsettled

theorem appendProgress_performs {terminal : Option ProgressTerminalState} :
    Performs (Statement new) (appendProgress j terminal now) := by
  refine .of_statement fun s _ s' h => ?_
  obtain ⟨hjob, hopened, next, progress, hnext, hinsert, rfl⟩ := appendProgress_eq_ok h
  have hsum := checkedAddI64_eq_some hnext
  have hfits := checkedAddI64_le hnext
  refine .insertProgress ⟨hjob, ?_, ?_, hopened⟩ hinsert
  · show next.toNat = lastSequence s j + 1
    omega
  · show (next.toNat : ℤ) ≤ i64Max
    omega

theorem insertAttempt_performs {attempt : JobAttempt} (hnumber : 0 < attempt.attemptNumber) :
    Performs (Statement new) (insertAttempt attempt) := by
  refine .of_statement fun s _ s' h => ?_
  obtain ⟨hunique, attempts, hinsert, rfl⟩ := insertAttempt_eq_ok h
  refine .openAttempt hnumber (fun other hother => ?_) hinsert
  simpa using List.all_eq_true.mp hunique other hother

theorem repair_performs (j : JobId) (terminal : ProgressTerminalState) (now : ℤ) :
    Performs (Statement new) (appendTerminalProgressIfMissing j terminal now) := by
  refine .bind .read fun _ => .bind (.require _ _) fun _ => .bind (.require _ _) fun _ => ?_
  split
  · exact .pure _
  · exact appendProgress_performs

/-! ## Creation, leases and maintenance -/

theorem createRunWithRootJob_performs {r : CrawlRunId} {snapshot : CrawlRunSnapshot}
    {job : NewJob}
    (hnew : new { job.record now with parentJobId := none, crawlRunId := some r }) :
    Performs (Statement new) (createRunWithRootJob r snapshot job now) :=
  .bind insertRun_performs fun _ => insertJob_performs hnew

theorem heartbeat_performs {duration : ℤ} :
    Performs (Statement new) (heartbeat j lease now duration) := by
  refine .bind (.require _ _) fun _ => .bind (.orFail _ _) fun _ => .bind .read fun store => ?_
  dsimp only
  split
  · exact .bind (.require _ _) fun _ => .bind
      (.write fun _ => .updateJobs _ fun _ _ _ =>
        ⟨rfl, rfl, rfl, rfl, Or.inl ⟨rfl, fun _ => rfl⟩⟩) fun _ => .pure _
  · split
    · exact .fail _
    · split <;> exact .fail _

theorem cancelRelatedRun_performs {run : Option CrawlRunId} :
    Performs (Statement new) (cancelRelatedRun run) := by
  cases run with
  | none => exact .pure _
  | some r => exact .write fun _ => .updateRuns _ (by simp)

theorem cancelQueued_performs : Performs (Statement new) (cancelQueued j now) := by
  refine .bind selectJob_performs fun job => ?_
  split
  · exact .pure _
  · refine .bind (.write fun _ => .updateJobs _ fun job _ hqueued => ?_) fun _ =>
      .bind cancelRelatedRun_performs fun _ => .pure _
    refine ⟨rfl, rfl, rfl, rfl, Or.inl ⟨rfl, fun hsettled => ?_⟩⟩
    rw [Bool.and_eq_true, decide_eq_true_eq, decide_eq_true_eq] at hqueued
    rw [hqueued.2] at hsettled
    cases hsettled

theorem reprioritize_performs {priority scheduledAt : ℤ} :
    Performs (Statement new) (reprioritize j priority scheduledAt now) :=
  .bind selectJob_performs fun _ => .bind (.require _ _) fun _ =>
    .bind (.write fun _ => .updateJobs _ fun _ _ _ =>
      ⟨rfl, rfl, rfl, rfl, Or.inl ⟨rfl, fun _ => rfl⟩⟩) fun _ => selectJob_performs

/-- A removed job has neither attempts, checkpoints, progress nor children. -/
theorem removeIfSafe_performs : Performs (Statement new) (removeIfSafe j) := by
  refine .bind selectJob_performs fun _ => .bind (.require _ _) fun _ => ?_
  refine .of_statement fun s _ s' h => ?_
  rw [read_bind] at h
  obtain ⟨⟨hattempts, hcheckpoints, hprogress, hchildren⟩, h⟩ := require_bind_eq_ok.mp h
  cases h
  refine .deleteJob (fun a ha hid => ?_) (fun c hc hid => ?_) (fun event hevent hid => ?_)
    fun child hchild hid => ?_
  · have hmem : a ∈ s.attempts.select fun attempt => attempt.jobId = j :=
      Table.mem_select.mpr ⟨ha, decide_eq_true hid⟩
    rw [hattempts] at hmem
    cases hmem
  · have hmem : c ∈ s.checkpoints.filter fun checkpoint => checkpoint.jobId = j :=
      List.mem_filter.mpr ⟨hc, decide_eq_true hid⟩
    rw [hcheckpoints] at hmem
    cases hmem
  · have hmem : event ∈ s.progress.select fun event => event.jobId = j :=
      Table.mem_select.mpr ⟨hevent, decide_eq_true hid⟩
    rw [hprogress] at hmem
    cases hmem
  · have hmem : child ∈ s.jobs.select fun child => child.parentJobId = some j :=
      Table.mem_select.mpr ⟨hchild, decide_eq_true hid⟩
    rw [hchildren] at hmem
    cases hmem

theorem actionChildCrawlRunId_performs {source : JobRecord} {association : ActionRunAssociation} :
    Performs (Statement new) (actionChildCrawlRunId source association) := by
  cases association with
  | none => exact .pure _
  | sameSourceRun =>
    exact .bind (.orFail _ _) fun _ => .bind setRunStatus_performs fun _ => .pure _
  | newIndependentRun r snapshot => exact .bind insertRun_performs fun _ => .pure _

theorem enqueueActionChild_performs {childId : JobId} {kind : JobKind}
    {association : ActionRunAssociation} {maxAttempts : Option ℕ}
    (hnew : ∀ child : JobRecord, child.kind = kind → child.parentJobId = some j → new child) :
    Performs (Statement new) (enqueueActionChild j childId kind now association maxAttempts) :=
  .bind selectJob_performs fun _ =>
    .bind (.bind .read fun _ => .bind (.require _ _) fun _ => .bind (.require _ _) fun _ =>
      .require _ _) fun _ =>
    .bind actionChildCrawlRunId_performs fun _ =>
      .bind (insertJob_performs (hnew _ rfl rfl)) fun _ => selectJob_performs

theorem finalizeRun_performs {r : CrawlRunId} {status : CrawlRunStatus} :
    Performs (Statement new) (finalizeRun r status) := by
  unfold finalizeRun
  split
  · exact setRunStatus_performs
  · exact setRunStatus_performs

theorem leaseQueuedJob_performs {worker : String} {duration : ℤ} {allow : Bool} {ids : LeaseIds} :
    Performs (Statement new) (leaseQueuedJob j worker now duration allow ids) := by
  intro s a s' h
  unfold leaseQueuedJob at h
  obtain ⟨job, hjob, h⟩ := selectJob_bind_eq_ok.mp h
  obtain ⟨⟨_, _, hbudget⟩, h⟩ := require_bind_eq_ok.mp h
  obtain ⟨_, h⟩ := require_bind_eq_ok.mp h
  obtain ⟨expiresAt, _, h⟩ := orFail_bind_eq_ok.mp h
  dsimp only at h
  rw [write_bind] at h
  -- the leased row is the selected one
  refine .head (.updateJobs _ fun other hother hqueued => ?_)
    (Performs.bind (insertAttempt_performs (Nat.succ_pos _))
      (fun _ => .bind selectJob_performs fun _ => .pure _) _ _ _ h)
  rw [Bool.and_eq_true, decide_eq_true_eq, decide_eq_true_eq] at hqueued
  have hsame := Table.find?_key hother
  rw [hqueued.1, hjob] at hsame
  cases hsame
  exact ⟨rfl, rfl, rfl, rfl, Or.inr ⟨hqueued.2, rfl, rfl, hbudget⟩⟩

/-! ## Settling jobs -/

/-- The two statements that end an execution. -/
theorem finish_release_performs {α : Type} {f : Unit → QueueTx α} {outcome : AttemptOutcome}
    {state : JobState} {failure : Option JobFailureCode} {scheduledAt : Option ℤ}
    (houtcome : outcome ≠ .running) (hf : Performs (Statement new) (f ())) :
    Performs (Statement new) (finishAttempt j lease now outcome failure >>= fun _ =>
      releaseJob j lease now state failure scheduledAt >>= f) :=
  .bind (finishAttempt_performs houtcome) fun _ => .bind releaseJob_performs fun _ => hf

theorem finalizeCrawlFailure_performs {job : JobRecord} :
    Performs (Statement new) (finalizeCrawlFailure job now) :=
  .bind (.orFail _ _) fun _ => .bind setRunStatus_performs fun _ => appendProgress_performs

theorem succeed_performs : Performs (Statement new) (succeed j lease now) :=
  .bind selectOwnedRunningJob_performs fun _ =>
    .bind (finishAttempt_performs (by decide)) fun _ => releaseJob_performs

theorem failWithDisposition_performs {failure : JobFailureCode} {retryAt : ℤ} {terminal : Bool} :
    Performs (Statement new) (failWithDisposition j lease now failure retryAt terminal) :=
  .bind selectOwnedRunningJob_performs fun _ => finish_release_performs (by decide) (.pure _)

theorem failTerminal_performs {failure : JobFailureCode} :
    Performs (Statement new) (failTerminal j lease now failure) :=
  .bind failWithDisposition_performs fun _ => .require _ _

theorem failTerminalProduction_performs {failure : JobFailureCode} :
    Performs (Statement new) (failTerminalProduction j lease now failure) := by
  refine .bind selectOwnedRunningJob_performs fun job => .bind .read fun store => ?_
  dsimp only
  split
  · exact .bind (.orFail _ _) fun _ => .bind (.orFail _ _) fun _ => .bind (.require _ _) fun _ =>
      finish_release_performs (by decide) finalizeCrawlFailure_performs
  · exact finish_release_performs (by decide) finalizeCrawlFailure_performs

theorem cancel_performs : Performs (Statement new) (cancel j lease now) := by
  refine .bind selectOwnedRunningJob_performs fun job => ?_
  dsimp only
  split
  case' h_1 => refine .bind (.pure _) fun status => ?_
  case' h_2 => refine .bind selectCrawlRunStatus_performs fun status => ?_
  -- the status of the run decides how the execution ends
  all_goals
    split
    · exact .bind (finishAttempt_performs (by decide)) fun _ => releaseJob_performs
    · exact .bind (finishAttempt_performs (by decide)) fun _ => releaseJob_performs
    · exact .bind (finishAttempt_performs (by decide)) fun _ => releaseJob_performs
    · exact finish_release_performs (by decide) cancelRelatedRun_performs

theorem reconcileTerminalJob_performs {status : CrawlRunStatus} :
    Performs (Statement new) (reconcileTerminalJob j status now) := by
  unfold reconcileTerminalJob
  cases status
  case queued => exact .pure _
  case running => exact .pure _
  all_goals
    refine .bind selectJob_performs fun job => ?_
    dsimp only
    cases job.state
    case running =>
      exact .bind (.orFail _ _) fun _ => finish_release_performs (by decide) (.pure _)
    case queued => exact .bind (.fail _) fun _ => .pure _
    all_goals exact .bind (.require _ _) fun _ => .pure _

theorem finishAfterRun_performs {run : Option CrawlRunId} :
    Performs (Statement new) (finishAfterRun j run now) := by
  cases run with
  | none => exact .pure _
  | some r =>
    refine .bind selectCrawlRunStatus_performs fun status => ?_
    cases status with
    | none => exact .pure _
    | some status => exact reconcileTerminalJob_performs

theorem reconcileTerminalCrawlRun_performs (j : JobId) (lease : JobLease) (r : CrawlRunId)
    (now : ℤ) : Performs (Statement new) (reconcileTerminalCrawlRun j lease r now) :=
  .bind selectCrawlRunStatus_performs fun _ => .bind (.orFail _ _) fun _ =>
    .bind selectJob_performs fun _ => .bind (.require _ _) fun _ => .bind (.require _ _) fun _ =>
    .bind reconcileTerminalJob_performs fun _ => .orFail _ _

/-! ## Recovery and acquisition -/

theorem expireJob_performs {recovery : StaleJobRecovery} {job : JobRecord} :
    Performs (Statement new) (expireJob now recovery job lease) := by
  refine .bind .read fun store => ?_
  refine .bind (finishAttempt_performs (by decide)) fun _ => .bind releaseJob_performs fun _ => ?_
  split
  · exact .bind finalizeCrawlFailure_performs fun _ => .pure _
  · exact .pure _

theorem recoverExpired_performs : Performs (Statement new) (recoverExpired now) := by
  refine .bind .read fun store => .foldEach (fun recovery k => ?_) _ _
  refine .bind selectJob_performs fun job => .bind (.orFail _ _) fun lease => ?_
  split
  · exact .pure _
  · refine .bind finishAfterRun_performs fun reconciliation => ?_
    cases reconciliation with
    | none => exact expireJob_performs
    | some reconciliation => exact .pure _

/-- The check of the invariants changes nothing. -/
theorem ensureQueueInvariants_performs : Performs (Statement new) ensureQueueInvariants :=
  .of_reads fun _ _ _ h => ensureQueueInvariants_eq_ok h

theorem acquireNext_performs {worker : String} {duration : ℤ} {allow : Bool} {ids : LeaseIds} :
    Performs (Statement new) (acquireNext worker now duration allow ids) := by
  refine .bind (.require _ _) fun _ => .bind ensureQueueInvariants_performs fun _ =>
    .bind recoverExpired_performs fun _ => .bind .read fun store => ?_
  split
  · exact .pure _
  · exact .bind leaseQueuedJob_performs fun _ => .pure _

theorem requeueAfterStoragePressureTx_performs (j : JobId) (lease : JobLease) (now : ℤ) :
    Performs (Statement new) (requeueAfterStoragePressureTx j lease now) := by
  refine .bind selectOwnedRunningJob_performs fun job =>
    .bind finishAfterRun_performs fun reconciliation => ?_
  cases reconciliation with
  | some reconciliation => exact .pure _
  | none =>
    refine .bind .read fun store => ?_
    dsimp only
    generalize (if hasCheckpointForCurrentAttempt store j lease = true ∧
      job.currentAttempt < job.maxAttempts then JobState.queued else JobState.failed) = next
    refine .bind (finishAttempt_performs (by decide)) fun _ => .bind releaseJob_performs fun _ => ?_
    split
    · exact .bind finalizeCrawlFailure_performs fun _ => .pure _
    · exact .pure _

theorem requeueAfterStoragePressure_performs (j : JobId) (lease : JobLease) (now : ℤ)
    (s : QueueStore) : Statements new s (requeueAfterStoragePressure j lease now s).2 := by
  have htransaction : Statements new s _ :=
    (requeueAfterStoragePressureTx_performs j lease now).commit s
  unfold requeueAfterStoragePressure
  rcases htx : (requeueAfterStoragePressureTx j lease now).commit s with
    ⟨e | ⟨_ | reconciliation, state⟩, s₁⟩ <;> rw [htx] at htransaction
  · exact htransaction
  · exact htransaction
  · have hrepair : Statements new s₁ _ := (repair_performs j reconciliation.progress now).commit s₁
    dsimp only
    rcases happend : (appendTerminalProgressIfMissing j reconciliation.progress now).commit s₁
      with ⟨e | _, s₂⟩ <;> rw [happend] at hrepair <;> exact htransaction.trans hrepair

theorem reconcileTerminalCommit_performs (execution : ExecutionEnd)
    (commit : TerminalCrawlRunCommit) (s : QueueStore) :
    Statements new s (reconcileTerminalCommit execution commit s).2 := by
  have htransaction : Statements new s _ := (reconcileTerminalCrawlRun_performs execution.jobId
    execution.lease commit.runId execution.completedAt).commit s
  unfold reconcileTerminalCommit
  rcases htx : (reconcileTerminalCrawlRun execution.jobId execution.lease commit.runId
    execution.completedAt).commit s with ⟨e | reconciliation, s₁⟩ <;> rw [htx] at htransaction
  · exact htransaction
  · dsimp only
    split
    · exact htransaction
    · have hrepair : Statements new s₁ _ := (repair_performs execution.jobId
        reconciliation.progress execution.completedAt).commit s₁
      rcases happend : (appendTerminalProgressIfMissing execution.jobId reconciliation.progress
        execution.completedAt).commit s₁ with ⟨e | _, s₂⟩ <;> rw [happend] at hrepair
      · dsimp only
        split <;> exact htransaction.trans hrepair
      · exact htransaction.trans hrepair

/-- The repairs of all streams make statements. -/
theorem repairTerminalProgress_performs (now : ℤ) (repairs : ProgressRepairs)
    (s : QueueStore) : Statements new s (repairTerminalProgress now repairs s).2 := by
  induction repairs generalizing s with
  | nil => exact .refl
  | cons repair repairs ih =>
    obtain ⟨j, terminal⟩ := repair
    have hrepair : Statements new s _ := (repair_performs j terminal now).commit s
    unfold repairTerminalProgress
    rcases happend : (appendTerminalProgressIfMissing j terminal now).commit s with
      ⟨e | _, s₁⟩ <;> rw [happend] at hrepair
    · exact hrepair
    · exact hrepair.trans (ih s₁)

theorem reconcileTerminalRunsTx_performs (now : ℤ) :
    Performs (Statement new) (reconcileTerminalRunsTx now) := by
  refine .bind .read fun store => .foldEach (fun repairs row => ?_) _ _
  refine .bind reconcileTerminalJob_performs fun reconciliation => ?_
  cases reconciliation <;> exact .pure _

theorem reconcileTerminalCrawlRuns_performs (now : ℤ) (s : QueueStore) :
    Statements new s (reconcileTerminalCrawlRuns now s).2 := by
  have htransaction : Statements new s _ := (reconcileTerminalRunsTx_performs now).commit s
  unfold reconcileTerminalCrawlRuns
  rcases htx : (reconcileTerminalRunsTx now).commit s with ⟨e | repairs, s₁⟩ <;>
    rw [htx] at htransaction
  · exact htransaction
  · exact htransaction.trans (repairTerminalProgress_performs now repairs s₁)

theorem recoverStaleJobs_performs (now : ℤ) (s : QueueStore) :
    Statements new s (recoverStaleJobs now s).2 := by
  have htransaction : Performs (Statement new) (recoverStaleTx now) :=
    .bind ensureQueueInvariants_performs fun _ => recoverExpired_performs
  have hrecover := htransaction.commit s
  unfold recoverStaleJobs
  rcases htx : (recoverStaleTx now).commit s with ⟨e | recovery, s₁⟩ <;> rw [htx] at hrecover
  · exact hrecover
  · have hreconcile : Statements new s₁ _ := reconcileTerminalCrawlRuns_performs now s₁
    dsimp only
    rcases hruns : reconcileTerminalCrawlRuns now s₁ with ⟨e | _, s₂⟩ <;>
      rw [hruns] at hreconcile <;> exact hrecover.trans hreconcile

/-! ## Operations -/

/-- The operation that appends a checkpoint. -/
def Operation.appends : Operation → Bool
  | .appendCheckpoint .. => true
  | _ => false

/-- The jobs an operation may insert. -/
def Operation.inserts : Operation → JobRecord → Prop
  | .createQuickScrapeRun runId _ job now, row | .createProductionRun runId _ job now, row =>
    row = { job.record now with parentJobId := none, crawlRunId := some runId }
  | .enqueue job now, row => row = job.record now
  | .enqueueActionChild sourceJobId _ actionKind _ _ _, row =>
    row.kind = actionKind ∧ row.parentJobId = some sourceJobId
  | _, _ => False

/-- Every other operation is a sequence of statements. -/
theorem apply_performs (s : QueueStore) {op : Operation} (hop : op.appends = false)
    (hnew : ∀ job, op.inserts job → new job) : Statements new s (apply s op) := by
  cases op with
  | createQuickScrapeRun =>
    exact Performs.commit (.bind (.require _ _) fun _ =>
      createRunWithRootJob_performs (hnew _ rfl)) s
  | createProductionRun =>
    exact Performs.commit (.bind (.require _ _) fun _ =>
      createRunWithRootJob_performs (hnew _ rfl)) s
  | enqueue => exact (insertJob_performs (hnew _ rfl)).commit s
  | acquireNext => exact acquireNext_performs.commit s
  | heartbeat => exact heartbeat_performs.commit s
  | succeed => exact succeed_performs.commit s
  | fail => exact failWithDisposition_performs.commit s
  | failTerminal => exact failTerminal_performs.commit s
  | failTerminalProduction => exact failTerminalProduction_performs.commit s
  | cancel => exact cancel_performs.commit s
  | cancelQueued => exact cancelQueued_performs.commit s
  | requeueAfterStoragePressure jobId lease now =>
    exact requeueAfterStoragePressure_performs jobId lease now s
  | reconcileTerminalCommit execution commit =>
    exact reconcileTerminalCommit_performs execution commit s
  | reprioritize => exact reprioritize_performs.commit s
  | removeIfSafe => exact removeIfSafe_performs.commit s
  | enqueueActionChild =>
    exact (enqueueActionChild_performs fun child hkind hparent =>
      hnew child ⟨hkind, hparent⟩).commit s
  | appendCheckpoint => cases hop
  | finalizeRun => exact finalizeRun_performs.commit s
  | transitionExecutionStatus => exact setRunStatus_performs.commit s
  | transitionRecoveryStatus => exact setRunStatus_performs.commit s
  | transitionRestartStatus => exact setRunStatus_performs.commit s
  | recoverStaleJobs now => exact recoverStaleJobs_performs now s

/-- An appended checkpoint belongs to the running attempt of the lease and comes
after every checkpoint of its job. -/
theorem appendCheckpoint_eq_ok {attemptId : AttemptId} {identity : CheckpointIdentity}
    {createdAt : ℤ} {record : CheckpointRecord}
    (h : appendCheckpoint j attemptId lease identity createdAt s = .ok (record, s')) :
    record.jobId = j ∧ record.attemptId = attemptId ∧ record.identity = identity ∧
      (∀ c ∈ s.checkpoints, c.jobId = j → c.sequence < record.sequence) ∧
      (∃ a, s.attempts.find? attemptId = some a ∧ runningAttempt j lease a = true) ∧
      s' = { s with checkpoints := s.checkpoints ++ [record] } := by
  unfold appendCheckpoint at h
  rw [read_bind] at h
  obtain ⟨_, _, h⟩ := orFail_bind_eq_ok.mp h
  obtain ⟨_, h⟩ := require_bind_eq_ok.mp h
  obtain ⟨hattempt, h⟩ := require_bind_eq_ok.mp h
  dsimp only at h
  obtain ⟨_, h⟩ := require_bind_eq_ok.mp h
  cases h
  refine ⟨rfl, rfl, rfl, fun c hc hid => ?_, (Option.any_eq_true _ _).mp hattempt, rfl⟩
  have hmem : c.sequence ∈ (s.checkpoints.filter fun c => c.jobId = j).map
      CheckpointRecord.sequence :=
    List.mem_map_of_mem (List.mem_filter.mpr ⟨hc, decide_eq_true hid⟩)
  exact Nat.lt_succ_of_le (List.le_max_of_le' 0 hmem le_rfl)

end Erabi.Queue

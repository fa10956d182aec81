/-
# The attempt budget of a source and its retries

A retry carries the attempts that its source has left to the child.  What is
left is computed from the source row alone, so the budget of the source covers
its whole lineage of retries exactly as long as no source is retried again after
one of its retries has executed an attempt.
-/
import Mathlib
import Erabi.Queue.Preservation
import Erabi.Queue.Statements

namespace Erabi.Queue

open Relational Transaction Transition

/-! ## Lineages of retries -/

/-- The source a job retries. -/
def retriedSource (s : QueueStore) (j : JobId) : Option JobId :=
  (s.jobs.find? j).bind fun job => if job.kind = .retry then job.parentJobId else none

/-- The job, the source it retries, the source that one retries, and so on for
`n` generations. -/
def retryLineage (s : QueueStore) : ℕ → JobId → List JobId
  | 0, j => [j]
  | n + 1, j =>
    match retriedSource s j with
    | none => [j]
    | some source => j :: retryLineage s n source

/-- The attempts executed by a job and its retries of the first `n` generations. -/
def executedAttempts (s : QueueStore) (n : ℕ) (j : JobId) : ℕ :=
  (s.attempts.select fun attempt => (retryLineage s n attempt.jobId).contains j).length

/-- Whether the run of the job is a production run. -/
def isProductionJob (s : QueueStore) (job : JobRecord) : Bool :=
  (job.crawlRunId.bind s.runs.find?).any fun run => run.snapshot.runType = .productionRun

/-- No job outside production has executed, together with all its retries, more
attempts than its budget. -/
def WithinBudget (s : QueueStore) : Prop :=
  ∀ job ∈ s.jobs.rows, isProductionJob s job = false →
    ∀ n, executedAttempts s n job.id ≤ job.maxAttempts

/-! ## The system -/

/-- Retries come from the retry action, not from the operations below it. -/
def createsRetry : Operation → Bool
  | .enqueue job _ => job.kind = .retry
  | .enqueueActionChild _ _ actionKind _ _ _ => actionKind = .retry
  | _ => false

/-- A step in which no operation makes a retry of its own. -/
def retryStep (s : QueueStore) : Input → QueueStore
  | .operation op => if createsRetry op then s else apply s op
  | input => step s input

/-! ## The condition -/

/-- Whether a job outside production without an active recovery child has a retry
that executed an attempt. -/
def hasSpentRetry (s : QueueStore) (j : JobId) : Bool :=
  (s.jobs.find? j).any fun source =>
    !isProductionJob s source && !activeChildExists s j isRecoveryContinuationKind &&
      s.jobs.rows.any fun child =>
        child.parentJobId = some j && child.kind = .retry && decide (0 < child.currentAttempt)

/-- No retry is requested of a source once a retry of it executed an attempt. -/
def RetriesOnce (s : QueueStore) : Input → Prop
  | .action (.retry _) jobId _ _ => hasSpentRetry s jobId = false
  | _ => True

instance (s : QueueStore) (input : Input) : Decidable (RetriesOnce s input) := by
  unfold RetriesOnce
  split <;> infer_instance

/-! ## What is kept about retries -/

/-- The job is settled without an attempt. -/
def JobRecord.Untried (job : JobRecord) : Prop :=
  job.state.active = false ∧ job.currentAttempt = 0

/-- The row is a retry of the job. -/
def JobRecord.Retries (child : JobRecord) (j : JobId) : Prop :=
  child.kind = .retry ∧ child.parentJobId = some j

/-- The attempts of a job are numbered from 1; a retry has a settled source on the
same run that pays for it; of two retries of one source one was never tried. -/
structure Funded (s : QueueStore) : Prop where
  positive : ∀ a ∈ s.attempts.rows, 0 < a.attemptNumber
  numbered : ∀ a ∈ s.attempts.rows, ∀ b ∈ s.attempts.rows, a.jobId = b.jobId →
    a.attemptNumber = b.attemptNumber → a = b
  attached : ∀ job ∈ s.jobs.rows, ∀ r ∈ job.crawlRunId, (s.runs.find? r).isSome
  paid : ∀ child ∈ s.jobs.rows, ∀ p, child.Retries p → ∃ source, s.jobs.find? p = some source ∧
    child.crawlRunId = source.crawlRunId ∧ source.state.active = false ∧
      0 < source.currentAttempt ∧ (isProductionJob s source = false →
        source.currentAttempt + child.maxAttempts ≤ source.maxAttempts)
  single : ∀ child ∈ s.jobs.rows, ∀ other ∈ s.jobs.rows, ∀ p, child.Retries p →
    other.Retries p → isProductionJob s child = false →
      child.id = other.id ∨ child.Untried ∨ other.Untried

theorem Funded.empty : Funded .empty where
  positive := fun _ h => by cases h
  numbered := fun _ h => by cases h
  attached := fun _ h => by cases h
  paid := fun _ h => by cases h
  single := fun _ h => by cases h

variable {new : JobRecord → Prop} {s s' : QueueStore}

/-- Whether a job is one of production depends on its run only. -/
theorem isProductionJob_sameRun {job other : JobRecord} (h : job.crawlRunId = other.crawlRunId) :
    isProductionJob s job = isProductionJob s other := by
  unfold isProductionJob
  rw [h]

theorem Continues.refl (job : JobRecord) : Continues job job :=
  ⟨rfl, rfl, rfl, rfl, Or.inl ⟨rfl, fun _ => rfl⟩⟩

/-- A settled job neither moves nor is tried again. -/
theorem Continues.settled {job job' : JobRecord} (h : Continues job job')
    (hsettled : job.state.active = false) :
    job'.state = job.state ∧ job'.currentAttempt = job.currentAttempt := by
  rcases h.attempts with ⟨hattempt, hstate⟩ | ⟨hqueued, _⟩
  · exact ⟨hstate hsettled, hattempt⟩
  · rw [hqueued] at hsettled
    cases hsettled

/-- A job stays the retry of its source. -/
theorem Continues.retries {job job' : JobRecord} (h : Continues job job') {p : JobId} :
    job'.Retries p ↔ job.Retries p := by
  rw [JobRecord.Retries, JobRecord.Retries, h.kind, h.parent]

/-- A job that was never tried may be so still. -/
theorem Continues.untried {job job' : JobRecord} (h : Continues job job')
    (huntried : job.Untried) : job'.Untried := by
  obtain ⟨hstate, hattempt⟩ := h.settled huntried.1
  exact ⟨by rw [hstate]; exact huntried.1, hattempt.trans huntried.2⟩

/-- A job row continues an earlier one or was inserted. -/
theorem statement_job_back (h : Statement new s s') {job' : JobRecord}
    (hjob' : job' ∈ s'.jobs.rows) :
    (∃ job ∈ s.jobs.rows, job'.id = job.id ∧ Continues job job') ∨ new job' := by
  cases h with
  | @updateJobs p f hid hkept =>
    obtain ⟨job, hjob, rfl⟩ := List.mem_map.mp hjob'
    refine Or.inl ⟨job, hjob, ?_⟩
    split
    · rename_i hp
      exact ⟨hid job, hkept job hjob hp⟩
    · exact ⟨rfl, .refl job⟩
  | insertJob hnew _ _ hinsert =>
    rcases (Table.mem_insert hinsert).mp hjob' with hjob | rfl
    · exact Or.inl ⟨job', hjob, rfl, .refl job'⟩
    · exact Or.inr hnew
  | deleteJob => exact Or.inl ⟨job', (Table.mem_delete.mp hjob').1, rfl, .refl job'⟩
  | _ => exact Or.inl ⟨job', hjob', rfl, .refl job'⟩

/-- A job with a child stays. -/
theorem statement_parent (h : Statement new s s') {p : JobId} {source : JobRecord}
    (hsource : s.jobs.find? p = some source) (hchild : ∃ c ∈ s.jobs.rows, c.parentJobId = some p) :
    ∃ source', s'.jobs.find? p = some source' ∧ Continues source source' := by
  cases h with
  | @updateJobs q f hid hkept =>
    refine ⟨if q source then f source else source, ?_, ?_⟩
    · show (s.jobs.update q f hid).find? p = _
      rw [Table.find?_update, hsource]
      rfl
    · split
      · rename_i hq
        exact hkept source (Table.mem_of_find? hsource) hq
      · exact .refl source
  | insertJob _ _ _ hinsert =>
    refine ⟨source, ?_, .refl source⟩
    show Table.find? _ p = _
    rw [Table.find?_insert hinsert, if_neg, hsource]
    rintro rfl
    rw [(Table.insert?_eq_some.mp hinsert).1] at hsource
    cases hsource
  | @deleteJob k _ _ _ hchildless =>
    obtain ⟨c, hc, hparent⟩ := hchild
    refine ⟨source, ?_, .refl source⟩
    show (s.jobs.delete fun job => job.id = k).find? p = _
    rw [Table.find?_delete, hsource, Option.filter_some_pos]
    have hid := Table.key_of_find? hsource
    have hne : p ≠ k := fun e => hchildless c hc (e ▸ hparent)
    simpa [hid] using hne
  | _ => exact ⟨source, hsource, .refl source⟩

/-- Whether a job is one of production does not change. -/
theorem statement_production (h : Statement new s s') {job job' : JobRecord}
    (hattached : ∀ r ∈ job.crawlRunId, (s.runs.find? r).isSome)
    (hrun : job'.crawlRunId = job.crawlRunId) :
    isProductionJob s' job' = isProductionJob s job := by
  unfold isProductionJob
  rw [hrun]
  rcases hr : job.crawlRunId with _ | r
  · rfl
  · obtain ⟨run, hfind⟩ := Option.isSome_iff_exists.mp (hattached r hr)
    obtain ⟨run', hfind', hsnapshot⟩ := statement_run h hfind
    rw [Option.bind_some, Option.bind_some, hfind, hfind', Option.any_some, Option.any_some,
      hsnapshot]

/-- Statements do not change what is production work. -/
theorem statements_production (h : Statements new s s') {job : JobRecord}
    (hattached : ∀ r ∈ job.crawlRunId, (s.runs.find? r).isSome) :
    isProductionJob s' job = isProductionJob s job := by
  refine (keeps_of_reflTransGen (Q := fun t => (∀ r ∈ job.crawlRunId, (t.runs.find? r).isSome) ∧
    isProductionJob t job = isProductionJob s job) (fun t t' hstatement ht => ?_) h
    ⟨hattached, rfl⟩).2
  refine ⟨fun r hr => ?_, (statement_production hstatement ht.1 rfl).trans ht.2⟩
  obtain ⟨run, hrun⟩ := Option.isSome_iff_exists.mp (ht.1 r hr)
  obtain ⟨run', hrun', _⟩ := statement_run hstatement hrun
  rw [hrun']
  rfl

/-- Attempts stay numbered from one. -/
theorem statement_positive (h : Statement new s s')
    (hs : ∀ a ∈ s.attempts.rows, 0 < a.attemptNumber) :
    ∀ a ∈ s'.attempts.rows, 0 < a.attemptNumber := by
  intro a' ha'
  cases h with
  | @closeAttempts p f hid hkept _ =>
    obtain ⟨a, ha, rfl⟩ := List.mem_map.mp ha'
    split
    · rw [(hkept a).2]
      exact hs a ha
    · exact hs a ha
  | openAttempt hnumber _ hinsert =>
    rcases (Table.mem_insert hinsert).mp ha' with ha | rfl
    · exact hs a' ha
    · exact hnumber
  | _ => exact hs a' ha'

/-- Every statement that inserts no retry keeps what is known about retries. -/
theorem Funded.statement (h : Funded s) (hnew : ∀ job p, new job → ¬ job.Retries p)
    (hs : Statement new s s') : Funded s' where
  positive := statement_positive hs h.positive
  numbered := statement_numbered hs h.numbered
  attached := statement_attached hs h.attached
  paid := by
    intro child' hchild' p hretries
    rcases statement_job_back hs hchild' with ⟨child, hchild, _, hcontinues⟩ | hinserted
    · have hold : child.Retries p := hcontinues.retries.mp hretries
      obtain ⟨source, hsource, hrun, hsettled, hattempt, hbudget⟩ := h.paid child hchild p hold
      obtain ⟨source', hsource', hcontinues'⟩ := statement_parent hs hsource ⟨child, hchild, hold.2⟩
      obtain ⟨hstate, hcurrent⟩ := hcontinues'.settled hsettled
      refine ⟨source', hsource', ?_, ?_, ?_, fun hproduction => ?_⟩
      · rw [hcontinues.run, hcontinues'.run, hrun]
      · rw [hstate, hsettled]
      · rwa [hcurrent]
      · rw [statement_production hs (h.attached source (Table.mem_of_find? hsource))
          hcontinues'.run] at hproduction
        rw [hcurrent, hcontinues.maxAttempts, hcontinues'.maxAttempts]
        exact hbudget hproduction
    · exact absurd hretries (hnew child' p hinserted)
  single := by
    intro child' hchild' other' hother' p hretries hretries' hproduction
    rcases statement_job_back hs hchild' with ⟨child, hchild, hid, hcontinues⟩ | hinserted
    · rcases statement_job_back hs hother' with ⟨other, hother, hid', hcontinues'⟩ | hinserted'
      · rw [statement_production hs (h.attached child hchild) hcontinues.run] at hproduction
        rw [hid, hid']
        exact (h.single child hchild other hother p (hcontinues.retries.mp hretries)
          (hcontinues'.retries.mp hretries') hproduction).imp_right
            (Or.imp hcontinues.untried hcontinues'.untried)
      · exact absurd hretries' (hnew other' p hinserted')
    · exact absurd hretries (hnew child' p hinserted)

/-- Statements that make no retry keep the books. -/
theorem Funded.statements (h : Funded s) (hnew : ∀ job p, new job → ¬ job.Retries p)
    (hs : Statements new s s') : Funded s' :=
  keeps_of_reflTransGen (fun _ _ hstatement hfunded => hfunded.statement hnew hstatement) hs h

/-! ## What the retry action asks for -/

/-- What the code finds to be production work. -/
theorem isProduction_eq_ok {source : JobRecord} {production : Bool}
    (h : isProduction s source = .ok production) : isProductionJob s source = production := by
  unfold isProduction snapshotFor at h
  unfold isProductionJob
  rcases hr : source.crawlRunId with _ | r
  · rw [hr] at h
    cases h
    rfl
  · rw [hr] at h
    dsimp only at h
    rw [Option.bind_some]
    rcases hrun : s.runs.find? r with _ | run
    · rw [hrun] at h
      cases h
    · rw [hrun] at h
      cases h
      rfl

/-- The source of an action has a row. -/
theorem recoverableSource_eq_ok {j : JobId} {source : JobRecord}
    (h : recoverableSource s j = .ok source) : s.jobs.find? j = some source := by
  unfold recoverableSource terminalSource at h
  rcases hfind : s.jobs.find? j with _ | job
  · rw [hfind] at h
    cases h
  · rw [hfind] at h
    dsimp only at h
    by_cases hactive : job.state.active = true
    · rw [if_pos hactive] at h
      cases h
    · rw [if_neg hactive] at h
      change (if job.state = .failed ∨ job.state = .cancelled then Except.ok job
        else Except.error JobActionError.illegalLifecycleState) = Except.ok source at h
      split at h
      · exact congrArg some (Except.ok.inj h)
      · cases h

/-- An accepted retry continues the run of an attempted source, and outside
production carries the attempts the source has left. -/
theorem retryRequest_eq_ok {evidence : CheckpointEvidence} {j : JobId} {request : ActionRequest}
    (h : retryRequest s evidence j = .ok request) :
    ∃ source, s.jobs.find? j = some source ∧ 0 < source.currentAttempt ∧
      request.kind = .retry ∧ request.association = sameRunAssociation source ∧
      (isProductionJob s source = false → source.currentAttempt < source.maxAttempts ∧
        request.maxAttempts = some (source.maxAttempts - source.currentAttempt)) := by
  unfold retryRequest at h
  obtain ⟨source, hsource, h⟩ := except_bind_eq_ok.mp h
  have hfind := recoverableSource_eq_ok hsource
  dsimp only at h
  by_cases hattempt : source.currentAttempt = 0
  · rw [if_pos hattempt] at h
    cases h
  · rw [if_neg hattempt] at h
    -- the compatibility of the checkpoint does not change what is asked for
    have hrest : (isProduction s source >>= fun production =>
        if production = true then
          pure ⟨.retry, sameRunAssociation source, some (max source.maxAttempts 1)⟩
        else if source.maxAttempts ≤ source.currentAttempt then throw .attemptsExhausted
        else pure ⟨.retry, sameRunAssociation source,
          some (source.maxAttempts - source.currentAttempt)⟩) = Except.ok request := by
      split at h
      · obtain ⟨_, _, h⟩ := except_bind_eq_ok.mp h
        exact h
      · exact h
    obtain ⟨production, hproduction, hrest⟩ := except_bind_eq_ok.mp hrest
    refine ⟨source, hfind, by omega, ?_⟩
    rw [isProduction_eq_ok hproduction]
    cases production with
    | true =>
      cases hrest
      exact ⟨rfl, rfl, fun h => by cases h⟩
    | false =>
      rw [if_neg (by decide)] at hrest
      by_cases hleft : source.maxAttempts ≤ source.currentAttempt
      · rw [if_pos hleft] at hrest
        cases hrest
      · rw [if_neg hleft] at hrest
        cases hrest
        exact ⟨rfl, rfl, fun _ => ⟨by omega, rfl⟩⟩

/-! ## The child of a retry -/

/-- Attaching the child to the run of its source touches the runs only. -/
theorem sameRunAssociation_eq_ok (new : JobRecord → Prop) {source : JobRecord} {run : Option CrawlRunId}
    (h : actionChildCrawlRunId source (sameRunAssociation source) s = .ok (run, s')) :
    run = source.crawlRunId ∧ s'.jobs = s.jobs ∧ s'.attempts = s.attempts ∧
      Statements new s s' := by
  have hstatements : Statements new s s' := actionChildCrawlRunId_performs s run s' h
  refine ⟨?_, ?_, ?_, hstatements⟩ <;>
  · rcases hr : source.crawlRunId with _ | r
    · rw [sameRunAssociation, hr] at h
      cases h
      rfl
    · rw [sameRunAssociation, hr, Option.isSome_some, if_pos rfl] at h
      obtain ⟨q, hq, h⟩ := orFail_bind_eq_ok.mp h
      obtain ⟨_, s₁, hset, h⟩ := bind_eq_ok.mp h
      cases h
      obtain ⟨_, rfl⟩ := setRunStatus_eq_ok.mp hset
      first | rfl | rw [← hq, hr]

/-- What an action child is made from. -/
theorem enqueueActionChild_eq_ok {j childId : JobId} {kind : JobKind} {now : ℤ}
    {association : ActionRunAssociation} {maxAttempts : Option ℕ} {child : JobRecord}
    (h : enqueueActionChild j childId kind now association maxAttempts s = .ok (child, s')) :
    ∃ source run s₁, s.jobs.find? j = some source ∧ source.state.active = false ∧
      (isRecoveryContinuationKind kind = true →
        activeChildExists s j isRecoveryContinuationKind = false) ∧
      actionChildCrawlRunId source association s = .ok (run, s₁) ∧
      ∃ (job : JobRecord) (jobs : Table JobRecord JobId JobRecord.id), job.kind = kind ∧
        job.parentJobId = some j ∧ job.crawlRunId = run ∧ job.currentAttempt = 0 ∧
        job.maxAttempts = maxAttempts.getD source.maxAttempts ∧
        (∀ r ∈ run, (s₁.runs.find? r).isSome) ∧ s₁.jobs.insert? job = some jobs ∧
        s' = { s₁ with jobs } := by
  obtain ⟨source, hfind, hbody⟩ := selectJob_bind_eq_ok.mp h
  obtain ⟨_, s₀, hlineage, hbody⟩ := bind_eq_ok.mp hbody
  obtain ⟨hsettled, _, hidle, hs₀⟩ := validateActionChildLineage_eq_ok.mp hlineage
  rw [hs₀] at hbody
  obtain ⟨run, s₁, hassociation, hbody⟩ := bind_eq_ok.mp hbody
  obtain ⟨_, s₂, hinsert, hselect⟩ := bind_eq_ok.mp hbody
  obtain ⟨_, rfl⟩ := selectJob_eq_ok.mp hselect
  obtain ⟨_, hrun, _, jobs, hjobs, rfl⟩ := insertJob_eq_ok.mp hinsert
  exact ⟨source, run, s₁, hfind, hsettled, hidle, hassociation, _, jobs, rfl, rfl, rfl, rfl, rfl,
    hrun, hjobs, rfl⟩

/-- A retry that its source pays for, of a source whose retries were never tried,
may be inserted. -/
theorem Funded.insertRetry (h : Funded s) {j : JobId} {source child : JobRecord}
    {jobs : Table JobRecord JobId JobRecord.id} (hsource : s.jobs.find? j = some source)
    (hsettled : source.state.active = false) (hattempt : 0 < source.currentAttempt)
    (hchild : child.Retries j) (hrun : child.crawlRunId = source.crawlRunId)
    (hpaid : isProductionJob s source = false →
      source.currentAttempt + child.maxAttempts ≤ source.maxAttempts)
    (huntried : isProductionJob s source = false →
      ∀ other ∈ s.jobs.rows, other.Retries j → other.Untried)
    (hinsert : s.jobs.insert? child = some jobs) : Funded { s with jobs } := by
  have hfind : ∀ p row, s.jobs.find? p = some row → jobs.find? p = some row := by
    intro p row hrow
    rw [Table.find?_insert hinsert, if_neg, hrow]
    rintro rfl
    rw [(Table.insert?_eq_some.mp hinsert).1] at hrow
    cases hrow
  have hproduction : isProductionJob s child = isProductionJob s source :=
    isProductionJob_sameRun hrun
  refine { h with attached := ?_, paid := ?_, single := ?_ }
  · intro job hjob
    rcases (Table.mem_insert hinsert).mp hjob with hjob | rfl
    · exact h.attached job hjob
    · rw [hrun]
      exact h.attached source (Table.mem_of_find? hsource)
  -- an older retry is paid as before; the new one is paid by its source
  · intro other hother p hretries
    rcases (Table.mem_insert hinsert).mp hother with hother | rfl
    · obtain ⟨paying, hpaying, hrest⟩ := h.paid other hother p hretries
      exact ⟨paying, hfind p paying hpaying, hrest⟩
    · have hp : j = p := Option.some.inj (hchild.2.symm.trans hretries.2)
      subst hp
      exact ⟨source, hfind j source hsource, hrun, hsettled, hattempt, hpaid⟩
  -- of two retries of one source at most one is new, and then the other was never tried
  · intro first hfirst second hsecond p hretries hretries' houtside
    rcases (Table.mem_insert hinsert).mp hfirst with hfirst | rfl
    · rcases (Table.mem_insert hinsert).mp hsecond with hsecond | rfl
      · exact h.single first hfirst second hsecond p hretries hretries' houtside
      · have hp : j = p := Option.some.inj (hchild.2.symm.trans hretries'.2)
        subst hp
        obtain ⟨paying, hpaying, hrun', _⟩ := h.paid first hfirst j hretries
        rw [hsource] at hpaying
        cases hpaying
        refine Or.inr (Or.inl (huntried ?_ first hfirst hretries))
        rw [← isProductionJob_sameRun hrun']
        exact houtside
    · have hp : j = p := Option.some.inj (hchild.2.symm.trans hretries.2)
      subst hp
      rcases (Table.mem_insert hinsert).mp hsecond with hsecond | rfl
      · exact Or.inr (Or.inr (huntried (hproduction ▸ houtside) second hsecond hretries'))
      · exact Or.inl rfl

/-! ## The attempts of a lineage -/

variable {j k : JobId} {job child : JobRecord}

/-- A lineage that passes through `j` starts there or at a retry of `j`, or passes
through one. -/
theorem mem_retryLineage_succ {n : ℕ} (h : j ∈ retryLineage s (n + 1) k) :
    k = j ∨ ∃ child ∈ s.jobs.rows, child.Retries j ∧ child.id ∈ retryLineage s n k := by
  -- induction on the generations, walking from the retry towards its source
  induction n generalizing k with
  | zero =>
    unfold retryLineage at h
    rcases hsource : retriedSource s k with _ | source <;> rw [hsource] at h
    · exact Or.inl (List.mem_singleton.mp h).symm
    · rcases List.mem_cons.mp h with rfl | h
      · exact Or.inl rfl
      · obtain ⟨child, hchild, hretries⟩ := Option.bind_eq_some_iff.mp hsource
        refine Or.inr ⟨child, Table.mem_of_find? hchild, ?_, ?_⟩
        · split at hretries
          · rename_i hkind
            rw [List.mem_singleton.mp h]
            exact ⟨hkind, hretries⟩
          · cases hretries
        · rw [Table.key_of_find? hchild]
          exact List.mem_singleton_self k
  | succ n ih =>
    rw [retryLineage] at h
    rcases hsource : retriedSource s k with _ | source <;> rw [hsource] at h
    · exact Or.inl (List.mem_singleton.mp h).symm
    · rcases List.mem_cons.mp h with rfl | h
      · exact Or.inl rfl
      · refine Or.inr ?_
        rcases ih h with rfl | ⟨child, hchild, hretries, hmem⟩
        · obtain ⟨child, hchild, hretries⟩ := Option.bind_eq_some_iff.mp hsource
          refine ⟨child, Table.mem_of_find? hchild, ?_, ?_⟩
          · split at hretries
            · rename_i hkind
              exact ⟨hkind, hretries⟩
            · cases hretries
          · rw [Table.key_of_find? hchild, retryLineage, hsource]
            exact List.mem_cons_self
        · refine ⟨child, hchild, hretries, ?_⟩
          rw [retryLineage, hsource]
          exact List.mem_cons_of_mem _ hmem

/-- No attempt is counted twice. -/
theorem attempts_nodup (s : QueueStore) (p : JobAttempt → Bool) : (s.attempts.select p).Nodup :=
  s.attempts.keysNodup.of_map.filter p

/-- A job has at most as many attempts as it counted. -/
theorem ownAttempts_le (hs : Consistent s) (h : Funded s) (hjob : job ∈ s.jobs.rows) :
    (s.attempts.select fun attempt => attempt.jobId = job.id).length ≤ job.currentAttempt := by
  have hnumbers : ((s.attempts.select fun attempt => attempt.jobId = job.id).map
      JobAttempt.attemptNumber).Nodup := by
    refine List.Nodup.map_on (fun a ha b hb hnumber => ?_) (attempts_nodup s _)
    obtain ⟨ha, hjobA⟩ := Table.mem_select.mp ha
    obtain ⟨hb, hjobB⟩ := Table.mem_select.mp hb
    rw [decide_eq_true_eq] at hjobA hjobB
    exact h.numbered a ha b hb (hjobA.trans hjobB.symm) hnumber
  have hsub : (s.attempts.select fun attempt => attempt.jobId = job.id).map
      JobAttempt.attemptNumber ⊆ List.range' 1 job.currentAttempt := by
    intro number hnumber
    obtain ⟨a, ha, rfl⟩ := List.mem_map.mp hnumber
    obtain ⟨ha, hjobA⟩ := Table.mem_select.mp ha
    rw [decide_eq_true_eq] at hjobA
    obtain ⟨owner, howner, _, hle⟩ := hs.owner a ha
    rw [hjobA, Table.find?_key hjob] at howner
    cases howner
    have hpositive := h.positive a ha
    exact List.mem_range'_1.mpr ⟨hpositive, by omega⟩
  have hlength := hnumbers.length_le_of_subset hsub
  rwa [List.length_map, List.length_range'] at hlength

/-- Neither a job that was never tried nor a retry of it has attempts. -/
theorem not_mem_lineage_of_untried (hs : Consistent s) (h : Funded s) (hchild : child ∈ s.jobs.rows)
    (huntried : child.Untried) {n : ℕ} {a : JobAttempt} (ha : a ∈ s.attempts.rows) :
    child.id ∉ retryLineage s n a.jobId := by
  have hown : a.jobId ≠ child.id := by
    intro hid
    obtain ⟨owner, howner, _, hle⟩ := hs.owner a ha
    rw [hid, Table.find?_key hchild] at howner
    cases howner
    have hpositive := h.positive a ha
    have hnone := huntried.2
    omega
  intro hmem
  cases n with
  | zero => exact hown (List.mem_singleton.mp hmem).symm
  | succ n =>
    rcases mem_retryLineage_succ hmem with hid | ⟨retry, hretry, hretries, _⟩
    · exact hown hid
    · obtain ⟨source, hsource, _, _, hattempt, _⟩ := h.paid retry hretry child.id hretries
      rw [Table.find?_key hchild] at hsource
      cases hsource
      exact absurd huntried.2 (by omega)

/-- Attempts of a lineage are those of the job itself and those of the one retry
of it that was tried. -/
theorem executedAttempts_succ_le (hs : Consistent s) (h : Funded s) (hjob : job ∈ s.jobs.rows)
    (houtside : isProductionJob s job = false) (n : ℕ) :
    executedAttempts s (n + 1) job.id ≤ job.currentAttempt ∨
      ∃ child ∈ s.jobs.rows, child.Retries job.id ∧
        executedAttempts s (n + 1) job.id ≤ job.currentAttempt + executedAttempts s n child.id := by
  -- at most one retry of the job was tried, and its attempts are those of its own lineage
  by_cases htried : ∃ child ∈ s.jobs.rows, child.Retries job.id ∧ ¬ child.Untried
  · obtain ⟨child, hchild, hretries, htried⟩ := htried
    refine Or.inr ⟨child, hchild, hretries, ?_⟩
    obtain ⟨source, hsource, hrun, _⟩ := h.paid child hchild job.id hretries
    rw [Table.find?_key hjob] at hsource
    cases hsource
    have hchildOutside : isProductionJob s child = false := by
      rw [← houtside, isProductionJob_sameRun hrun]
    have hsub : (s.attempts.select fun attempt =>
        (retryLineage s (n + 1) attempt.jobId).contains job.id) ⊆
        (s.attempts.select fun attempt => attempt.jobId = job.id) ++
          s.attempts.select fun attempt => (retryLineage s n attempt.jobId).contains child.id := by
      intro a ha
      obtain ⟨ha, hmem⟩ := Table.mem_select.mp ha
      rw [List.contains_iff_mem] at hmem
      rw [List.mem_append]
      rcases mem_retryLineage_succ hmem with hid | ⟨other, hother, hretries', hmem'⟩
      · exact Or.inl (Table.mem_select.mpr ⟨ha, decide_eq_true hid⟩)
      · -- the other retries of the job were never tried
        rcases h.single child hchild other hother job.id hretries hretries' hchildOutside with
          hid | huntried | huntried
        · exact Or.inr (Table.mem_select.mpr ⟨ha, by rw [List.contains_iff_mem, hid]; exact hmem'⟩)
        · exact absurd huntried htried
        · exact absurd hmem' (not_mem_lineage_of_untried hs h hother huntried ha)
    have hlength := (attempts_nodup s _).length_le_of_subset hsub
    rw [List.length_append] at hlength
    exact hlength.trans (Nat.add_le_add_right (ownAttempts_le hs h hjob) _)
  · left
    have hsub : (s.attempts.select fun attempt =>
        (retryLineage s (n + 1) attempt.jobId).contains job.id) ⊆
        s.attempts.select fun attempt => attempt.jobId = job.id := by
      intro a ha
      obtain ⟨ha, hmem⟩ := Table.mem_select.mp ha
      rw [List.contains_iff_mem] at hmem
      rcases mem_retryLineage_succ hmem with hid | ⟨other, hother, hretries, hmem'⟩
      · exact Table.mem_select.mpr ⟨ha, decide_eq_true hid⟩
      · have huntried : other.Untried := by
          by_contra hother'
          exact htried ⟨other, hother, hretries, hother'⟩
        exact absurd hmem' (not_mem_lineage_of_untried hs h hother huntried ha)
    exact ((attempts_nodup s _).length_le_of_subset hsub).trans (ownAttempts_le hs h hjob)

/-- The budget of a source covers its lineage of retries. -/
theorem Funded.withinBudget (h : Funded s) (hs : Consistent s) : WithinBudget s := by
  intro job hjob houtside n
  have hbudget : ∀ row ∈ s.jobs.rows, row.currentAttempt ≤ row.maxAttempts :=
    fun row hrow => (hs.budget row hrow).1
  -- induction on the generations of retries
  induction n generalizing job with
  | zero =>
    have hown : executedAttempts s 0 job.id =
        (s.attempts.select fun attempt => attempt.jobId = job.id).length := by
      unfold executedAttempts
      congr 1
      refine List.filter_congr fun a _ => ?_
      rw [retryLineage, Bool.eq_iff_iff, List.contains_iff_mem, List.mem_singleton,
        decide_eq_true_eq, eq_comm]
    rw [hown]
    exact (ownAttempts_le hs h hjob).trans (hbudget job hjob)
  | succ n ih =>
    rcases executedAttempts_succ_le hs h hjob houtside n with hown | ⟨child, hchild, hretries, hle⟩
    · exact hown.trans (hbudget job hjob)
    · obtain ⟨source, hsource, hrun, _, _, hpaid⟩ := h.paid child hchild job.id hretries
      rw [Table.find?_key hjob] at hsource
      cases hsource
      have hchildOutside : isProductionJob s child = false := by
        rw [← houtside, isProductionJob_sameRun hrun]
      have hrest := ih child hchild hchildOutside
      have hcovered := hpaid houtside
      omega

/-! ## Every step keeps the retries funded -/

/-- A checkpoint costs no attempt. -/
theorem appendCheckpoint_funded (h : Funded s) {attemptId : AttemptId} {lease : JobLease}
    {identity : CheckpointIdentity} {createdAt : ℤ} :
    Funded ((appendCheckpoint j attemptId lease identity createdAt).commit s).2 := by
  unfold Transaction.commit
  rcases happend : appendCheckpoint j attemptId lease identity createdAt s with e | ⟨record, s'⟩
  · exact h
  · obtain ⟨_, _, _, _, _, rfl⟩ := appendCheckpoint_eq_ok happend
    exact ⟨h.positive, h.numbered, h.attached, h.paid, h.single⟩

/-- The operations that create no retry. -/
theorem Funded.apply (h : Funded s) {op : Operation} (hop : createsRetry op = false) :
    Funded (apply s op) := by
  by_cases happends : op.appends = true
  · cases op with
    | appendCheckpoint => exact appendCheckpoint_funded h
    | _ => cases happends
  · have hstatements : Statements op.inserts s (Queue.apply s op) :=
      apply_performs s (by simpa using happends) fun _ hjob => hjob
    refine h.statements (fun job p hinserted hretries => ?_) hstatements
    cases op with
    | createQuickScrapeRun runId snapshot root now =>
      rw [show job = _ from hinserted] at hretries
      cases hretries.2
    | createProductionRun runId snapshot root now =>
      rw [show job = _ from hinserted] at hretries
      cases hretries.2
    | enqueue root now =>
      rw [show job = _ from hinserted] at hretries
      exact absurd hretries.1 (by simpa [createsRetry, NewJob.record] using hop)
    | enqueueActionChild source childId kind now association maxAttempts =>
      have hkind : kind = .retry := hinserted.1.symm.trans hretries.1
      simp [createsRetry, hkind] at hop
    | _ => exact hinserted

/-- The kind of the child an action asks for. -/
def JobAction.kind : JobAction → JobKind
  | .retry _ => .retry
  | .retryFailedParts _ => .retryFailedParts
  | .resume _ => .resumeCheckpoint
  | .restartFromBeginning => .restartFromBeginning
  | .rerunFullCrawl _ _ => .rerunFullCrawl

/-- A request has the kind of its action. -/
theorem request_kind {action : JobAction} {request : ActionRequest}
    (h : action.request s j = .ok request) : request.kind = action.kind := by
  cases action with
  | retry evidence =>
    obtain ⟨_, _, _, hkind, _⟩ := retryRequest_eq_ok h
    exact hkind
  -- each request is read through its checks to the kind it returns
  | retryFailedParts evidence =>
    change retryFailedPartsRequest s evidence j = .ok request at h
    unfold retryFailedPartsRequest at h
    obtain ⟨_, _, h⟩ := except_bind_eq_ok.mp h
    obtain ⟨_, _, h⟩ := except_bind_eq_ok.mp h
    dsimp only at h
    split at h
    · cases h
    · obtain ⟨_, _, h⟩ := except_bind_eq_ok.mp h
      split at h
      · cases h
      · cases h
        rfl
  | resume evidence =>
    change resumeRequest s evidence j = .ok request at h
    unfold resumeRequest at h
    obtain ⟨_, _, h⟩ := except_bind_eq_ok.mp h
    obtain ⟨_, _, h⟩ := except_bind_eq_ok.mp h
    obtain ⟨_, _, h⟩ := except_bind_eq_ok.mp h
    cases h
    rfl
  | restartFromBeginning =>
    change restartFromBeginningRequest s j = .ok request at h
    unfold restartFromBeginningRequest at h
    obtain ⟨_, _, h⟩ := except_bind_eq_ok.mp h
    obtain ⟨_, _, h⟩ := except_bind_eq_ok.mp h
    dsimp only at h
    split at h
    · cases h
    · split at h
      · cases h
      · cases h
        rfl
  | rerunFullCrawl independentRerunSnapshot runId =>
    change rerunFullCrawlRequest s independentRerunSnapshot runId j = .ok request at h
    unfold rerunFullCrawlRequest at h
    obtain ⟨_, _, h⟩ := except_bind_eq_ok.mp h
    obtain ⟨_, _, h⟩ := except_bind_eq_ok.mp h
    split at h
    · cases h
    · obtain ⟨_, _, h⟩ := except_bind_eq_ok.mp h
      cases h
      rfl

/-- A retry is paid by its source, if no retry of the source was tried before. -/
theorem Funded.retry (h : Funded s) {evidence : CheckpointEvidence} {childId : JobId} {now : ℤ}
    (honce : hasSpentRetry s j = false) {request : ActionRequest}
    (hrequest : retryRequest s evidence j = .ok request) :
    Funded ((enqueueActionChild j childId request.kind now request.association
      request.maxAttempts).commit s).2 := by
  obtain ⟨source, hsource, hattempt, hkind, hassociation, hbudget⟩ := retryRequest_eq_ok hrequest
  rw [hkind, hassociation]
  unfold Transaction.commit
  rcases henqueue : enqueueActionChild j childId .retry now (sameRunAssociation source)
    request.maxAttempts s with e | ⟨child, s'⟩
  · exact h
  · obtain ⟨source', run, s₁, hsource', hsettled, hidle, hrun, row, jobs, hrowKind, hparent,
      hrowRun, _, hmax, _, hinsert, rfl⟩ := enqueueActionChild_eq_ok henqueue
    rw [hsource] at hsource'
    cases hsource'
    obtain ⟨rfl, hjobs, _, hstatements⟩ := sameRunAssociation_eq_ok (fun _ => False) hrun
    have hidle := hidle (by decide)
    have hs₁ : Funded s₁ := h.statements (fun _ _ hfalse => hfalse.elim) hstatements
    have hproduction : isProductionJob s₁ source = isProductionJob s source :=
      statements_production hstatements (h.attached source (Table.mem_of_find? hsource))
    have hsource₁ : s₁.jobs.find? j = some source := by
      rw [hjobs]
      exact hsource
    refine hs₁.insertRetry hsource₁ hsettled hattempt
      ⟨hrowKind, hparent⟩ hrowRun ?_ ?_ hinsert
    · rw [hproduction]
      intro houtside
      obtain ⟨hleft, hasked⟩ := hbudget houtside
      rw [hmax, hasked, Option.getD_some]
      omega
    · rw [hproduction, hjobs]
      intro houtside other hother hretries
      have hinactive : other.state.active = false := by
        have hnot := List.any_eq_false.mp hidle other hother
        simpa [hretries.1, hretries.2, isRecoveryContinuationKind] using hnot
      rw [hasSpentRetry, hsource, Option.any_some, houtside, hidle] at honce
      simp only [Bool.not_false, Bool.true_and] at honce
      have huntried := List.any_eq_false.mp honce other hother
      exact ⟨hinactive, by simpa [hretries.1, hretries.2] using huntried⟩

/-! ## Runs -/

/-- A step that retries a source at most once keeps the books. -/
theorem retryStep_funded {input : Input} (h : Funded s) (honce : RetriesOnce s input) :
    Funded (retryStep s input) := by
  cases input with
  | operation op =>
    show Funded (if createsRetry op then s else apply s op)
    by_cases hcreates : createsRetry op = true
    · rwa [if_pos hcreates]
    · rw [if_neg hcreates]
      exact h.apply (Bool.eq_false_iff.mpr hcreates)
  | executeAcquired execution =>
    show Funded (step s (.executeAcquired execution))
    refine step_induction (P := Funded) h fun op hop => h.apply ?_
    have hends := endOperation_ends hop
    cases op with
    | enqueue | enqueueActionChild => cases hends
    | _ => rfl
  | action action jobId childId now =>
    show Funded (step s (.action action jobId childId now))
    refine step_induction (P := Funded) h fun op hop => ?_
    unfold Input.operation? at hop
    dsimp only at hop
    split at hop
    · cases hop
    · rename_i request hrequest
      cases hop
      cases action with
      | retry evidence => exact h.retry honce hrequest
      | _ =>
        refine h.apply ?_
        rw [createsRetry, request_kind hrequest]
        rfl

/-- A step keeps the store consistent. -/
theorem retryStep_consistent (s : QueueStore) (input : Input) (hs : Consistent s) :
    Consistent (retryStep s input) := by
  cases input with
  | operation op =>
    show Consistent (if createsRetry op then s else apply s op)
    by_cases hcreates : createsRetry op = true
    · rwa [if_pos hcreates]
    · rw [if_neg hcreates]
      exact step_consistent s (.operation op) hs
  | executeAcquired execution => exact step_consistent s (.executeAcquired execution) hs
  | action action jobId childId now => exact step_consistent s (.action action jobId childId now) hs

/-- As long as no retry is requested of a source once a retry of it executed an
attempt, every source executes, together with all its retries, at most the attempts of its
budget. -/
theorem withinBudget_throughout (inputs : List Input)
    (h : Meets retryStep RetriesOnce .empty inputs) :
    Throughout retryStep WithinBudget .empty inputs := by
  have hfunded : Throughout retryStep (fun s => Consistent s ∧ Funded s) .empty inputs :=
    throughout_of_meets (I := fun _ => True) (fun _ _ _ => trivial)
      (fun s input _ hs honce => ⟨retryStep_consistent s input hs.1, retryStep_funded hs.2 honce⟩)
      trivial ⟨.empty, .empty⟩ h
  exact hfunded.mono fun s hs => hs.2.withinBudget hs.1

/-! ## Two retries of one source -/

/-- The lease of a worker at time 0. -/
def workerLease (id : LeaseId) : JobLease := ⟨id, "a", 1, 0, 60, 0⟩

/-- Job 10 may execute two attempts.  It executes one, holds a checkpoint and
fails; its retry 11 executes one and fails; job 10 is retried again as job 12,
which executes a third. -/
def retriedTwice : List Input :=
  [.operation (.createQuickScrapeRun 1 ⟨.quickScrape, .quickScrape, 1, 1⟩
      ⟨10, .quickScrape, 0, none, none, 0, 2⟩ 0),
    .operation (.acquireNext "a" 0 60 true ⟨100, 200⟩),
    .operation (.appendCheckpoint 10 200 (workerLease 100) ⟨1, 1, 1⟩ 0),
    .operation (.failTerminal 10 (workerLease 100) 0 .handlerFailed),
    .action (.retry fun _ => .ok 1) 10 11 0,
    .operation (.acquireNext "a" 0 60 true ⟨101, 201⟩),
    .operation (.failTerminal 11 (workerLease 101) 0 .handlerFailed),
    .action (.retry fun _ => .ok 1) 10 12 0,
    .operation (.acquireNext "a" 0 60 true ⟨102, 202⟩)]

/-- The first retry is paid for. -/
theorem withinBudget_throughout_retry :
    Throughout retryStep WithinBudget .empty (retriedTwice.take 7) :=
  withinBudget_throughout (retriedTwice.take 7) (by decide +kernel)

/-- The second retry is not: three attempts are executed for a budget of two. -/
theorem retriedTwice_not_withinBudget :
    ¬ Throughout retryStep WithinBudget .empty retriedTwice := by
  intro h
  have hend := h.atEnd
  have hsource : ∃ job ∈ (after retryStep .empty retriedTwice).jobs.rows, job.id = 10 ∧
      job.maxAttempts = 2 ∧
      isProductionJob (after retryStep .empty retriedTwice) job = false := by
    decide +kernel
  obtain ⟨job, hjob, hid, hmax, houtside⟩ := hsource
  have hle := hend job hjob houtside 1
  have hexecuted : executedAttempts (after retryStep .empty retriedTwice) 1 10 = 3 := by
    decide +kernel
  rw [hid, hmax, hexecuted] at hle
  exact absurd hle (by decide)

end Erabi.Queue

/-
# Requeue and resume

The queue puts an interrupted production job back because its attempt holds a
checkpoint.  What the next attempt continues is decided by the crawl stage, step by
step: from the job kind, the checkpoints of the job and its parents, and the rows of
the run.
-/
import Mathlib
import Erabi.Production.Stage

namespace Erabi.Production

open Relational Transaction Transition Queue Traversal

/-! ## The store with its crawl stages -/

/-- A stage that was entered, with the newest checkpoint of the interrupted attempt
before, if there was one. -/
structure StageEntry where
  attemptId : AttemptId
  jobId : JobId
  interrupted : Option CheckpointRecord
  phase : CrawlStagePhase

/-- The database, and the stages that attempts have entered. -/
structure ProductionStore where
  store : TraversalStore
  stages : Table StageEntry AttemptId StageEntry.attemptId

/-- The empty store. -/
def ProductionStore.empty : ProductionStore := ⟨.empty, .empty⟩

/-- What may happen to stages and store. -/
inductive ProductionInput : Type where
  /-- A transaction of any other party, or of a worker after its stage. -/
  | traversal (input : Traversal.Input)
  /-- The running attempt of a production job takes the next step of its stage. -/
  | proceed (jobId : JobId) (now : ℤ)

/-- The stage has handed its traversal over. -/
def CrawlStagePhase.completed : CrawlStagePhase → Bool
  | .ended (.ok _) => true
  | _ => false

/-- An attempt of a production job appends checkpoints once its stage has ended, and all
of them for the run of the job. -/
def mayAppend (state : ProductionStore) (jobId : JobId) (attemptId : AttemptId)
    (identity : CheckpointIdentity) (accepts : CrawlRun → Bool) : Bool :=
  (productionRun state.store.queue jobId).all fun run =>
    (state.stages.find? attemptId).any (fun stage => stage.phase.completed) &&
      identity = checkpointIdentity run && accepts run

/-- The worker appends checkpoints of a run that has its control row, or together with it. -/
def mayPerform (state : ProductionStore) : Traversal.Input → Bool
  | .queue (.operation (.appendCheckpoint jobId attemptId _ identity _)) =>
    mayAppend state jobId attemptId identity fun run => (state.store.controls.find? run.id).isSome
  | .operation _ op => op.checkpoint.all fun initialized =>
      mayAppend state initialized.2.jobId initialized.2.attemptId initialized.2.identity
        fun run => run.id = initialized.1
  | _ => true

section System

variable (frozen : CrawlRunId → Except CrawlStageError FrozenSemantics)

/-- One input of the system. -/
def productionStep (state : ProductionStore) : ProductionInput → ProductionStore
  | .traversal input =>
    if mayPerform state input then { state with store := Traversal.step state.store input }
    else state
  | .proceed jobId now =>
    match turnOf state.store.queue jobId with
    | none => state
    | some turn =>
      match state.stages.find? turn.attempt.id with
      | none => { state with stages := state.stages.put {
          attemptId := turn.attempt.id
          jobId
          interrupted := interruptedCheckpoint state.store.queue jobId
          phase := .ofResult (loadStage frozen state.store jobId) } }
      | some stage =>
        let (phase, store) := advanceStage state.store turn now stage.phase
        { store, stages := state.stages.put { stage with phase } }

/-! ## Agreement -/

/-- The stage goes on with the checkpoint that its job was put back for. -/
def StageEntry.Agrees (stage : StageEntry) : Prop :=
  ∀ checkpoint ∈ stage.interrupted, stage.phase.ContinuesFrom checkpoint

/-- Every stage agrees with the checkpoint it took up. -/
def ProductionStore.Agree (state : ProductionStore) : Prop :=
  ∀ stage ∈ state.stages.rows, stage.Agrees

end System

/-! ## What the stages rest on -/

/-- The checkpoint that a stage has still to go on with. -/
def CrawlStagePhase.checkpoint : CrawlStagePhase → Option CheckpointRecord
  | .starting _ checkpoint => checkpoint
  | .checkpointing _ checkpoint | .preparing _ checkpoint | .restoring _ checkpoint _ =>
    some checkpoint
  | .ended _ => none

/-- The attempt has entered its stage. -/
def Entered (stages : Table StageEntry AttemptId StageEntry.attemptId) (attemptId : AttemptId) :
    Prop := (stages.find? attemptId).isSome

/-- Checkpoints of production jobs are of runs with a control row, and so are those that
the stages have loaded. -/
structure Bound (stages : Table StageEntry AttemptId StageEntry.attemptId)
    (hasControl : CrawlRunId → Prop) (q : QueueStore) : Prop where
  attested : Attested (Entered stages) q
  checkpoints : ∀ c ∈ q.checkpoints, ∀ run, productionRun q c.jobId = some run → hasControl run.id
  working : ∀ stage ∈ stages.rows, (q.jobs.find? stage.jobId).isSome
  owned : ∀ stage ∈ stages.rows, ∃ a ∈ q.attempts.rows,
    a.id = stage.attemptId ∧ a.jobId = stage.jobId
  held : ∀ stage ∈ stages.rows, ∀ record ∈ stage.phase.checkpoint, ∀ run,
    productionRun q stage.jobId = some run →
      record.identity = checkpointIdentity run ∧ hasControl run.id

section Bound

variable {stages : Table StageEntry AttemptId StageEntry.attemptId}
  {hasControl : CrawlRunId → Prop} {new : JobRecord → Prop} {q q' : QueueStore}

theorem Bound.empty : Bound .empty hasControl .empty where
  attested := .empty
  checkpoints _ h := by cases h
  working _ h := by cases h
  owned _ h := by cases h
  held _ h := by cases h

/-- More runs may have a control row. -/
theorem Bound.mono {hasControl' : CrawlRunId → Prop} (h : Bound stages hasControl q)
    (hmono : ∀ runId, hasControl runId → hasControl' runId) : Bound stages hasControl' q :=
  { h with
    checkpoints := fun c hc run hrun => hmono _ (h.checkpoints c hc run hrun)
    held := fun stage hstage record hrecord run hrun =>
      (h.held stage hstage record hrecord run hrun).imp_right (hmono _) }

/-- A statement of the queue keeps stages bound. -/
theorem Bound.statement (h : Bound stages hasControl q) (hs : Statement new q q') :
    Bound stages hasControl q' := by
  refine ⟨h.attested.statement hs, ?_, ?_, ?_, ?_⟩
  · intro c hc run' hrun'
    rw [statement_checkpoints hs] at hc
    obtain ⟨a, ha, _, hjob⟩ := h.attested.owned c hc
    obtain ⟨run, hrun, hid, _⟩ := statement_productionRun hs h.attested.attached
      (h.attested.covered c hc) ⟨a, ha, hjob⟩ hrun'
    rw [← hid]
    exact h.checkpoints c hc run hrun
  · intro stage hstage
    obtain ⟨job, hjob⟩ := Option.isSome_iff_exists.mp (h.working stage hstage)
    obtain ⟨a, ha, _, hof⟩ := h.owned stage hstage
    obtain ⟨job', hjob', _⟩ := statement_job hs hjob ⟨a, ha, hof⟩
    rw [hjob']
    rfl
  · intro stage hstage
    obtain ⟨a, ha, hid, hjob⟩ := h.owned stage hstage
    obtain ⟨a', ha', hid', hjob', _⟩ := statement_attempt hs ha
    exact ⟨a', ha', hid'.trans hid, hjob'.trans hjob⟩
  · intro stage hstage record hrecord run' hrun'
    obtain ⟨a, ha, _, hjob⟩ := h.owned stage hstage
    obtain ⟨run, hrun, hid, hsnapshot⟩ := statement_productionRun hs h.attested.attached
      (h.working stage hstage) ⟨a, ha, hjob⟩ hrun'
    obtain ⟨hidentity, hcontrol⟩ := h.held stage hstage record hrecord run hrun
    exact ⟨hidentity.trans (checkpointIdentity_congr hid hsnapshot), hid ▸ hcontrol⟩

theorem Bound.statements (h : Bound stages hasControl q) (hs : Statements new q q') :
    Bound stages hasControl q' := by
  induction hs with
  | refl => exact h
  | tail _ hstatement ih => exact ih.statement hstatement

/-- A checkpoint is appended from within an entered stage, for a run with a control row. -/
theorem Bound.append (h : Bound stages hasControl q) (hq : Consistent q) {jobId : JobId}
    {attemptId : AttemptId} {lease : JobLease} {identity : CheckpointIdentity} {createdAt : ℤ}
    {record : CheckpointRecord}
    (happend : appendCheckpoint jobId attemptId lease identity createdAt q = .ok (record, q'))
    (hmay : ∀ run, productionRun q jobId = some run →
      Entered stages attemptId ∧ identity = checkpointIdentity run ∧ hasControl run.id) :
    Bound stages hasControl q' := by
  have hattested := h.attested.append hq happend fun run hrun =>
    ⟨(hmay run hrun).1, (hmay run hrun).2.1⟩
  obtain ⟨hjob, _, _, _, _, rfl⟩ := appendCheckpoint_eq_ok happend
  refine ⟨hattested, ?_, h.working, h.owned, h.held⟩
  intro c hc run hrun
  rcases List.mem_append.mp hc with hold | hnew
  · exact h.checkpoints c hold run hrun
  · obtain rfl := List.mem_singleton.mp hnew
    rw [hjob] at hrun
    exact (hmay run hrun).2.2

/-- A stage takes its next step: its attempt stays, and so does its checkpoint. -/
theorem Bound.put (h : Bound stages hasControl q) {stage : StageEntry}
    (hworking : (q.jobs.find? stage.jobId).isSome)
    (howned : ∃ a ∈ q.attempts.rows, a.id = stage.attemptId ∧ a.jobId = stage.jobId)
    (hheld : ∀ record ∈ stage.phase.checkpoint, ∀ run, productionRun q stage.jobId = some run →
      record.identity = checkpointIdentity run ∧ hasControl run.id) :
    Bound (stages.put stage) hasControl q := by
  have hmem : ∀ {other}, other ∈ (stages.put stage).rows → other ∈ stages.rows ∨ other = stage :=
    fun hother => (Table.mem_put.mp hother).imp_left And.left
  refine ⟨h.attested.mono fun attemptId hentered => ?_, h.checkpoints, ?_, ?_, ?_⟩
  · show ((stages.put stage).find? attemptId).isSome = true
    rw [Table.find?_put]
    split
    · rfl
    · exact hentered
  · intro other hother
    rcases hmem hother with hold | rfl
    · exact h.working other hold
    · exact hworking
  · intro other hother
    rcases hmem hother with hold | rfl
    · exact h.owned other hold
    · exact howned
  · intro other hother
    rcases hmem hother with hold | rfl
    · exact h.held other hold
    · exact hheld

end Bound

/-! ## Steps of the store -/

/-- Jobs and checkpoints of the store agree with the stages that were entered. -/
structure Sound (state : ProductionStore) : Prop where
  consistent : Consistent state.store.queue
  bound : Bound state.stages (fun runId => (state.store.controls.find? runId).isSome)
    state.store.queue
  resolvable : Resolvable state.store
  unrecorded : ∀ jobId, Unrecorded jobId state.store

theorem Sound.empty : Sound .empty where
  consistent := .empty
  bound := .empty
  resolvable := .empty
  unrecorded _ _ := rfl

/-- What an append for a production job has to come with. -/
def AppendsFor (state : ProductionStore) (jobId : JobId) (attemptId : AttemptId)
    (identity : CheckpointIdentity) (accepts : CrawlRun → Prop) : Prop :=
  ∀ run, productionRun state.store.queue jobId = some run →
    Entered state.stages attemptId ∧ identity = checkpointIdentity run ∧ accepts run

/-- Whatever the input appends, it appends from within a stage and for the run. -/
def Permitted (state : ProductionStore) : Traversal.Input → Prop
  | .queue (.operation (.appendCheckpoint jobId attemptId _ identity _)) =>
    AppendsFor state jobId attemptId identity fun run =>
      (state.store.controls.find? run.id).isSome
  | .operation _ op => ∀ initialized ∈ op.checkpoint,
      AppendsFor state initialized.2.jobId initialized.2.attemptId initialized.2.identity
        fun run => run.id = initialized.1
  | _ => True

section Steps

variable {state : ProductionStore} {frozen : CrawlRunId → Except CrawlStageError FrozenSemantics}

/-- The check on who appends a checkpoint. -/
theorem appendsFor_of_mayAppend {jobId : JobId} {attemptId : AttemptId}
    {identity : CheckpointIdentity} {accepts : CrawlRun → Bool}
    (h : mayAppend state jobId attemptId identity accepts = true) :
    AppendsFor state jobId attemptId identity fun run => accepts run = true := by
  intro run hrun
  unfold mayAppend at h
  rw [hrun] at h
  simp only [Option.all_some, Bool.and_eq_true, decide_eq_true_eq] at h
  obtain ⟨⟨hstage, hidentity⟩, haccepts⟩ := h
  obtain ⟨stage, hfind, _⟩ := (Option.any_eq_true _ _).mp hstage
  refine ⟨?_, hidentity, haccepts⟩
  show (state.stages.find? attemptId).isSome = true
  rw [hfind]
  rfl

/-- The check on who performs an operation. -/
theorem permitted_of_mayPerform {input : Traversal.Input} (h : mayPerform state input = true) :
    Permitted state input := by
  unfold mayPerform at h
  split at h
  · exact appendsFor_of_mayAppend h
  · rename_i env op
    intro initialized hinitialized run hrun
    have hmay := (Option.all_eq_true _ _).mp h initialized hinitialized
    obtain ⟨hentered, hidentity, hid⟩ := appendsFor_of_mayAppend hmay run hrun
    exact ⟨hentered, hidentity, of_decide_eq_true hid⟩
  · rename_i hnot₁ hnot₂
    unfold Permitted
    split
    · exact absurd rfl (hnot₁ _ _ _ _ _)
    · exact absurd rfl (hnot₂ _ _)
    · trivial

/-- Ends of executions and actions append no checkpoint. -/
theorem appends_of_operation? {q : QueueStore} {input : Queue.Input} {op : Queue.Operation}
    (hop : input.operation? q = some op) (hinput : input ≠ .operation op) :
    op.appends = false := by
  cases input with
  | operation op' =>
    cases hop
    exact absurd rfl hinput
  | executeAcquired execution =>
    have hends := endOperation_ends hop
    cases op with
    | appendCheckpoint => cases hends
    | _ => rfl
  | action requested jobId childId now =>
    unfold Input.operation? at hop
    dsimp only at hop
    split at hop
    · cases hop
    · cases hop
      rfl

/-- A step of the queue keeps what the stages rest on. -/
theorem Sound.queueStep (h : Sound state) {input : Queue.Input}
    (hpermitted : Permitted state (.queue input)) :
    Bound state.stages (fun runId => (state.store.controls.find? runId).isSome)
      (Queue.step state.store.queue input) := by
  refine step_induction h.bound fun op hop => ?_
  by_cases happends : op.appends = false
  · exact h.bound.statements (apply_performs _ happends fun _ _ => trivial)
  · have hinput : input = .operation op := by
      by_contra hne
      exact happends (appends_of_operation? hop hne)
    subst hinput
    cases op with
    | appendCheckpoint jobId attemptId lease identity createdAt =>
      show Bound _ _ ((appendCheckpoint jobId attemptId lease identity createdAt).commit _).2
      rcases happend : appendCheckpoint jobId attemptId lease identity createdAt
        state.store.queue with e | ⟨record, q'⟩
      · rw [commit_of_error happend]
        exact h.bound
      · rw [commit_of_ok happend]
        exact h.bound.append h.consistent happend hpermitted
    | _ => exact absurd rfl happends

/-- **Every permitted step of the store** keeps what the stages rest on. -/
theorem Sound.step (h : Sound state) {input : Traversal.Input}
    (hpermitted : Permitted state input) :
    Sound { state with store := Traversal.step state.store input } := by
  have hcontrols : ∀ runId, (state.store.controls.find? runId).isSome →
      ((Traversal.step state.store input).controls.find? runId).isSome :=
    fun runId => step_controls state.store input runId
  refine ⟨?_, ?_, step_resolvable _ input h.resolvable,
    fun jobId => step_unrecorded _ input (h.unrecorded jobId)⟩
  · cases input with
    | queue input => exact step_consistent _ input h.consistent
    | operation env op =>
      rcases apply_supplies env state.store op with hsupplies | ⟨_, _, _, hinitialized⟩
      · exact hsupplies.queue.symm ▸ h.consistent
      · obtain ⟨record, happend⟩ := hinitialized.append
        obtain ⟨_, _, _, _, _, hqueue⟩ := appendCheckpoint_eq_ok happend
        show Consistent (Traversal.apply env state.store op).queue
        rw [hqueue]
        exact h.consistent.of_same rfl rfl rfl
  · cases input with
    | queue input => exact h.queueStep hpermitted
    | operation env op =>
      have hmono := h.bound.mono hcontrols
      rcases apply_supplies env state.store op with
        hsupplies | ⟨runId, checkpoint, hcheckpoint, hinitialized⟩
      · show Bound _ _ (Traversal.apply env state.store op).queue
        rw [hsupplies.queue]
        exact hmono
      · obtain ⟨record, happend⟩ := hinitialized.append
        refine hmono.append h.consistent happend fun run hrun => ?_
        obtain ⟨hentered, hidentity, hid⟩ := hpermitted (runId, checkpoint) hcheckpoint run hrun
        refine ⟨hentered, hidentity, ?_⟩
        rw [hid]
        exact hinitialized.control

/-- The stage of a running attempt is one for its job. -/
theorem Sound.stage_jobId (h : Sound state) {jobId : JobId} {turn : StageTurn}
    {stage : StageEntry} (hturn : turnOf state.store.queue jobId = some turn)
    (hstage : state.stages.find? turn.attempt.id = some stage) : stage.jobId = jobId := by
  obtain ⟨hmem, hid, _⟩ := runningAttemptOf_eq_some (turnOf_eq_some.mp hturn).2.2
  obtain ⟨a, ha, haid, hajob⟩ := h.bound.owned stage (Table.mem_of_find? hstage)
  have hsame : a = turn.attempt := state.store.queue.attempts.eq_of_key_eq ha hmem
    (haid.trans (Table.key_of_find? hstage))
  rw [← hajob, hsame, hid]

/-- Renaming errors does not change what is committed. -/
theorem mapError_commit {σ ε ε' α : Type} {f : ε → ε'} {x : Transaction σ ε α} {q : σ} :
    ((mapError f x).commit q).2 = (x.commit q).2 := by
  unfold mapError Transaction.commit
  dsimp only
  rcases x q with e | ⟨a, q'⟩ <;> rfl

/-- The start of the run is one operation of the queue, which appends nothing. -/
theorem startRun_step (kind : JobKind) (runId : CrawlRunId) (q : QueueStore) :
    ((startRun kind runId).commit q).2 = Queue.step q (.operation (.transitionRecoveryStatus runId)) ∨
      ((startRun kind runId).commit q).2 =
        Queue.step q (.operation (.transitionExecutionStatus runId .running)) := by
  unfold startRun
  split
  · exact Or.inl mapError_commit
  · exact Or.inr mapError_commit

/-- What a step of a stage writes is one permitted step of the store. -/
theorem advanceStage_store (h : Sound state) {jobId : JobId} {turn : StageTurn} {now : ℤ}
    {stage : StageEntry} (hturn : turnOf state.store.queue jobId = some turn)
    (hstage : state.stages.find? turn.attempt.id = some stage) :
    (advanceStage state.store turn now stage.phase).2 = state.store ∨
      ∃ input, Permitted state input ∧
        (advanceStage state.store turn now stage.phase).2 = Traversal.step state.store input := by
  obtain ⟨hjob, _, _⟩ := turnOf_eq_some.mp hturn
  have hid : turn.job.id = jobId := Table.key_of_find? hjob
  -- each phase is at most one operation of the store
  cases hphase : stage.phase with
  | starting semantic checkpoint =>
    have hstore : (advanceStage state.store turn now (.starting semantic checkpoint)).2 =
        { state.store with
          queue := ((startRun turn.job.kind turn.run.id).commit state.store.queue).2 } := rfl
    rw [hstore]
    refine Or.inr ?_
    rcases startRun_step turn.job.kind turn.run.id state.store.queue with hstep | hstep
    · exact ⟨.queue (.operation (.transitionRecoveryStatus turn.run.id)), trivial, by rw [hstep]; rfl⟩
    · exact ⟨.queue (.operation (.transitionExecutionStatus turn.run.id .running)), trivial,
        by rw [hstep]; rfl⟩
  | checkpointing semantic record =>
    cases hlease : turn.job.lease with
    | none =>
      left
      simp only [advanceStage, hlease]
    | some lease =>
      refine Or.inr ⟨.queue (.operation (.appendCheckpoint turn.job.id turn.attempt.id lease
        record.identity now)), fun run hrun => ?_, ?_⟩
      · rw [hid, ← h.stage_jobId hturn hstage] at hrun
        obtain ⟨hidentity, hcontrol⟩ := h.bound.held stage (Table.mem_of_find? hstage) record
          (by rw [hphase]; rfl) run hrun
        refine ⟨?_, hidentity, hcontrol⟩
        show (state.stages.find? turn.attempt.id).isSome = true
        rw [hstage]
        rfl
      · simp only [advanceStage, hlease]
        rfl
  -- the kind of the job decides whether anything is prepared at all
  | preparing semantic record =>
    cases hkind : recoveryActionKind turn.job.kind with
    | none =>
      left
      simp only [advanceStage, hkind]
    | some kind =>
      refine Or.inr ⟨.operation sampleEnvironment (.prepareRecoveryAction turn.job.id
        turn.attempt.id turn.run.id kind now), fun _ hnone => (by cases hnone), ?_⟩
      simp only [advanceStage, hkind]
      rfl
  | restoring => exact Or.inl rfl
  | ended => exact Or.inl rfl

/-- A step of a stage loads no other checkpoint. -/
theorem advanceStage_checkpoint {s : TraversalStore} {turn : StageTurn} {now : ℤ}
    {phase : CrawlStagePhase} {record : CheckpointRecord}
    (h : record ∈ (advanceStage s turn now phase).1.checkpoint) : record ∈ phase.checkpoint := by
  cases phase with
  | starting semantic checkpoint =>
    unfold advanceStage at h
    dsimp only at h
    split at h
    · cases checkpoint with
      | none => cases h
      | some loaded =>
        unfold afterStart at h
        dsimp only at h
        split at h <;> exact h
    · cases h
  | checkpointing semantic checkpoint =>
    unfold advanceStage at h
    dsimp only at h
    split at h
    · cases h
    · dsimp only at h
      split at h
      · exact h
      · cases h
  | preparing semantic checkpoint =>
    unfold advanceStage at h
    dsimp only at h
    split at h
    · cases h
    · dsimp only at h
      split at h
      · exact h
      · cases h
  | restoring => cases h
  | ended => cases h

/-- A stage loads checkpoints of its run only, and only when the run has its control row. -/
theorem loadStage_checkpoint {s : TraversalStore} {jobId : JobId} {record : CheckpointRecord}
    (h : record ∈ (CrawlStagePhase.ofResult (loadStage frozen s jobId)).checkpoint)
    {run : CrawlRun} (hrun : productionRun s.queue jobId = some run) :
    record.identity = checkpointIdentity run ∧ (s.controls.find? run.id).isSome := by
  obtain ⟨job, hjob, hof⟩ := Option.bind_eq_some_iff.mp hrun
  rw [loadStage_eq hjob hof] at h
  rcases hresult : frozen run.id >>= fun semantic => loadCheckpoint s.queue job >>= fun checkpoint =>
      acceptCheckpoint semantic s job.kind run checkpoint with e | phase
  · rw [hresult] at h
    cases h
  · rw [hresult] at h
    obtain ⟨semantic, _, hrest⟩ := except_bind_eq_ok.mp hresult
    obtain ⟨checkpoint, _, haccept⟩ := except_bind_eq_ok.mp hrest
    cases checkpoint with
    | none =>
      unfold acceptCheckpoint at haccept
      dsimp only at haccept
      split at haccept
      · cases haccept
      · split at haccept
        · split at haccept
          · cases haccept
            cases h
          · cases haccept
        · cases haccept
          cases h
    | some loaded =>
      obtain ⟨_, hvalid, hphase⟩ := except_bind_eq_ok.mp haccept
      cases hphase
      obtain rfl : loaded = record := Option.some.inj h
      exact validateCrawlRecovery_identity hvalid

/-- **Every step** of the system keeps what the stages rest on. -/
theorem Sound.productionStep (h : Sound state) (input : ProductionInput) :
    Sound (productionStep frozen state input) := by
  cases input with
  | traversal input =>
    unfold Production.productionStep
    dsimp only
    split
    · rename_i hmay
      exact h.step (permitted_of_mayPerform hmay)
    · exact h
  | proceed jobId now =>
    unfold Production.productionStep
    dsimp only
    split
    · exact h
    · rename_i turn hturn
      obtain ⟨hjob, hrun, hattempt⟩ := turnOf_eq_some.mp hturn
      obtain ⟨hmem, hid, _⟩ := runningAttemptOf_eq_some hattempt
      split
      · refine ⟨h.consistent, h.bound.put ?_ ⟨turn.attempt, hmem, rfl, hid⟩ ?_, h.resolvable,
          h.unrecorded⟩
        · show (state.store.queue.jobs.find? jobId).isSome = true
          rw [hjob]
          rfl
        · exact fun record hrecord run hof => loadStage_checkpoint hrecord hof
      · rename_i stage hstage
        have hrow := Table.mem_of_find? hstage
        have hkept : Sound { state with
            store := (advanceStage state.store turn now stage.phase).2 } := by
          rcases advanceStage_store h hturn hstage with hsame | ⟨input, hpermitted, hstep⟩
          · rw [hsame]
            exact h
          · rw [hstep]
            exact h.step hpermitted
        refine ⟨hkept.consistent, hkept.bound.put (hkept.bound.working stage hrow)
          (hkept.bound.owned stage hrow) ?_, hkept.resolvable, hkept.unrecorded⟩
        intro record hrecord run hof
        exact hkept.bound.held stage hrow record (advanceStage_checkpoint hrecord) run hof

/-! ## Agreement, step by step -/

end Steps

/-! ## A rerun that was put back -/

/-- The error a stage has ended with. -/
def CrawlStagePhase.failure : CrawlStagePhase → Option CrawlStageError
  | .ended (.error e) => some e
  | _ => none

/-- A stage that continues has not failed. -/
theorem CrawlStagePhase.failure_of_continuesFrom {phase : CrawlStagePhase}
    {record : CheckpointRecord} (h : phase.ContinuesFrom record) : phase.failure = none := by
  cases phase with
  | ended result =>
    obtain ⟨traversal, rfl⟩ := h
    rfl
  | _ => rfl

/-- A text as a number. -/
def textCode (value : String) : Crawl.Text := Encodable.encode (value.toList.map Char.toNat)

/-- Texts are known by their codes. -/
theorem textCode_injective : Function.Injective textCode := by
  intro a b h
  have hcodes : a.toList.map Char.toNat = b.toList.map Char.toNat := Encodable.encode_injective h
  exact String.toList_inj.mp (List.map_injective_iff.mpr (fun _ _ => Char.toNat_inj.mp) hcodes)

/-- The frozen version of the plain site, for every run. -/
def plainFrozen : FrozenSemantics where
  ctx := Crawl.roomyContext
  text := textCode
  textInjective := textCode_injective
  seedId id := if id = "seed" then some 10 else none
  pageTypeId id := if id = "page" then some 0 else none
  transitionId id := if id = "transition" then some 20 else none
  transitionText _ := "transition"

/-- A seed of a run as its initialization stores it. -/
def seedRoot (runId : CrawlRunId) (id : UrlStateId) (url : String) (order : ℕ) :
    CrawlUrlStateRecord :=
  { sampleRoot id url order with crawlRunId := runId, firstDiscoveredUrlId := some url }

/-- The discovery of a seed. -/
def seedEvidence (runId : CrawlRunId) (url : String) : DiscoveredUrlRecord :=
  ⟨url, runId, none, none, url, url, "ADMITTED", "", ""⟩

/-- The attempt stores two seeds of its run together with its first checkpoint. -/
def initializeSeeds (runId : CrawlRunId) (jobId : JobId) (attemptId : AttemptId)
    (lease : JobLease) (createdAt : ℤ) : ProductionInput :=
  .traversal (.operation sampleEnvironment (.initializeRunStateWithCheckpointAndEvidence runId
    [seedRoot runId "root" "u" 0, seedRoot runId "other" "v" 1]
    [seedEvidence runId "u", seedEvidence runId "v"]
    { sampleControl with crawlRunId := runId } ⟨[], []⟩
    ⟨jobId, attemptId, lease, ⟨runId, 1, 1⟩, createdAt⟩))

/-- A production crawl is created for run 1 as job 10. -/
def createRun : ProductionInput :=
  .traversal (.queue (.operation (.createProductionRun 1
    ⟨.productionRun, .crawlerVersion, 1, 1⟩ ⟨10, .productionCrawl, 0, none, none, 0, 3⟩ 0)))

/-- The worker takes the next job, under a lease of sixty. -/
def takeJob (now : ℤ) (leaseId attemptId : ℕ) : ProductionInput :=
  .traversal (.queue (.operation (.acquireNext "a" now 60 true ⟨leaseId, attemptId⟩)))

/-- Storage pressure interrupts the job that was taken then. -/
def pressJob (jobId : JobId) (takenAt : ℤ) (leaseId : ℕ) (now : ℤ) : ProductionInput :=
  .traversal (.queue (.operation (.requeueAfterStoragePressure jobId
    ⟨leaseId, "a", 1, takenAt, takenAt + 60, takenAt⟩ now)))

/-- A production crawl that storage pressure puts back goes on with its two seeds. -/
example : ∃ stage ∈ (after (productionStep fun _ => .ok plainFrozen) .empty
    [createRun, takeJob 20 100 200, .proceed 10 21, .proceed 10 22,
      initializeSeeds 1 10 200 ⟨100, "a", 1, 20, 80, 20⟩ 30, pressJob 10 20 100 40,
      takeJob 50 101 201, .proceed 10 51, .proceed 10 52, .proceed 10 53]).stages.rows,
    stage.interrupted.isSome ∧ stage.phase.completed := by
  decide +kernel

/-- A stage that was entered after an interruption and has failed does not agree. -/
theorem not_agree_of_failure {state : ProductionStore}
    (h : ∃ stage ∈ state.stages.rows, stage.interrupted.isSome ∧ stage.phase.failure.isSome) :
    ¬ state.Agree := by
  intro hagree
  obtain ⟨stage, hmem, hinterrupted, hfailure⟩ := h
  obtain ⟨record, hrecord⟩ := Option.isSome_iff_exists.mp hinterrupted
  rw [CrawlStagePhase.failure_of_continuesFrom (hagree stage hmem record hrecord)] at hfailure
  cases hfailure

/-- A retry that has selected both seeds, and fetched the first as a redirect to the
second when storage pressure puts it back.  Its next attempt reads the selection back with
a unit in it that has no place in the traversal any more. -/
def redirectedRetry : List ProductionInput :=
  [createRun,
    takeJob 0 100 200,
    .proceed 10 1,
    .proceed 10 2,
    initializeSeeds 1 10 200 ⟨100, "a", 1, 0, 60, 0⟩ 3,
    .traversal (.queue (.operation (.failTerminalProduction 10 ⟨100, "a", 1, 0, 60, 0⟩ 4
      .handlerFailed))),
    .traversal (.queue (.action (.retry fun _ => .ok 3) 10 11 5)),
    takeJob 10 101 201,
    .proceed 11 11,
    .proceed 11 12,
    .proceed 11 13,
    .proceed 11 14,
    .proceed 11 15,
    .traversal (.operation sampleEnvironment (.applyDiscoveryDeltaWithProjection 1
      { workDelta [] [] sampleControl [] with
        redirects := [⟨"root", "other", "u", "v"⟩] })),
    pressJob 11 10 101 20,
    takeJob 30 102 202,
    .proceed 11 31,
    .proceed 11 32,
    .proceed 11 33,
    .proceed 11 34,
    .proceed 11 35]

/-- A retry whose unit was redirected does not continue. -/
theorem redirectedRetry_disagrees : ¬ Throughout (productionStep fun _ => .ok plainFrozen)
    ProductionStore.Agree .empty redirectedRetry := by
  intro h
  have hstage : ∃ stage ∈ (after (productionStep fun _ => .ok plainFrozen) .empty
      redirectedRetry).stages.rows, stage.interrupted = some ⟨11, 201, ⟨1, 1, 1⟩, 1, 13⟩ ∧
        stage.phase.failure = some .traversalDepthMissing := by
    decide +kernel
  obtain ⟨stage, hmem, hinterrupted, hfailure⟩ := hstage
  refine not_agree_of_failure ⟨stage, hmem, ?_, ?_⟩ h.atEnd
  · rw [hinterrupted]
    rfl
  · rw [hfailure]
    rfl

end Erabi.Production

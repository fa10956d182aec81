/-
# The crawl stage

How an attempt of a production job comes to the traversal it drives: it loads the run
and the checkpoint its lineage holds, starts the run, and restores the traversal from
the rows of the run, for a retry after it has recorded its selection.  Every step is a
transaction of its own, after which the worker may be gone.
-/
import Mathlib
import Erabi.Production.Attestation
import Erabi.Production.Restorable
import Erabi.Traversal.Preparation

namespace Erabi.Production

open Relational Transaction Transition Queue Traversal

/-! ## Phases -/

/-- What the stage goes on with: the steps after the crawl, the traversal restored from
the rows behind a checkpoint, or a new traversal from the seeds. -/
inductive CrawlStageStart : Type where
  | readyForPostCrawl
  | continued (checkpoint : CheckpointRecord) (traversal : Crawl.SemanticTraversal)
  | fresh (traversal : Crawl.SemanticTraversal)

/-- What the stage does next, with the frozen version and the checkpoint it has loaded. -/
inductive CrawlStagePhase : Type where
  | starting (semantic : FrozenSemantics) (checkpoint : Option CheckpointRecord)
  | checkpointing (semantic : FrozenSemantics) (checkpoint : CheckpointRecord)
  | preparing (semantic : FrozenSemantics) (checkpoint : CheckpointRecord)
  | restoring (semantic : FrozenSemantics) (checkpoint : CheckpointRecord)
      (selectedStateIds : Option (List UrlStateId))
  | ended (result : Except CrawlStageError CrawlStageStart)

/-- The next phase, or the end of the stage. -/
def CrawlStagePhase.ofResult : Except CrawlStageError CrawlStagePhase → CrawlStagePhase
  | .ok phase => phase
  | .error e => .ended (.error e)

/-- The stage goes on with the checkpoint, or it has. -/
def CrawlStagePhase.ContinuesFrom (record : CheckpointRecord) : CrawlStagePhase → Prop
  | .starting _ checkpoint => checkpoint = some record
  | .checkpointing _ checkpoint | .preparing _ checkpoint | .restoring _ checkpoint _ =>
    checkpoint = record
  | .ended result => ∃ traversal, result = .ok (.continued record traversal)

/-! ## Loading -/

section Loading

-- The frozen version and the limits of a run, which no job changes.
variable (frozen : CrawlRunId → Except CrawlStageError FrozenSemantics)

/-- Every admitted discovery has an execution of its own. -/
def durableProductionCompletionWithoutCheckpoint (executions : List CrawlExecutionRecord)
    (discovered : List DiscoveredUrlRecord) : Bool :=
  let admitted := discovered.filter fun record =>
    record.status = "ADMITTED" || record.status = "EXECUTION_RECONCILED"
  !admitted.isEmpty && admitted.all fun record =>
    executions.any fun execution =>
      execution.discoveredUrlId = some record.id &&
        execution.requestedUrl = record.originalUrl &&
        execution.canonicalUrl = record.canonicalUrl

/-- `load_frozen_production_semantics` and `production_limits`: only a run of a crawler
version has frozen semantics. -/
def loadFrozen (run : CrawlRun) : Except CrawlStageError FrozenSemantics :=
  if run.snapshot.configuration = .crawlerVersion then frozen run.id
  else .error .frozenSemanticsLoadFailed

/-- `list_for_run` -/
def executionsOf (s : TraversalStore) (runId : CrawlRunId) : List CrawlExecutionRecord :=
  (s.executions.select fun row => row.crawlRunId = runId).map CrawlExecutionRow.toCrawlExecutionRecord

/-- `discovered_urls` -/
def discoveredOf (s : TraversalStore) (runId : CrawlRunId) : List DiscoveredUrlRecord :=
  s.discovered.select fun record => record.crawlRunId = runId

/-- The evidence that a recovery is validated against. -/
def recoveryEvidence (s : TraversalStore) (runId : CrawlRunId) (work : List CrawlUrlStateRow) :
    Finalization.DurableEvidence where
  executions := executionsOf s runId
  discoveredUrls := discoveredOf s runId
  control := s.controls.find? runId
  work := some (work.map fun row => { row with seedProvenance := readSeedProvenance s row.id })

/-- `validate_crawl_recovery`: the checkpoint is one of the run, and its rows describe
one coherent crawl. -/
def validateCrawlRecovery (semantic : FrozenSemantics) (s : TraversalStore) (run : CrawlRun)
    (record : CheckpointRecord) : Except CrawlStageError Unit := do
  let work ← okOr (reconstructRecoveryState s run.id) .recoveryStateInvalid
  okOr (if record.identity = checkpointIdentity run then some () else none)
    .checkpointIdentityMismatch
  let _ ← okOr (Finalization.reconstructCrawlStructuralFacts
    (fun value => semantic.ctx.urls.parses (semantic.text value)) run.snapshot run.status
    (recoveryEvidence s run.id work)).toOption .recoveryStateInvalid
  return ()

/-- The checkpoint a stage continues from: a rerun must not load those of its source, and
loads none at all.  A walk that does not end is an error like one that fails. -/
def loadCheckpoint (s : QueueStore) (job : JobRecord) :
    Except CrawlStageError (Option CheckpointRecord) :=
  if job.kind = .rerunFullCrawl then .ok none
  else match latestCheckpointForLineage s s.jobs.rows.length job.id with
    | some (.ok checkpoint) => .ok checkpoint
    | _ => .error .checkpointLoadFailed

/-- The decision on the checkpoint: without one a run that has evidence is complete or
cannot be recovered, and a continuation cannot start. -/
def acceptCheckpoint (semantic : FrozenSemantics) (s : TraversalStore) (kind : JobKind)
    (run : CrawlRun) : Option CheckpointRecord → Except CrawlStageError CrawlStagePhase
  | none =>
    if isContinuationKind kind then .error .checkpointMissing
    else if executionsOf s run.id ≠ [] ∨ discoveredOf s run.id ≠ [] then
      if durableProductionCompletionWithoutCheckpoint (executionsOf s run.id)
          (discoveredOf s run.id) then .ok (.ended (.ok .readyForPostCrawl))
      else .error .recoveryFrontierMissing
    else .ok (.starting semantic none)
  | some record => do
    validateCrawlRecovery semantic s run record
    return .starting semantic (some record)

/-- `run_crawl_stage` up to the start of the run. -/
def loadStage (s : TraversalStore) (jobId : JobId) : Except CrawlStageError CrawlStagePhase := do
  let job ← okOr (s.queue.jobs.find? jobId) .jobLoadFailed
  okOr (if isProductionJobKind job.kind then some () else none) .jobKindUnsupported
  let runId ← okOr job.crawlRunId .runIdInvalid
  let run ← okOr (s.queue.runs.find? runId) .runSnapshotLoadFailed
  let semantic ← loadFrozen frozen run
  let checkpoint ← loadCheckpoint s.queue job
  acceptCheckpoint semantic s job.kind run checkpoint

end Loading

/-! ## From the start of the run to the traversal -/

/-- The run is put to `RUNNING` by the recovery or by the execution transition. -/
def startRun (kind : JobKind) (runId : CrawlRunId) : Transaction QueueStore CrawlStageError Unit :=
  if isContinuationKind kind then
    mapError (fun _ => .runRecoveryTransitionFailed) (transitionRecoveryStatus runId)
  else
    mapError (fun _ => .runExecutionTransitionFailed) (transitionExecutionStatus runId .running)

/-- The action that a job of a retry records, if it is one. -/
def recoveryActionKind (kind : JobKind) : Option CrawlRecoveryActionKind :=
  if kind = .retry then some .retry
  else if kind = .retryFailedParts then some .retryFailedParts
  else none

/-- What follows the start of the run.  Without a checkpoint the run has no evidence yet,
and the traversal starts from its seeds. -/
def afterStart (semantic : FrozenSemantics) (kind : JobKind) :
    Option CheckpointRecord → CrawlStagePhase
  | none =>
    .ended (match Crawl.forFrozenSnapshot semantic.ctx with
      | .ok traversal => .ok (.fresh traversal)
      | .error _ => .error .traversalInitializationFailed)
  | some record =>
    if (recoveryActionKind kind).isSome then .checkpointing semantic record
    else .restoring semantic record none

/-- The running attempt of a production job, with its job and its run. -/
structure StageTurn where
  job : JobRecord
  run : CrawlRun
  attempt : JobAttempt

/-- One step of the stage after it has loaded. -/
def advanceStage (s : TraversalStore) (turn : StageTurn) (now : ℤ) :
    CrawlStagePhase → CrawlStagePhase × TraversalStore
  | .starting semantic checkpoint =>
    let (result, queue) := (startRun turn.job.kind turn.run.id).commit s.queue
    (match result with
      | .ok () => afterStart semantic turn.job.kind checkpoint
      | .error e => .ended (.error e), { s with queue })
  | .checkpointing semantic record =>
    match turn.job.lease with
    | none => (.ended (.error .checkpointPersistFailed), s)
    | some lease =>
      let (result, queue) :=
        (appendCheckpoint turn.job.id turn.attempt.id lease record.identity now).commit s.queue
      (match result with
        | .ok _ => .preparing semantic record
        | .error _ => .ended (.error .checkpointPersistFailed), { s with queue })
  | .preparing semantic record =>
    match recoveryActionKind turn.job.kind with
    | none => (.ended (.error .recoveryActionPersistFailed), s)
    | some kind =>
      let (result, s') :=
        (prepareRecoveryAction turn.job.id turn.attempt.id turn.run.id kind now).commit s
      (match result with
        | .ok selection => .restoring semantic record (some selection.stateIds)
        | .error _ => .ended (.error .recoveryActionPersistFailed), s')
  | .restoring semantic record selectedStateIds =>
    (.ended ((restoreTraversal semantic s turn.run.id selectedStateIds).map
      (.continued record)), s)
  | .ended result => (.ended result, s)

/-- The running attempt of a production job. -/
def turnOf (q : QueueStore) (jobId : JobId) : Option StageTurn := do
  let job ← q.jobs.find? jobId
  let run ← productionRunOf q job
  let attempt ← runningAttemptOf q jobId
  return ⟨job, run, attempt⟩

/-- The job, the run and the attempt that take a turn. -/
theorem turnOf_eq_some {q : QueueStore} {jobId : JobId} {turn : StageTurn} :
    turnOf q jobId = some turn ↔ q.jobs.find? jobId = some turn.job ∧
      productionRunOf q turn.job = some turn.run ∧
        runningAttemptOf q jobId = some turn.attempt := by
  simp only [turnOf, Option.bind_eq_bind, Option.bind_eq_some_iff, Option.pure_def,
    Option.some.injEq]
  constructor
  · rintro ⟨job, hjob, run, hrun, attempt, hattempt, rfl⟩
    exact ⟨hjob, hrun, hattempt⟩
  · rintro ⟨hjob, hrun, hattempt⟩
    exact ⟨_, hjob, _, hrun, _, hattempt, rfl⟩

/-! ## When a stage loads its own checkpoint -/

section Loads

variable {frozen : CrawlRunId → Except CrawlStageError FrozenSemantics} {s : TraversalStore}
  {jobId : JobId} {job : JobRecord} {run : CrawlRun} {record : CheckpointRecord}
  {semantic : FrozenSemantics}

/-- An accepted checkpoint is one of the run, and the run has its control row. -/
theorem validateCrawlRecovery_identity
    (h : validateCrawlRecovery semantic s run record = .ok ()) :
    record.identity = checkpointIdentity run ∧ (s.controls.find? run.id).isSome := by
  obtain ⟨work, hwork, hrest⟩ := except_bind_eq_ok.mp h
  obtain ⟨_, hidentity, _⟩ := except_bind_eq_ok.mp hrest
  have hread := okOr_eq_ok.mp hwork
  unfold reconstructRecoveryState at hread
  exact ⟨(Option.ite_none_right_eq_some.mp (okOr_eq_ok.mp hidentity)).1,
    (Option.ite_none_right_eq_some.mp hread).1.1⟩

/-- The stage of a production job loads the frozen version and the checkpoint first. -/
theorem loadStage_eq (hjob : s.queue.jobs.find? jobId = some job)
    (hrun : productionRunOf s.queue job = some run) : loadStage frozen s jobId =
      frozen run.id >>= fun semantic => loadCheckpoint s.queue job >>= fun checkpoint =>
        acceptCheckpoint semantic s job.kind run checkpoint := by
  obtain ⟨hkind, r, hr, hfind, hconfiguration⟩ := productionRunOf_eq_some.mp hrun
  unfold loadStage loadFrozen
  rw [hjob]
  show (okOr (if isProductionJobKind job.kind then some () else none) .jobKindUnsupported >>= _) = _
  rw [if_pos hkind]
  show (okOr job.crawlRunId .runIdInvalid >>= _) = _
  rw [hr]
  show (okOr (s.queue.runs.find? r) .runSnapshotLoadFailed >>= _) = _
  rw [hfind]
  show ((if run.snapshot.configuration = .crawlerVersion then frozen run.id
    else .error .frozenSemanticsLoadFailed) >>= _) = _
  rw [if_pos hconfiguration]

end Loads

/-! ## When a stage goes on -/

section Steps

variable {s : TraversalStore} {jobId : JobId} {turn : StageTurn} {now : ℤ}
  {record : CheckpointRecord}

end Steps

end Erabi.Production

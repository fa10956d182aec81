/-
# The traversal store as a system

Every operation of the queue, of the traversal repository and of the execution
repository is one input; what a refused one has written is rolled back.  Whatever
arrives, the logical work changes by statements.
-/
import Mathlib
import Erabi.Queue.System
import Erabi.Traversal.Statements

namespace Erabi.Traversal

open Relational Transaction Queue Transition

/-! ## Operations -/

/-- The operations on logical work and executions. -/
inductive Operation : Type where
  | initializeRunState (runId : CrawlRunId) (roots : List CrawlUrlStateRecord)
      (control : CrawlTraversalControl)
  | initializeRunStateWithCheckpoint (runId : CrawlRunId) (roots : List CrawlUrlStateRecord)
      (control : CrawlTraversalControl) (checkpoint : CheckpointAppend)
  | initializeRunStateWithCheckpointAndEvidence (runId : CrawlRunId)
      (roots : List CrawlUrlStateRecord) (evidence : List DiscoveredUrlRecord)
      (control : CrawlTraversalControl) (projection : CrawlTraversalSemanticProjection)
      (checkpoint : CheckpointAppend)
  | applyDiscoveryDelta (runId : CrawlRunId) (work : List CrawlUrlStateRecord)
      (control : CrawlTraversalControl) (counts : List CrawlTransitionSourceCount)
  | applyDiscoveryDeltaWithEvidence (runId : CrawlRunId) (evidence : List DiscoveredUrlRecord)
      (work : List CrawlUrlStateRecord) (control : CrawlTraversalControl)
      (counts : List CrawlTransitionSourceCount)
  | applyDiscoveryDeltaWithProjection (runId : CrawlRunId) (delta : DiscoveryDelta)
  | replaceTransitionSourceCounts (runId : CrawlRunId) (counts : List CrawlTransitionSourceCount)
  | prepareRecoveryAction (actionJobId : JobId) (actionAttemptId : AttemptId) (runId : CrawlRunId)
      (kind : CrawlRecoveryActionKind) (now : ℤ)
  | persist (record : CrawlExecutionRecord)
  | persistCurrentWork (record : CrawlExecutionRecord) (crawlUrlStateId : UrlStateId)
      (jobId : JobId) (attemptId : AttemptId) (state : CrawlWorkState)
      (expectedWorkGeneration : ℕ) (now : ℤ)
  | activateCurrentWork (runId : CrawlRunId) (crawlUrlStateId : UrlStateId) (jobId : JobId)
      (attemptId : AttemptId) (expectedWorkGeneration : ℕ) (now : ℤ)
  | persistHistoricalWork (record : CrawlExecutionRecord) (crawlUrlStateId : UrlStateId)
      (jobId : JobId) (attemptId : AttemptId) (expectedWorkGeneration : ℕ) (now : ℤ)
  deriving DecidableEq

/-- The store after an operation. -/
def apply (env : Environment) (s : TraversalStore) : Operation → TraversalStore
  | .initializeRunState runId roots control =>
    ((initializeRunState env runId roots control).commit s).2
  | .initializeRunStateWithCheckpoint runId roots control checkpoint =>
    ((initializeRunStateWithCheckpoint env runId roots control checkpoint).commit s).2
  | .initializeRunStateWithCheckpointAndEvidence runId roots evidence control projection
      checkpoint =>
    ((initializeRunStateWithCheckpointAndEvidence env runId roots evidence control projection
      checkpoint).commit s).2
  | .applyDiscoveryDelta runId work control counts =>
    ((applyDiscoveryDelta env runId work control counts).commit s).2
  | .applyDiscoveryDeltaWithEvidence runId evidence work control counts =>
    ((applyDiscoveryDeltaWithEvidence env runId evidence work control counts).commit s).2
  | .applyDiscoveryDeltaWithProjection runId delta =>
    ((applyDiscoveryDeltaWithProjection env runId delta).commit s).2
  | .replaceTransitionSourceCounts runId counts =>
    ((replaceTransitionSourceCounts env runId counts).commit s).2
  | .prepareRecoveryAction actionJobId actionAttemptId runId kind now =>
    ((prepareRecoveryAction actionJobId actionAttemptId runId kind now).commit s).2
  | .persist record => ((persist env record).commit s).2
  | .persistCurrentWork record crawlUrlStateId jobId attemptId state expectedWorkGeneration now =>
    ((persistCurrentWork env record crawlUrlStateId jobId attemptId state expectedWorkGeneration
      now).commit s).2
  | .activateCurrentWork runId crawlUrlStateId jobId attemptId expectedWorkGeneration now =>
    ((activateCurrentWork runId crawlUrlStateId jobId attemptId expectedWorkGeneration
      now).commit s).2
  | .persistHistoricalWork record crawlUrlStateId jobId attemptId expectedWorkGeneration now =>
    ((persistHistoricalWork env record crawlUrlStateId jobId attemptId expectedWorkGeneration
      now).commit s).2

/-- One input: an operation of the queue, or one on the logical work with what the
other tables hold when it runs. -/
inductive Input : Type where
  | queue (input : Queue.Input)
  | operation (env : Environment) (op : Operation)

/-- One input of the store. -/
def step (s : TraversalStore) : Input → TraversalStore
  | .queue input => { s with queue := Queue.step s.queue input }
  | .operation env op => apply env s op

/-- The units an operation asks to insert or merge. -/
def Operation.work : Operation → List CrawlUrlStateRecord
  | .initializeRunState _ roots _ => roots
  | .initializeRunStateWithCheckpoint _ roots _ _ => roots
  | .initializeRunStateWithCheckpointAndEvidence _ roots _ _ _ _ => roots
  | .applyDiscoveryDelta _ work _ _ => work
  | .applyDiscoveryDeltaWithEvidence _ _ work _ _ => work
  | .applyDiscoveryDeltaWithProjection _ delta => delta.newOrMergedWork
  | _ => []

/-- The action an operation may record. -/
def Operation.action : Operation → Option JobId
  | .prepareRecoveryAction actionJobId _ _ _ _ => some actionJobId
  | _ => none

section Performing

variable {new : CrawlUrlStateRecord → Prop} {recorded : JobId → Prop} {env : Environment}
  {s s' : TraversalStore} {runId : CrawlRunId} {jobId : JobId} {attemptId : AttemptId}
  {stateId : UrlStateId} {record : CrawlExecutionRecord} {generation : ℕ} {now : ℤ}

/-! ## Recovery actions -/

theorem recordAction_writes {action : CrawlRecoveryAction}
    {recoveryActions : Table CrawlRecoveryAction JobId CrawlRecoveryAction.actionJobId}
    (hrecorded : recorded action.actionJobId)
    (hinsert : s.recoveryActions.insert? action = some recoveryActions) :
    Writes new recorded s { s with recoveryActions } := by
  refine .elsewhere rfl rfl fun a ha => ⟨?_, rfl⟩
  show recoveryActions.find? a = _
  rw [Table.find?_insert hinsert, if_neg]
  rintro rfl
  exact ha hrecorded

theorem recordItem_writes {item : CrawlRecoveryActionItem}
    {recoveryActionItems : Table CrawlRecoveryActionItem (JobId × UrlStateId)
      fun item => (item.actionJobId, item.crawlUrlStateId)}
    (hrecorded : recorded item.actionJobId)
    (hinsert : s.recoveryActionItems.insert? item = some recoveryActionItems) :
    Writes new recorded s { s with recoveryActionItems } := by
  refine .elsewhere rfl rfl fun a ha => ⟨rfl, ?_⟩
  have hne : item.actionJobId ≠ a := by
    rintro rfl
    exact ha hrecorded
  show List.filter _ recoveryActionItems.rows = List.filter _ s.recoveryActionItems.rows
  rw [(Table.insert?_eq_some.mp hinsert).2, List.filter_append, List.filter_singleton]
  simp [hne]

theorem advanceUnit_performs {actionJobId : JobId} {stateIds : List UrlStateId}
    {row : CrawlUrlStateRow} (hrecorded : recorded actionJobId) :
    Performs (Writes new recorded) (advanceUnit actionJobId runId stateIds row) := by
  refine .bind (.require _ _) fun _ => .bind (updateUrlStates_performs
    (fun s => .of_id fun a b ha hb => ?_) fun s other hp => ?_) fun _ => .bind (.require _ _)
      fun _ => ?_
  · simp only [Bool.and_eq_true, decide_eq_true_eq] at ha hb
    exact ha.1.1.2.trans hb.1.1.2.symm
  · simp only [Bool.and_eq_true, decide_eq_true_eq] at hp
    rw [← hp.2]
    exact .advances hp.1.2
  · intro s₁ ids s₂ h
    rw [read_bind] at h
    obtain ⟨recoveryActionItems, hinsert, hrest⟩ := orFail_bind_eq_ok.mp h
    cases hrest
    exact .single (recordItem_writes hrecorded hinsert)

/-- A preparation writes its action and its units. -/
theorem prepareRecoveryAction_performs {actionJobId : JobId} {kind : CrawlRecoveryActionKind}
    (hrecorded : recorded actionJobId) : Performs (Writes new recorded)
      (prepareRecoveryAction actionJobId attemptId runId kind now) := by
  refine .bind (.require _ _) fun _ => .bind .read fun s => .bind (.orFail _ _) fun job =>
    .bind (.orFail _ _) fun attempt => .bind (.orFail _ _) fun source => .bind (.require _ _)
      fun _ => .bind (.orFail _ _) fun _ => .bind (.require _ _) fun _ => ?_
  split
  · refine .bind (.require _ _) fun _ => .bind ?_ fun _ => .pure _
    exact .bind .read fun _ => .bind (.require _ _) fun _ => .bind (.require _ _) fun _ => .pure _
  · refine .bind ?_ fun _ => .pure _
    intro s₁ ids s₂ h
    unfold firstPreparation at h
    rw [read_bind] at h
    obtain ⟨recoveryActions, hinsert, hrest⟩ := orFail_bind_eq_ok.mp h
    rw [write_bind] at hrest
    refine .head (recordAction_writes hrecorded hinsert) ?_
    split at hrest
    · cases hrest
      exact .refl
    · exact Performs.foldEach (fun _ _ => advanceUnit_performs hrecorded) _ _ _ _ _ hrest

/-! ## Executions -/

/-- The check of an owner changes nothing. -/
theorem validateActiveAttemptOwner_reads {u : Unit}
    (h : validateActiveAttemptOwner runId jobId attemptId now s = .ok (u, s')) : s' = s := by
  unfold validateActiveAttemptOwner at h
  rw [read_bind] at h
  obtain ⟨_, _, hrest₁⟩ := orFail_bind_eq_ok.mp h
  obtain ⟨_, _, hrest₂⟩ := orFail_bind_eq_ok.mp hrest₁
  exact (require_eq_ok.mp hrest₂).2

/-- The check of a worker changes nothing. -/
theorem validateWorkOwner_reads {workReady : CrawlUrlStateRow → Bool} {u : Unit}
    (h : validateWorkOwner workReady record stateId jobId attemptId generation now s =
      .ok (u, s')) : s' = s := by
  unfold validateWorkOwner at h
  rw [read_bind] at h
  obtain ⟨_, _, hrest₁⟩ := orFail_bind_eq_ok.mp h
  obtain ⟨_, hrest₂⟩ := require_bind_eq_ok.mp hrest₁
  exact validateActiveAttemptOwner_reads hrest₂

/-- A persisted execution is a new row; nothing else changes. -/
theorem persistInTransaction_eq_ok {lineage : Option ExecutionLineage} {u : Unit}
    (h : persistInTransaction env record lineage s = .ok (u, s')) :
    ∃ executions, s.executions.insert? { record with lineage } = some executions ∧
      (∀ origin ∈ lineage, lineageMatches s record.crawlRunId origin = true) ∧
      s' = { s with executions } := by
  unfold persistInTransaction at h
  rw [read_bind] at h
  obtain ⟨_, hrest₁⟩ := require_bind_eq_ok.mp h
  obtain ⟨_, hrest₂⟩ := require_bind_eq_ok.mp hrest₁
  obtain ⟨_, hrest₃⟩ := require_bind_eq_ok.mp hrest₂
  obtain ⟨_, hrest₄⟩ := require_bind_eq_ok.mp hrest₃
  obtain ⟨_, _, hrest₅⟩ := lift_bind_eq_ok.mp hrest₄
  unfold insertExecutionRow at hrest₅
  rw [read_bind] at hrest₅
  obtain ⟨_, hrest₆⟩ := require_bind_eq_ok.mp hrest₅
  obtain ⟨_, hrest₇⟩ := require_bind_eq_ok.mp hrest₆
  obtain ⟨hlineage, hrest₈⟩ := require_bind_eq_ok.mp hrest₇
  obtain ⟨_, hrest₉⟩ := require_bind_eq_ok.mp hrest₈
  obtain ⟨executions, hinsert, hwrite⟩ := orFail_bind_eq_ok.mp hrest₉
  cases hwrite
  exact ⟨executions, hinsert, hlineage, rfl⟩

theorem persistInTransaction_performs {lineage : Option ExecutionLineage} :
    Performs (Writes new recorded) (persistInTransaction env record lineage) := by
  refine .of_statement fun s u s' h => ?_
  obtain ⟨executions, hinsert, hlineage, rfl⟩ := persistInTransaction_eq_ok h
  refine .appends hinsert fun origin horigin => ?_
  have hmatches := hlineage origin horigin
  rw [lineageMatches, Bool.and_eq_true] at hmatches
  exact hmatches.1

theorem validateRecordInput_performs :
    Performs (Writes new recorded) (validateRecordInput env record) := .require _ _

theorem persist_performs : Performs (Writes new recorded) (persist env record) :=
  .bind validateRecordInput_performs fun _ => persistInTransaction_performs

theorem persistHistoricalWork_performs : Performs (Writes new recorded)
    (persistHistoricalWork env record stateId jobId attemptId generation now) :=
  .bind validateRecordInput_performs fun _ => .bind (.require _ _) fun _ =>
    .bind (.of_reads fun _ _ _ h => validateWorkOwner_reads h) fun _ =>
      persistInTransaction_performs

theorem activateCurrentWork_performs : Performs (Writes new recorded)
    (activateCurrentWork runId stateId jobId attemptId generation now) := by
  refine .bind (.require _ _) fun _ =>
    .bind (.of_reads fun _ _ _ h => validateActiveAttemptOwner_reads h) fun _ =>
      .bind (.require _ _) fun _ => .bind (updateUrlStates_performs
        (fun s => .of_id fun a b ha hb => ?_) fun s row hp => ?_) fun _ => .require _ _
  · simp only [Bool.and_eq_true, decide_eq_true_eq] at ha hb
    exact ha.1.1.1.1.trans hb.1.1.1.1.symm
  · simp only [Bool.and_eq_true, decide_eq_true_eq] at hp
    exact .activates hp.1.1.2

/-- Only admitted units have work. -/
theorem admitted_of_work {row : CrawlUrlStateRow} (hrow : row ∈ s.urlStates.rows)
    (hwork : row.currentWorkState.isSome = true) : row.admissionState = .admitted := by
  have hchecked := s.urlStates.holds.checked row hrow
  simp only [CrawlUrlStateRow.checked, Bool.and_eq_true] at hchecked
  have hshape := hchecked.2
  rcases hstate : row.admissionState with _ | _ | _
  · rfl
  all_goals
    simp only [CrawlUrlStateRow.shape, hstate, Bool.and_eq_true] at hshape
    rw [Option.isSome_iff_ne_none] at hwork
    simp only [Option.isNone_iff_eq_none] at hshape
    simp_all

/-- Unfinished work is work. -/
theorem isSome_of_unfinished {row : CrawlUrlStateRow} (h : unfinished row = true) :
    row.currentWorkState.isSome = true := by
  simp only [unfinished, Bool.or_eq_true, decide_eq_true_eq] at h
  rcases h with h | h <;> rw [h] <;> rfl

theorem persistCurrentWork_performs {state : CrawlWorkState} : Performs (Writes new recorded)
    (persistCurrentWork env record stateId jobId attemptId state generation now) := by
  intro s u s' h
  unfold persistCurrentWork at h
  obtain ⟨_, s₁, hinput, hrest₁⟩ := bind_eq_ok.mp h
  obtain ⟨_, rfl⟩ := require_eq_ok.mp hinput
  obtain ⟨⟨_, houtcome⟩, hrest₂⟩ := require_bind_eq_ok.mp hrest₁
  obtain ⟨_, s₂, howner, hrest₃⟩ := bind_eq_ok.mp hrest₂
  obtain rfl := validateWorkOwner_reads howner
  obtain ⟨_, s₃, hpersist, hrest₄⟩ := bind_eq_ok.mp hrest₃
  have hwrites : Relation.ReflTransGen (Writes new recorded) s₂ s₃ :=
    persistInTransaction_performs _ _ _ hpersist
  obtain ⟨executions, hinsert, _, rfl⟩ := persistInTransaction_eq_ok hpersist
  rw [read_bind] at hrest₄
  obtain ⟨hmatches, hrest₅⟩ := require_bind_eq_ok.mp hrest₄
  obtain ⟨n, s₄, hupdate, hrest₆⟩ := bind_eq_ok.mp hrest₅
  obtain ⟨_, rfl⟩ := require_eq_ok.mp hrest₆
  refine hwrites.tail (revises_of_update hupdate (.of_id fun a b ha hb => ?_)
    fun row hrow hp => ?_)
  · simp only [Bool.and_eq_true, decide_eq_true_eq] at ha hb
    exact ha.1.1.1.trans hb.1.1.1.symm
  simp only [Bool.and_eq_true, decide_eq_true_eq] at hp
  obtain ⟨⟨⟨hid, hrun⟩, hgeneration⟩, hunfinished⟩ := hp
  -- The linked execution is the one that was just appended.
  obtain ⟨execution, hfind, hmatches⟩ := (Option.any_eq_true _ _).mp hmatches
  have hnew := Table.find?_insert hinsert record.id
  rw [if_pos rfl] at hnew
  rw [hnew] at hfind
  cases hfind
  have houtcome : outcomeMatchesWorkState
      ({ record with lineage := some ⟨stateId, attemptId, generation⟩ } :
        CrawlExecutionRow).outcome state = true := houtcome
  refine .finishes (admitted_of_work hrow (isSome_of_unfinished hunfinished))
    ((Table.mem_insert hinsert).mpr (Or.inr rfl)) ?_ houtcome
  rw [hid, hrun, hgeneration]
  exact hmatches

/-! ## Every input -/

/-- An operation inserts only units it was given and records no action but its own. -/
theorem apply_performs (op : Operation) (hwork : ∀ state ∈ op.work, new state)
    (s : TraversalStore) :
    Relation.ReflTransGen (Writes new fun a => op.action = some a) s (apply env s op) := by
  cases op with
  | initializeRunState runId roots control =>
    exact (initializeRunState_performs hwork).commit s
  | initializeRunStateWithCheckpoint runId roots control checkpoint =>
    exact (initializeRunStateWithCheckpoint_performs hwork).commit s
  | initializeRunStateWithCheckpointAndEvidence runId roots evidence control projection checkpoint =>
    exact (initializeRunStateWithCheckpointAndEvidence_performs hwork).commit s
  | applyDiscoveryDelta runId work control counts =>
    exact (applyDiscoveryDeltaWithProjection_performs hwork).commit s
  | applyDiscoveryDeltaWithEvidence runId evidence work control counts =>
    exact (applyDiscoveryDeltaWithProjection_performs hwork).commit s
  | applyDiscoveryDeltaWithProjection runId delta =>
    exact (applyDiscoveryDeltaWithProjection_performs hwork).commit s
  | replaceTransitionSourceCounts runId counts =>
    exact replaceTransitionSourceCounts_performs.commit s
  | prepareRecoveryAction actionJobId actionAttemptId runId kind now =>
    have hperforms : Performs (Writes new fun a => some actionJobId = some a)
        (prepareRecoveryAction actionJobId actionAttemptId runId kind now) :=
      prepareRecoveryAction_performs rfl
    exact hperforms.commit s
  | persist record => exact persist_performs.commit s
  | persistCurrentWork record stateId jobId attemptId state generation now =>
    exact persistCurrentWork_performs.commit s
  | activateCurrentWork runId stateId jobId attemptId generation now =>
    exact activateCurrentWork_performs.commit s
  | persistHistoricalWork record stateId jobId attemptId generation now =>
    exact persistHistoricalWork_performs.commit s

end Performing

/-- The units an input asks to insert or merge. -/
def Input.work : Input → List CrawlUrlStateRecord
  | .queue _ => []
  | .operation _ op => op.work

/-- The action an input may record. -/
def Input.action : Input → Option JobId
  | .queue _ => none
  | .operation _ op => op.action

/-- A step writes the work it brings and records its action. -/
theorem step_performs {new : CrawlUrlStateRecord → Prop} (s : TraversalStore) (input : Input)
    (hwork : ∀ state ∈ input.work, new state) :
    Relation.ReflTransGen (Writes new fun a => input.action = some a) s (step s input) := by
  cases input with
  | queue input => exact .single (Beside.writes ⟨rfl, rfl, rfl, rfl⟩)
  | operation env op => exact apply_performs op hwork s

/-! ## A sample run -/

/-- Everything an input names belongs to the crawler version of its run. -/
def sampleEnvironment : Environment where
  crawlerVersionId _ := some "version"
  selectedSeedIds _ := some ["seed"]
  pageTypeVersion _ := some "version"
  transitionVersion _ := some "version"
  seedVersion _ := some "version"
  validDiscoveredUrl _ := true
  validRecordInput _ := true
  validReferences _ := .ok ()

/-- A unit as a seed brings it in. -/
def sampleRoot (id : UrlStateId) (canonicalUrl : String) (sequence : ℕ) : CrawlUrlStateRecord where
  id := id
  crawlRunId := 1
  canonicalUrl := canonicalUrl
  firstDiscoveredUrlId := none
  requestedUrl := canonicalUrl
  parentUrlStateId := none
  parentDiscoveredUrlId := none
  admissionState := .admitted
  preserveReason := none
  resolvedToUrlStateId := none
  admissionSequence := some sequence
  depth := some 0
  targetPageTypeId := none
  transitionId := none
  pagination := false
  finalCanonicalUrl := none
  currentWorkState := some .pending
  workGeneration := 0
  currentExecutionId := none
  seen := true
  sampled := false
  expanded := false
  inScope := false
  pageTypeMatchState := none
  seedProvenance := ["seed"]

/-- The control row of a run that has admitted two units. -/
def sampleControl : CrawlTraversalControl where
  crawlRunId := 1
  consumedBytes := 0
  rawLinkCount := 0
  duplicateCount := 0
  robotsExcludedCount := 0
  providerErrorCount := 0
  externalUrlCount := 0
  blockedUrlCount := 0
  peakExpansionCount := 0
  elapsedMillis := 0
  timeBudgetHit := false
  durationWorkNotExpanded := false
  paginationTruncationCount := 0
  nextAdmissionSequence := 2

/-- A production run with two seeds; attempt 200 works on its job 10. -/
def sampleRun : List Input :=
  [.queue (.operation (.createProductionRun 1 ⟨.productionRun, .crawlerVersion, 1, 1⟩
      ⟨10, .productionCrawl, 0, none, none, 0, 3⟩ 0)),
    .queue (.operation (.acquireNext "a" 0 60 true ⟨100, 200⟩)),
    .operation sampleEnvironment (.initializeRunState 1
      [sampleRoot "root" "https://e.test/" 0, sampleRoot "other" "https://e.test/other" 1]
      sampleControl)]

end Erabi.Traversal

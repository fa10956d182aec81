/-
# The traversal repository

The transactions that write logical crawl work: initialization, discovery deltas
with redirects, semantic projection and in-flight marks, and the preparation of
recovery actions.  The repository decides nothing about URLs; it stores what the
traversal decided, and a failed transaction stores nothing.
-/
import Mathlib
import Erabi.Queue.Actions
import Erabi.Traversal.Record

namespace Erabi.Traversal

open Relational Transaction Queue

/-! ## Errors and surroundings -/

/-- Typed failures; `database` stands for a refused statement or an unreadable row. -/
inductive CrawlTraversalRepositoryError : Type where
  | crawlRunNotFound
  | invalidState
  | corruptState
  | database
  | checkpoint
  | discovery
  deriving DecidableEq, Repr

/-- Why an execution is refused. -/
inductive CrawlExecutionRepositoryError : Type where
  | invalidInput
  | invalidReference
  | corruptState
  | counterOutOfRange
  | duplicateExecution
  | crawlRunNotFound
  | referenceNotOwnedByRun
  | database
  deriving DecidableEq, Repr

/-- What a transaction reads of the tables that other repositories write, and of
the parsers of URLs and identities. -/
structure Environment where
  crawlerVersionId : CrawlRunId → Option String
  /-- The seeds the snapshot of a run selects; `none` when it does not decode. -/
  selectedSeedIds : CrawlRunId → Option (List String)
  pageTypeVersion : String → Option String
  transitionVersion : String → Option String
  seedVersion : String → Option String
  /-- The syntax checks of discovery evidence. -/
  validDiscoveredUrl : DiscoveredUrlRecord → Bool
  /-- The syntax checks of an execution. -/
  validRecordInput : CrawlExecutionRecord → Bool
  /-- The run, source, page type, transition and artifact rows an execution names. -/
  validReferences : CrawlExecutionRecord → Except CrawlExecutionRepositoryError Unit

/-- One immediate transaction of the traversal repository. -/
abbrev TraversalTx (α : Type) := Transaction TraversalStore CrawlTraversalRepositoryError α

/-- A value that fits the signed 64-bit columns. -/
def fitsI64 (value : ℕ) : Prop := (value : ℤ) ≤ i64Max

instance (value : ℕ) : Decidable (fitsI64 value) := Int.decLe _ _

/-- Leaves these URL states behind, unless they violate the schema. -/
def setUrlStates {ε : Type} (refused : ε)
    (table : Table CrawlUrlStateRow UrlStateId CrawlUrlStateRow.id) :
    Transaction TraversalStore ε Unit := do
  let urlStates ← orFail (Constrained.commit? table) refused
  write fun s => { s with urlStates }

/-- `UPDATE crawl_url_state SET f WHERE p`; returns the number of changed rows. -/
def updateUrlStates {ε : Type} (refused : ε) (p : CrawlUrlStateRow → Bool)
    (f : CrawlUrlStateRow → CrawlUrlStateRow) (hf : ∀ row, (f row).id = row.id := by intro; rfl) :
    Transaction TraversalStore ε ℕ := do
  let s ← read
  setUrlStates refused (s.urlStates.table.update p f hf)
  return s.urlStates.table.changed p

/-- The row of a run under an identity. -/
def selectById (s : TraversalStore) (runId : CrawlRunId) (id : UrlStateId) :
    Option CrawlUrlStateRow :=
  (s.urlStates.find? id).filter fun row => row.crawlRunId = runId

/-- The row of a run under a canonical URL. -/
def selectByCanonical (s : TraversalStore) (runId : CrawlRunId) (canonicalUrl : String) :
    Option CrawlUrlStateRow :=
  s.urlStates.rows.find? fun row => row.crawlRunId = runId && row.canonicalUrl = canonicalUrl

/-! ## Validation -/

/-- The run exists. -/
def ensureRun (runId : CrawlRunId) : TraversalTx Unit := do
  let s ← read
  require (s.queue.runs.find? runId).isSome .crawlRunNotFound

/-- The row belongs to the crawler version of the run. -/
def owned (version : Option String) (owner : Option String) : Bool :=
  version.any fun id => owner = some id

/-- A named discovery is one of the run. -/
def requireSameRunDiscovery (runId : CrawlRunId) (id : Option String) : TraversalTx Unit := do
  let s ← read
  require (∀ discoveredId ∈ id,
    (s.discovered.find? discoveredId).any fun record => record.crawlRunId = runId) .invalidState

/-- A named unit is another one of the run. -/
def requireSameRunState (runId : CrawlRunId) (self : UrlStateId) (id : Option UrlStateId) :
    TraversalTx Unit := do
  let s ← read
  require (∀ other ∈ id, other ≠ self ∧ (selectById s runId other).isSome) .invalidState

/-- The execution was recorded for this run, unit and generation. -/
def executionMatches (runId : CrawlRunId) (id : UrlStateId) (workGeneration : ℕ)
    (execution : CrawlExecutionRow) : Bool :=
  execution.crawlRunId = runId && execution.lineage.any fun lineage =>
    lineage.crawlUrlStateId = id && lineage.workGeneration = workGeneration

/-- What a record names exists in its run. -/
def validateStateRelationships (state : CrawlUrlStateRecord) (runId : CrawlRunId) :
    TraversalTx Unit := do
  requireSameRunDiscovery runId state.firstDiscoveredUrlId
  requireSameRunDiscovery runId state.parentDiscoveredUrlId
  requireSameRunState runId state.id state.parentUrlStateId
  requireSameRunState runId state.id state.resolvedToUrlStateId
  let s ← read
  require (∀ executionId ∈ state.currentExecutionId, fitsI64 state.workGeneration ∧
    (s.executions.find? executionId).any
      (executionMatches runId state.id state.workGeneration)) .invalidState

/-- What a record names belongs to its run's version. -/
def validateStateOwnership (env : Environment) (state : CrawlUrlStateRecord)
    (runId : CrawlRunId) : TraversalTx Unit := do
  require (state.crawlRunId = runId) .invalidState
  let s ← read
  require (s.queue.runs.find? runId).isSome .database
  let version := env.crawlerVersionId runId
  require (state.seedProvenance ≠ [] → (env.selectedSeedIds runId).isSome) .invalidState
  require (∀ pageTypeId ∈ state.targetPageTypeId, version ≠ some "" ∧ pageTypeId ≠ "" ∧
    owned version (env.pageTypeVersion pageTypeId)) .invalidState
  require (∀ transitionId ∈ state.transitionId,
    owned version (env.transitionVersion transitionId)) .invalidState
  require (∀ seedId ∈ state.seedProvenance,
    (env.selectedSeedIds runId).any (fun selected => selected.contains seedId) ∧
      owned version (env.seedVersion seedId)) .invalidState
  validateStateRelationships state runId

/-! ## Seed provenance -/

/-- The seeds of a unit in the order in which they were appended. -/
def readSeedProvenance (s : TraversalStore) (id : UrlStateId) : List String :=
  ((s.seedProvenance.select fun row => row.urlStateId = id).insertionSort fun a b =>
    a.ordinal ≤ b.ordinal).map SeedProvenance.seedId

/-- Appends one seed of the run's version, unless the unit already has it. -/
def insertSeedProvenanceValue (env : Environment) (runId : CrawlRunId) (id : UrlStateId)
    (seedId : String) : TraversalTx Unit := do
  require (owned (env.crawlerVersionId runId) (env.seedVersion seedId)) .invalidState
  let s ← read
  if (s.seedProvenance.find? (id, seedId)).isSome then return ()
  let ordinal := ((s.seedProvenance.select fun row => row.urlStateId = id).map
    fun row => row.ordinal + 1).foldr max 0
  let seedProvenance ← orFail (s.seedProvenance.insert? ⟨id, seedId, ordinal⟩) .database
  write fun s => { s with seedProvenance }

/-- Names the seeds of a unit. -/
def insertSeedProvenance (env : Environment) (runId : CrawlRunId) (id : UrlStateId)
    (seedIds : List String) : TraversalTx Unit :=
  foldEach (fun _ seedId => insertSeedProvenanceValue env runId id seedId) () seedIds

/-- Appends the seeds the unit does not have yet. -/
def appendSeedProvenance (env : Environment) (state : CrawlUrlStateRow) (seedIds : List String) :
    TraversalTx Unit := do
  let s ← read
  let known := readSeedProvenance s state.id
  insertSeedProvenance env state.crawlRunId state.id
    ((seedIds.filter fun seedId => !known.contains seedId).eraseDups)

/-! ## Writing URL states -/

/-- The row of a record; inserted rows are always seen. -/
def CrawlUrlStateRecord.row (state : CrawlUrlStateRecord) : CrawlUrlStateRow :=
  { state.toCrawlUrlStateRow with seen := true }

/-- Inserts a unit with its seeds. -/
def insertState (env : Environment) (state : CrawlUrlStateRecord) : TraversalTx Unit := do
  require (state.validateState = true) .invalidState
  validateStateOwnership env state state.crawlRunId
  require (∀ sequence ∈ state.admissionSequence, fitsI64 sequence) .invalidState
  require (fitsI64 state.workGeneration) .invalidState
  let s ← read
  let table ← orFail (s.urlStates.table.insert? state.row) .database
  setUrlStates .database table
  insertSeedProvenance env state.crawlRunId state.id state.seedProvenance

/-- The discovery is of a unit that still waits for its first provider call. -/
def replacesPending (state : CrawlUrlStateRecord) (existing : CrawlUrlStateRow) : Prop :=
  existing.admissionState = .admitted ∧ state.admissionState = .admitted ∧
    existing.currentWorkState = some .pending

instance (state : CrawlUrlStateRecord) (existing : CrawlUrlStateRow) :
    Decidable (replacesPending state existing) := instDecidableAnd

/-- A later discovery of a pending unit takes its place in the queue; any other
unit only keeps the evidence it lacked. -/
def mergedState (state : CrawlUrlStateRecord) (existing : CrawlUrlStateRow) : CrawlUrlStateRow :=
  if replacesPending state existing then
    { existing with
      requestedUrl := state.requestedUrl
      firstDiscoveredUrlId := existing.firstDiscoveredUrlId <|> state.firstDiscoveredUrlId
      parentUrlStateId := state.parentUrlStateId <|> existing.parentUrlStateId
      parentDiscoveredUrlId := existing.parentDiscoveredUrlId <|> state.parentDiscoveredUrlId
      admissionSequence := state.admissionSequence
      depth := state.depth
      targetPageTypeId := state.targetPageTypeId
      transitionId := state.transitionId
      pagination := state.pagination
      finalCanonicalUrl := state.finalCanonicalUrl <|> existing.finalCanonicalUrl }
  else
    { existing with
      firstDiscoveredUrlId := existing.firstDiscoveredUrlId <|> state.firstDiscoveredUrlId
      parentDiscoveredUrlId := existing.parentDiscoveredUrlId <|> state.parentDiscoveredUrlId
      finalCanonicalUrl := existing.finalCanonicalUrl <|> state.finalCanonicalUrl }

/-- A merge keeps the identifier. -/
theorem mergedState_id (state : CrawlUrlStateRecord) (existing : CrawlUrlStateRow) :
    (mergedState state existing).id = existing.id := by
  unfold mergedState
  split <;> rfl

/-- Inserts a unit, or merges it into the one with its canonical URL. -/
def upsertDiscoveryState (env : Environment) (state : CrawlUrlStateRecord) :
    TraversalTx Unit := do
  require (state.validateState = true) .invalidState
  validateStateOwnership env state state.crawlRunId
  let s ← read
  match selectByCanonical s state.crawlRunId state.canonicalUrl with
  | none => insertState env state
  | some existing =>
    require (state.id = existing.id) .invalidState
    require (existing.admissionState = .resolved → state.admissionState = .preserveOnly)
      .invalidState
    require (existing.admissionState = .preserveOnly → state.admissionState ≠ .admitted)
      .invalidState
    require (replacesPending state existing → ∀ sequence ∈ state.admissionSequence,
      fitsI64 sequence) .invalidState
    let _ ← updateUrlStates .database
      (fun row => row.id = existing.id && row.crawlRunId = state.crawlRunId)
      (mergedState state) (mergedState_id state)
    insertSeedProvenance env state.crawlRunId state.id state.seedProvenance

/-! ## Redirects -/

/-- A page whose final URL is another canonical URL. -/
structure CrawlRedirectReconciliation where
  aliasUrlStateId : UrlStateId
  finalUrlStateId : UrlStateId
  aliasCanonicalUrl : String
  finalCanonicalUrl : String
  deriving DecidableEq, Repr

/-- The alias with everything that was its own moved away. -/
def resolvedTo (redirect : CrawlRedirectReconciliation) (aliasState : CrawlUrlStateRow) :
    CrawlUrlStateRow :=
  { aliasState with
    admissionState := .resolved
    preserveReason := some "CANONICAL_REDIRECT"
    resolvedToUrlStateId := some redirect.finalUrlStateId
    admissionSequence := none
    depth := none
    targetPageTypeId := none
    transitionId := none
    currentWorkState := none
    currentExecutionId := none
    finalCanonicalUrl := some redirect.finalCanonicalUrl
    sampled := false
    expanded := false
    inScope := false
    pageTypeMatchState := none }

/-- The unit of a final URL that was never seen: the alias under its final URL. -/
def finalStateOf (redirect : CrawlRedirectReconciliation) (aliasState : CrawlUrlStateRow)
    (seedProvenance : List String) : CrawlUrlStateRecord :=
  { aliasState with
    id := redirect.finalUrlStateId
    canonicalUrl := redirect.finalCanonicalUrl
    finalCanonicalUrl := none
    currentExecutionId := none
    seen := true
    seedProvenance }

/-- The final unit of a redirect exists already, or takes over from the alias. -/
def provideFinalState (env : Environment) (runId : CrawlRunId)
    (redirect : CrawlRedirectReconciliation) (aliasState : CrawlUrlStateRow) : TraversalTx Unit := do
  let s ← read
  let seeds := readSeedProvenance s aliasState.id
  match selectByCanonical s runId redirect.finalCanonicalUrl with
  | some finalState =>
    require (finalState.validateState = true) .invalidState
    require (finalState.id = redirect.finalUrlStateId ∧ finalState.admissionState = .admitted)
      .invalidState
    appendSeedProvenance env finalState seeds
  | none => insertState env (finalStateOf redirect aliasState seeds)

/-- Resolves a unit to the one it was redirected to. -/
def reconcileRedirect (env : Environment) (runId : CrawlRunId)
    (redirect : CrawlRedirectReconciliation) : TraversalTx Unit := do
  require (redirect.aliasCanonicalUrl ≠ "" ∧ redirect.finalCanonicalUrl ≠ "" ∧
    redirect.aliasCanonicalUrl ≠ redirect.finalCanonicalUrl ∧ redirect.aliasUrlStateId ≠ "" ∧
    redirect.finalUrlStateId ≠ "") .invalidState
  let s ← read
  let aliasState ← orFail (selectByCanonical s runId redirect.aliasCanonicalUrl) .invalidState
  require (aliasState.validateState = true) .invalidState
  require (aliasState.id = redirect.aliasUrlStateId) .invalidState
  match aliasState.admissionState with
  | .resolved =>
    require (aliasState.resolvedToUrlStateId = some redirect.finalUrlStateId) .invalidState
  | .preserveOnly => fail .invalidState
  | .admitted =>
    provideFinalState env runId redirect aliasState
    let changed ← updateUrlStates .database
      (fun row => row.id = aliasState.id && row.crawlRunId = runId && row.admissionState = .admitted)
      (resolvedTo redirect)
    require (changed = 1) .corruptState

/-! ## Semantic projection -/

/-- What a traversal knows of a URL. -/
structure CrawlTraversalUrlSemanticState where
  canonicalUrl : String
  sampled : Bool
  expanded : Bool
  inScope : Bool
  pageTypeMatchState : Option CrawlPageTypeMatchState
  deriving DecidableEq, Repr

/-- What a traversal knows, as it is stored. -/
structure CrawlTraversalSemanticProjection where
  urlStates : List CrawlTraversalUrlSemanticState
  pageTypeCounts : List CrawlTraversalPageTypeCounts
  deriving DecidableEq, Repr

/-- Writes what the traversal knows about one URL; returns the URLs written so far. -/
def projectUrlState (runId : CrawlRunId) (seen : List String)
    (value : CrawlTraversalUrlSemanticState) : TraversalTx (List String) := do
  require (value.canonicalUrl ≠ "" ∧ value.canonicalUrl ∉ seen) .invalidState
  require (value.expanded = true → value.sampled = true) .invalidState
  require (value.inScope = value.pageTypeMatchState.isSome) .invalidState
  let changed ← updateUrlStates .database
    (fun row => row.crawlRunId = runId && row.canonicalUrl = value.canonicalUrl && row.seen)
    (fun row => { row with
      sampled := value.sampled
      expanded := value.expanded
      inScope := value.inScope
      pageTypeMatchState := value.pageTypeMatchState })
  require (changed = 1) .invalidState
  return value.canonicalUrl :: seen

/-- Writes the counts of one page type of the run's version. -/
def insertPageTypeCounts (env : Environment) (runId : CrawlRunId) (pageTypes : List String)
    (value : CrawlTraversalPageTypeCounts) : TraversalTx (List String) := do
  require (value.pageTypeId ∉ pageTypes) .invalidState
  require (owned (env.crawlerVersionId runId) (env.pageTypeVersion value.pageTypeId)) .invalidState
  require (fitsI64 value.sampledCount ∧ fitsI64 value.discoveredCount) .invalidState
  let s ← read
  let pageTypeCounts ← orFail
    (s.pageTypeCounts.insert? { value with crawlRunId := runId }) .database
  write fun s => { s with pageTypeCounts }
  return value.pageTypeId :: pageTypes

/-- Replaces the semantic columns of the run; a projection covers every URL of it
or none. -/
def applySemanticProjection (env : Environment) (runId : CrawlRunId)
    (projection : CrawlTraversalSemanticProjection) : TraversalTx Unit := do
  if projection.urlStates = [] then return ()
  let seen ← foldEach (projectUrlState runId) [] projection.urlStates
  let s ← read
  require (∀ row ∈ s.urlStates.rows, row.crawlRunId = runId → row.canonicalUrl ∈ seen)
    .invalidState
  write fun s => { s with
    pageTypeCounts := s.pageTypeCounts.delete fun row => row.crawlRunId = runId }
  let _ ← foldEach (insertPageTypeCounts env runId) [] projection.pageTypeCounts
  return ()

/-! ## In-flight marks -/

/-- A unit whose provider call is being committed before its execution row. -/
structure CrawlInFlightWork where
  stateId : UrlStateId
  expectedWorkGeneration : Option ℕ
  deriving DecidableEq, Repr

/-- A unit that is not finished yet. -/
def unfinished (row : CrawlUrlStateRow) : Bool :=
  row.currentWorkState = some .pending || row.currentWorkState = some .running

/-- Marks one unit; returns the units marked so far.  A unit whose execution was
already committed is left alone. -/
def markInFlightUnit (runId : CrawlRunId) (stateIds : List UrlStateId)
    (work : CrawlInFlightWork) : TraversalTx (List UrlStateId) := do
  require (work.stateId ≠ "" ∧ work.stateId ∉ stateIds) .invalidState
  let s ← read
  let row ← orFail (selectById s runId work.stateId) .invalidState
  require (row.admissionState = .admitted ∧
    ∀ expected ∈ work.expectedWorkGeneration, expected = row.workGeneration) .invalidState
  if row.currentWorkState = some .completed ∧ row.currentExecutionId.isSome then
    return work.stateId :: stateIds
  require (unfinished row = true) .invalidState
  let changed ← updateUrlStates .database
    (fun other => other.crawlRunId = runId && other.id = work.stateId &&
      other.admissionState = .admitted && other.workGeneration = row.workGeneration &&
      unfinished other)
    (fun other => { other with currentWorkState := some .running })
  require (changed = 1) .corruptState
  return work.stateId :: stateIds

/-- Marks the units in flight as running. -/
def markInFlightWork (runId : CrawlRunId) (inFlightWork : List CrawlInFlightWork) :
    TraversalTx Unit := do
  let _ ← foldEach (markInFlightUnit runId) [] inFlightWork
  return ()

/-! ## Control and counts -/

/-- Every counter fits its column. -/
def CrawlTraversalControl.fits (control : CrawlTraversalControl) : Prop :=
  ∀ value ∈ [control.consumedBytes, control.rawLinkCount, control.duplicateCount,
    control.robotsExcludedCount, control.providerErrorCount, control.externalUrlCount,
    control.blockedUrlCount, control.peakExpansionCount, control.elapsedMillis,
    control.paginationTruncationCount, control.nextAdmissionSequence], fitsI64 value

instance (control : CrawlTraversalControl) : Decidable control.fits :=
  inferInstanceAs (Decidable (∀ value ∈ _, fitsI64 value))

/-- Inserts the control row of a run. -/
def insertControl (control : CrawlTraversalControl) : TraversalTx Unit := do
  require control.fits .invalidState
  let s ← read
  let controls ← orFail (s.controls.insert? control) .database
  write fun s => { s with controls }

/-- Replaces the control row of a run. -/
def updateControl (control : CrawlTraversalControl) : TraversalTx Unit := do
  require control.fits .invalidState
  let s ← read
  require (s.controls.find? control.crawlRunId).isSome .corruptState
  write fun s => { s with
    controls := s.controls.update (fun row => row.crawlRunId = control.crawlRunId)
      fun row => { control with crawlRunId := row.crawlRunId } }

/-- The counts name admitted units and transitions of the run's version. -/
def validTransitionCount (env : Environment) (s : TraversalStore) (runId : CrawlRunId)
    (value : CrawlTransitionSourceCount) : Bool :=
  value.transitionId ≠ "" && value.sourceUrlStateId ≠ "" &&
    (selectById s runId value.sourceUrlStateId).any
      (fun row => row.admissionState = .admitted) &&
    owned (env.crawlerVersionId runId) (env.transitionVersion value.transitionId)

/-- Inserts the count of one transition. -/
def insertTransitionCount (runId : CrawlRunId) (value : CrawlTransitionSourceCount) :
    TraversalTx Unit := do
  require (fitsI64 value.eligibleEdgeCount) .invalidState
  let s ← read
  let transitionCounts ← orFail
    (s.transitionCounts.insert? { value with crawlRunId := runId }) .database
  write fun s => { s with transitionCounts }

/-- Replaces the counts of all transitions. -/
def replaceTransitionCounts (env : Environment) (runId : CrawlRunId)
    (counts : List CrawlTransitionSourceCount) : TraversalTx Unit := do
  let s ← read
  require (∀ value ∈ counts, validTransitionCount env s runId value = true) .invalidState
  write fun s => { s with
    transitionCounts := s.transitionCounts.delete fun row => row.crawlRunId = runId }
  foldEach (fun _ => insertTransitionCount runId) () counts

/-! ## Evidence -/

/-- Records evidence once; a replay must carry the same evidence, whenever it was
observed. -/
def recordDiscoveredUrl (env : Environment) (record : DiscoveredUrlRecord) : TraversalTx Unit := do
  require (env.validDiscoveredUrl record = true) .discovery
  let s ← read
  match s.discovered.find? record.id with
  | some persisted =>
    require ({ persisted with discoveredAt := record.discoveredAt } = record) .discovery
  | none =>
    require (s.queue.runs.find? record.crawlRunId).isSome .discovery
    let discovered ← orFail (s.discovered.insert? record) .discovery
    write fun s => { s with discovered }

/-- Records what was discovered. -/
def recordEvidence (env : Environment) (evidence : List DiscoveredUrlRecord) : TraversalTx Unit :=
  foldEach (fun _ => recordDiscoveredUrl env) () evidence

/-! ## Initialization -/

/-- The persisted unit is the one the run was initialized with. -/
def initialStateMatches (persisted : CrawlUrlStateRow) (seeds : List String)
    (expected : CrawlUrlStateRecord) : Bool :=
  persisted.id = expected.id && persisted.crawlRunId = expected.crawlRunId &&
    persisted.canonicalUrl = expected.canonicalUrl &&
    persisted.requestedUrl = expected.requestedUrl &&
    persisted.firstDiscoveredUrlId = expected.firstDiscoveredUrlId &&
    persisted.parentUrlStateId = expected.parentUrlStateId &&
    persisted.parentDiscoveredUrlId = expected.parentDiscoveredUrlId &&
    persisted.admissionState = expected.admissionState &&
    persisted.preserveReason = expected.preserveReason &&
    persisted.resolvedToUrlStateId = expected.resolvedToUrlStateId &&
    persisted.admissionSequence = expected.admissionSequence &&
    persisted.depth = expected.depth && persisted.targetPageTypeId = expected.targetPageTypeId &&
    persisted.transitionId = expected.transitionId &&
    persisted.pagination = expected.pagination &&
    persisted.finalCanonicalUrl = expected.finalCanonicalUrl &&
    expected.seedProvenance.all seeds.contains

/-- A replayed initialization finds its roots. -/
def requireRoot (runId : CrawlRunId) (root : CrawlUrlStateRecord) : TraversalTx Unit := do
  let s ← read
  let persisted ← orFail (selectByCanonical s runId root.canonicalUrl) .invalidState
  require (persisted.validateState = true) .invalidState
  require (initialStateMatches persisted (readSeedProvenance s persisted.id) root) .invalidState

/-- Inserts the roots of a run. -/
def insertRoots (env : Environment) (runId : CrawlRunId) (roots : List CrawlUrlStateRecord) :
    TraversalTx Unit :=
  foldEach (fun _ root => do
    validateStateOwnership env root runId
    insertState env root) () roots

/-- The roots are there as they were inserted. -/
def requireRoots (runId : CrawlRunId) (roots : List CrawlUrlStateRecord) : TraversalTx Unit :=
  foldEach (fun _ => requireRoot runId) () roots

/-- Installs the first logical work and the control row, once. -/
def initializeRunState (env : Environment) (runId : CrawlRunId)
    (roots : List CrawlUrlStateRecord) (control : CrawlTraversalControl) : TraversalTx Unit := do
  require (control.crawlRunId = runId ∧ roots ≠ []) .invalidState
  ensureRun runId
  let s ← read
  match s.controls.find? runId with
  | some persisted =>
    require (persisted = control) .invalidState
    requireRoots runId roots
  | none =>
    insertControl control
    insertRoots env runId roots

/-- The lease and the identity of the checkpoint that goes with an initialization. -/
structure CheckpointAppend where
  jobId : JobId
  attemptId : AttemptId
  lease : JobLease
  identity : CheckpointIdentity
  createdAt : ℤ
  deriving DecidableEq, Repr

/-- A transaction of the queue, inside one of this repository. -/
def onQueue {α : Type} (x : QueueTx α) (e : CrawlTraversalRepositoryError) : TraversalTx α := do
  let s ← read
  match x s.queue with
  | .ok (a, queue) =>
    write fun s => { s with queue }
    return a
  | .error _ => fail e

/-- Appends a checkpoint in the same transaction. -/
def appendCheckpointInTransaction (checkpoint : CheckpointAppend) : TraversalTx Unit := do
  let _ ← onQueue (appendCheckpoint checkpoint.jobId checkpoint.attemptId checkpoint.lease
    checkpoint.identity checkpoint.createdAt) .checkpoint
  return ()

/-- Initializes a run together with its first checkpoint. -/
def initializeRunStateWithCheckpoint (env : Environment) (runId : CrawlRunId)
    (roots : List CrawlUrlStateRecord) (control : CrawlTraversalControl)
    (checkpoint : CheckpointAppend) : TraversalTx Unit := do
  require (control.crawlRunId = runId ∧ roots ≠ []) .invalidState
  ensureRun runId
  insertControl control
  insertRoots env runId roots
  appendCheckpointInTransaction checkpoint

/-- Initializes a run with its evidence, or accepts it as initialized. -/
def initializeRunStateWithCheckpointAndEvidence (env : Environment) (runId : CrawlRunId)
    (roots : List CrawlUrlStateRecord) (evidence : List DiscoveredUrlRecord)
    (control : CrawlTraversalControl) (projection : CrawlTraversalSemanticProjection)
    (checkpoint : CheckpointAppend) : TraversalTx Unit := do
  require (control.crawlRunId = runId ∧ roots ≠ [] ∧
    ∀ record ∈ evidence, record.crawlRunId = runId) .invalidState
  ensureRun runId
  let s ← read
  match s.controls.find? runId with
  | some persisted =>
    require (persisted = control) .invalidState
    recordEvidence env evidence
    requireRoots runId roots
  | none =>
    recordEvidence env evidence
    insertControl control
    insertRoots env runId roots
    applySemanticProjection env runId projection
    appendCheckpointInTransaction checkpoint

/-! ## Discovery deltas -/

/-- What one discovery boundary commits. -/
structure DiscoveryDelta where
  evidence : List DiscoveredUrlRecord
  newOrMergedWork : List CrawlUrlStateRecord
  control : CrawlTraversalControl
  transitionSourceCounts : List CrawlTransitionSourceCount
  semanticProjection : CrawlTraversalSemanticProjection
  redirects : List CrawlRedirectReconciliation
  inFlightWork : List CrawlInFlightWork
  deriving DecidableEq, Repr

/-- Inserts or merges the work of a delta. -/
def upsertWork (env : Environment) (runId : CrawlRunId) (work : List CrawlUrlStateRecord) :
    TraversalTx Unit :=
  foldEach (fun _ state => do
    validateStateOwnership env state runId
    upsertDiscoveryState env state) () work

/-- Applies a whole delta in one transaction. -/
def applyDiscoveryDeltaWithProjection (env : Environment) (runId : CrawlRunId)
    (delta : DiscoveryDelta) : TraversalTx Unit := do
  require (delta.control.crawlRunId = runId ∧
    ∀ record ∈ delta.evidence, record.crawlRunId = runId) .invalidState
  ensureRun runId
  recordEvidence env delta.evidence
  upsertWork env runId delta.newOrMergedWork
  -- A redirect's final unit may be newly admitted in this same delta.
  foldEach (fun _ => reconcileRedirect env runId) () delta.redirects
  applySemanticProjection env runId delta.semanticProjection
  markInFlightWork runId delta.inFlightWork
  updateControl delta.control
  replaceTransitionCounts env runId delta.transitionSourceCounts

/-- A delta of new work only. -/
def workDelta (evidence : List DiscoveredUrlRecord) (work : List CrawlUrlStateRecord)
    (control : CrawlTraversalControl) (counts : List CrawlTransitionSourceCount) :
    DiscoveryDelta where
  evidence := evidence
  newOrMergedWork := work
  control := control
  transitionSourceCounts := counts
  semanticProjection := ⟨[], []⟩
  redirects := []
  inFlightWork := []

/-- Applies a delta of work and evidence. -/
def applyDiscoveryDeltaWithEvidence (env : Environment) (runId : CrawlRunId)
    (evidence : List DiscoveredUrlRecord) (work : List CrawlUrlStateRecord)
    (control : CrawlTraversalControl) (counts : List CrawlTransitionSourceCount) :
    TraversalTx Unit :=
  applyDiscoveryDeltaWithProjection env runId (workDelta evidence work control counts)

/-- Applies a delta of work. -/
def applyDiscoveryDelta (env : Environment) (runId : CrawlRunId)
    (work : List CrawlUrlStateRecord) (control : CrawlTraversalControl)
    (counts : List CrawlTransitionSourceCount) : TraversalTx Unit :=
  applyDiscoveryDeltaWithEvidence env runId [] work control counts

/-- Replaces the counts of a run's transitions. -/
def replaceTransitionSourceCounts (env : Environment) (runId : CrawlRunId)
    (counts : List CrawlTransitionSourceCount) : TraversalTx Unit := do
  ensureRun runId
  replaceTransitionCounts env runId counts

/-! ## Recovery actions -/

/-- The attempt is the current one of the running job, and its lease is unexpired. -/
def activeAttempt (job : JobRecord) (attempt : JobAttempt) (now : ℤ) : Bool :=
  attempt.jobId = job.id && job.state = .running && job.currentAttempt = attempt.attemptNumber &&
    job.leaseGeneration = attempt.leaseGeneration && attempt.outcome = .running &&
    job.leaseColumns.any fun columns =>
      columns.id = attempt.leaseId && now < columns.expiresAt

/-- The durable executable selection of one recovery action. -/
structure CrawlRecoveryActionSelection where
  actionJobId : JobId
  crawlRunId : CrawlRunId
  actionKind : CrawlRecoveryActionKind
  stateIds : List UrlStateId
  deriving DecidableEq, Repr

/-- The place of a row in the order of recovery: depth, admission sequence,
canonical URL and requested URL, rows without a place last. -/
def recoveryKey (row : CrawlUrlStateRow) : Bool ×ₗ ℕ ×ₗ Bool ×ₗ ℕ ×ₗ String ×ₗ String :=
  toLex (row.depth.isNone, toLex (row.depth.getD 0, toLex (row.admissionSequence.isNone,
    toLex (row.admissionSequence.getD 0, toLex (row.canonicalUrl, row.requestedUrl)))))

/-- The work an action takes up. -/
def selects : CrawlRecoveryActionKind → CrawlWorkState → Bool
  | .retry, state => state = .pending || state = .failed || state = .partialResult ||
      state = .cancelled
  | .retryFailedParts, state => state = .failed || state = .partialResult
  | .restartFromBeginning, _ => true

/-- The units that an action selects. -/
def selected (runId : CrawlRunId) (kind : CrawlRecoveryActionKind) (row : CrawlUrlStateRow) :
    Bool :=
  row.crawlRunId = runId && row.admissionState = .admitted && row.currentWorkState.any (selects kind)

/-- Advances one selected unit and records the generation it advanced to. -/
def advanceUnit (actionJobId : JobId) (runId : CrawlRunId) (stateIds : List UrlStateId)
    (row : CrawlUrlStateRow) : TraversalTx (List UrlStateId) := do
  let prepared := row.workGeneration + 1
  require (fitsI64 prepared) .invalidState
  let changed ← updateUrlStates .database
    (fun other => other.crawlRunId = runId && other.id = row.id &&
      other.admissionState = .admitted && other.workGeneration = row.workGeneration)
    (fun other => { other with
      workGeneration := prepared
      currentWorkState := some .pending
      currentExecutionId := none })
  require (changed = 1) .corruptState
  let s ← read
  let recoveryActionItems ← orFail (s.recoveryActionItems.insert?
    ⟨actionJobId, runId, row.id, row.workGeneration, prepared⟩) .database
  write fun s => { s with recoveryActionItems }
  return stateIds ++ [row.id]

/-- One recorded item beside the unit it names. -/
def itemState (s : TraversalStore) (item : CrawlRecoveryActionItem) :
    Option (CrawlRecoveryActionItem × CrawlUrlStateRow) :=
  (selectById s item.crawlRunId item.crawlUrlStateId).map fun row => (item, row)

/-- The recorded selection of an action, in the order of recovery; refused when a
unit has left the generation it was prepared at. -/
def readRecoveryActionItems (actionJobId : JobId) (runId : CrawlRunId) :
    TraversalTx (List UrlStateId) := do
  let s ← read
  let items := s.recoveryActionItems.select fun item =>
    item.actionJobId = actionJobId && item.crawlRunId = runId
  let joined := (items.filterMap (itemState s)).insertionSort fun a b =>
    recoveryKey a.2 ≤ recoveryKey b.2
  require (∀ pair ∈ joined, pair.1.preparedWorkGeneration = pair.2.workGeneration) .invalidState
  let stateIds : List UrlStateId := joined.map fun pair => pair.1.crawlUrlStateId
  require (stateIds.IsChain (· ≠ ·)) .invalidState
  return stateIds

/-- The first preparation records the action, advances what its kind selects and
records every advance. -/
def firstPreparation (actionJobId sourceJobId : JobId) (runId : CrawlRunId)
    (kind : CrawlRecoveryActionKind) (now : ℤ) : TraversalTx (List UrlStateId) := do
  let s ← read
  let recoveryActions ← orFail
    (s.recoveryActions.insert? ⟨actionJobId, sourceJobId, runId, kind, now⟩) .database
  write fun s => { s with recoveryActions }
  if (s.controls.find? runId).isNone then return []
  foldEach (advanceUnit actionJobId runId) []
    ((s.urlStates.rows.filter (selected runId kind)).insertionSort fun a b =>
      recoveryKey a ≤ recoveryKey b)

/-- Records an action with its units once, and reads it back afterwards. -/
def prepareRecoveryAction (actionJobId : JobId) (actionAttemptId : AttemptId)
    (runId : CrawlRunId) (kind : CrawlRecoveryActionKind) (now : ℤ) :
    TraversalTx CrawlRecoveryActionSelection := do
  require (0 ≤ now) .invalidState
  let s ← read
  let job ← orFail (s.queue.jobs.find? actionJobId) .invalidState
  let attempt ← orFail (s.queue.attempts.find? actionAttemptId) .invalidState
  let sourceJobId ← orFail job.parentJobId .invalidState
  require (job.crawlRunId = some runId ∧ job.kind = kind.jobKind ∧
    activeAttempt job attempt now = true) .invalidState
  let source ← orFail (s.queue.jobs.find? sourceJobId) .invalidState
  require (source.crawlRunId = some runId) .invalidState
  match s.recoveryActions.find? actionJobId with
  | some existing =>
    require (existing.sourceJobId = sourceJobId ∧ existing.crawlRunId = runId ∧
      existing.actionKind = kind) .invalidState
    let stateIds ← readRecoveryActionItems actionJobId runId
    return ⟨actionJobId, runId, kind, stateIds⟩
  | none =>
    let stateIds ← firstPreparation actionJobId sourceJobId runId kind now
    return ⟨actionJobId, runId, kind, stateIds⟩

/-- The generation of an admitted unit, as callers capture it before a provider call. -/
def readWorkGeneration (s : TraversalStore) (runId : CrawlRunId) (stateId : UrlStateId) :
    Option ℕ :=
  ((selectById s runId stateId).filter fun row => row.admissionState = .admitted).map
    CrawlUrlStateRow.workGeneration

end Erabi.Traversal

/-
# Structural facts of a crawl

The counts and the status a finished crawl is judged by, read off its executions,
its discovered URLs, its traversal control and its logical work, and the decision
whether they describe a complete snapshot.
-/
import Mathlib
import Erabi.Traversal.Record

namespace Erabi.Finalization

open Queue Traversal

/-! ## Evidence and facts -/

/-- The durable evidence of one run. -/
structure DurableEvidence where
  executions : List CrawlExecutionRecord
  discoveredUrls : List DiscoveredUrlRecord
  control : Option CrawlTraversalControl
  work : Option (List CrawlUrlStateRecord)

/-- What is known of a run at its end. -/
structure CrawlStructuralFacts where
  status : CrawlRunStatus
  inScopePagesPlanned : ℕ
  inScopePagesCompleted : ℕ
  paginationTruncationCount : ℕ
  unresolvedPartialWorkCount : ℕ
  pageTypeAmbiguityCount : ℕ
  deriving DecidableEq, Repr

/-- Why the facts cannot be known. -/
inductive CrawlStructuralFactsError : Type where
  | inconsistentDurableState
  deriving DecidableEq, Repr

/-- A check; every failed one is the same error. -/
def ensure (p : Prop) [Decidable p] : Except CrawlStructuralFactsError Unit :=
  if p then .ok () else .error .inconsistentDurableState

/-- A check passes exactly when its condition holds. -/
theorem ensure_eq_ok {p : Prop} [Decidable p] {u : Unit} : ensure p = .ok u ↔ p := by
  unfold ensure
  split
  · rename_i hp
    exact ⟨fun _ => hp, fun _ => rfl⟩
  · rename_i hp
    exact ⟨fun h => (by cases h), fun h => absurd h hp⟩

/-! ## Coherence -/

section Coherence

-- Whether the URL parser accepts a text.
variable (parses : String → Bool)

/-- The URL parses and has no fragment. -/
def validateFragmentFree (value : String) : Bool :=
  !value.toList.contains '#' && parses value

/-- The URLs of an execution have no fragment. -/
def validateExecution (record : CrawlExecutionRecord) : Bool :=
  validateFragmentFree parses record.requestedUrl &&
    validateFragmentFree parses record.canonicalUrl &&
    record.observedFinalUrl.all fun value => !value.toList.contains '#'

/-- The run of the first row, looked for in the work, the executions, the
discovered URLs and the control. -/
def expectedRunId (e : DurableEvidence) : Option CrawlRunId :=
  (e.work.bind fun work => work.head?.map fun state => state.crawlRunId) <|>
    (e.executions.head?.map fun execution => execution.crawlRunId) <|>
    (e.discoveredUrls.head?.map fun discovered => discovered.crawlRunId) <|>
    e.control.map CrawlTraversalControl.crawlRunId

/-- The record is one of the run. -/
def ensureRunId (expected : Option CrawlRunId) (actual : CrawlRunId) : Bool :=
  expected.all fun runId => runId = actual

/-- Every row is one of the run, and every URL is well formed. -/
def validateEvidence (e : DurableEvidence) : Except CrawlStructuralFactsError Unit := do
  let expected := expectedRunId e
  ensure (∀ execution ∈ e.executions, validateExecution parses execution = true ∧
    ensureRunId expected execution.crawlRunId = true)
  ensure (∀ discovered ∈ e.discoveredUrls, ensureRunId expected discovered.crawlRunId = true ∧
    validateFragmentFree parses discovered.originalUrl = true ∧
    validateFragmentFree parses discovered.canonicalUrl = true)
  ensure (∀ control ∈ e.control, ensureRunId expected control.crawlRunId = true)
  ensure (∀ work ∈ e.work, ∀ state ∈ work, ensureRunId expected state.crawlRunId = true)

end Coherence

/-! ## The counted URLs -/

/-- The canonical URLs of the rows a predicate selects. -/
def urlsWhere (p : CrawlUrlStateRecord → Bool) (work : List CrawlUrlStateRecord) :
    Finset String :=
  ((work.filter p).map fun state => state.canonicalUrl).toFinset

/-- The unit is admitted. -/
def admitted (state : CrawlUrlStateRecord) : Bool := state.admissionState = .admitted

/-- The canonical URLs of the executions. -/
def executedUrls (executions : List CrawlExecutionRecord) : Finset String :=
  (executions.map CrawlExecutionRecord.canonicalUrl).toFinset

/-- The discovered URLs of a status. -/
def discoveredWith (status : String) (discovered : List DiscoveredUrlRecord) : Finset String :=
  ((discovered.filter fun record => record.status = status).map
    DiscoveredUrlRecord.canonicalUrl).toFinset

/-- Every execution counts its URL as planned, with the admitted work or, before
there is any, the admitted discoveries. -/
def plannedUrls (e : DurableEvidence) : Finset String :=
  executedUrls e.executions ∪
    e.work.elim (discoveredWith "ADMITTED" e.discoveredUrls) (urlsWhere admitted)

/-- What an execution left of a page. -/
inductive DurablePageOutcome : Type where
  | failed | partialResult | completed
  deriving DecidableEq, Repr

/-- The better outcome ranks higher. -/
def DurablePageOutcome.rank : DurablePageOutcome → ℕ
  | .failed => 0
  | .partialResult => 1
  | .completed => 2

/-- What an outcome leaves of a page. -/
def durablePageOutcome : CrawlExecutionOutcome → DurablePageOutcome
  | .completed => .completed
  | .partialResult => .partialResult
  | .failed | .cancelled => .failed

/-- The best outcome of the executions of a URL. -/
def currentOutcome (executions : List CrawlExecutionRecord) (url : String) :
    Option DurablePageOutcome :=
  (executions.filter fun execution => execution.canonicalUrl = url).foldl
    (fun current execution =>
      let outcome := durablePageOutcome execution.outcome
      match current with
      | none => some outcome
      | some best => if best.rank < outcome.rank then some outcome else some best) none

/-- A work state in which the page itself was fetched. -/
def fetched (state : CrawlUrlStateRecord) : Bool :=
  state.currentWorkState = some .completed || state.currentWorkState = some .partialResult

/-- The URLs that were fetched. -/
def completedUrls (e : DurableEvidence) : Finset String :=
  e.work.elim
    ((executedUrls e.executions).filter fun url =>
      currentOutcome e.executions url = some .completed ∨
        currentOutcome e.executions url = some .partialResult)
    (urlsWhere fun state => admitted state && fetched state)

/-- The URLs whose work is not completed. -/
def unresolvedUrls (e : DurableEvidence) : Finset String :=
  e.work.elim
    ((executedUrls e.executions).filter fun url =>
      currentOutcome e.executions url = some .failed ∨
        currentOutcome e.executions url = some .partialResult)
    (urlsWhere fun state => admitted state && state.currentWorkState ≠ some .completed)

/-- The URLs whose page type is ambiguous. -/
def ambiguousUrls (e : DurableEvidence) : Finset String :=
  e.work.elim ∅ (urlsWhere fun state => state.preserveReason = some "AMBIGUOUS_PAGE_TYPE") ∪
    discoveredWith "AMBIGUOUS_PAGE_TYPE" e.discoveredUrls

/-! ## The reconstruction -/

/-- A count that is a 64-bit integer. -/
def count (value : ℕ) : Except CrawlStructuralFactsError ℕ := do
  ensure (value ≤ u64Max)
  return value

/-- No more is completed than was planned. -/
def ensureCountsAreCoherent (planned completed : ℕ) : Except CrawlStructuralFactsError Unit :=
  ensure (¬ planned < completed)

/-- The end of a quick scrape whose only unit failed or was cancelled. -/
def quickScrapeCurrentTerminalStatus (work : Option (List CrawlUrlStateRecord)) :
    Option CrawlRunStatus :=
  work.bind fun work =>
    if work.any fun state => admitted state && state.currentWorkState = some .failed then
      some .failed
    else if work.any fun state => admitted state && state.currentWorkState = some .cancelled then
      some .cancelled
    else none

/-- The status of a run whose structure is complete or not. -/
def terminalStatus (runType : CrawlRunType) (work : Option (List CrawlUrlStateRecord))
    (structurallyIncomplete : Bool) : CrawlRunStatus → CrawlRunStatus
  | .cancelled => .cancelled
  | .failed => .failed
  | .partialResult => .partialResult
  | .queued | .running | .succeeded =>
    let structural : CrawlRunStatus :=
      if structurallyIncomplete then .partialResult else .succeeded
    if runType = .quickScrape then (quickScrapeCurrentTerminalStatus work).getD structural
    else structural

/-- The facts of a run from its durable evidence. -/
def reconstructCrawlStructuralFacts (parses : String → Bool) (snapshot : CrawlRunSnapshot)
    (currentStatus : CrawlRunStatus) (e : DurableEvidence) :
    Except CrawlStructuralFactsError CrawlStructuralFacts := do
  validateEvidence parses e
  let truncations := e.control.elim 0 CrawlTraversalControl.paginationTruncationCount
  let planned ← count (plannedUrls e).card
  let completed ← count (completedUrls e).card
  ensureCountsAreCoherent planned completed
  let notExpanded := if e.control.any CrawlTraversalControl.durationWorkNotExpanded then 1 else 0
  let unresolved ← count ((← count (unresolvedUrls e).card) + notExpanded)
  let ambiguous ← count (ambiguousUrls e).card
  let incomplete := completed < planned || 0 < unresolved || 0 < truncations || 0 < ambiguous
  return { status := terminalStatus snapshot.runType e.work incomplete currentStatus
           inScopePagesPlanned := planned
           inScopePagesCompleted := completed
           paginationTruncationCount := truncations
           unresolvedPartialWorkCount := unresolved
           pageTypeAmbiguityCount := ambiguous }

/-! ## The decision -/

/-- How well extraction went. -/
inductive ExtractionHealth : Type where
  | notRequired | notEvaluated | healthy | criticalFailure | productionBreakingSchemaDrift
  deriving DecidableEq, Repr

/-- Why a snapshot is not complete. -/
inductive CompleteSnapshotReason : Type where
  | nonProductionRun | runNotSuccessful | inScopeWorkIncomplete | paginationTruncated
  | unresolvedPartialWork | pageTypeAmbiguity | extractionHealthNotEvaluated
  | criticalExtractionFailure | productionBreakingSchemaDrift
  deriving DecidableEq, Repr

/-- What the decision about completeness looks at. -/
structure CompleteSnapshotStructuralInput where
  runType : CrawlRunType
  status : CrawlRunStatus
  inScopePagesPlanned : ℕ
  inScopePagesCompleted : ℕ
  paginationTruncationCount : ℕ
  unresolvedPartialWorkCount : ℕ
  pageTypeAmbiguityCount : ℕ
  extractionHealth : ExtractionHealth
  deriving DecidableEq, Repr

/-- Why the decision cannot be made. -/
inductive CompleteSnapshotStructuralInputError : Type where
  | completedExceedsPlanned
  deriving DecidableEq, Repr

/-- Whether a snapshot is complete. -/
inductive CompleteSnapshotStructuralDecision : Type where
  | complete
  | incomplete (reasons : List CompleteSnapshotReason)
  deriving DecidableEq, Repr

/-- The reasons that extraction gives. -/
def ExtractionHealth.reasons : ExtractionHealth → List CompleteSnapshotReason
  | .notRequired | .healthy => []
  | .notEvaluated => [.extractionHealthNotEvaluated]
  | .criticalFailure => [.criticalExtractionFailure]
  | .productionBreakingSchemaDrift => [.productionBreakingSchemaDrift]

namespace CompleteSnapshotStructuralInput

/-- The reason, when it applies. -/
def reasonIf (applies : Bool) (reason : CompleteSnapshotReason) : List CompleteSnapshotReason :=
  if applies then [reason] else []

/-- All reasons against completeness. -/
def reasons (input : CompleteSnapshotStructuralInput) : List CompleteSnapshotReason :=
  reasonIf (input.runType ≠ .productionRun) .nonProductionRun ++
    reasonIf (input.status ≠ .succeeded) .runNotSuccessful ++
    reasonIf (input.inScopePagesCompleted < input.inScopePagesPlanned) .inScopeWorkIncomplete ++
    reasonIf (0 < input.paginationTruncationCount) .paginationTruncated ++
    reasonIf (0 < input.unresolvedPartialWorkCount) .unresolvedPartialWork ++
    reasonIf (0 < input.pageTypeAmbiguityCount) .pageTypeAmbiguity ++
    input.extractionHealth.reasons

/-- A snapshot is complete when there is no reason against it. -/
def decide (input : CompleteSnapshotStructuralInput) :
    Except CompleteSnapshotStructuralInputError CompleteSnapshotStructuralDecision :=
  if input.inScopePagesPlanned < input.inScopePagesCompleted then
    .error .completedExceedsPlanned
  else if input.reasons = [] then .ok .complete
  else .ok (.incomplete input.reasons)

end CompleteSnapshotStructuralInput

/-- The facts of a run, composed with the health of its extraction. -/
def CrawlStructuralFacts.structuralInput (facts : CrawlStructuralFacts) (runType : CrawlRunType)
    (extractionHealth : ExtractionHealth) : CompleteSnapshotStructuralInput where
  runType := runType
  status := facts.status
  inScopePagesPlanned := facts.inScopePagesPlanned
  inScopePagesCompleted := facts.inScopePagesCompleted
  paginationTruncationCount := facts.paginationTruncationCount
  unresolvedPartialWorkCount := facts.unresolvedPartialWorkCount
  pageTypeAmbiguityCount := facts.pageTypeAmbiguityCount
  extractionHealth := extractionHealth

end Erabi.Finalization

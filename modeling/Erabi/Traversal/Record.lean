/-
# The durable crawl traversal state

The rows of the logical crawl work: URL states with their admission, resolution
and work columns, seed provenance, traversal control, recovery actions and page
executions.  A URL state satisfies the constraints of its table in every store.
-/
import Mathlib
import Erabi.Queue.Job
import Erabi.Relational.Constraint

namespace Erabi.Traversal

open Relational Queue

/-- Names a unit. -/
abbrev UrlStateId := String
/-- Names an execution. -/
abbrev CrawlExecutionId := ℕ

/-! ## States -/

/-- Whether a unit was admitted, kept or resolved. -/
inductive CrawlAdmissionState : Type where
  | admitted | preserveOnly | resolved
  deriving DecidableEq, Repr

/-- How far the work of a unit got. -/
inductive CrawlWorkState : Type where
  | pending | running | completed | partialResult | failed | cancelled
  deriving DecidableEq, Repr

/-- How the page of a unit matched. -/
inductive CrawlPageTypeMatchState : Type where
  | matched | unmatched | ambiguous
  deriving DecidableEq, Repr

/-- The actions that select units. -/
inductive CrawlRecoveryActionKind : Type where
  | retry | retryFailedParts | restartFromBeginning
  deriving DecidableEq, Repr

/-- The kind of the jobs that carry out an action. -/
def CrawlRecoveryActionKind.jobKind : CrawlRecoveryActionKind → JobKind
  | .retry => .retry
  | .retryFailedParts => .retryFailedParts
  | .restartFromBeginning => .restartFromBeginning

/-- How an execution ended. -/
inductive CrawlExecutionOutcome : Type where
  | completed | partialResult | failed | cancelled
  deriving DecidableEq, Repr

/-- Why an execution failed. -/
inductive CrawlExecutionErrorCode : Type where
  | accessDenied | notFound | timeout | providerUnavailable | invalidResponse | rateLimited
  | remoteFailure | unsupportedCapability | partialResult | cancelled | robotsExcluded
  | pageTypeAmbiguous | storagePressure
  deriving DecidableEq, Repr

/-! ## URL states -/

/-- One row of `crawl_url_state`. -/
structure CrawlUrlStateRow where
  id : UrlStateId
  crawlRunId : CrawlRunId
  canonicalUrl : String
  firstDiscoveredUrlId : Option String
  requestedUrl : String
  parentUrlStateId : Option UrlStateId
  parentDiscoveredUrlId : Option String
  admissionState : CrawlAdmissionState
  preserveReason : Option String
  resolvedToUrlStateId : Option UrlStateId
  admissionSequence : Option ℕ
  depth : Option ℕ
  targetPageTypeId : Option String
  transitionId : Option String
  pagination : Bool
  finalCanonicalUrl : Option String
  currentWorkState : Option CrawlWorkState
  workGeneration : ℕ
  currentExecutionId : Option CrawlExecutionId
  seen : Bool
  sampled : Bool
  expanded : Bool
  inScope : Bool
  pageTypeMatchState : Option CrawlPageTypeMatchState
  deriving DecidableEq, Repr

/-- A URL state with the seeds it is traced back to. -/
structure CrawlUrlStateRecord extends CrawlUrlStateRow where
  seedProvenance : List String
  deriving DecidableEq, Repr

/-- How long a URL may be. -/
def maxUrlChars : ℕ := 4096

namespace CrawlUrlStateRow

/-- What the admission of a row says about its resolution, its place in the queue
and its work. -/
def shape (row : CrawlUrlStateRow) : Bool :=
  match row.admissionState with
  | .admitted =>
    row.preserveReason.isNone && row.resolvedToUrlStateId.isNone &&
      row.admissionSequence.isSome && row.depth.isSome && row.currentWorkState.isSome
  | .preserveOnly =>
    row.preserveReason.isSome && row.resolvedToUrlStateId.isNone &&
      row.admissionSequence.isNone && row.depth.isNone && row.targetPageTypeId.isNone &&
      row.transitionId.isNone && row.currentWorkState.isNone &&
      row.currentExecutionId.isNone && !row.sampled && !row.expanded
  | .resolved =>
    row.preserveReason = some "CANONICAL_REDIRECT" && row.resolvedToUrlStateId.isSome &&
      row.admissionSequence.isNone && row.depth.isNone && row.targetPageTypeId.isNone &&
      row.transitionId.isNone && row.currentWorkState.isNone && row.currentExecutionId.isNone

/-- The check of `validate_state`; lengths are in bytes. -/
def validateState (row : CrawlUrlStateRow) : Bool :=
  !row.id.isEmpty && !row.canonicalUrl.isEmpty && row.canonicalUrl.utf8ByteSize ≤ maxUrlChars &&
    !row.requestedUrl.isEmpty && row.requestedUrl.utf8ByteSize ≤ maxUrlChars &&
    row.seen && (!row.expanded || row.sampled) &&
    row.inScope = row.pageTypeMatchState.isSome && row.shape

end CrawlUrlStateRow

/-- The reasons the schema knows for a row that is not admitted. -/
def preserveReasons : List String :=
  ["CANONICAL_DUPLICATE", "AMBIGUOUS_PAGE_TYPE", "UNMATCHED", "EXTERNAL", "BLOCKED",
    "BUDGET_EXCLUDED", "INVALID", "ROBOTS_EXCLUDED", "PROVIDER_ERROR", "TRANSITION_INELIGIBLE",
    "CANONICAL_REDIRECT"]

/-- A URL the schema admits; lengths are in characters. -/
def boundedUrl (url : String) : Bool := !url.isEmpty && url.length ≤ 4096

/-- The `CHECK` constraints of a row. -/
def CrawlUrlStateRow.checked (row : CrawlUrlStateRow) : Bool :=
  boundedUrl row.canonicalUrl && boundedUrl row.requestedUrl &&
    row.preserveReason.all preserveReasons.contains && row.finalCanonicalUrl.all boundedUrl &&
    (!row.expanded || row.sampled) && row.inScope = row.pageTypeMatchState.isSome && row.shape

/-- Two rows that may stand in one table: no run has a canonical URL or an
admission sequence twice. -/
def CrawlUrlStateRow.distinct (a b : CrawlUrlStateRow) : Prop :=
  a.crawlRunId = b.crawlRunId → a.canonicalUrl ≠ b.canonicalUrl ∧
    ∀ sequence ∈ a.admissionSequence, b.admissionSequence ≠ some sequence

/-- A row of the run exists under the identity. -/
def present (rows : List CrawlUrlStateRow) (runId : CrawlRunId) (id : UrlStateId) : Prop :=
  ∃ row ∈ rows, row.id = id ∧ row.crawlRunId = runId

/-- The constraints of `crawl_url_state`: its checks, its unique keys and the
foreign keys within the table. -/
structure UrlStateSchema (rows : List CrawlUrlStateRow) : Prop where
  checked : ∀ row ∈ rows, row.checked = true
  distinct : rows.Pairwise CrawlUrlStateRow.distinct
  parents : ∀ row ∈ rows, ∀ parent ∈ row.parentUrlStateId, present rows row.crawlRunId parent
  resolved : ∀ row ∈ rows, ∀ target ∈ row.resolvedToUrlStateId,
    present rows row.crawlRunId target

instance (a b : CrawlUrlStateRow) : Decidable (a.distinct b) :=
  inferInstanceAs (Decidable (a.crawlRunId = b.crawlRunId → a.canonicalUrl ≠ b.canonicalUrl ∧
    ∀ sequence ∈ a.admissionSequence, b.admissionSequence ≠ some sequence))

instance (rows : List CrawlUrlStateRow) (runId : CrawlRunId) (id : UrlStateId) :
    Decidable (present rows runId id) :=
  inferInstanceAs (Decidable (∃ row ∈ rows, row.id = id ∧ row.crawlRunId = runId))

instance : DecidablePred UrlStateSchema := fun rows =>
  decidable_of_iff ((∀ row ∈ rows, row.checked = true) ∧
      rows.Pairwise CrawlUrlStateRow.distinct ∧
      (∀ row ∈ rows, ∀ parent ∈ row.parentUrlStateId, present rows row.crawlRunId parent) ∧
      ∀ row ∈ rows, ∀ target ∈ row.resolvedToUrlStateId, present rows row.crawlRunId target)
    ⟨fun h => ⟨h.1, h.2.1, h.2.2.1, h.2.2.2⟩,
      fun h => ⟨h.checked, h.distinct, h.parents, h.resolved⟩⟩

theorem UrlStateSchema.nil : UrlStateSchema [] where
  checked _ h := by cases h
  distinct := List.Pairwise.nil
  parents _ h := by cases h
  resolved _ h := by cases h

/-! ## Evidence, control and executions -/

/-- Immutable evidence that a URL was observed. -/
structure DiscoveredUrlRecord where
  id : String
  crawlRunId : CrawlRunId
  sourceId : Option String
  rawHref : Option String
  originalUrl : String
  canonicalUrl : String
  status : String
  discoveredAt : String
  detail : String
  deriving DecidableEq, Repr

/-- A row that names a seed of a unit. -/
structure SeedProvenance where
  urlStateId : UrlStateId
  seedId : String
  ordinal : ℕ
  deriving DecidableEq, Repr

/-- The counters of a run. -/
structure CrawlTraversalControl where
  crawlRunId : CrawlRunId
  consumedBytes : ℕ
  rawLinkCount : ℕ
  duplicateCount : ℕ
  robotsExcludedCount : ℕ
  providerErrorCount : ℕ
  externalUrlCount : ℕ
  blockedUrlCount : ℕ
  peakExpansionCount : ℕ
  elapsedMillis : ℕ
  timeBudgetHit : Bool
  durationWorkNotExpanded : Bool
  paginationTruncationCount : ℕ
  nextAdmissionSequence : ℕ
  deriving DecidableEq, Repr

/-- One source page's contribution to an accepted transition budget. -/
structure CrawlTransitionSourceCount where
  transitionId : String
  sourceUrlStateId : UrlStateId
  eligibleEdgeCount : ℕ
  deriving DecidableEq, Repr

/-- A transition's count, under its run. -/
structure CrawlTransitionSourceCountRow extends CrawlTransitionSourceCount where
  crawlRunId : CrawlRunId
  deriving DecidableEq, Repr

/-- The counts of a page type. -/
structure CrawlTraversalPageTypeCounts where
  pageTypeId : String
  sampledCount : ℕ
  discoveredCount : ℕ
  deriving DecidableEq, Repr

/-- A page type's counts, under their run. -/
structure CrawlTraversalPageTypeCountsRow extends CrawlTraversalPageTypeCounts where
  crawlRunId : CrawlRunId
  deriving DecidableEq, Repr

/-- One recovery action; its job is its identity. -/
structure CrawlRecoveryAction where
  actionJobId : JobId
  sourceJobId : JobId
  crawlRunId : CrawlRunId
  actionKind : CrawlRecoveryActionKind
  preparedAt : ℤ
  deriving DecidableEq, Repr

/-- One logical unit an action selected, with the generation it advanced. -/
structure CrawlRecoveryActionItem where
  actionJobId : JobId
  crawlRunId : CrawlRunId
  crawlUrlStateId : UrlStateId
  previousWorkGeneration : ℕ
  preparedWorkGeneration : ℕ
  deriving DecidableEq, Repr

/-- Provider-neutral evidence of one page execution. -/
structure CrawlExecutionRecord where
  id : CrawlExecutionId
  crawlRunId : CrawlRunId
  requestedUrl : String
  canonicalUrl : String
  observedFinalUrl : Option String
  sourceId : Option String
  pageTypeId : Option String
  transitionId : Option String
  discoveredUrlId : Option String
  outcome : CrawlExecutionOutcome
  errorCode : Option CrawlExecutionErrorCode
  httpStatus : Option ℕ
  mediaType : Option String
  contentLengthBytes : Option ℕ
  providerElapsedMs : Option ℕ
  deriving DecidableEq, Repr

/-- The logical unit, the attempt and the generation an execution was made for. -/
structure ExecutionLineage where
  crawlUrlStateId : UrlStateId
  jobAttemptId : AttemptId
  workGeneration : ℕ
  deriving DecidableEq, Repr

/-- An execution with the work it belongs to. -/
structure CrawlExecutionRow extends CrawlExecutionRecord where
  lineage : Option ExecutionLineage
  deriving DecidableEq, Repr

/-! ## The store -/

/-- The tables of the traversal and execution repositories, beside the queue. -/
structure TraversalStore where
  queue : QueueStore
  discovered : Table DiscoveredUrlRecord String DiscoveredUrlRecord.id
  urlStates : Constrained CrawlUrlStateRow UrlStateId CrawlUrlStateRow.id UrlStateSchema
  seedProvenance : Table SeedProvenance (UrlStateId × String) fun row =>
    (row.urlStateId, row.seedId)
  controls : Table CrawlTraversalControl CrawlRunId CrawlTraversalControl.crawlRunId
  transitionCounts : Table CrawlTransitionSourceCountRow (CrawlRunId × String × UrlStateId)
    fun row => (row.crawlRunId, row.transitionId, row.sourceUrlStateId)
  pageTypeCounts : Table CrawlTraversalPageTypeCountsRow (CrawlRunId × String) fun row =>
    (row.crawlRunId, row.pageTypeId)
  recoveryActions : Table CrawlRecoveryAction JobId CrawlRecoveryAction.actionJobId
  recoveryActionItems : Table CrawlRecoveryActionItem (JobId × UrlStateId) fun item =>
    (item.actionJobId, item.crawlUrlStateId)
  executions : Table CrawlExecutionRow CrawlExecutionId fun row => row.id

/-- The database after the migrations. -/
def TraversalStore.empty : TraversalStore where
  queue := .empty
  discovered := .empty
  urlStates := .empty .nil
  seedProvenance := .empty
  controls := .empty
  transitionCounts := .empty
  pageTypeCounts := .empty
  recoveryActions := .empty
  recoveryActionItems := .empty
  executions := .empty

end Erabi.Traversal

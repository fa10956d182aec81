/-
# The state of a traversal

The queue, the sets of canonical URLs and the counters of one semantic
traversal, with the changes of them that the discovery decisions are made of.
Counters are natural numbers: they are far from the bounds of their machine
types.  The report of budget hits and diagnostics that only a preview returns is
not kept.
-/
import Erabi.Crawl.Semantics
import Erabi.Relational.KeySet
import Erabi.Relational.Transaction
import Erabi.Relational.Table

namespace Erabi.Crawl

open Relational

/-! ## Observations -/

/-- A link on a page. -/
structure ObservedLink where
  rawHref : Url
  selector : Option Selector
deriving DecidableEq, Repr

/-- A pagination control on a page. -/
structure PaginationObservation where
  selector : Option Selector
  targetUrl : Option Url
deriving DecidableEq, Repr

/-- What the provider saw of a page. -/
structure PageObservation where
  requestedUrl : Url
  finalUrl : Option Url
  discoveredLinks : List ObservedLink
  paginationObservations : List PaginationObservation
deriving DecidableEq, Repr

/-- A diagnostic of the provider. -/
structure TestDiagnostic where
  code : Text
  message : Text
deriving DecidableEq, Repr

/-- Why a traversal is interrupted. -/
inductive DiscoveryPreviewInterruption where
  | cancelled
  | storagePressure
deriving DecidableEq, Repr

/-- What the provider makes of one request. -/
inductive ProviderOutcome where
  | observed (observation : PageObservation) (downloadedBytes : ℕ)
  | robotsExcluded (reason : Text)
  | pageFailed (diagnostic : TestDiagnostic)
  | interrupted (reason : DiscoveryPreviewInterruption)
  | unavailable
deriving DecidableEq, Repr

/-- Why a traversal fails. -/
inductive DiscoveryPreviewError where
  | seedNotOwnedByVersion
  | seedDisabled
  | providerUnavailable
  | providerObservationRequestMismatch
  | providerObservationInvalid
  | budgetOverflow
  | queueEntryMissingSeedProvenance
  | persistedStateInvalid
deriving DecidableEq, Repr

/-! ## Evidence of decisions -/

/-- What became of a URL. -/
inductive PreviewUrlState where
  | inScopeMatched
  | ambiguousPageType
  | unmatched
  | external
  | blocked
  | canonicalDuplicate
  | budgetExcluded
  | invalidUrl
  | robotsExcluded
  | providerError
  | sampled
deriving DecidableEq, Repr

/-- The limits that a URL may hit. -/
inductive PreviewBudgetKind where
  | maxPages
  | maxDepth
  | maxDuration
  | maxDownloadedBytes
  | pageTypePageBudget
  | transitionPerSourcePage
  | transitionTotal
deriving DecidableEq, Repr

/-- A limit hit, with the count that hit it. -/
structure PreviewBudgetHit where
  kind : PreviewBudgetKind
  transitionId : Option TransitionId
  pageTypeId : Option PageTypeId
  observed : ℕ
  limit : ℕ
deriving DecidableEq, Repr

/-- How a transition was judged on a link. -/
structure PreviewTransitionEvaluation where
  transitionId : TransitionId
  transitionName : Text
  sourcePageTypeId : PageTypeId
  targetPageTypeId : PageTypeId
  priority : ℤ
  selectorEligible : Bool
  targetPageTypeEligible : Bool
  constraintsEligible : Bool
  eligible : Bool
  budgetHits : List PreviewBudgetHit
deriving DecidableEq, Repr

/-- The explanation of one discovered href. -/
structure DiscoveryPath where
  seedId : SeedId
  seedIds : List SeedId
  sourceRequestedUrl : Url
  sourceFinalUrl : Option Url
  sourceCanonicalUrl : Url
  sourcePageTypeMatch : PageTypeMatch
  selector : Option Selector
  rawHref : Url
  resolvedOriginalUrl : Option Url
  canonicalUrl : Option Url
  scope : Option DomainScopeStatus
  state : PreviewUrlState
  duplicateOfCanonicalUrl : Option Url
  targetPageTypeMatch : Option PageTypeMatch
  sourceDepth : ℕ
  prospectiveDepth : Option ℕ
  transitionEvaluations : List PreviewTransitionEvaluation
  budgetHits : List PreviewBudgetHit
deriving DecidableEq, Repr

/-- The explanation of one requested page. -/
structure DiscoveryPreviewPage where
  requestedCanonicalUrl : Url
  requestedUrl : Url
  finalUrl : Option Url
  canonicalUrl : Option Url
  depth : ℕ
  state : PreviewUrlState
  seedIds : List SeedId
  scope : Option DomainScopeStatus
  pageTypeMatch : Option PageTypeMatch
  downloadedBytes : Option ℕ
  robotsReason : Option Text
  diagnostic : Option TestDiagnostic
  budgetHits : List PreviewBudgetHit
deriving DecidableEq, Repr

/-- The explanation of one selected root. -/
structure DiscoveryPreviewSeed where
  seedId : SeedId
  requestedUrl : Url
  canonicalUrl : Url
  entryPageTypeHint : Option PageTypeId
  state : PreviewUrlState
  duplicateOfCanonicalUrl : Option Url
  scope : Option DomainScopeStatus
  pageTypeMatch : Option PageTypeMatch
  budgetHits : List PreviewBudgetHit
deriving DecidableEq, Repr

/-! ## Queue and counters -/

/-- A unit of work. -/
structure QueueEntry where
  requestedUrl : Url
  canonicalUrl : Url
  depth : ℕ
  seedIds : List SeedId
  /-- Present only for a target admitted by discovery. -/
  targetPageTypeId : Option PageTypeId
  transitionId : Option TransitionId
  parentCanonicalUrl : Option Url
  pagination : Bool
  order : ℕ
deriving DecidableEq, Repr

/-- The order of the queue: depth, admission order, canonical and requested URL. -/
def QueueEntry.before (a b : QueueEntry) : Bool :=
  a.depth < b.depth || a.depth = b.depth && (a.order < b.order || a.order = b.order &&
    (a.canonicalUrl < b.canonicalUrl ||
      a.canonicalUrl = b.canonicalUrl && a.requestedUrl ≤ b.requestedUrl))

/-- Units are ordered by depth, order and URLs. -/
theorem QueueEntry.before_iff {a b : QueueEntry} : a.before b = true ↔
    toLex (a.depth, toLex (a.order, toLex (a.canonicalUrl, a.requestedUrl))) ≤
      toLex (b.depth, toLex (b.order, toLex (b.canonicalUrl, b.requestedUrl))) := by
  simp [before, Prod.Lex.toLex_le_toLex]

instance : Std.Total fun a b : QueueEntry => a.before b = true where
  total a b := by
    rw [QueueEntry.before_iff, QueueEntry.before_iff]
    exact le_total _ _

instance : IsTrans QueueEntry fun a b => a.before b = true where
  trans _ _ _ hab hbc :=
    QueueEntry.before_iff.mpr ((QueueEntry.before_iff.mp hab).trans (QueueEntry.before_iff.mp hbc))

/-- A unit in front is no deeper. -/
theorem QueueEntry.depth_le_of_before {a b : QueueEntry} (h : a.before b = true) :
    a.depth ≤ b.depth := by
  rw [before, Bool.or_eq_true, Bool.and_eq_true, decide_eq_true_eq, decide_eq_true_eq] at h
  omega

/-- The provenance and the depth that an entry gains from a repeated discovery. -/
def QueueEntry.merge (entry : QueueEntry) (seedIds : List SeedId)
    (prospectiveDepth : Option ℕ) : QueueEntry :=
  { entry with
    seedIds := seedIds.foldl (fun ids id => if id ∈ ids then ids else ids ++ [id]) entry.seedIds
    depth := (prospectiveDepth.map fun depth => min depth entry.depth).getD entry.depth }

/-- A merge keeps the seed identities of the entry and adds those of the discovery. -/
theorem QueueEntry.mem_merge {e : QueueEntry} {seedIds : List SeedId} {depth : Option ℕ}
    {id : SeedId} : id ∈ (e.merge seedIds depth).seedIds ↔ id ∈ e.seedIds ∨ id ∈ seedIds := by
  show id ∈ seedIds.foldl (fun ids id => if id ∈ ids then ids else ids ++ [id]) e.seedIds ↔ _
  generalize e.seedIds = ids
  induction seedIds generalizing ids with
  | nil => simp
  | cons a rest ih =>
    rw [List.foldl_cons, ih, List.mem_cons]
    split
    · rename_i ha
      constructor
      · exact fun h => h.imp_right Or.inr
      · rintro (h | rfl | h)
        · exact Or.inl h
        · exact Or.inl ha
        · exact Or.inr h
    · rw [List.mem_append, List.mem_singleton, or_assoc]

/-- What a transition has been used for. -/
structure TransitionRuntimeCount where
  transitionId : TransitionId
  name : Text
  eligibleEdges : ℕ
  sourcePages : KeySet Url

/-- How often a transition was used on one page. -/
structure TransitionPageCount where
  transitionId : TransitionId
  source : Url
  count : ℕ
deriving DecidableEq, Repr

/-- Page counts are kept by transition and page. -/
def TransitionPageCount.key (c : TransitionPageCount) : TransitionId × Url :=
  (c.transitionId, c.source)

/-- A counter for every page type that has one. -/
abbrev PageTypeCounts := PageTypeId → Option ℕ

/-- One more page of a page type. -/
def PageTypeCounts.increment (counts : PageTypeCounts) (id : PageTypeId) : PageTypeCounts :=
  Function.update counts id (some ((counts id).getD 0 + 1))

/-- The state of a traversal. -/
structure SemanticTraversal where
  queued : Table QueueEntry Url QueueEntry.canonicalUrl
  admitted : KeySet Url
  seen : KeySet Url
  sampled : KeySet Url
  expanded : KeySet Url
  pages : List DiscoveryPreviewPage
  seeds : List DiscoveryPreviewSeed
  paths : List DiscoveryPath
  transitionCounts : Table TransitionRuntimeCount TransitionId
    TransitionRuntimeCount.transitionId
  transitionPageCounts : Table TransitionPageCount (TransitionId × Url) TransitionPageCount.key
  pageTypeSampled : PageTypeCounts
  pageTypeDiscovered : PageTypeCounts
  pageTypeScheduled : PageTypeCounts
  matchingUrls : KeySet Url
  unmatchedUrls : KeySet Url
  ambiguousUrls : KeySet Url
  inScopeUrls : KeySet Url
  consumedBytes : ℕ
  pagesSampled : ℕ
  urlsDiscovered : ℕ
  duplicatesPrevented : ℕ
  robotsExcluded : ℕ
  providerErrors : ℕ
  externalUrls : ℕ
  blockedUrls : ℕ
  newlyEnqueuedUrls : ℕ
  peakNewFromPage : ℕ
  timeBudgetHit : Bool
  paginationTruncationCount : ℕ
  durationWorkNotExpanded : Bool

/-- A computation of the traversal, which a failure ends. -/
abbrev Traverse := Transaction SemanticTraversal DiscoveryPreviewError

/-- The zero counter of every transition. -/
def initialTransitionCounts (ctx : TraversalContext) :
    Table TransitionRuntimeCount TransitionId TransitionRuntimeCount.transitionId :=
  ⟨ctx.transitions.map fun t => ⟨t.id, t.name, 0, KeySet.empty⟩, by
    rw [List.map_map]; exact ctx.transitionsNodup⟩

namespace SemanticTraversal

/-- `SemanticTraversal::new`. -/
def new (ctx : TraversalContext) : SemanticTraversal where
  queued := Table.empty
  admitted := KeySet.empty
  seen := KeySet.empty
  sampled := KeySet.empty
  expanded := KeySet.empty
  pages := []
  seeds := []
  paths := []
  transitionCounts := initialTransitionCounts ctx
  transitionPageCounts := Table.empty
  pageTypeSampled := fun _ => none
  pageTypeDiscovered := fun _ => none
  pageTypeScheduled := fun _ => none
  matchingUrls := KeySet.empty
  unmatchedUrls := KeySet.empty
  ambiguousUrls := KeySet.empty
  inScopeUrls := KeySet.empty
  consumedBytes := 0
  pagesSampled := 0
  urlsDiscovered := 0
  duplicatesPrevented := 0
  robotsExcluded := 0
  providerErrors := 0
  externalUrls := 0
  blockedUrls := 0
  newlyEnqueuedUrls := 0
  peakNewFromPage := 0
  timeBudgetHit := false
  paginationTruncationCount := 0
  durationWorkNotExpanded := false

variable (s : SemanticTraversal)

/-- The queue as `rebuild_queue` orders it.  Every change of the queued entries
is followed by a rebuild, so the queue is no state of its own. -/
def queue : List QueueEntry := s.queued.rows.insertionSort fun a b => a.before b = true

/-- The queue holds the queued units. -/
@[simp] theorem mem_queue {s : SemanticTraversal} {e : QueueEntry} :
    e ∈ s.queue ↔ e ∈ s.queued.rows := List.mem_insertionSort _

/-- The first unit of the queue has the least depth. -/
theorem depth_le_of_queue {s : SemanticTraversal} {first : QueueEntry} {rest : List QueueEntry}
    (h : s.queue = first :: rest) {e : QueueEntry} (he : e ∈ s.queued.rows) :
    first.depth ≤ e.depth := by
  have hsorted := List.pairwise_insertionSort (fun a b : QueueEntry => a.before b = true)
    s.queued.rows
  rw [← queue, h] at hsorted
  rw [← mem_queue, h] at he
  rcases List.mem_cons.mp he with rfl | he
  · exact le_rfl
  · exact QueueEntry.depth_le_of_before (List.rel_of_pairwise_cons hsorted he)

/-! ## Changes -/

/-- Counts truncated pagination.  A count of zero leaves no trace. -/
def recordPaginationTruncation (count : ℕ) : SemanticTraversal :=
  { s with paginationTruncationCount := s.paginationTruncationCount + count }

/-- One more path. -/
def pushPath (path : DiscoveryPath) : SemanticTraversal := { s with paths := s.paths ++ [path] }

/-- A URL reached by an observation or, with `discoveredFromHref`, by a link:
its first match counts. -/
def registerMatch (url : Url) (evidence : PageTypeMatch) (discoveredFromHref : Bool) :
    SemanticTraversal :=
  { s with
    inScopeUrls := s.inScopeUrls.insert url
    matchingUrls := if url ∈ s.inScopeUrls then s.matchingUrls else s.matchingUrls.insert url
    ambiguousUrls :=
      if url ∉ s.inScopeUrls ∧ evidence.isAmbiguous then s.ambiguousUrls.insert url
      else s.ambiguousUrls
    unmatchedUrls :=
      if url ∉ s.inScopeUrls ∧ evidence = .unmatched then s.unmatchedUrls.insert url
      else s.unmatchedUrls
    pageTypeDiscovered :=
      match evidence.winner with
      | some winner =>
        if url ∉ s.inScopeUrls ∧ discoveredFromHref then s.pageTypeDiscovered.increment winner
        else s.pageTypeDiscovered
      | none => s.pageTypeDiscovered }

/-- Counts a URL out of scope. -/
def countScope (state : PreviewUrlState) : SemanticTraversal :=
  { s with
    externalUrls := if state = .external then s.externalUrls + 1 else s.externalUrls
    blockedUrls := if state = .blocked then s.blockedUrls + 1 else s.blockedUrls }

/-- Counts one use of a transition. -/
def consumeTransition (t : DiscoveryTransition) (source : Url) : SemanticTraversal :=
  { s with
    transitionPageCounts := s.transitionPageCounts.put
      ⟨t.id, source, ((s.transitionPageCounts.find? (t.id, source)).map
        TransitionPageCount.count).getD 0 + 1⟩
    transitionCounts := s.transitionCounts.update (fun c => c.transitionId = t.id) fun c =>
      { c with eligibleEdges := c.eligibleEdges + 1, sourcePages := c.sourcePages.insert source } }

/-- A repeated discovery of a queued unit: its provenance and a lower depth. -/
def mergeQueuedDuplicateProvenance (canonical : Url) (seedIds : List SeedId)
    (prospectiveDepth : Option ℕ) : SemanticTraversal :=
  { s with queued := s.queued.update (fun e => e.canonicalUrl = canonical) fun e =>
      e.merge seedIds prospectiveDepth }

/-- The order that the next admission of a link gets. -/
def nextOrder (ctx : TraversalContext) : ℕ := s.newlyEnqueuedUrls + ctx.selectedSeedIds.length

/-- The admission of a discovered link under its page type. -/
def enqueue (entry : QueueEntry) (winner : PageTypeId) : SemanticTraversal :=
  { s with
    admitted := s.admitted.insert entry.canonicalUrl
    pageTypeScheduled := s.pageTypeScheduled.increment winner
    queued := s.queued.put entry
    newlyEnqueuedUrls := s.newlyEnqueuedUrls + 1 }

/-- The time budget is hit. -/
def hitTimeBudget : SemanticTraversal := { s with timeBudgetHit := true }

end SemanticTraversal

end Erabi.Crawl

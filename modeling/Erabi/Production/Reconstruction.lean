/-
# The reconstruction of a traversal

What the crawl stage reads back from the rows of a run: the checkpoint of its
traversal, and the units that a retry selected.  Stored identities are decoded and
stored URLs are parsed again, and the traversal checks what it is given; every
reason to refuse is one on the rows, which `Restorable` lists.
-/
import Mathlib
import Erabi.Crawl.Runs
import Erabi.Finalization.Reconstruction
import Erabi.Traversal.Frontier

namespace Erabi.Production

open Relational Transaction Queue Traversal

/-! ## Errors and frozen semantics -/

/-- Why a stage fails. -/
inductive CrawlStageError : Type where
  | jobKindUnsupported
  | jobLoadFailed
  | runIdInvalid
  | runSnapshotLoadFailed
  | frozenSemanticsLoadFailed
  | productionLimitsInvalid
  | checkpointLoadFailed
  | checkpointMissing
  | recoveryFrontierMissing
  | checkpointIdentityMismatch
  | recoveryStateInvalid
  | runRecoveryTransitionFailed
  | runExecutionTransitionFailed
  | checkpointPersistFailed
  | recoveryActionPersistFailed
  | traversalDepthMissing
  | traversalSeedIdInvalid
  | traversalPageTypeIdInvalid
  | traversalTransitionIdInvalid
  | traversalAdmissionSequenceMissing
  | traversalSourceStateMissing
  | traversalEdgeCountInvalid
  | traversalRestoreFailed
  | traversalInitializationFailed
deriving DecidableEq, Repr

/-- The frozen version of a run with its selected seeds and limits, and how the
stored texts of the run are read. -/
structure FrozenSemantics where
  ctx : Crawl.TraversalContext
  /-- A stored URL as the traversal compares it. -/
  text : String → Crawl.Text
  textInjective : Function.Injective text
  /-- `decode_id`, for the three kinds of identities. -/
  seedId : String → Option Crawl.SeedId
  pageTypeId : String → Option Crawl.PageTypeId
  transitionId : String → Option Crawl.TransitionId
  /-- The text under which counts of a transition are stored. -/
  transitionText : Crawl.TransitionId → String

/-- `Option::ok_or` -/
def okOr {α : Type} (value : Option α) (e : CrawlStageError) : Except CrawlStageError α :=
  match value with
  | some a => .ok a
  | none => .error e

/-! ## Entries -/

/-- An entry of the queue with the discovery record that it names. -/
structure RecoveredEntry extends Crawl.QueueEntry where
  discoveredUrlId : Option String
deriving DecidableEq, Repr

section Reconstruction

variable (semantic : FrozenSemantics) (s : TraversalStore)

/-- `queue_entry`: the unit as the traversal queues it. -/
def queueEntry (work : List CrawlUrlStateRow) (unit : CrawlUrlStateRow) :
    Except CrawlStageError RecoveredEntry := do
  let depth ← okOr unit.depth .traversalDepthMissing
  let seedIds ← (readSeedProvenance s unit.id).mapM fun id =>
    okOr (semantic.seedId id) .traversalSeedIdInvalid
  let targetPageTypeId ← unit.targetPageTypeId.mapM fun id =>
    okOr (semantic.pageTypeId id) .traversalPageTypeIdInvalid
  let transitionId ← unit.transitionId.mapM fun id =>
    okOr (semantic.transitionId id) .traversalTransitionIdInvalid
  let order ← okOr unit.admissionSequence .traversalAdmissionSequenceMissing
  return {
    requestedUrl := semantic.text unit.requestedUrl
    canonicalUrl := semantic.text unit.canonicalUrl
    depth
    seedIds
    targetPageTypeId
    transitionId
    parentCanonicalUrl := (unit.parentUrlStateId.bind fun parent =>
      work.find? fun candidate => candidate.id = parent).map fun parent =>
        semantic.text parent.canonicalUrl
    pagination := unit.pagination
    order
    discoveredUrlId := unit.firstDiscoveredUrlId }

/-! ## Counts -/

/-- The transition counts of a run, in their order. -/
def transitionSourceCounts (runId : CrawlRunId) : List CrawlTransitionSourceCountRow :=
  (s.transitionCounts.select fun row => row.crawlRunId = runId).insertionSort fun a b =>
    toLex (a.transitionId, a.sourceUrlStateId) ≤ toLex (b.transitionId, b.sourceUrlStateId)

/-- Decodes one count of a transition. -/
def transitionPageCount (work : List CrawlUrlStateRow) (count : CrawlTransitionSourceCountRow) :
    Except CrawlStageError Crawl.TransitionPageCount := do
  let source ← okOr (work.find? fun unit => unit.id = count.sourceUrlStateId)
    .traversalSourceStateMissing
  let transitionId ← okOr (semantic.transitionId count.transitionId) .traversalTransitionIdInvalid
  let edges ← okOr (if count.eligibleEdgeCount < 2 ^ 32 then some count.eligibleEdgeCount else none)
    .traversalEdgeCountInvalid
  return ⟨transitionId, semantic.text source.canonicalUrl, edges⟩

/-- The state of a transition: the counts that are stored under its own text. -/
def transitionState (work : List CrawlUrlStateRow) (counts : List CrawlTransitionSourceCountRow)
    (t : Crawl.DiscoveryTransition) : Crawl.SemanticTraversalTransitionState :=
  let own := counts.filter fun count => count.transitionId = semantic.transitionText t.id
  { transitionId := t.id
    name := t.name
    eligibleEdges := own.foldl (fun edges count => min (edges + count.eligibleEdgeCount) u64Max) 0
    sourcePages := (own.filterMap fun count =>
      (work.find? fun unit => unit.id = count.sourceUrlStateId).map fun source =>
        semantic.text source.canonicalUrl).dedup }

/-- The page type counts of a run, in their order. -/
def pageTypeCountsOf (runId : CrawlRunId) : List CrawlTraversalPageTypeCountsRow :=
  (s.pageTypeCounts.select fun row => row.crawlRunId = runId).insertionSort fun a b =>
    a.pageTypeId ≤ b.pageTypeId

/-- The page types that admitted units are scheduled for. -/
def scheduledTexts (work : List CrawlUrlStateRow) : List String :=
  (work.filter fun unit => unit.admissionState = .admitted).filterMap
    CrawlUrlStateRow.targetPageTypeId

/-- How many units each page type is scheduled for, in the order of their texts. -/
def scheduledCounts (work : List CrawlUrlStateRow) : List (String × ℕ) :=
  ((scheduledTexts work).dedup.insertionSort (· ≤ ·)).map fun id =>
    (id, (scheduledTexts work).count id)

/-- Decodes the counts of page types. -/
def decodeCounts (values : List (String × ℕ)) :
    Except CrawlStageError (List (Crawl.PageTypeId × ℕ)) :=
  values.mapM fun value => do
    return (← okOr (semantic.pageTypeId value.1) .traversalPageTypeIdInvalid, value.2)

/-! ## The checkpoint -/

/-- The canonical URLs of the units that `picks`. -/
def urlsOf (picks : CrawlUrlStateRow → Bool) (work : List CrawlUrlStateRow) : List Crawl.Url :=
  (work.filter picks).map fun unit => semantic.text unit.canonicalUrl

/-- The checkpoint of a traversal, and the units of a selection. -/
structure ReconstructedTraversal where
  checkpoint : Crawl.SemanticTraversalCheckpoint
  pending : List RecoveredEntry
  recoveryEntries : List RecoveredEntry

/-- The unit is admitted. -/
def isAdmitted (unit : CrawlUrlStateRow) : Bool := unit.admissionState = .admitted

/-- The page of the unit matched so. -/
def hasMatch (state : CrawlPageTypeMatchState) (unit : CrawlUrlStateRow) : Bool :=
  unit.pageTypeMatchState = some state

/-- The checkpoint that durable work, control and counts describe. -/
def checkpointOf (work : List CrawlUrlStateRow) (control : CrawlTraversalControl)
    (counts : List CrawlTransitionSourceCountRow) (pending : List RecoveredEntry)
    (transitionPageCounts : List Crawl.TransitionPageCount)
    (pageTypeSampled pageTypeDiscovered pageTypeScheduled : List (Crawl.PageTypeId × ℕ)) :
    Crawl.SemanticTraversalCheckpoint where
  selectedSeedIds := semantic.ctx.selectedSeedIds
  pending := pending.map RecoveredEntry.toQueueEntry
  admittedCanonicalUrls := urlsOf semantic isAdmitted work
  seenCanonicalUrls := urlsOf semantic (fun unit => unit.seen) work
  sampledCanonicalUrls := urlsOf semantic (fun unit => unit.sampled) work
  expandedCanonicalUrls := urlsOf semantic (fun unit => unit.expanded) work
  matchingCanonicalUrls := urlsOf semantic (hasMatch .matched) work
  unmatchedCanonicalUrls := urlsOf semantic (hasMatch .unmatched) work
  ambiguousCanonicalUrls := urlsOf semantic (hasMatch .ambiguous) work
  inScopeCanonicalUrls := urlsOf semantic (fun unit => unit.inScope) work
  consumedBytes := control.consumedBytes
  pagesSampled := (urlsOf semantic (fun unit => unit.sampled) work).length
  urlsDiscovered := control.rawLinkCount
  duplicatesPrevented := control.duplicateCount
  robotsExcluded := control.robotsExcludedCount
  providerErrors := control.providerErrorCount
  externalUrls := control.externalUrlCount
  blockedUrls := control.blockedUrlCount
  newlyEnqueuedUrls := (urlsOf semantic isAdmitted work).length
  peakNewFromPage := control.peakExpansionCount
  timeBudgetHit := control.timeBudgetHit
  paginationTruncationCount := control.paginationTruncationCount
  durationWorkNotExpanded := control.durationWorkNotExpanded
  pageTypeSampled
  pageTypeDiscovered
  pageTypeScheduled
  transitionCounts := semantic.ctx.transitions.map (transitionState semantic work counts)
  transitionPageCounts
  elapsedMillis := control.elapsedMillis

/-- `reconstruct_traversal_checkpoint` -/
def reconstructTraversalCheckpoint (runId : CrawlRunId)
    (selectedStateIds : Option (List UrlStateId)) :
    Except CrawlStageError ReconstructedTraversal := do
  let control ← okOr (s.controls.find? runId) .recoveryStateInvalid
  let work ← okOr (reconstructRecoveryState s runId) .recoveryStateInvalid
  let pending ← (work.filter (awaits selectedStateIds)).mapM (queueEntry semantic s work)
  let recoveryEntries ← (work.filter fun unit =>
    selectedStateIds.any fun ids => reopens ids unit).mapM (queueEntry semantic s work)
  let counts := transitionSourceCounts s runId
  let transitionPageCounts ← counts.mapM (transitionPageCount semantic work)
  let stored := pageTypeCountsOf s runId
  let pageTypeSampled ← decodeCounts semantic
    (stored.map fun count => (count.pageTypeId, count.sampledCount))
  let pageTypeDiscovered ← decodeCounts semantic
    (stored.map fun count => (count.pageTypeId, count.discoveredCount))
  let pageTypeScheduled ← decodeCounts semantic (scheduledCounts work)
  return {
    checkpoint := checkpointOf semantic work control counts pending transitionPageCounts
      pageTypeSampled pageTypeDiscovered pageTypeScheduled
    pending
    recoveryEntries }

/-- The discovery record of an entry, when it has one, is a bounded text. -/
def boundedDiscovery (unit : RecoveredEntry) : Bool :=
  unit.discoveredUrlId.all fun id => !id.isEmpty && id.utf8ByteSize ≤ 512

/-- The traversal that goes on from the rows of a run: with its frontier, or with the
units of a selection. -/
def restoreTraversal (runId : CrawlRunId) (selectedStateIds : Option (List UrlStateId)) :
    Except CrawlStageError Crawl.SemanticTraversal := do
  let durable ← reconstructTraversalCheckpoint semantic s runId selectedStateIds
  let entries := selectedStateIds.map fun _ =>
    durable.recoveryEntries.map RecoveredEntry.toQueueEntry
  if durable.pending.all boundedDiscovery && durable.recoveryEntries.all boundedDiscovery then
    okOr (Crawl.restoreSelection semantic.ctx durable.checkpoint entries).toOption
      .traversalRestoreFailed
  else .error .traversalRestoreFailed

end Reconstruction

end Erabi.Production

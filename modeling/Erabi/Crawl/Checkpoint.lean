/-
# Checkpoints of a traversal

The state that a traversal exports at a safe boundary, and the three ways back:
the restoration of a checkpoint with its frontier, and the one that queues only
the units a recovery action selected.  The discovery record that a production
entry names is a digest of fixed length and not kept.
-/
import Erabi.Crawl.Step

namespace Erabi.Crawl

open Relational

/-- A transition's use as a checkpoint records it. -/
structure SemanticTraversalTransitionState where
  transitionId : TransitionId
  name : Text
  eligibleEdges : ℕ
  sourcePages : List Url
deriving DecidableEq, Repr

/-- A traversal as a checkpoint records it. -/
structure SemanticTraversalCheckpoint where
  selectedSeedIds : List SeedId
  pending : List QueueEntry
  admittedCanonicalUrls : List Url
  seenCanonicalUrls : List Url
  sampledCanonicalUrls : List Url
  expandedCanonicalUrls : List Url
  matchingCanonicalUrls : List Url
  unmatchedCanonicalUrls : List Url
  ambiguousCanonicalUrls : List Url
  inScopeCanonicalUrls : List Url
  consumedBytes : ℕ
  pagesSampled : ℕ
  urlsDiscovered : ℕ
  duplicatesPrevented : ℕ
  robotsExcluded : ℕ
  providerErrors : ℕ
  externalUrls : ℕ
  blockedUrls : ℕ
  newlyEnqueuedUrls : ℕ
  peakNewFromPage : ℕ
  timeBudgetHit : Bool
  paginationTruncationCount : ℕ
  durationWorkNotExpanded : Bool
  pageTypeSampled : List (PageTypeId × ℕ)
  pageTypeDiscovered : List (PageTypeId × ℕ)
  pageTypeScheduled : List (PageTypeId × ℕ)
  transitionCounts : List SemanticTraversalTransitionState
  transitionPageCounts : List TransitionPageCount
  elapsedMillis : ℕ
deriving DecidableEq, Repr

section Context

variable (ctx : TraversalContext)

/-! ## Export -/

/-- The counts of page types, listed. -/
def pageTypeValues (counts : PageTypeCounts) : List (PageTypeId × ℕ) :=
  ctx.pageTypes.filterMap fun id => (counts id).map fun count => (id, count)

/-- A transition's use, recorded. -/
def TransitionRuntimeCount.state (c : TransitionRuntimeCount) :
    SemanticTraversalTransitionState where
  transitionId := c.transitionId
  name := c.name
  eligibleEdges := c.eligibleEdges
  sourcePages := c.sourcePages.sorted

/-- The order of the exported counts: transition, then source. -/
def TransitionPageCount.before (a b : TransitionPageCount) : Bool :=
  a.transitionId < b.transitionId || a.transitionId = b.transitionId && a.source ≤ b.source

/-- `checkpoint_state`, at an elapsed time. -/
def checkpointState (s : SemanticTraversal) (elapsedMillis : ℕ) :
    SemanticTraversalCheckpoint where
  selectedSeedIds := ctx.selectedSeedIds
  pending := s.queue
  admittedCanonicalUrls := s.admitted.sorted
  seenCanonicalUrls := s.seen.sorted
  sampledCanonicalUrls := s.sampled.sorted
  expandedCanonicalUrls := s.expanded.sorted
  matchingCanonicalUrls := s.matchingUrls.sorted
  unmatchedCanonicalUrls := s.unmatchedUrls.sorted
  ambiguousCanonicalUrls := s.ambiguousUrls.sorted
  inScopeCanonicalUrls := s.inScopeUrls.sorted
  consumedBytes := s.consumedBytes
  pagesSampled := s.pagesSampled
  urlsDiscovered := s.urlsDiscovered
  duplicatesPrevented := s.duplicatesPrevented
  robotsExcluded := s.robotsExcluded
  providerErrors := s.providerErrors
  externalUrls := s.externalUrls
  blockedUrls := s.blockedUrls
  newlyEnqueuedUrls := s.newlyEnqueuedUrls
  peakNewFromPage := s.peakNewFromPage
  timeBudgetHit := s.timeBudgetHit
  paginationTruncationCount := s.paginationTruncationCount
  durationWorkNotExpanded := s.durationWorkNotExpanded
  pageTypeSampled := pageTypeValues ctx s.pageTypeSampled
  pageTypeDiscovered := pageTypeValues ctx s.pageTypeDiscovered
  pageTypeScheduled := pageTypeValues ctx s.pageTypeScheduled
  transitionCounts :=
    (s.transitionCounts.rows.insertionSort fun a b => a.transitionId ≤ b.transitionId).map
      TransitionRuntimeCount.state
  transitionPageCounts :=
    (s.transitionPageCounts.rows.insertionSort fun a b => a.before b = true).filter fun c =>
      ctx.transitions.any fun t => t.id = c.transitionId
  elapsedMillis

/-! ## Restoration -/

/-- `collect_urls`: valid URLs, each of them once. -/
def collectUrls (values : List Url) : Option (KeySet Url) :=
  if values.all ctx.urls.restorable then KeySet.ofList? values else none

/-- The transition exists. -/
def knownTransition (id : TransitionId) : Bool := ctx.transitions.any fun t => t.id = id

/-- The sets of canonical URLs of a checkpoint. -/
structure RestoredSets where
  admitted : KeySet Url
  seen : KeySet Url
  sampled : KeySet Url
  expanded : KeySet Url
  matching : KeySet Url
  unmatched : KeySet Url
  ambiguous : KeySet Url
  inScope : KeySet Url

/-- The recorded sets of URLs, when each can be restored. -/
def restoreSets (state : SemanticTraversalCheckpoint) : Option RestoredSets := do
  return {
    admitted := ← collectUrls ctx state.admittedCanonicalUrls
    seen := ← collectUrls ctx state.seenCanonicalUrls
    sampled := ← collectUrls ctx state.sampledCanonicalUrls
    expanded := ← collectUrls ctx state.expandedCanonicalUrls
    matching := ← collectUrls ctx state.matchingCanonicalUrls
    unmatched := ← collectUrls ctx state.unmatchedCanonicalUrls
    ambiguous := ← collectUrls ctx state.ambiguousCanonicalUrls
    inScope := ← collectUrls ctx state.inScopeCanonicalUrls }

/-- The relations between the sets that a restoration demands. -/
structure RestoredSets.Coherent (sets : RestoredSets) : Prop where
  admitted : sets.admitted.Subset sets.seen
  sampled : sets.sampled.Subset sets.seen
  expanded : sets.expanded.Subset sets.sampled
  matching : sets.matching.Subset sets.inScope
  unmatched : sets.unmatched.Subset sets.inScope
  ambiguous : sets.ambiguous.Subset sets.inScope
  matchingUnmatched : sets.matching.Disjoint sets.unmatched
  matchingAmbiguous : sets.matching.Disjoint sets.ambiguous
  unmatchedAmbiguous : sets.unmatched.Disjoint sets.ambiguous

instance (sets : RestoredSets) : Decidable sets.Coherent :=
  decidable_of_iff
    ((sets.admitted.Subset sets.seen ∧ sets.sampled.Subset sets.seen ∧
      sets.expanded.Subset sets.sampled) ∧ (sets.matching.Subset sets.inScope ∧
      sets.unmatched.Subset sets.inScope ∧ sets.ambiguous.Subset sets.inScope) ∧
      sets.matching.Disjoint sets.unmatched ∧ sets.matching.Disjoint sets.ambiguous ∧
      sets.unmatched.Disjoint sets.ambiguous)
    ⟨fun ⟨⟨h₁, h₂, h₃⟩, ⟨h₄, h₅, h₆⟩, h₇, h₈, h₉⟩ => ⟨h₁, h₂, h₃, h₄, h₅, h₆, h₇, h₈, h₉⟩,
      fun h => ⟨⟨h.admitted, h.sampled, h.expanded⟩, ⟨h.matching, h.unmatched, h.ambiguous⟩,
        h.matchingUnmatched, h.matchingAmbiguous, h.unmatchedAmbiguous⟩⟩

/-- What a restoration demands of a pending entry. -/
def validPending (sets : RestoredSets) (entry : QueueEntry) : Bool :=
  ctx.urls.restorable entry.requestedUrl && ctx.urls.restorable entry.canonicalUrl &&
    entry.seedIds ≠ [] && entry.seedIds.Nodup && entry.depth ≤ ctx.limits.maxDepth &&
    entry.seedIds.all (· ∈ ctx.selectedSeedIds) && entry.canonicalUrl ∈ sets.admitted &&
    entry.canonicalUrl ∉ sets.sampled && entry.canonicalUrl ∉ sets.expanded &&
    entry.targetPageTypeId.all (· ∈ ctx.pageTypes) &&
    entry.transitionId.all (knownTransition ctx) &&
    entry.parentCanonicalUrl.all ctx.urls.restorable

/-- The recorded counts, when the page types exist. -/
def restorePageTypeCounts (values : List (PageTypeId × ℕ)) : Option PageTypeCounts :=
  if values.all (fun value => value.1 ∈ ctx.pageTypes) ∧ (values.map Prod.fst).Nodup then
    some fun id => (values.find? fun value => value.1 = id).map Prod.snd
  else none

/-- A recorded use, taken up. -/
def SemanticTraversalTransitionState.runtime (value : SemanticTraversalTransitionState) :
    TransitionRuntimeCount where
  transitionId := value.transitionId
  name := value.name
  eligibleEdges := value.eligibleEdges
  sourcePages := KeySet.ofList value.sourcePages

/-- Every transition has exactly one count, under its own name. -/
def restoreTransitionCounts (values : List SemanticTraversalTransitionState) :
    Option (Table TransitionRuntimeCount TransitionId TransitionRuntimeCount.transitionId) :=
  if values.all (fun value => ctx.transitions.any fun t =>
      t.id = value.transitionId && t.name = value.name) ∧
      values.length = ctx.transitions.length then
    Table.ofList? (values.map SemanticTraversalTransitionState.runtime)
  else none

/-- The recorded page counts, when their transitions exist. -/
def restoreTransitionPageCounts (values : List TransitionPageCount) :
    Option (Table TransitionPageCount (TransitionId × Url) TransitionPageCount.key) :=
  if values.all fun value => ctx.urls.restorable value.source &&
      knownTransition ctx value.transitionId then
    Table.ofList? values
  else none

/-- The evidence of a selected root in a restored traversal. -/
def restoredSeed (seed : Seed) : DiscoveryPreviewSeed where
  seedId := seed.id
  requestedUrl := seed.originalUrl
  canonicalUrl := seed.canonicalUrl
  entryPageTypeHint := seed.entryPageTypeHint
  state := .inScopeMatched
  duplicateOfCanonicalUrl := none
  scope := none
  pageTypeMatch := none
  budgetHits := []

/-- `restore_state` into a new traversal. -/
def restoreState (state : SemanticTraversalCheckpoint) (selected : List Seed) :
    Option SemanticTraversal := do
  guard (ctx.selectedSeedIds.Nodup ∧ state.selectedSeedIds = ctx.selectedSeedIds)
  let sets ← restoreSets ctx state
  guard sets.Coherent
  guard (sets.admitted.size ≤ ctx.limits.maxPages ∧
    state.consumedBytes ≤ ctx.limits.maxDownloadedBytes ∧
    state.pagesSampled = sets.sampled.size ∧ state.newlyEnqueuedUrls = sets.admitted.size)
  guard (state.pending.all (validPending ctx sets) = true)
  return {
    queued := ← Table.ofList? state.pending
    admitted := sets.admitted
    seen := sets.seen
    sampled := sets.sampled
    expanded := sets.expanded
    pages := []
    seeds := selected.map restoredSeed
    paths := []
    transitionCounts := ← restoreTransitionCounts ctx state.transitionCounts
    transitionPageCounts := ← restoreTransitionPageCounts ctx state.transitionPageCounts
    pageTypeSampled := ← restorePageTypeCounts ctx state.pageTypeSampled
    pageTypeDiscovered := ← restorePageTypeCounts ctx state.pageTypeDiscovered
    pageTypeScheduled := ← restorePageTypeCounts ctx state.pageTypeScheduled
    matchingUrls := sets.matching
    unmatchedUrls := sets.unmatched
    ambiguousUrls := sets.ambiguous
    inScopeUrls := sets.inScope
    consumedBytes := state.consumedBytes
    pagesSampled := state.pagesSampled
    urlsDiscovered := state.urlsDiscovered
    duplicatesPrevented := state.duplicatesPrevented
    robotsExcluded := state.robotsExcluded
    providerErrors := state.providerErrors
    externalUrls := state.externalUrls
    blockedUrls := state.blockedUrls
    newlyEnqueuedUrls := state.newlyEnqueuedUrls
    peakNewFromPage := state.peakNewFromPage
    timeBudgetHit := state.timeBudgetHit
    paginationTruncationCount := state.paginationTruncationCount
    durationWorkNotExpanded := state.durationWorkNotExpanded }

/-- `restore_from_checkpoint`. -/
def restoreFromCheckpoint (state : SemanticTraversalCheckpoint) :
    Except DiscoveryPreviewError SemanticTraversal :=
  match selectSeeds ctx with
  | .error e => .error e
  | .ok selected =>
    match restoreState ctx state selected with
    | none => .error .persistedStateInvalid
    | some s => .ok s

/-- What a recovery demands of a selected entry. -/
def validRecovery (s : SemanticTraversal) (entry : QueueEntry) : Bool :=
  ctx.urls.recoverable entry.requestedUrl && ctx.urls.recoverable entry.canonicalUrl &&
    entry.depth ≤ ctx.limits.maxDepth && entry.canonicalUrl ∈ s.admitted &&
    entry.seedIds ≠ [] && entry.seedIds.all (· ∈ ctx.selectedSeedIds) &&
    entry.targetPageTypeId.all (· ∈ ctx.pageTypes) &&
    entry.transitionId.all (knownTransition ctx) &&
    entry.parentCanonicalUrl.all ctx.urls.recoverable

/-- `restore_for_recovery`: the selected units are the whole frontier. -/
def restoreForRecovery (state : SemanticTraversalCheckpoint) (entries : List QueueEntry) :
    Except DiscoveryPreviewError SemanticTraversal :=
  match restoreFromCheckpoint ctx state with
  | .error e => .error e
  | .ok s =>
    if entries.all (validRecovery ctx s) then
      match Table.ofList? entries with
      | none => .error .persistedStateInvalid
      | some queued => .ok { s with queued }
    else .error .persistedStateInvalid

end Context

end Erabi.Crawl

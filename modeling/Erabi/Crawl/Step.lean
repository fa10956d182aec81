/-
# One step of the traversal

The roots of a new traversal, what an observation of the first queued unit
changes, redirects included, and the step that hands this unit to the provider.
-/
import Erabi.Crawl.Expansion

namespace Erabi.Crawl

open Relational Transaction

/-- The result of one bounded work-unit boundary. -/
inductive SemanticTraversalStep where
  | processed (pages : List DiscoveryPreviewPage) (discoveryPaths : List DiscoveryPath)
  | complete
  | interrupted (reason : DiscoveryPreviewInterruption)
deriving DecidableEq, Repr

section Context

variable (ctx : TraversalContext)

/-! ## Roots -/

/-- `select_seeds`. -/
def selectSeed (id : SeedId) : Except DiscoveryPreviewError Seed :=
  match ctx.seed id with
  | none => .error .seedNotOwnedByVersion
  | some seed =>
    if !seed.enabled then .error .seedDisabled
    else if ctx.canonicalize seed.originalUrl ≠ some seed.canonicalUrl then
      .error .persistedStateInvalid
    else if seed.entryPageTypeHint.any fun id => id ∉ ctx.pageTypes then
      .error .persistedStateInvalid
    else .ok seed

/-- The selected seeds, when each may be used. -/
def selectSeeds : Except DiscoveryPreviewError (List Seed) :=
  ctx.selectedSeedIds.mapM (selectSeed ctx)

/-- The queue entry of a root. -/
def rootEntry (seed : Seed) (order : ℕ) : QueueEntry where
  requestedUrl := ctx.urls.withoutFragment seed.originalUrl
  canonicalUrl := seed.canonicalUrl
  depth := 0
  seedIds := [seed.id]
  targetPageTypeId := none
  transitionId := none
  parentCanonicalUrl := none
  pagination := false
  order

/-- What is reported of a seed at the start. -/
def rootEvidence (seed : Seed) (scope : DomainScopeStatus) (state : PreviewUrlState)
    (duplicate : Bool) : DiscoveryPreviewSeed where
  seedId := seed.id
  requestedUrl := seed.originalUrl
  canonicalUrl := seed.canonicalUrl
  entryPageTypeHint := seed.entryPageTypeHint
  state
  duplicateOfCanonicalUrl := if duplicate then some seed.canonicalUrl else none
  scope := some scope
  pageTypeMatch := none
  budgetHits := []

/-- One selected root: merged into an equivalent one, admitted, or kept as
evidence of its exclusion. -/
def admitRoot (_ : Unit) (root : Seed × ℕ) : Traverse Unit := do
  let seed := root.1
  let scope ← orFail (ctx.classify seed.canonicalUrl) .persistedStateInvalid
  let s ← read
  write fun s => { s with seen := s.seen.insert seed.canonicalUrl }
  if seed.canonicalUrl ∈ s.seen then
    write fun s =>
      { s.mergeQueuedDuplicateProvenance seed.canonicalUrl [seed.id] none with
        duplicatesPrevented := s.duplicatesPrevented + 1
        seeds := s.seeds ++ [rootEvidence seed scope .canonicalDuplicate true] }
  else if scope ≠ .inScope then
    write fun s =>
      { s.countScope (scopeState scope) with
        seeds := s.seeds ++ [rootEvidence seed scope (scopeState scope) false] }
  else if s.admitted.size ≥ ctx.limits.maxPages then
    write fun s =>
      { s with seeds := s.seeds ++ [rootEvidence seed scope .budgetExcluded false] }
  else
    write fun s =>
      { s with
        admitted := s.admitted.insert seed.canonicalUrl
        queued := s.queued.put (rootEntry ctx seed root.2)
        newlyEnqueuedUrls := s.newlyEnqueuedUrls + 1
        seeds := s.seeds ++ [rootEvidence seed scope .inScopeMatched false] }

/-- `admit_roots`. -/
def admitRoots (selected : List Seed) : Traverse Unit :=
  foldEach (admitRoot ctx) () selected.zipIdx

/-- `for_frozen_snapshot`: the traversal with its roots. -/
def forFrozenSnapshot : Except DiscoveryPreviewError SemanticTraversal :=
  match selectSeeds ctx with
  | .error e => .error e
  | .ok selected =>
    match admitRoots ctx selected (SemanticTraversal.new ctx) with
    | .error e => .error e
    | .ok (_, s) => .ok s

/-! ## Observations -/

/-- The texts of an observation are safe and within bounds. -/
def validateObservation (observation : PageObservation) : Bool :=
  ctx.urls.validateSafeText observation.requestedUrl maxPreviewUrlChars &&
    observation.finalUrl.all (ctx.urls.validateSafeText · maxPreviewUrlChars) &&
    observation.discoveredLinks.all fun link =>
      ctx.urls.validateSafeText link.rawHref maxPreviewUrlChars &&
        link.selector.all (ctx.urls.validateSafeText · maxSelectorChars)

/-- The texts of a diagnostic are safe and within bounds. -/
def validateDiagnostic (diagnostic : TestDiagnostic) : Bool :=
  ctx.urls.validateSafeText diagnostic.code maxDiagnosticCodeChars &&
    ctx.urls.validateSafeText diagnostic.message maxProviderDiagnosticChars

/-- The original text of the final URL of an observation. -/
def PageObservation.finalOriginal (observation : PageObservation) : Url :=
  observation.finalUrl.getD observation.requestedUrl

/-- Gives back the reservation of a unit that a redirect collapsed. -/
def releaseScheduled (target : Option PageTypeId) : Traverse Unit := do
  match target with
  | none => return ()
  | some pageType =>
    let s ← read
    let scheduled ← orFail (s.pageTypeScheduled pageType) .persistedStateInvalid
    require (1 ≤ scheduled) .persistedStateInvalid
    write fun s => { s with
      pageTypeScheduled := Function.update s.pageTypeScheduled pageType (some (scheduled - 1)) }

/-- A redirect moves the admission of the alias to the final URL.  When that one
is already admitted, the two admissions become one. -/
def moveAdmission (entry : QueueEntry) (final : Url) : Traverse Unit := do
  let s ← read
  if entry.canonicalUrl ∈ s.admitted then
    write fun s => { s with admitted := (s.admitted.remove entry.canonicalUrl).insert final }
    if final ∈ s.admitted then
      write fun s => { s with newlyEnqueuedUrls := s.newlyEnqueuedUrls - 1 }
      releaseScheduled entry.targetPageTypeId

/-- The alias stays seen, but neither its classification nor a queued unit of the
final URL survives. -/
def SemanticTraversal.dropAlias (s : SemanticTraversal) (aliasUrl final : Url) :
    SemanticTraversal :=
  { s with
    inScopeUrls := s.inScopeUrls.remove aliasUrl
    matchingUrls := s.matchingUrls.remove aliasUrl
    unmatchedUrls := s.unmatchedUrls.remove aliasUrl
    ambiguousUrls := s.ambiguousUrls.remove aliasUrl
    queued := s.queued.delete fun e => e.canonicalUrl = final }

/-- The final URL of an observation is seen. -/
def SemanticTraversal.arrive (s : SemanticTraversal) (aliasUrl final : Url) :
    SemanticTraversal :=
  { s with
    seen := s.seen.insert final
    duplicatesPrevented :=
      s.duplicatesPrevented + if final ∈ s.seen ∧ final ≠ aliasUrl then 1 else 0 }

/-- The page arrived at takes the place of the one asked for. -/
def reconcileFinal (entry : QueueEntry) (final : Url) : Traverse Unit := do
  write fun s => s.arrive entry.canonicalUrl final
  if final ≠ entry.canonicalUrl then
    moveAdmission entry final
    write fun s => s.dropAlias entry.canonicalUrl final

/-- The page-type budget that the final page type of an observation has already
reached without this unit. -/
def actualFinalPageTypeBudgetHit (s : SemanticTraversal) (entry : QueueEntry)
    (pageType : PageTypeId) : Option PreviewBudgetHit :=
  if entry.targetPageTypeId = some pageType then none
  else (ctx.guardrails.pageBudget pageType).bind fun limit =>
    let scheduled := (s.pageTypeScheduled pageType).getD 0
    if scheduled ≥ limit then
      some ⟨.pageTypePageBudget, none, some pageType, scheduled, limit⟩
    else none

/-- The budget hits of the first observation of a final URL. -/
def pageBudgetHits (s : SemanticTraversal) (entry : QueueEntry) (final : Url)
    (pageMatch : Option PageTypeMatch) : List PreviewBudgetHit :=
  if final ∈ s.sampled then []
  else ((pageMatch.bind PageTypeMatch.winner).bind
    (actualFinalPageTypeBudgetHit ctx s entry)).toList

/-- The first observation of a final URL counts. -/
def SemanticTraversal.sample (s : SemanticTraversal) (final : Url)
    (pageMatch : Option PageTypeMatch) (state : PreviewUrlState) : SemanticTraversal :=
  if final ∈ s.sampled then s
  else
    { s.countScope state with
      pageTypeSampled := (pageMatch.bind PageTypeMatch.winner).elim s.pageTypeSampled
        s.pageTypeSampled.increment
      pagesSampled := s.pagesSampled + 1
      sampled := s.sampled.insert final }

/-- What becomes of an observed page. -/
def pageState (scope : DomainScopeStatus) (pageMatch : Option PageTypeMatch) : PreviewUrlState :=
  match scope, pageMatch with
  | .external, _ => .external
  | .blocked, _ => .blocked
  | .inScope, some (.ambiguous _) => .ambiguousPageType
  | .inScope, some (.matched _) => .sampled
  | .inScope, some .unmatched | .inScope, none => .unmatched

/-- The page of an observation, also as the outcome of the roots it represents. -/
def SemanticTraversal.recordPage (s : SemanticTraversal) (entry : QueueEntry) (final : Url)
    (observation : PageObservation) (downloadedBytes : ℕ) (scope : DomainScopeStatus)
    (pageMatch : Option PageTypeMatch) (hits : List PreviewBudgetHit) : SemanticTraversal :=
  { s with
    seeds := s.seeds.map fun seed =>
      if seed.seedId ∈ entry.seedIds then
        { seed with
          pageTypeMatch := pageMatch, state := pageState scope pageMatch, budgetHits := hits }
      else seed
    pages := s.pages ++
      [{ requestedCanonicalUrl := entry.canonicalUrl
         requestedUrl := entry.requestedUrl
         finalUrl := observation.finalUrl
         canonicalUrl := some final
         depth := entry.depth
         state := pageState scope pageMatch
         seedIds := entry.seedIds
         scope := some scope
         pageTypeMatch := pageMatch
         downloadedBytes := some downloadedBytes
         robotsReason := none
         diagnostic := none
         budgetHits := hits }] }

/-- The pagination controls with a target. -/
def PageObservation.targetfulPaginationCount (observation : PageObservation) : ℕ :=
  observation.paginationObservations.countP fun p => p.targetUrl.isSome

/-- The pagination controls without one. -/
def PageObservation.targetlessPaginationCount (observation : PageObservation) : ℕ :=
  observation.paginationObservations.countP fun p => p.targetUrl.isNone

/-- Links are followed from matched pages in scope. -/
def sourceCanExpand (scope : DomainScopeStatus) (pageMatch : Option PageTypeMatch) : Bool :=
  scope = .inScope && (pageMatch.bind PageTypeMatch.winner).isSome

/-- What stays unexpanded at the duration boundary.  Regular links are one flag,
pagination is counted. -/
def SemanticTraversal.leaveUnexpanded (s : SemanticTraversal) (observation : PageObservation)
    (canExpand : Bool) : SemanticTraversal :=
  { s with
    timeBudgetHit := true
    paginationTruncationCount := s.paginationTruncationCount +
      if canExpand then observation.targetfulPaginationCount else 0
    durationWorkNotExpanded :=
      s.durationWorkNotExpanded || observation.discoveredLinks ≠ []
    urlsDiscovered := s.urlsDiscovered + observation.discoveredLinks.length +
      observation.targetfulPaginationCount }

/-- The expansion of an observed page, or the record of what is not expanded. -/
def expandObservation (readings : ClockReadings) (entry : QueueEntry)
    (observation : PageObservation) (final : Url) (scope : DomainScopeStatus)
    (pageMatch : Option PageTypeMatch) (hits : List PreviewBudgetHit) : Traverse Unit := do
  write fun s => s.recordPaginationTruncation
    (if sourceCanExpand scope pageMatch then observation.targetlessPaginationCount else 0)
  let s ← read
  if readings.beforeExpansion ≥ ctx.limits.maxDurationMs then
    write fun s => s.leaveUnexpanded observation (sourceCanExpand scope pageMatch)
  else if sourceCanExpand scope pageMatch ∧ 0 < observation.targetfulPaginationCount ∧
      hits ≠ [] then
    write fun s => s.recordPaginationTruncation observation.targetfulPaginationCount
  else if hits = [] ∧ sourceCanExpand scope pageMatch ∧ final ∉ s.expanded then
    match pageMatch with
    | none => return ()
    | some sourceMatch =>
      expandPage ctx readings entry observation
        ⟨entry.requestedUrl, observation.finalUrl, final⟩ sourceMatch

/-- The checks that an observation of an entry must pass. -/
def acceptObservation (entry : QueueEntry) (observation : PageObservation)
    (downloadedBytes : ℕ) : Traverse Unit := do
  require (observation.requestedUrl = entry.requestedUrl) .providerObservationRequestMismatch
  let s ← read
  require (s.consumedBytes ≤ ctx.limits.maxDownloadedBytes) .budgetOverflow
  require (downloadedBytes ≤ ctx.limits.maxDownloadedBytes - s.consumedBytes ∧
    observation.discoveredLinks.length ≤ maxPreviewLinksPerObservation)
    .providerObservationInvalid
  require (validateObservation ctx observation = true) .providerObservationInvalid
  write fun s => { s with consumedBytes := s.consumedBytes + downloadedBytes }

/-- `process_observation`. -/
def processObservation (readings : ClockReadings) (entry : QueueEntry)
    (observation : PageObservation) (downloadedBytes : ℕ) : Traverse Unit := do
  acceptObservation ctx entry observation downloadedBytes
  let final ← orFail (ctx.canonicalize observation.finalOriginal) .providerObservationInvalid
  reconcileFinal entry final
  let scope ← orFail (ctx.classify final) .persistedStateInvalid
  let pageMatch := if scope = .inScope then some (ctx.resolvePageType final) else none
  write fun s => pageMatch.elim s fun evidence => s.registerMatch final evidence false
  let s ← read
  let hits := pageBudgetHits ctx s entry final pageMatch
  write fun s => s.sample final pageMatch (pageState scope pageMatch)
  write fun s => s.recordPage entry final observation downloadedBytes scope pageMatch hits
  expandObservation ctx readings entry observation final scope pageMatch hits

/-! ## Pages without observation -/

/-- The scope of a unit that was not observed. -/
def unobservedScope (canonical : Url) : Except DiscoveryPreviewError (Option DomainScopeStatus) :=
  if ctx.urls.parses canonical then
    (ctx.classify canonical).elim (.error .persistedStateInvalid) (.ok ∘ some)
  else .ok none

/-- The page of a unit that was excluded or failed before it was observed. -/
def recordUnobserved (entry : QueueEntry) (state : PreviewUrlState) (reason : Option Text)
    (diagnostic : Option TestDiagnostic) : Traverse Unit := do
  let scope ← lift (unobservedScope ctx entry.canonicalUrl)
  write fun s =>
    { s with
      seeds := s.seeds.map fun seed =>
        if seed.seedId ∈ entry.seedIds then { seed with state, scope, budgetHits := [] }
        else seed
      pages := s.pages ++
        [{ requestedCanonicalUrl := entry.canonicalUrl
           requestedUrl := entry.requestedUrl
           finalUrl := none
           canonicalUrl := some entry.canonicalUrl
           depth := entry.depth
           state
           seedIds := entry.seedIds
           scope
           pageTypeMatch := none
           downloadedBytes := none
           robotsReason := reason
           diagnostic
           budgetHits := [] }] }

/-- `process_outcome`. -/
def processOutcome (readings : ClockReadings) (entry : QueueEntry) :
    ProviderOutcome → Traverse Unit
  | .observed observation downloadedBytes =>
    processObservation ctx readings entry observation downloadedBytes
  | .robotsExcluded reason => do
    require (ctx.urls.validateSafeText reason maxRobotsReasonChars = true)
      .providerObservationInvalid
    write fun s => { s with robotsExcluded := s.robotsExcluded + 1 }
    recordUnobserved ctx entry .robotsExcluded (some reason) none
  | .pageFailed diagnostic => do
    require (validateDiagnostic ctx diagnostic = true) .providerObservationInvalid
    write fun s => { s with providerErrors := s.providerErrors + 1 }
    recordUnobserved ctx entry .providerError none (some diagnostic)
  | .interrupted _ => fail .persistedStateInvalid
  | .unavailable => fail .providerUnavailable

/-! ## The step -/

/-- The unit that the step hands to the provider. -/
def SemanticTraversal.pop (s : SemanticTraversal) (entry : QueueEntry) : SemanticTraversal :=
  { s with queued := s.queued.delete fun e => e.canonicalUrl = entry.canonicalUrl }

/-- The traversal after the clock is read when the provider has answered. -/
def SemanticTraversal.readClock (s : SemanticTraversal) (elapsed : ℕ) : SemanticTraversal :=
  if elapsed ≥ ctx.limits.maxDurationMs then s.hitTimeBudget else s

/-- The answer of the provider for a unit, and what was added for it. -/
def answer (readings : ClockReadings) (entry : QueueEntry) (outcome : ProviderOutcome) :
    Traverse SemanticTraversalStep := do
  let s ← read
  write fun s => (s.pop entry).readClock ctx readings.afterProvider
  processOutcome ctx readings entry outcome
  let s' ← read
  return .processed (s'.pages.drop s.pages.length) (s'.paths.drop s.paths.length)

/-- `step`.  An interruption puts the unit back. -/
def step (readings : ClockReadings) (outcome : ProviderOutcome) :
    Traverse SemanticTraversalStep := do
  let s ← read
  match s.queue with
  | [] => return .complete
  | entry :: _ =>
    if readings.atStart ≥ ctx.limits.maxDurationMs then
      write SemanticTraversal.hitTimeBudget
      return .complete
    if s.consumedBytes ≥ ctx.limits.maxDownloadedBytes then
      return .complete
    match outcome with
    | .unavailable => fail .providerUnavailable
    | .interrupted reason => return .interrupted reason
    | .observed .. | .robotsExcluded _ | .pageFailed _ => answer ctx readings entry outcome

end Context

end Erabi.Crawl

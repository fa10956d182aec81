/-
# Expanding a page

The links of a page of a known type, one after the other: each is resolved,
classified and matched, a new identity is judged by every transition of the
source page type and admitted when one of them is eligible and the page budgets
allow it, and each leaves a path.
-/
import Erabi.Crawl.Traversal

namespace Erabi.Crawl

open Relational Transaction

/-- The elapsed milliseconds that the clock shows during one step.  A transition
reads the clock again for every link it is judged for. -/
structure ClockReadings where
  atStart : ℕ
  afterProvider : ℕ
  beforeExpansion : ℕ
  atBudget : Url → TransitionId → ℕ

/-- The observed source identity of a page. -/
structure ObservedSource where
  requested : Url
  finalUrl : Option Url
  canonical : Url
deriving DecidableEq, Repr

/-- What references on the page are relative to. -/
def ObservedSource.base (source : ObservedSource) : Url := source.finalUrl.getD source.requested

/-- A link, and whether it comes from pagination. -/
structure TraversalObservedLink where
  link : ObservedLink
  isPagination : Bool
deriving DecidableEq, Repr

/-- The order of the links of a page: href, then selector. -/
def ObservedLink.before (a b : ObservedLink) : Bool :=
  a.rawHref < b.rawHref || a.rawHref = b.rawHref && match a.selector, b.selector with
    | none, _ => true
    | some _, none => false
    | some x, some y => x ≤ y

/-- The target of a pagination observation as a link of the page. -/
def PaginationObservation.target (p : PaginationObservation) : Option TraversalObservedLink :=
  p.targetUrl.map fun url => ⟨⟨url, p.selector⟩, true⟩

/-- The regular links, then the pagination targets. -/
def PageObservation.observedLinks (observation : PageObservation) :
    List TraversalObservedLink :=
  observation.discoveredLinks.map (fun link => ⟨link, false⟩) ++
    observation.paginationObservations.filterMap PaginationObservation.target

/-- The observed links sorted, with neighbours of one href and selector reduced
to the first of them. -/
def PageObservation.links (observation : PageObservation) : List TraversalObservedLink :=
  (observation.observedLinks.insertionSort fun a b => a.link.before b.link = true).destutter
    fun a b => a.link ≠ b.link

section Context

variable (ctx : TraversalContext)

/-- A joined and bounded href with its canonical URL. -/
def resolveHref (base href : Url) : Option (Url × Url) := do
  let resolved ← ctx.urls.join base href
  guard (ctx.urls.characters resolved ≤ maxPreviewUrlChars)
  let canonical ← ctx.canonicalize resolved
  return (resolved, canonical)

/-- The path of one href of an entry, before its decisions are filled in. -/
def pathBase (entry : QueueEntry) (source : ObservedSource) (sourceMatch : PageTypeMatch)
    (link : ObservedLink) (resolved canonical : Option Url) (scope : Option DomainScopeStatus)
    (state : PreviewUrlState) : Except DiscoveryPreviewError DiscoveryPath :=
  match entry.seedIds.head? with
  | none => .error .queueEntryMissingSeedProvenance
  | some seedId => .ok
    { seedId
      seedIds := entry.seedIds
      sourceRequestedUrl := source.requested
      sourceFinalUrl := source.finalUrl
      sourceCanonicalUrl := source.canonical
      sourcePageTypeMatch := sourceMatch
      selector := link.selector
      rawHref := link.rawHref
      resolvedOriginalUrl := resolved
      canonicalUrl := canonical
      scope
      state
      duplicateOfCanonicalUrl := none
      targetPageTypeMatch := none
      sourceDepth := entry.depth
      prospectiveDepth := none
      transitionEvaluations := []
      budgetHits := [] }

/-- What becomes of a URL out of scope. -/
def scopeState : DomainScopeStatus → PreviewUrlState
  | .external => .external
  | .blocked => .blocked
  | .inScope => .inScopeMatched

/-! ## Judging transitions -/

/-- `budget_hit_from_exclusion`. -/
def budgetHitFromExclusion (exclusion : DiscoveryBudgetExclusion) (t : DiscoveryTransition)
    (candidate : DiscoveryBudgetCandidate) : PreviewBudgetHit :=
  match exclusion with
  | .maxPages => ⟨.maxPages, some t.id, some t.targetPageTypeId, candidate.pagesAlreadyScheduled,
      ctx.limits.maxPages⟩
  | .maxDuration => ⟨.maxDuration, some t.id, some t.targetPageTypeId,
      candidate.elapsedDurationSeconds, ctx.guardrails.maxDurationSeconds⟩
  | .maxDepth => ⟨.maxDepth, some t.id, some t.targetPageTypeId,
      candidate.currentDepth + t.budget.depthContribution, ctx.limits.maxDepth⟩
  | .maxDownloadedBytes => ⟨.maxDownloadedBytes, some t.id, some t.targetPageTypeId,
      candidate.downloadedBytes, ctx.limits.maxDownloadedBytes⟩
  | .pageTypePageBudget => ⟨.pageTypePageBudget, some t.id, some t.targetPageTypeId,
      candidate.pageTypePages,
      (ctx.guardrails.pageBudget t.targetPageTypeId).getD candidate.pageTypePages⟩
  | .transitionPerPageLinkLimit => ⟨.transitionPerSourcePage, some t.id,
      some t.targetPageTypeId, candidate.transitionLinksOnSourcePage,
      t.budget.maxLinksPerSourcePage⟩
  | .transitionTotalBudget => ⟨.transitionTotal, some t.id, some t.targetPageTypeId,
      candidate.transitionTotalLinks,
      t.budget.totalBudget.getD candidate.transitionTotalLinks⟩

/-- The counters that a transition from a source page meets. -/
def budgetCandidate (s : SemanticTraversal) (elapsed : ℕ) (entry : QueueEntry) (source : Url)
    (t : DiscoveryTransition) (targetMatch : PageTypeMatch) : DiscoveryBudgetCandidate where
  pagesAlreadyScheduled := s.admitted.size
  currentDepth := entry.depth
  elapsedDurationSeconds := elapsed / 1000
  downloadedBytes := s.consumedBytes
  pageTypePages := (targetMatch.winner.bind s.pageTypeScheduled).getD 0
  transitionLinksOnSourcePage :=
    ((s.transitionPageCounts.find? (t.id, source)).map TransitionPageCount.count).getD 0
  transitionTotalLinks :=
    ((s.transitionCounts.find? t.id).map TransitionRuntimeCount.eligibleEdges).getD 0
  prospectiveDownloadBytes := 0

/-- `check_transition_budget`: the budget that excludes the link, if one does. -/
def checkTransitionBudget (s : SemanticTraversal) (elapsed : ℕ) (entry : QueueEntry)
    (source : Url) (t : DiscoveryTransition) (targetMatch : PageTypeMatch) :
    Except DiscoveryPreviewError (Option PreviewBudgetHit) :=
  let candidate := budgetCandidate s elapsed entry source t targetMatch
  if s.admitted.size ≥ ctx.limits.maxPages then
    .ok (some ⟨.maxPages, some t.id, some t.targetPageTypeId, s.admitted.size,
      ctx.limits.maxPages⟩)
  else
    match evaluateBudget ctx.guardrails t.targetPageTypeId t.budget candidate with
    | .error .overflow => .error .budgetOverflow
    | .error _ => .error .persistedStateInvalid
    | .ok (.excluded exclusion) =>
      .ok (some (budgetHitFromExclusion ctx exclusion t candidate))
    | .ok .allowed =>
      match ctx.transitionTotalLimit t.id with
      | none => .error .persistedStateInvalid
      | some limit =>
        if candidate.transitionTotalLinks ≥ limit then
          .ok (some ⟨.transitionTotal, some t.id, none, candidate.transitionTotalLinks, limit⟩)
        else .ok none

/-- The judgement of one transition on a link: the budgets that exclude it, or
the depth of the target when it is eligible. -/
inductive TransitionJudgement where
  | ineligible
  | excluded (hit : PreviewBudgetHit)
  | eligible (depth : ℕ)
deriving DecidableEq, Repr

/-- The limit that excludes. -/
def TransitionJudgement.budgetHits : TransitionJudgement → List PreviewBudgetHit
  | excluded hit => [hit]
  | ineligible | eligible _ => []

/-- The transition may be used. -/
def TransitionJudgement.isEligible : TransitionJudgement → Bool
  | eligible _ => true
  | ineligible | excluded _ => false

/-- The link was selected by the transition. -/
def selectorEligible (link : ObservedLink) (t : DiscoveryTransition) : Bool :=
  link.selector = some t.linkSelector

/-- The target has the transition's page type. -/
def targetPageTypeEligible (targetMatch : PageTypeMatch) (t : DiscoveryTransition) : Bool :=
  targetMatch.winner = some t.targetPageTypeId

/-- Judges one transition on one link. -/
def judgeTransition (s : SemanticTraversal) (elapsed : ℕ) (entry : QueueEntry) (source : Url)
    (link : ObservedLink) (targetMatch : PageTypeMatch) (t : DiscoveryTransition) :
    Except DiscoveryPreviewError TransitionJudgement :=
  if selectorEligible link t && targetPageTypeEligible targetMatch t && !t.urlConstraints then
    match checkTransitionBudget ctx s elapsed entry source t targetMatch with
    | .error e => .error e
    | .ok (some hit) => .ok (.excluded hit)
    | .ok none =>
      match checkedAddU32 entry.depth t.budget.depthContribution with
      | none => .error .budgetOverflow
      | some depth =>
        if depth > ctx.limits.maxDepth then
          .ok (.excluded ⟨.maxDepth, some t.id, some t.targetPageTypeId, depth,
            ctx.limits.maxDepth⟩)
        else .ok (.eligible depth)
  else .ok .ineligible

/-- What the transitions of the source page type made of one link so far. -/
structure EvaluatedTransitions where
  evaluations : List PreviewTransitionEvaluation
  eligible : List (DiscoveryTransition × ℕ)
deriving DecidableEq, Repr

/-- One more judgement. -/
def EvaluatedTransitions.add (acc : EvaluatedTransitions) (link : ObservedLink)
    (targetMatch : PageTypeMatch) (t : DiscoveryTransition) (judgement : TransitionJudgement) :
    EvaluatedTransitions where
  evaluations := acc.evaluations ++
    [{ transitionId := t.id
       transitionName := t.name
       sourcePageTypeId := t.sourcePageTypeId
       targetPageTypeId := t.targetPageTypeId
       priority := t.priority
       selectorEligible := selectorEligible link t
       targetPageTypeEligible := targetPageTypeEligible targetMatch t
       constraintsEligible := !t.urlConstraints
       eligible := judgement.isEligible
       budgetHits := judgement.budgetHits }]
  eligible :=
    match judgement with
    | .eligible depth => acc.eligible ++ [(t, depth)]
    | .ineligible | .excluded _ => acc.eligible

/-- One transition: its judgement, and its counters when it is eligible. -/
def evaluateTransition (readings : ClockReadings) (entry : QueueEntry) (source : Url)
    (link : ObservedLink) (canonical : Url) (targetMatch : PageTypeMatch)
    (acc : EvaluatedTransitions) (t : DiscoveryTransition) : Traverse EvaluatedTransitions := do
  let s ← read
  let judgement ← lift (judgeTransition ctx s (readings.atBudget canonical t.id) entry source
    link targetMatch t)
  if judgement.isEligible then
    write fun s => s.consumeTransition t source
  return acc.add link targetMatch t judgement

/-! ## Admission -/

/-- What becomes of a new link whose transitions are evaluated. -/
structure AdmissionDecision where
  state : PreviewUrlState
  budgetHits : List PreviewBudgetHit
  /-- The page type, depth and transition of an admission. -/
  admission : Option (PageTypeId × ℕ × Option TransitionId)
deriving DecidableEq, Repr

/-- The least depth of the eligible transitions. -/
def EvaluatedTransitions.depth (evaluated : EvaluatedTransitions) : Option ℕ :=
  (evaluated.eligible.map Prod.snd).min?

/-- The first identity among the eligible transitions of the least depth. -/
def EvaluatedTransitions.transitionId (evaluated : EvaluatedTransitions) (depth : ℕ) :
    Option TransitionId :=
  ((evaluated.eligible.filter fun e => e.2 = depth).map fun e => e.1.id).min?

/-- The state of a link before the page budgets are asked. -/
def EvaluatedTransitions.state (evaluated : EvaluatedTransitions) :
    PageTypeMatch → PreviewUrlState
  | .ambiguous _ => .ambiguousPageType
  | .unmatched => .unmatched
  | .matched _ =>
    if evaluated.eligible = [] ∧ evaluated.evaluations.any fun e => e.budgetHits ≠ [] then
      .budgetExcluded
    else .inScopeMatched

/-- Whether a new link is admitted, and with what evidence. -/
def decideAdmission (s : SemanticTraversal) (targetMatch : PageTypeMatch)
    (evaluated : EvaluatedTransitions) : AdmissionDecision :=
  let state := evaluated.state targetMatch
  let hits := evaluated.evaluations.flatMap PreviewTransitionEvaluation.budgetHits
  match evaluated.depth, targetMatch.winner with
  | some depth, some winner =>
    let pageCount := (s.pageTypeScheduled winner).getD 0
    if (ctx.guardrails.pageBudget winner).any fun limit => pageCount ≥ limit then
      ⟨.budgetExcluded, hits ++ [⟨.pageTypePageBudget, none, some winner, pageCount,
        (ctx.guardrails.pageBudget winner).getD pageCount⟩], none⟩
    else if s.admitted.size ≥ ctx.limits.maxPages then
      ⟨.budgetExcluded, hits ++ [⟨.maxPages, none, none, s.admitted.size,
        ctx.limits.maxPages⟩], none⟩
    else ⟨state, hits, some (winner, depth, evaluated.transitionId depth)⟩
  | _, _ => ⟨state, hits, none⟩

/-- The entry of a link admitted from a page. -/
def admittedEntry (s : SemanticTraversal) (entry : QueueEntry) (source : ObservedSource)
    (link : TraversalObservedLink) (canonical : Url)
    (admission : PageTypeId × ℕ × Option TransitionId) : QueueEntry where
  requestedUrl := canonical
  canonicalUrl := canonical
  depth := admission.2.1
  seedIds := entry.seedIds
  targetPageTypeId := some admission.1
  transitionId := admission.2.2
  parentCanonicalUrl := some source.canonical
  pagination := link.isPagination
  order := s.nextOrder ctx

/-! ## Links -/

section Link

variable (readings : ClockReadings) (entry : QueueEntry) (source : ObservedSource)
  (sourceMatch : PageTypeMatch) (sourcePageType : PageTypeId)

/-- An href that no canonical URL can be made of. -/
def expandInvalid (link : ObservedLink) : Traverse Unit := do
  let path ← lift (pathBase entry source sourceMatch link none none none .invalidUrl)
  write fun s => s.pushPath path

/-- A link that leaves the scope.  `unique` is its first discovery. -/
def expandOutOfScope (link : ObservedLink) (resolved canonical : Url)
    (scope : DomainScopeStatus) (unique : Bool) : Traverse Unit := do
  let state := if unique then scopeState scope else .canonicalDuplicate
  write fun s =>
    if unique then s.countScope state
    else { s with duplicatesPrevented := s.duplicatesPrevented + 1 }
  let path ← lift (pathBase entry source sourceMatch link (some resolved) (some canonical)
    (some scope) state)
  write fun s => s.pushPath path

/-- `queued_duplicate_prospective_depth`. -/
def queuedDuplicateProspectiveDepth (s : SemanticTraversal) (link : ObservedLink)
    (canonical : Url) : Except DiscoveryPreviewError (Option ℕ) :=
  match (s.queued.find? canonical).bind QueueEntry.targetPageTypeId with
  | none => .ok none
  | some target =>
    (ctx.transitions.filter fun t => t.enabled && t.sourcePageTypeId = sourcePageType &&
        t.targetPageTypeId = target && !t.urlConstraints && selectorEligible link t).foldlM
      (fun minimum t =>
        match checkedAddU32 entry.depth t.budget.depthContribution with
        | none => .error .budgetOverflow
        | some prospective => .ok (some ((minimum.map (min prospective)).getD prospective)))
      none

/-- A link to an in-scope identity that is already seen. -/
def expandDuplicate (link : ObservedLink) (resolved canonical : Url)
    (scope : DomainScopeStatus) : Traverse Unit := do
  write fun s => { s with duplicatesPrevented := s.duplicatesPrevented + 1 }
  let s ← read
  let depth ← lift (if canonical ∈ s.sampled then .ok none
    else queuedDuplicateProspectiveDepth ctx entry sourcePageType s link canonical)
  write fun s =>
    if canonical ∈ s.sampled then s
    else s.mergeQueuedDuplicateProvenance canonical entry.seedIds depth
  let path ← lift (pathBase entry source sourceMatch link (some resolved) (some canonical)
    (some scope) .canonicalDuplicate)
  write fun s => s.pushPath
    { path with duplicateOfCanonicalUrl := some canonical, prospectiveDepth := depth }

/-- A link to a new in-scope identity. -/
def expandNew (link : TraversalObservedLink) (resolved canonical : Url)
    (scope : DomainScopeStatus) (newFromPage : ℕ) : Traverse ℕ := do
  let targetMatch := ctx.resolvePageType canonical
  write fun s => s.registerMatch canonical targetMatch true
  let evaluated ← foldEach
    (evaluateTransition ctx readings entry source.canonical link.link canonical targetMatch)
    ⟨[], []⟩ (ctx.sortedTransitionsFor sourcePageType)
  let s ← read
  let decision := decideAdmission ctx s targetMatch evaluated
  write fun s => s.recordPaginationTruncation
    (if link.isPagination ∧ decision.state = .budgetExcluded then 1 else 0)
  let path ← lift (pathBase entry source sourceMatch link.link (some resolved) (some canonical)
    (some scope) decision.state)
  write fun s => s.pushPath
    { path with
      targetPageTypeMatch := some targetMatch
      prospectiveDepth := evaluated.depth
      transitionEvaluations := evaluated.evaluations
      budgetHits := decision.budgetHits }
  match decision.admission with
  | none => return newFromPage
  | some admission =>
    write fun s => s.enqueue (admittedEntry ctx s entry source link canonical admission) admission.1
    return newFromPage + 1

/-- One link of the page.  The paths are bounded: beyond the bound a link is
counted and not looked at. -/
def expandLink (newFromPage : ℕ) (link : TraversalObservedLink) : Traverse ℕ := do
  write fun s => { s with urlsDiscovered := s.urlsDiscovered + 1 }
  let s ← read
  if s.paths.length ≥ maxPreviewProvenanceEdges then
    write fun s => s.recordPaginationTruncation (if link.isPagination then 1 else 0)
    return newFromPage
  match resolveHref ctx source.base link.link.rawHref with
  | none =>
    expandInvalid entry source sourceMatch link.link
    return newFromPage
  | some (resolved, canonical) =>
    let scope ← lift ((ctx.classify canonical).elim (.error .persistedStateInvalid) .ok)
    write fun s => { s with seen := s.seen.insert canonical }
    if scope ≠ .inScope then
      expandOutOfScope entry source sourceMatch link.link resolved canonical scope
        (canonical ∉ s.seen)
      return newFromPage
    if canonical ∈ s.seen then
      expandDuplicate ctx entry source sourceMatch sourcePageType link.link resolved canonical
        scope
      return newFromPage
    expandNew ctx readings entry source sourceMatch sourcePageType link resolved canonical scope
      newFromPage

end Link

/-- `expand_page`: every page is expanded once. -/
def expandPage (readings : ClockReadings) (entry : QueueEntry) (observation : PageObservation)
    (source : ObservedSource) (sourceMatch : PageTypeMatch) : Traverse Unit := do
  let s ← read
  if source.canonical ∈ s.expanded then
    return ()
  write fun s => { s with expanded := s.expanded.insert source.canonical }
  match sourceMatch.winner with
  | none => return ()
  | some sourcePageType =>
    require (ctx.urls.parses source.base = true) .providerObservationInvalid
    let newFromPage ← foldEach
      (expandLink ctx readings entry source sourceMatch sourcePageType) 0 observation.links
    write fun s => { s with peakNewFromPage := max s.peakNewFromPage newFromPage }

end Context

end Erabi.Crawl

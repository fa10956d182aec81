/-
# Frozen crawl semantics

What a traversal reads and never changes: the page types, transitions and
guardrails of the frozen version, the selected seeds and the effective limits.
URL syntax, canonicalization, domain scope and page-type resolution are
functions of the URL alone; the traversal uses their results and nothing else
of them, so they are fields here.
-/
import Mathlib

namespace Erabi.Crawl

/-! ## Identities -/

/-- Texts, which the traversal compares and orders only. -/
abbrev Text := ℕ

/-- A URL as the traversal handles it. -/
abbrev Url := Text

/-- A selector as the traversal handles it. -/
abbrev Selector := Text

/-- Names a seed. -/
abbrev SeedId := ℕ

/-- Names a page type. -/
abbrev PageTypeId := ℕ

/-- Names a transition. -/
abbrev TransitionId := ℕ

/-- How many links one observation may bring. -/
def maxPreviewLinksPerObservation : ℕ := 256

/-- How many paths a traversal may record. -/
def maxPreviewProvenanceEdges : ℕ := 4096

/-- How long a URL may be. -/
def maxPreviewUrlChars : ℕ := 4096

/-- How long a selector may be. -/
def maxSelectorChars : ℕ := 1024

/-- How long a reason of robots may be. -/
def maxRobotsReasonChars : ℕ := 512

/-- How long the code of a diagnostic may be. -/
def maxDiagnosticCodeChars : ℕ := 128

/-- How long the message of a diagnostic may be. -/
def maxProviderDiagnosticChars : ℕ := 1024

/-- Addition of 32-bit unsigned integers, `none` on overflow. -/
def checkedAddU32 (a b : ℕ) : Option ℕ := if a + b < 2 ^ 32 then some (a + b) else none

/-- A checked sum is the sum. -/
theorem checkedAddU32_eq_some {a b c : ℕ} (h : checkedAddU32 a b = some c) : c = a + b := by
  unfold checkedAddU32 at h
  split at h
  · exact (Option.some.inj h).symm
  · cases h

/-- Addition of 64-bit unsigned integers, `none` on overflow. -/
def checkedAddU64 (a b : ℕ) : Option ℕ := if a + b < 2 ^ 64 then some (a + b) else none

/-! ## Version content -/

/-- The decision of the page-type resolver.  Only a match has a winner. -/
inductive PageTypeMatch where
  | matched (winner : PageTypeId)
  | ambiguous (candidates : List PageTypeId)
  | unmatched
deriving DecidableEq, Repr

/-- The page type that won the resolution. -/
def PageTypeMatch.winner : PageTypeMatch → Option PageTypeId
  | matched winner => some winner
  | ambiguous _ | unmatched => none

/-- Several page types match equally well. -/
def PageTypeMatch.isAmbiguous : PageTypeMatch → Bool
  | ambiguous _ => true
  | matched _ | unmatched => false

/-- Where a URL stands to the scope. -/
inductive DomainScopeStatus where
  | inScope
  | external
  | blocked
deriving DecidableEq, Repr

/-- The limits of one transition. -/
structure TransitionBudget where
  maxLinksPerSourcePage : ℕ
  totalBudget : Option ℕ
  depthContribution : ℕ
deriving DecidableEq, Repr

/-- A discovery transition.  `urlConstraints` says whether the transition has a
constraint; none can be evaluated. -/
structure DiscoveryTransition where
  id : TransitionId
  sourcePageTypeId : PageTypeId
  targetPageTypeId : PageTypeId
  name : Text
  enabled : Bool
  linkSelector : Selector
  urlConstraints : Bool
  priority : ℤ
  budget : TransitionBudget
deriving DecidableEq, Repr

/-- A start URL. -/
structure Seed where
  id : SeedId
  originalUrl : Url
  canonicalUrl : Url
  enabled : Bool
  entryPageTypeHint : Option PageTypeId
deriving DecidableEq, Repr

/-- The version guardrails a discovery decision reads.  `pageBudget` is the
optional page budget of a page type. -/
structure Guardrails where
  maxPages : ℕ
  maxDepth : ℕ
  maxDurationSeconds : ℕ
  maxDownloadedBytes : ℕ
  pageBudget : PageTypeId → Option ℕ

/-- The limits of a whole traversal. -/
structure EffectiveLimits where
  maxPages : ℕ
  maxDepth : ℕ
  maxDurationMs : ℕ
  maxDownloadedBytes : ℕ
  transitionTotalLimits : List (TransitionId × ℕ)

/-! ## URLs -/

/-- What the crawler asks of a text, and of a URL. -/
structure UrlSyntax where
  characters : Text → ℕ
  hasControl : Text → Bool
  parses : Url → Bool
  hasFragment : Url → Bool
  /-- An HTTP or HTTPS URL with a host and without credentials. -/
  isCrawlTarget : Url → Bool
  withoutFragment : Url → Url
  join : Url → Url → Option Url

/-- `validate_safe_text`: a text of a provider outcome. -/
def UrlSyntax.validateSafeText (urls : UrlSyntax) (value : Text) (max : ℕ) : Bool :=
  urls.characters value ≠ 0 && urls.characters value ≤ max && !urls.hasControl value

/-- `validate_url` of a restored checkpoint.  The source counts bytes, of which a
serialized URL has one for each character. -/
def UrlSyntax.restorable (urls : UrlSyntax) (u : Url) : Bool :=
  urls.parses u && !urls.hasFragment u && urls.characters u ≤ maxPreviewUrlChars

/-- The stricter `valid_url` of a recovery entry, which counts bytes as well. -/
def UrlSyntax.recoverable (urls : UrlSyntax) (u : Url) : Bool :=
  urls.parses u && !urls.hasFragment u && !urls.hasControl u &&
    urls.characters u ≤ maxPreviewUrlChars

/-- What discovery evidence requires of the URLs it stores. -/
def UrlSyntax.storable (urls : UrlSyntax) (u : Url) : Bool :=
  urls.parses u && urls.characters u ≤ maxPreviewUrlChars && !urls.hasControl u &&
    urls.isCrawlTarget u && !urls.hasFragment u

/-! ## The context of a traversal -/

/-- The frozen snapshot with the selected seeds and the effective limits.  The
last five fields are what the version contract and the canonicalizer guarantee. -/
structure TraversalContext where
  urls : UrlSyntax
  canonicalize : Url → Option Url
  /-- `none` when the scope of a URL cannot be decided. -/
  classify : Url → Option DomainScopeStatus
  resolvePageType : Url → PageTypeMatch
  seeds : List Seed
  pageTypes : List PageTypeId
  transitions : List DiscoveryTransition
  guardrails : Guardrails
  selectedSeedIds : List SeedId
  limits : EffectiveLimits
  pageTypesNodup : pageTypes.Nodup
  transitionsNodup : (transitions.map DiscoveryTransition.id).Nodup
  transitionTargets : ∀ t ∈ transitions, t.targetPageTypeId ∈ pageTypes
  resolvedPageTypes : ∀ u p, resolvePageType u = .matched p → p ∈ pageTypes
  /-- Canonicalization only removes from a parsed URL. -/
  canonicalStorable : ∀ base href resolved canonical, urls.join base href = some resolved →
    urls.characters resolved ≤ maxPreviewUrlChars → canonicalize resolved = some canonical →
    urls.storable canonical = true ∧ urls.storable (urls.withoutFragment resolved) = true

namespace TraversalContext

variable (ctx : TraversalContext)

/-- The limit of a transition over the traversal. -/
def transitionTotalLimit (id : TransitionId) : Option ℕ :=
  (ctx.limits.transitionTotalLimits.find? fun limit => limit.1 = id).map Prod.snd

/-- A seed by its name. -/
def seed (id : SeedId) : Option Seed := ctx.seeds.find? fun seed => seed.id = id

/-- Descending priority, then name, then identity. -/
def transitionBefore (a b : DiscoveryTransition) : Bool :=
  b.priority < a.priority ||
    a.priority = b.priority && (a.name < b.name || a.name = b.name && a.id ≤ b.id)

/-- The enabled transitions from a page type, in order. -/
def sortedTransitionsFor (source : PageTypeId) : List DiscoveryTransition :=
  (ctx.transitions.filter fun t => t.enabled && t.sourcePageTypeId = source).insertionSort
    fun a b => transitionBefore a b = true

/-- The transitions in that order. -/
theorem mem_sortedTransitionsFor {ctx : TraversalContext} {source : PageTypeId}
    {t : DiscoveryTransition} : t ∈ ctx.sortedTransitionsFor source ↔
      t ∈ ctx.transitions ∧ t.enabled = true ∧ t.sourcePageTypeId = source := by
  simp [sortedTransitionsFor]

end TraversalContext

/-! ## Discovery budgets -/

/-- The input of one prospective scheduling decision. -/
structure DiscoveryBudgetCandidate where
  pagesAlreadyScheduled : ℕ
  currentDepth : ℕ
  elapsedDurationSeconds : ℕ
  downloadedBytes : ℕ
  pageTypePages : ℕ
  transitionLinksOnSourcePage : ℕ
  transitionTotalLinks : ℕ
  prospectiveDownloadBytes : ℕ
deriving DecidableEq, Repr

/-- The limit that excludes a candidate. -/
inductive DiscoveryBudgetExclusion where
  | maxPages
  | maxDuration
  | maxDepth
  | maxDownloadedBytes
  | pageTypePageBudget
  | transitionPerPageLinkLimit
  | transitionTotalBudget
deriving DecidableEq, Repr

/-- What the budgets say to a candidate. -/
inductive DiscoveryBudgetDecision where
  | allowed
  | excluded (exclusion : DiscoveryBudgetExclusion)
deriving DecidableEq, Repr

/-- Why the budgets cannot decide. -/
inductive DiscoveryBudgetError where
  | invalidGuardrails
  | invalidTransitionBudget
  | overflow
deriving DecidableEq, Repr

/-- The limits are positive. -/
def Guardrails.valid (g : Guardrails) : Bool :=
  g.maxPages ≠ 0 && g.maxDepth ≠ 0 && g.maxDurationSeconds ≠ 0 && g.maxDownloadedBytes ≠ 0

/-- Evaluates one candidate against the caps of the version, of the page type and
of the transition: allowed, or the first exclusion in this order. -/
def evaluateBudget (g : Guardrails) (pageType : PageTypeId) (transition : TransitionBudget)
    (candidate : DiscoveryBudgetCandidate) :
    Except DiscoveryBudgetError DiscoveryBudgetDecision := do
  if !g.valid || g.pageBudget pageType = some 0 then
    throw .invalidGuardrails
  if transition.maxLinksPerSourcePage = 0 || transition.totalBudget = some 0 then
    throw .invalidTransitionBudget
  if candidate.pagesAlreadyScheduled ≥ g.maxPages then
    return .excluded .maxPages
  if candidate.elapsedDurationSeconds ≥ g.maxDurationSeconds then
    return .excluded .maxDuration
  let some prospectiveDepth := checkedAddU32 candidate.currentDepth transition.depthContribution
    | throw .overflow
  if prospectiveDepth > g.maxDepth then
    return .excluded .maxDepth
  let some prospectiveBytes :=
      checkedAddU64 candidate.downloadedBytes candidate.prospectiveDownloadBytes
    | throw .overflow
  if prospectiveBytes > g.maxDownloadedBytes then
    return .excluded .maxDownloadedBytes
  if (g.pageBudget pageType).any fun budget => candidate.pageTypePages ≥ budget then
    return .excluded .pageTypePageBudget
  if candidate.transitionLinksOnSourcePage ≥ transition.maxLinksPerSourcePage then
    return .excluded .transitionPerPageLinkLimit
  if transition.totalBudget.any fun budget => candidate.transitionTotalLinks ≥ budget then
    return .excluded .transitionTotalBudget
  let some _ := checkedAddU32 candidate.transitionLinksOnSourcePage 1 | throw .overflow
  let some _ := checkedAddU64 candidate.transitionTotalLinks 1 | throw .overflow
  let some _ := checkedAddU64 candidate.pagesAlreadyScheduled 1 | throw .overflow
  return .allowed

end Erabi.Crawl

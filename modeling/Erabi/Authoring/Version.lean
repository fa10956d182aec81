/-
# Crawler versions

A version with its seeds, the identifiers of its page types and transitions and its
policies, and the operations that edit a draft.  Whatever the operations admit has
valid policies, and its page-type budgets are of its own page types.
-/
import Mathlib
import Erabi.Authoring.Matching
import Erabi.Configuration.Record

namespace Erabi.Authoring

open Snapshot (isWhitespace)
open Erabi.Configuration (CrawlerVersionState)
open Erabi.Crawl (TransitionBudget)

variable (lib : Libraries)

/-! ## Content -/

/-- A start URL of a crawler. -/
structure Seed where
  id : Id
  originalUrl : Url
  canonicalUrl : Url
  enabled : Bool
  label : Option String
  entryPageTypeHint : Option Id
  deriving DecidableEq

/-- A rule that leads from one page type to another. -/
structure DiscoveryTransition where
  id : Id
  sourcePageTypeId : Id
  targetPageTypeId : Id
  name : String
  enabled : Bool
  linkSelector : String
  urlConstraints : Option String
  priority : ℤ
  budget : TransitionBudget
  deduplicate : Bool
  latestTestEvidenceId : Option Id
  deriving DecidableEq

/-- The authoring fields and the budget of a transition. -/
def DiscoveryTransition.validate (transition : DiscoveryTransition) :
    Except ProductError Unit := do
  ensure (¬ isBlank transition.name ∧ transition.name.length ≤ 256)
    ⟨.invalidDiscoveryTransition,
      "transition name must be non-empty and at most 256 characters"⟩
  ensure (¬ isBlank transition.linkSelector ∧ transition.linkSelector.length ≤ 1024)
    ⟨.invalidDiscoveryTransition, "transition link selector must be non-empty and bounded"⟩
  ensure (∀ constraints ∈ transition.urlConstraints,
      ¬ isBlank constraints ∧ constraints.length ≤ 2048 ∧ ¬ hasControl constraints)
    ⟨.invalidDiscoveryTransition, "transition URL constraints are invalid"⟩
  ensure (transition.budget.maxLinksPerSourcePage ≠ 0)
    ⟨.invalidTransitionBudget, "transition link budget must be positive"⟩
  ensure (transition.budget.totalBudget ≠ some 0)
    ⟨.invalidTransitionBudget, "transition total budget must be positive when configured"⟩

/-- A version of a crawler as authored. -/
structure CrawlerVersion where
  id : Id
  crawlerId : Id
  state : CrawlerVersionState
  seeds : List Seed
  pageTypeIds : List Id
  transitionIds : List Id
  canonicalizationPolicyId : Option Id
  domainScopeId : Option Id
  canonicalizationPolicy : CanonicalizationPolicy
  domainScope : DomainScopePolicy
  guardrails : CrawlerVersionGuardrails

namespace CrawlerVersion

variable (version : CrawlerVersion)

/-! ## Editing -/

/-- A fresh draft. -/
def draft (id crawlerId : Id) : CrawlerVersion where
  id := id
  crawlerId := crawlerId
  state := .draft
  seeds := []
  pageTypeIds := []
  transitionIds := []
  canonicalizationPolicyId := none
  domainScopeId := none
  canonicalizationPolicy := .default
  domainScope := .default
  guardrails := .default

/-- The check that a version is not published. -/
def ensureDraft : Except ProductError Unit :=
  ensure (version.state ≠ .published) (conflict "published crawler versions are immutable")

/-- Every budget is of one of the page types. -/
def budgetsWithin (guardrails : CrawlerVersionGuardrails) (ids : List Id) : Except ProductError Unit :=
  ensure (∀ budget ∈ guardrails.pageTypes, budget.pageTypeId ∈ ids)
    (invalidPageTypeBudget "PageType guardrail references a PageType outside the version")

/-- A draft with one more seed. -/
def addSeed (seed : Seed) : Except ProductError CrawlerVersion := do
  version.ensureDraft
  return { version with seeds := version.seeds ++ [seed] }

/-- A draft with other page types. -/
def setPageTypeIds (ids : List Id) : Except ProductError CrawlerVersion := do
  version.ensureDraft
  budgetsWithin version.guardrails ids
  return { version with pageTypeIds := ids }

/-- A draft with other transitions. -/
def setTransitionIds (ids : List Id) : Except ProductError CrawlerVersion := do
  version.ensureDraft
  return { version with transitionIds := ids }

/-- A draft with another policy record. -/
def setCanonicalizationPolicyId (id : Option Id) : Except ProductError CrawlerVersion := do
  version.ensureDraft
  return { version with canonicalizationPolicyId := id }

/-- A draft with another scope record. -/
def setDomainScopeId (id : Option Id) : Except ProductError CrawlerVersion := do
  version.ensureDraft
  return { version with domainScopeId := id }

/-- A draft with another policy. -/
def setCanonicalizationPolicy (policy : CanonicalizationPolicy) :
    Except ProductError CrawlerVersion := do
  version.ensureDraft
  policy.validate
  return { version with canonicalizationPolicy := policy }

/-- A draft with another scope. -/
def setDomainScope (scope : DomainScopePolicy) : Except ProductError CrawlerVersion := do
  version.ensureDraft
  scope.validate lib
  return { version with domainScope := scope }

/-- A draft with other guardrails. -/
def setGuardrails (guardrails : CrawlerVersionGuardrails) :
    Except ProductError CrawlerVersion := do
  version.ensureDraft
  guardrails.validate
  budgetsWithin guardrails version.pageTypeIds
  return { version with guardrails := guardrails }

/-- The checks on a version before it is cloned. -/
def validateSemanticContract : Except ProductError Unit := do
  version.canonicalizationPolicy.validate
  version.domainScope.validate lib
  version.guardrails.validate
  budgetsWithin version.guardrails version.pageTypeIds

/-- A draft is published. -/
def publish : Except ProductError CrawlerVersion := do
  version.ensureDraft
  return { version with state := .published }

/-! ## Clones -/

/-- The identifiers generated for a clone: one for the version, and one for each seed,
page type and transition by its position. -/
structure Generated where
  version : Id
  seed : ℕ → Id
  pageType : ℕ → Id
  transition : ℕ → Id

/-- The clone's page type at the position of a page type of the source. -/
def remapPageType (generated : Generated) (id : Id) : Option Id :=
  if id ∈ version.pageTypeIds then some (generated.pageType (version.pageTypeIds.idxOf id))
  else none

/-- A page-type budget for the cloned page type. -/
def cloneBudget (generated : Generated) (budget : PageTypeDiscoveryGuardrails) :
    Except ProductError PageTypeDiscoveryGuardrails :=
  match version.remapPageType generated budget.pageTypeId with
  | some id => .ok { budget with pageTypeId := id }
  | none => .error
      (invalidPageTypeBudget "published PageType guardrail references a missing PageType")

/-- Clones a published version to a new draft with identifiers of its own. -/
def draftFromPublished (generated : Generated) : Except ProductError CrawlerVersion := do
  version.validateSemanticContract lib
  ensure (version.state = .published)
    (conflict "only published crawler versions can create drafts")
  ensure (∀ seed ∈ version.seeds, ∀ hint ∈ seed.entryPageTypeHint, hint ∈ version.pageTypeIds)
    (conflict "published seed references a missing Page Type")
  let budgets ← version.guardrails.pageTypes.mapM (version.cloneBudget generated)
  return { version with
    id := generated.version
    state := .draft
    seeds := version.seeds.mapIdx fun index seed => { seed with
      id := generated.seed index
      entryPageTypeHint := seed.entryPageTypeHint.bind (version.remapPageType generated) }
    pageTypeIds := version.pageTypeIds.mapIdx fun index _ => generated.pageType index
    transitionIds := version.transitionIds.mapIdx fun index _ => generated.transition index
    guardrails := { version.guardrails with pageTypes := budgets } }

end CrawlerVersion

end Erabi.Authoring

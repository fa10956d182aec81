/-
# Crawler versions

A crawler version with its seeds, page types, URL matchers and discovery
transitions, as they are stored, and their JSON documents.  Identifiers are kept
by their texts.
-/
import Mathlib
import Erabi.Json.Strings
import Erabi.Crawl.Semantics

namespace Erabi.Configuration

open Json
open Crawl (TransitionBudget)

/-! ## Versions -/

/-- Names a record. -/
abbrev Id := String

/-- A seed as stored. -/
structure Seed where
  id : Id
  originalUrl : String
  canonicalUrl : String
  enabled : Bool
  label : Option String
  entryPageTypeHint : Option Id
  deriving DecidableEq

/-- The guardrails of a page type.  The version of its deferred health contract is
all that there is of that contract. -/
structure PageTypeDiscoveryGuardrails where
  pageTypeId : Id
  pageBudget : Option ℕ
  healthThreshold : Option ℕ
  deriving DecidableEq

/-- The guardrails as stored. -/
structure CrawlerVersionGuardrails where
  version : ℕ
  maxPages : ℕ
  maxDepth : ℕ
  maxDurationSeconds : ℕ
  maxDownloadedBytes : ℕ
  maxConcurrentRequestsPerDomain : ℕ
  minRequestDelayMs : ℕ
  pageTypes : List PageTypeDiscoveryGuardrails

/-- Draft or published. -/
inductive CrawlerVersionState where
  | draft | published
  deriving DecidableEq

/-- A version as stored. -/
structure CrawlerVersion where
  id : Id
  crawlerId : Id
  state : CrawlerVersionState
  seeds : List Seed
  pageTypeIds : List Id
  transitionIds : List Id
  canonicalizationPolicyId : Option Id
  domainScopeId : Option Id
  canonicalizationPolicy : Document
  domainScope : Document
  guardrails : CrawlerVersionGuardrails

/-! ## Child rows -/

/-- A row of the page types. -/
structure PageTypeRow where
  id : Id
  name : String
  priority : ℤ
  configuration : Document

/-- A row of the matchers. -/
structure UrlMatcherRow where
  id : Id
  pageTypeId : Id
  ordinal : ℤ
  matcher : Document

/-- A transition as stored. -/
structure DiscoveryTransition where
  id : Id
  sourcePageTypeId : Id
  targetPageTypeId : Id
  name : String
  enabled : Bool
  linkSelector : String
  urlConstraints : Option String
  priority : ℤ
  budget : TransitionBudget
  deduplicate : Bool
  latestTestEvidenceId : Option Id

/-- A version with its child rows. -/
structure Stored where
  version : CrawlerVersion
  seeds : List Seed
  pageTypes : List PageTypeRow
  urlMatchers : List UrlMatcherRow
  transitions : List DiscoveryTransition

/-! ## JSON documents -/

/-- A seed, written. -/
def Seed.toJson (seed : Seed) : Json := ofFields
  [("id", .string seed.id),
    ("original_url", .string seed.originalUrl),
    ("canonical_url", .string seed.canonicalUrl),
    ("enabled", .bool seed.enabled),
    ("label", ofOption .string seed.label),
    ("entry_page_type_hint", ofOption .string seed.entryPageTypeHint)]

/-- A page type's guardrails, written. -/
def PageTypeDiscoveryGuardrails.toJson (g : PageTypeDiscoveryGuardrails) : Json := ofFields
  [("page_type_id", .string g.pageTypeId),
    ("page_budget", ofOption ofNat g.pageBudget),
    ("health_threshold", ofOption (fun version => ofFields
      [("kind", .string "DEFERRED_EXTRACTION_HEALTH"), ("version", ofNat version)])
      g.healthThreshold)]

/-- The guardrails, written. -/
def CrawlerVersionGuardrails.toJson (g : CrawlerVersionGuardrails) : Json := ofFields
  [("version", ofNat g.version),
    ("max_pages", ofNat g.maxPages),
    ("max_depth", ofNat g.maxDepth),
    ("max_duration_seconds", ofNat g.maxDurationSeconds),
    ("max_downloaded_bytes", ofNat g.maxDownloadedBytes),
    ("max_concurrent_requests_per_domain", ofNat g.maxConcurrentRequestsPerDomain),
    ("min_request_delay_ms", ofNat g.minRequestDelayMs),
    ("page_types", .array (g.pageTypes.map PageTypeDiscoveryGuardrails.toJson))]

/-- The word for a state. -/
def CrawlerVersionState.name : CrawlerVersionState → String
  | .draft => "DRAFT"
  | .published => "PUBLISHED"

/-- A version, written. -/
def CrawlerVersion.toJson (version : CrawlerVersion) : Json := ofFields
  [("id", .string version.id),
    ("crawler_id", .string version.crawlerId),
    ("state", .string version.state.name),
    ("seeds", .array (version.seeds.map Seed.toJson)),
    ("page_type_ids", .array (version.pageTypeIds.map Json.string)),
    ("transition_ids", .array (version.transitionIds.map Json.string)),
    ("canonicalization_policy_id", ofOption .string version.canonicalizationPolicyId),
    ("domain_scope_id", ofOption .string version.domainScopeId),
    ("canonicalization_policy", version.canonicalizationPolicy.value),
    ("domain_scope", version.domainScope.value),
    ("guardrails", version.guardrails.toJson)]

/-- A transition's limits, written. -/
def transitionBudgetJson (budget : TransitionBudget) : Json := ofFields
  [("max_links_per_source_page", ofNat budget.maxLinksPerSourcePage),
    ("total_budget", ofOption ofNat budget.totalBudget),
    ("depth_contribution", ofNat budget.depthContribution)]

/-- A transition, written. -/
def DiscoveryTransition.toJson (t : DiscoveryTransition) : Json := ofFields
  [("id", .string t.id),
    ("source_page_type_id", .string t.sourcePageTypeId),
    ("target_page_type_id", .string t.targetPageTypeId),
    ("name", .string t.name),
    ("enabled", .bool t.enabled),
    ("link_selector", .string t.linkSelector),
    ("url_constraints", ofOption .string t.urlConstraints),
    ("priority", ofInt t.priority),
    ("budget", transitionBudgetJson t.budget),
    ("deduplicate", .bool t.deduplicate),
    ("latest_test_evidence_id", ofOption .string t.latestTestEvidenceId)]

end Erabi.Configuration

/-
# Semantic policies

The canonicalization policy, the domain scope and the guardrails of a version, with
the checks that each of them makes of itself.
-/
import Mathlib
import Erabi.Authoring.Text
import Erabi.Relational.KeySet

namespace Erabi.Authoring

open Relational
open Snapshot (isWhitespace)

variable (lib : Libraries)

/-! ## Errors -/

/-- The codes of the domain's errors. -/
inductive ErrorCode where
  | conflict
  | invalidCanonicalizationPolicy
  | invalidUrl
  | unsupportedUrlScheme
  | invalidDomainScope
  | invalidDomainScopeRule
  | registrableDomainUnavailable
  | invalidDiscoveryTransition
  | invalidCrawlGuardrails
  | invalidPageTypeBudget
  | invalidTransitionBudget
  deriving DecidableEq, Repr

/-- An error of the domain, with a message that may be shown. -/
structure ProductError where
  code : ErrorCode
  safeMessage : String
  deriving DecidableEq

/-- The error of an operation that the state does not allow. -/
def conflict (message : String) : ProductError := ⟨.conflict, message⟩

/-- An error of a canonicalization policy. -/
def invalidPolicy (message : String) : ProductError := ⟨.invalidCanonicalizationPolicy, message⟩

/-- An error of a domain scope. -/
def invalidScope (message : String) : ProductError := ⟨.invalidDomainScope, message⟩

/-- An error of a rule of a domain scope. -/
def invalidScopeRule (message : String) : ProductError := ⟨.invalidDomainScopeRule, message⟩

/-- An error of a budget. -/
def invalidPageTypeBudget (message : String) : ProductError := ⟨.invalidPageTypeBudget, message⟩

/-- Stops with the error unless the condition holds. -/
def ensure (p : Prop) [Decidable p] (e : ProductError) : Except ProductError Unit :=
  if p then .ok () else .error e

/-! ## Canonicalization -/

/-- The only version of these policies. -/
def canonicalizationPolicyVersion : ℕ := 1

/-- The query parameters that are always kept and those that are dropped. -/
structure CanonicalizationPolicy where
  version : ℕ
  explicitKeepParameters : KeySet String
  explicitDropParameters : KeySet String

/-- The policy that names no parameter. -/
def CanonicalizationPolicy.default : CanonicalizationPolicy :=
  ⟨canonicalizationPolicyVersion, KeySet.empty, KeySet.empty⟩

/-- The name of a parameter as it may stand in a query. -/
def validParameterName (parameter : String) : Bool :=
  parameter ≠ "" && parameter.toList.all fun c => !(isControl c || ['&', '=', '#'].contains c)

/-- A policy has the supported version, exact parameter names, and no parameter that is
both kept and dropped. -/
def CanonicalizationPolicy.validate (policy : CanonicalizationPolicy) :
    Except ProductError Unit := do
  ensure (policy.version = canonicalizationPolicyVersion)
    (invalidPolicy "unsupported canonicalization policy version")
  ensure (∀ parameter ∈ policy.explicitKeepParameters.keys ++ policy.explicitDropParameters.keys,
      validParameterName parameter)
    (invalidPolicy "canonicalization parameter rule is invalid")
  ensure (∀ parameter ∈ policy.explicitKeepParameters.keys,
      parameter ∉ policy.explicitDropParameters.keys)
    (invalidPolicy "canonicalization KEEP and DROP rules overlap")

/-! ## Domain scope -/

/-- The only version of these policies. -/
def domainScopePolicyVersion : ℕ := 1

/-- A host, with its subdomains or without. -/
inductive DomainScopeHostRule where
  | exact (host : String)
  | subdomains (host : String)
  deriving DecidableEq

/-- The kinds of scopes. -/
inductive DomainScopeKind where
  | seedDomainsOnly
  | sameRegistrableDomain (explicitSubdomains : KeySet String)
  | explicitAllowlist (hosts : KeySet String)
  | custom (allow block : KeySet DomainScopeHostRule)

/-- The hosts that a crawl may visit. -/
structure DomainScopePolicy where
  version : ℕ
  policy : DomainScopeKind

/-- The scope of the hosts of the seeds. -/
def DomainScopePolicy.default : DomainScopePolicy := ⟨domainScopePolicyVersion, .seedDomainsOnly⟩

/-- A host is an IP address or what the URL library makes of it. -/
def validateNormalizedHost (host : String) : Except ProductError Unit := do
  ensure (host ≠ "" ∧ ¬ host.toList.any isWhitespace ∧ '/' ∉ host.toList)
    (invalidScopeRule "Domain Scope host is invalid")
  if isIpAddr host then
    return ()
  match lib.url.parse ("https://" ++ host ++ "/") with
  | none => throw (invalidScopeRule "Domain Scope host is invalid")
  | some parsed =>
      ensure (lib.url.hostStr parsed = some host ∧ lib.url.port parsed = none)
        (invalidScopeRule "Domain Scope host is invalid")

/-- The host of a rule in small letters and without surrounding space, when it is valid. -/
def normalizeRuleHost (host : String) : Except ProductError String := do
  let host := toAsciiLowercase (trim host)
  validateNormalizedHost lib host
  return host

/-- The host that the rule names. -/
def DomainScopeHostRule.host : DomainScopeHostRule → String
  | exact host | subdomains host => host

/-- The host of a rule is valid and normal. -/
def DomainScopeHostRule.validate (rule : DomainScopeHostRule) : Except ProductError Unit := do
  let normalized ← normalizeRuleHost lib rule.host
  ensure (normalized = rule.host) (invalidScopeRule "Domain Scope hosts must be normalized")

/-- The hosts of a scope are valid, and a scope that lists hosts lists some. -/
def DomainScopePolicy.validate (scope : DomainScopePolicy) : Except ProductError Unit := do
  ensure (scope.version = domainScopePolicyVersion)
    (invalidScope "unsupported Domain Scope policy version")
  match scope.policy with
  | .seedDomainsOnly => pure ()
  | .sameRegistrableDomain explicitSubdomains =>
      explicitSubdomains.keys.forM (validateNormalizedHost lib)
  | .explicitAllowlist hosts =>
      ensure (hosts.keys ≠ []) (invalidScope "Domain Scope allowlist must not be empty")
      hosts.keys.forM (validateNormalizedHost lib)
  | .custom allow block =>
      ensure (allow.keys ≠ []) (invalidScope "custom Domain Scope allow rules must not be empty")
      (allow.keys ++ block.keys).forM (DomainScopeHostRule.validate lib)

/-! ## Guardrails -/

/-- The only version of these policies. -/
def guardrailPolicyVersion : ℕ := 1

/-- The guardrails of a page type.  The version of its deferred health contract is all
that there is of that contract. -/
structure PageTypeDiscoveryGuardrails where
  pageTypeId : Id
  pageBudget : Option ℕ
  healthThreshold : Option ℕ
  deriving DecidableEq

/-- The limits of a crawl, and those of its page types. -/
structure CrawlerVersionGuardrails where
  version : ℕ
  maxPages : ℕ
  maxDepth : ℕ
  maxDurationSeconds : ℕ
  maxDownloadedBytes : ℕ
  maxConcurrentRequestsPerDomain : ℕ
  minRequestDelayMs : ℕ
  pageTypes : List PageTypeDiscoveryGuardrails
  deriving DecidableEq

/-- The limits that a draft starts with. -/
def CrawlerVersionGuardrails.default : CrawlerVersionGuardrails where
  version := guardrailPolicyVersion
  maxPages := 1000
  maxDepth := 16
  maxDurationSeconds := 3600
  maxDownloadedBytes := 100 * 1024 * 1024
  maxConcurrentRequestsPerDomain := 1
  minRequestDelayMs := 100
  pageTypes := []

/-- The budgets of the page types are positive and unique, `seen` being the page types
that had one before, and their health contracts have the supported version. -/
def validatePageTypes (seen : List Id) : List PageTypeDiscoveryGuardrails → Except ProductError Unit
  | [] => .ok ()
  | pageType :: rest => do
      ensure (pageType.pageTypeId ∉ seen ∧ pageType.pageBudget ≠ some 0)
        (invalidPageTypeBudget "PageType budgets must be positive and unique")
      ensure (∀ version ∈ pageType.healthThreshold, version = 1)
        (invalidPageTypeBudget "the PageType health contract version is unsupported")
      validatePageTypes (pageType.pageTypeId :: seen) rest

/-- The limits are positive, and the budgets of page types valid. -/
def CrawlerVersionGuardrails.validate (guardrails : CrawlerVersionGuardrails) :
    Except ProductError Unit := do
  ensure (guardrails.version = guardrailPolicyVersion ∧ guardrails.maxPages ≠ 0 ∧
      guardrails.maxDepth ≠ 0 ∧ guardrails.maxDurationSeconds ≠ 0 ∧
      guardrails.maxDownloadedBytes ≠ 0 ∧ guardrails.maxConcurrentRequestsPerDomain ≠ 0)
    ⟨.invalidCrawlGuardrails, "mandatory crawler guardrails must be valid and positive"⟩
  validatePageTypes [] guardrails.pageTypes

end Erabi.Authoring

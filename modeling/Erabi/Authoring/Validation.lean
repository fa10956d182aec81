/-
# Validation before publication

Contributors inspect a version with its children and its test evidence and return
issues.  The registry bounds their issues, sorts them, and reports the blockers and
the warnings.  The core contributor is in every registry.
-/
import Mathlib
import Erabi.Authoring.Canonicalization
import Erabi.Authoring.Version

namespace Erabi.Authoring

open Snapshot (hexEncode)

variable (lib : Libraries)

/-- The length of a contributor's key. -/
def maxValidationIdentifierChars : ℕ := 64

/-- The length of the message of an issue. -/
def maxValidationMessageChars : ℕ := 512

/-- The number of issues that one contributor may return. -/
def maxValidationIssuesPerContributor : ℕ := 256

/-- The number of issues of all contributors. -/
def maxValidationIssues : ℕ := 512

/-- The number of details of an issue. -/
def maxValidationDetails : ℕ := 16

/-- The length of the keys and values of details. -/
def maxValidationDetailChars : ℕ := 256

/-! ## Issues -/

/-- A blocker keeps a version from being published, a warning does not. -/
inductive VersionValidationSeverity where
  | blocker
  | warning
  deriving DecidableEq, Ord

/-- What an issue is about. -/
structure VersionValidationSubject where
  kind : String
  id : Option String
  deriving DecidableEq

/-- What a contributor has found, with its details by key. -/
structure VersionValidationIssue where
  code : String
  severity : VersionValidationSeverity
  contributor : Option String
  message : String
  subject : Option VersionValidationSubject
  details : List (String × String)
  deriving DecidableEq

namespace VersionValidationIssue

/-- An issue without contributor, subject and details. -/
def new (code : String) (severity : VersionValidationSeverity) (message : String) :
    VersionValidationIssue :=
  ⟨code, severity, none, message, none, []⟩

/-- Details are kept by key, in order. -/
def withDetail (issue : VersionValidationIssue) (key value : String) : VersionValidationIssue :=
  { issue with details := issue.details.filter (·.1 < key) ++
      ((key, value) :: issue.details.filter (key < ·.1)) }

/-- The issue with the contributor that found it. -/
def attributed (issue : VersionValidationIssue) (contributor : String) : VersionValidationIssue :=
  { issue with contributor := some contributor }

/-- A text of bounded length without control characters. -/
def boundedText (max : ℕ) (value : String) : Bool := value.length ≤ max && !hasControl value

/-- The texts of the issue are of bounded length, and so are its details. -/
def withinBounds (issue : VersionValidationIssue) : Bool :=
  issue.message ≠ "" && boundedText maxValidationMessageChars issue.message &&
    issue.details.length ≤ maxValidationDetails &&
    (issue.details.all fun detail => detail.1 ≠ "" &&
      boundedText maxValidationDetailChars detail.1 &&
        boundedText maxValidationDetailChars detail.2) &&
    ((issue.subject.bind VersionValidationSubject.id).all fun id =>
      id ≠ "" && boundedText maxValidationDetailChars id)

/-- Texts are compared by their characters. -/
def compareText (s t : String) : Ordering := compareOfLessAndEq s t

/-- A missing text comes first. -/
def compareOption : Option String → Option String → Ordering
  | none, none => .eq
  | none, some _ => .lt
  | some _, none => .gt
  | some s, some t => compareText s t

/-- Details as one list of texts. -/
def texts (details : List (String × String)) : List String :=
  details.flatMap fun detail => [detail.1, detail.2]

/-- Issues are compared field by field. -/
def compare (a b : VersionValidationIssue) : Ordering :=
  (compareText a.code b.code).then <| (Ord.compare a.severity b.severity).then <|
    (compareOption a.contributor b.contributor).then <|
      (compareText a.message b.message).then <|
        (compareOption (a.subject.map (·.kind)) (b.subject.map (·.kind))).then <|
          (compareOption (a.subject.bind (·.id)) (b.subject.bind (·.id))).then
            (compareOfLessAndEq (texts a.details) (texts b.details))

end VersionValidationIssue

/-! ## Context -/

/-- What a test has tried. -/
inductive TestKind where
  | urlCanonicalization
  | pageTypeMatching
  | extraction
  | selectorCoverage
  | pagination
  | discoveryTransition
  | discoveredUrlPreview
  | combinedUrlEvaluation
  deriving DecidableEq

/-- Whether the selectors of a test matched. -/
inductive SelectorCoverageStatus where
  | observed
  | noMatches
  | unavailable
  deriving DecidableEq

/-- What a validation reads of a test.  `discovery` is the transition of the discovery
evidence, when there is such evidence. -/
structure TestEvidence where
  crawlerVersionId : Id
  configHash : String
  testKind : TestKind
  evaluatedPageTypeId : Option Id
  testedTransitionId : Option Id
  selectorCoverage : List SelectorCoverageStatus
  discovery : Option (Option Id)

/-- A version with its children, its test evidence, and the hash of its configuration. -/
structure VersionValidationContext where
  version : CrawlerVersion
  pageTypes : List PageType
  transitions : List DiscoveryTransition
  testEvidence : List TestEvidence
  configHash : String

namespace VersionValidationContext

variable (context : VersionValidationContext)

/-- The page types that are there. -/
def pageTypeIds : List Id := context.pageTypes.map PageType.id

/-- The seeds that a crawl would start from. -/
def enabledSeeds : List Seed := context.version.seeds.filter Seed.enabled

/-- The evidence of the version as it is configured now. -/
def currentEvidence : List TestEvidence :=
  context.testEvidence.filter fun evidence =>
    evidence.crawlerVersionId = context.version.id && evidence.configHash = context.configHash

/-- The canonical form of a URL under the policy of the version. -/
def canonicalize (url : Url) : Except ProductError CanonicalizationResult :=
  context.version.canonicalizationPolicy.canonicalize lib url.text

end VersionValidationContext

/-! ## Core issues -/

/-- The subject of an issue about an entity. -/
def subject (kind : String) (id : Id) : VersionValidationSubject := ⟨kind, some id.text⟩

/-- An issue of the core contributor. -/
def coreIssueWithSeverity (code : String) (severity : VersionValidationSeverity) (message : String)
    (subject : Option VersionValidationSubject) : VersionValidationIssue :=
  { VersionValidationIssue.new code severity message with subject := subject }

/-- An issue that keeps the version from being published. -/
def coreIssue (code message : String) (subject : Option VersionValidationSubject) :
    VersionValidationIssue :=
  coreIssueWithSeverity code .blocker message subject

/-- An issue that does not. -/
def coreWarningIssue (code message : String) (subject : Option VersionValidationSubject) :
    VersionValidationIssue :=
  coreIssueWithSeverity code .warning message subject

/-- The issue for the error of the guardrails. -/
def coreGuardrailIssue : ErrorCode → VersionValidationIssue
  | .invalidPageTypeBudget =>
      coreIssue "INVALID_PAGE_TYPE_BUDGET" "A PageType budget is invalid." none
  | .invalidTransitionBudget =>
      coreIssue "INVALID_TRANSITION_BUDGET" "A transition budget is invalid." none
  | _ => coreIssue "INVALID_CRAWLER_GUARDRAILS" "Crawler guardrails are invalid." none

/-- The hash of a text, in hexadecimal. -/
def sha256Hex (value : String) : String := hexEncode (lib.sha256 value.toUTF8).toList

/-- A long witness is given by its beginning and its hash. -/
def coreAmbiguityIssue (versionId : Id) (canonicalWitness : String) : VersionValidationIssue :=
  let issue := coreIssue "UNRESOLVED_PAGE_TYPE_AMBIGUITY"
    "The canonical PageType resolver has an unresolved ambiguity for a known URL."
    (some (subject "CRAWLER_VERSION" versionId))
  if canonicalWitness.length ≤ maxValidationDetailChars then
    issue.withDetail "witness_url" canonicalWitness
  else
    (issue.withDetail "witness_url_prefix"
        (String.ofList (canonicalWitness.toList.take (maxValidationDetailChars - 64)))).withDetail
      "witness_url_sha256" (sha256Hex lib canonicalWitness)

/-- The kinds of tests that evaluate a page type. -/
def pageTypeEvidenceKind (kind : TestKind) : Bool :=
  [.pageTypeMatching, .extraction, .selectorCoverage, .combinedUrlEvaluation].contains kind

/-! ## Ambiguity witnesses -/

/-- The template with every capture replaced. -/
def mapSegments (capture : List Char) (template : String) : String :=
  String.ofList (['/'].intercalate ((split '/' template).map fun segment =>
    if isCapture segment then capture else segment))

/-- The template without the names of its captures. -/
def normalizeTemplate (template : String) : String := mapSegments ['{', '}'] template

/-- A path that the template matches. -/
def normalizeTemplateWitness (template : String) : String :=
  mapSegments "witness".toList template

/-- A matcher's fingerprint: its text, and its query as it stands. -/
def matcherFingerprint : UrlMatcher → String × List (String × String)
  | .exactUrl url => ("EXACT_URL|" ++ url.text, [])
  | .exactHostPathTemplate host pathTemplate query =>
      ("EXACT_HOST_PATH_TEMPLATE|" ++ toAsciiLowercase host ++ "|" ++
        normalizeTemplate pathTemplate ++ "|", query)
  | .pathPrefix host path =>
      ("PATH_PREFIX|" ++ toAsciiLowercase (host.getD "") ++ "|" ++ path, [])
  | .pathGlob host pattern =>
      ("PATH_GLOB|" ++ toAsciiLowercase (host.getD "") ++ "|" ++ pattern, [])
  | .regex pattern => ("REGEX|" ++ pattern, [])

/-- A URL with the host and the path, under a host of its own where none is given. -/
def hostPathWitness (host : Option String) (path : String) : Option Url :=
  lib.url.parse ("https://" ++ host.getD "example.test" ++ if path = "" then "/" else path)

/-- A URL that the matcher matches, where one is known. -/
def matcherWitness : UrlMatcher → Option Url
  | .exactUrl url => some url
  | .exactHostPathTemplate host pathTemplate query =>
      (lib.url.parse ("https://" ++ host ++ normalizeTemplateWitness pathTemplate)).map fun url =>
        query.foldl (fun url pair => lib.url.appendPair url pair.1 pair.2) url
  | .pathPrefix host path => hostPathWitness lib host path
  | .pathGlob host pattern => hostPathWitness lib host (String.ofList
      (pattern.toList.flatMap fun c => if c = '*' then "witness".toList else [c]))
  | .regex _ => none

/-- The pairs of members at different positions. -/
def pairs {α : Type} : List α → List (α × α)
  | [] => []
  | a :: rest => rest.map (fun b => (a, b)) ++ pairs rest

/-- The matchers compete: they are alike but for the page types they belong to. -/
def competes (left right : UrlMatcher) : Bool :=
  left.kind ≠ .regex && right.kind ≠ .regex &&
    left.specificity lib = right.specificity lib &&
      matcherFingerprint left = matcherFingerprint right

namespace VersionValidationContext

variable (context : VersionValidationContext)

/-- The canonical form of the URL, where the page types are ambiguous for it. -/
def ambiguousWitness (url : Url) : Option String :=
  match context.canonicalize lib url with
  | .error _ => none
  | .ok canonical =>
      if (resolvePageType lib canonical.canonicalUrl context.pageTypes).isAmbiguous then
        some canonical.canonicalUrl.text
      else none

/-- The URLs that are tried: the enabled seeds, and a witness of every two competing
matchers of page types with one priority. -/
def knownUrls : List Url :=
  context.enabledSeeds.map Seed.originalUrl ++
    ((pairs context.pageTypes).filter fun pair => pair.1.priority = pair.2.priority).flatMap
      fun pair => pair.1.matchers.flatMap fun left =>
        (pair.2.matchers.filter (competes lib left)).filterMap fun _ => matcherWitness lib left

/-- The canonical URLs of those tried that are ambiguous, once each and in order. -/
def designTimeAmbiguityWitnesses : List String :=
  dedup (((context.knownUrls lib).filterMap (context.ambiguousWitness lib)).mergeSort
    fun s t => s ≤ t)

/-! ## The core contributor -/

/-- An issue about a seed. -/
def seedIssue (code message : String) (seed : Seed) : VersionValidationIssue :=
  coreIssue code message (some (subject "SEED" seed.id))

/-- A crawl needs a seed to start from. -/
def enabledSeedIssues : List VersionValidationIssue :=
  if context.enabledSeeds = [] then
    [coreIssue "NO_ENABLED_SEED" "CrawlerVersion must contain at least one enabled Seed." none]
  else []

/-- An enabled seed whose canonical URL is not the one the policy gives it. -/
def seedCanonicalizationIssue (seed : Seed) : Option VersionValidationIssue :=
  match context.canonicalize lib seed.originalUrl with
  | .error _ => some (seedIssue "INVALID_SEED_CANONICALIZATION"
      "An enabled Seed cannot be canonicalized by the version policy." seed)
  | .ok result =>
      if result.canonicalUrl ≠ seed.canonicalUrl then
        some (seedIssue "INVALID_SEED_CANONICALIZATION"
          "An enabled Seed canonical URL does not match the version policy." seed)
      else none

/-- The policy must be valid, and with it the canonical URLs of the enabled seeds. -/
def canonicalizationIssues : List VersionValidationIssue :=
  match context.version.canonicalizationPolicy.validate with
  | .error _ => [coreIssue "INVALID_CANONICALIZATION" "The canonicalization policy is invalid." none]
  | .ok _ => context.enabledSeeds.filterMap (context.seedCanonicalizationIssue lib)

/-- The hint of the seed is none of the page types. -/
def foreignHint (seed : Seed) : Bool :=
  seed.entryPageTypeHint.any fun hint => !context.pageTypeIds.contains hint

/-- Hints of seeds must be page types of the version. -/
def seedHintIssues : List VersionValidationIssue :=
  (context.version.seeds.filter context.foreignHint).map (seedIssue "MISSING_SEED_PAGE_TYPE"
    "A Seed PageType hint must reference a PageType owned by the version.")

/-- The definition of the matcher is not valid. -/
def invalidMatcher (matcher : UrlMatcher) : Bool := !(matcher.validateDefinition lib).isOk

/-- An issue for every matcher whose definition is not valid. -/
def matcherIssues : List VersionValidationIssue :=
  context.pageTypes.flatMap fun pageType =>
    (pageType.matchers.filter (invalidMatcher lib)).map fun _ => coreIssue "INVALID_MATCHER_SYNTAX"
      "A PageType contains an invalid URL matcher definition."
      (some (subject "PAGETYPE" pageType.id))

/-- The domain scope must be valid. -/
def domainScopeIssues : List VersionValidationIssue :=
  if (context.version.domainScope.validate lib).isOk then []
  else [coreIssue "INVALID_DOMAIN_SCOPE" "The Domain Scope policy is invalid." none]

/-- The budget is of none of the page types. -/
def foreignBudget (budget : PageTypeDiscoveryGuardrails) : Bool :=
  !context.pageTypeIds.contains budget.pageTypeId

/-- The guardrails must be valid, and their budgets of page types of the version. -/
def guardrailIssues : List VersionValidationIssue :=
  match context.version.guardrails.validate with
  | .error error => [coreGuardrailIssue error.code]
  | .ok _ =>
      (context.version.guardrails.pageTypes.filter context.foreignBudget).map fun budget =>
        coreIssue "INVALID_PAGE_TYPE_BUDGET"
          "A PageType budget references a PageType outside the version."
          (some (subject "PAGETYPE" budget.pageTypeId))

/-- The subject of an issue about a transition. -/
def transitionSubject (transition : DiscoveryTransition) : Option VersionValidationSubject :=
  some (subject "TRANSITION" transition.id)

/-- The ends of a transition must be page types of the version, and the transition valid. -/
def transitionIssue (transition : DiscoveryTransition) : List VersionValidationIssue :=
  (if context.pageTypeIds.contains transition.sourcePageTypeId then []
    else [coreIssue "MISSING_TRANSITION_SOURCE_PAGETYPE"
      "A DiscoveryTransition source PageType is missing from the version."
      (transitionSubject transition)]) ++
  (if context.pageTypeIds.contains transition.targetPageTypeId then []
    else [coreIssue "MISSING_TRANSITION_TARGET_PAGETYPE"
      "A DiscoveryTransition target PageType is missing from the version."
      (transitionSubject transition)]) ++
  (match transition.validate with
    | .ok _ => []
    | .error error =>
        [coreIssue
          (if error.code = .invalidTransitionBudget then "INVALID_TRANSITION_BUDGET"
            else "INVALID_DISCOVERY_TRANSITION")
          "A DiscoveryTransition or its budget is invalid." (transitionSubject transition)])

/-- The issues of all transitions. -/
def transitionIssues : List VersionValidationIssue :=
  context.transitions.flatMap context.transitionIssue

/-- An issue for every ambiguous URL. -/
def ambiguityIssues : List VersionValidationIssue :=
  (context.designTimeAmbiguityWitnesses lib).map (coreAmbiguityIssue lib context.version.id)

/-- The current evidence that evaluates the page type. -/
def pageTypeEvidence (pageType : PageType) : List TestEvidence :=
  context.currentEvidence.filter fun evidence =>
    pageTypeEvidenceKind evidence.testKind && evidence.evaluatedPageTypeId = some pageType.id

/-- Selectors were tried on the page type and none of them matched. -/
def selectorCoverageUnusable (pageType : PageType) : Bool :=
  let observations := (context.pageTypeEvidence pageType).flatMap TestEvidence.selectorCoverage
  observations.contains .noMatches && !observations.contains .observed

/-- A page type should be tested, and its selectors should match. -/
def pageTypeEvidenceIssue (pageType : PageType) : List VersionValidationIssue :=
  (if context.pageTypeEvidence pageType = [] then
    [coreWarningIssue "PAGE_TYPE_TEST_EVIDENCE_MISSING"
      "No current TestEvidence evaluates this PageType configuration."
      (some (subject "PAGETYPE" pageType.id))] else []) ++
  (if context.selectorCoverageUnusable pageType then
    [coreWarningIssue "SELECTOR_COVERAGE_UNUSABLE"
      "Current selector observations report no usable matches."
      (some (subject "PAGETYPE" pageType.id))] else [])

/-- The issues of all page types. -/
def pageTypeEvidenceIssues : List VersionValidationIssue :=
  context.pageTypes.flatMap context.pageTypeEvidenceIssue

/-- Current evidence evaluates the transition. -/
def transitionTested (transition : DiscoveryTransition) : Bool :=
  context.currentEvidence.any fun evidence =>
    evidence.testKind = .discoveryTransition &&
      evidence.testedTransitionId = some transition.id &&
        evidence.discovery = some (some transition.id)

/-- A transition should be tested. -/
def transitionEvidenceIssues : List VersionValidationIssue :=
  (context.transitions.filter fun transition => !context.transitionTested transition).map
    fun transition => coreWarningIssue "TRANSITION_TEST_EVIDENCE_MISSING"
      "No current TestEvidence evaluates this DiscoveryTransition configuration."
      (transitionSubject transition)

/-- The issues of the core contributor, in the order in which it looks for them. -/
def coreIssues : List VersionValidationIssue :=
  context.enabledSeedIssues ++ context.canonicalizationIssues lib ++ context.seedHintIssues ++
    context.matcherIssues lib ++ context.domainScopeIssues lib ++ context.guardrailIssues ++
      context.transitionIssues ++ context.ambiguityIssues lib ++
        context.pageTypeEvidenceIssues ++ context.transitionEvidenceIssues

end VersionValidationContext

/-! ## The registry -/

/-- A key starts with a letter and has letters, digits, underscores and hyphens. -/
def validIdentifier (value : String) : Bool :=
  value ≠ "" && value.length ≤ maxValidationIdentifierChars &&
    (value.toList.all fun c => c.isAlphanum || c = '_' || c = '-') &&
      value.toList.head?.all Char.isAlpha

/-- How a contributor may fail. -/
inductive VersionValidationContributorError where
  | invalidContribution
  | internalFailure

/-- How a validation may fail. -/
inductive VersionValidationError where
  | invalidContributorKey
  | duplicateContributorKey (key : String)
  | tooManyIssues (key : String)
  | contributorFailed (key : String)
  | invalidContribution (key : String)
  deriving DecidableEq

/-- A contributor looks at the version and returns issues, or fails. -/
structure VersionValidationContributor where
  key : String
  validate : VersionValidationContext →
    Except VersionValidationContributorError (List VersionValidationIssue)

/-- The contributor of the domain. -/
def coreContributor : VersionValidationContributor where
  key := "core"
  validate context := .ok (context.coreIssues lib)

/-- The contributors that are registered. -/
structure VersionValidationRegistry where
  contributors : List VersionValidationContributor

/-- The registry with the core contributor alone. -/
def VersionValidationRegistry.coreOnly : VersionValidationRegistry := ⟨[coreContributor lib]⟩

/-- What a validation has found, apart by severity. -/
structure VersionValidationReport where
  versionId : Id
  configHash : String
  blockers : List VersionValidationIssue
  warnings : List VersionValidationIssue
  publishable : Bool

/-- A report is publishable when it has no blocker. -/
def VersionValidationReport.new (versionId : Id) (configHash : String)
    (blockers warnings : List VersionValidationIssue) : VersionValidationReport :=
  ⟨versionId, configHash, blockers, warnings, blockers.isEmpty⟩

/-- The issues of one contributor join those collected before. -/
def contribute (key : String) (issues : List VersionValidationIssue) :
    List VersionValidationIssue → Except VersionValidationError (List VersionValidationIssue)
  | [] => .ok issues
  | issue :: rest =>
      if issue.withinBounds then
        if maxValidationIssues < (issues ++ [issue.attributed key]).length then
          .error (.tooManyIssues key)
        else contribute key (issues ++ [issue.attributed key]) rest
      else .error (.invalidContribution key)

/-- Runs the contributors, `seen` being the keys of those that ran before. -/
def collect (context : VersionValidationContext) (seen : List String)
    (issues : List VersionValidationIssue) :
    List VersionValidationContributor →
      Except VersionValidationError (List VersionValidationIssue)
  | [] => .ok issues
  | contributor :: rest =>
      if contributor.key ∈ seen then .error (.duplicateContributorKey contributor.key)
      else
        match contributor.validate context with
        | .error .invalidContribution => .error (.invalidContribution contributor.key)
        | .error .internalFailure => .error (.contributorFailed contributor.key)
        | .ok contribution =>
            if maxValidationIssuesPerContributor < contribution.length then
              .error (.tooManyIssues contributor.key)
            else do
              let issues ← contribute contributor.key issues contribution
              collect context (contributor.key :: seen) issues rest

/-- Runs every contributor in the order of the keys and returns the normalized report. -/
def VersionValidationRegistry.validate (registry : VersionValidationRegistry)
    (context : VersionValidationContext) : Except VersionValidationError VersionValidationReport :=
  if ∀ contributor ∈ registry.contributors, validIdentifier contributor.key then do
    let issues ← collect context [] []
      (registry.contributors.mergeSort fun a b => a.key ≤ b.key)
    let issues := dedup (issues.mergeSort fun a b => a.compare b ≠ .gt)
    return .new context.version.id context.configHash
      (issues.filter fun issue => issue.severity = .blocker)
      (issues.filter fun issue => issue.severity = .warning)
  else .error .invalidContributorKey

end Erabi.Authoring

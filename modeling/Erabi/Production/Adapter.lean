/-
# The crawler contract

One bounded request to a crawler, whichever the provider, and what its result must be
like: what was observed of the page, the metadata of the response and the artifacts.
-/
import Mathlib
import Erabi.Authoring.Text

namespace Erabi.Production

open Authoring (Url UrlCrate hasControl isBlank trim)

/-- How long a URL may be. -/
def maxCrawlerUrlChars : ℕ := 4096

/-- How long a user agent may be. -/
def maxCrawlerUserAgentChars : ℕ := 512

/-- How long a selector may be. -/
def maxCrawlerSelectorChars : ℕ := 1024

/-- How long a page may take. -/
def maxCrawlerTimeoutMs : ℕ := 900000

/-- How far a page may be scrolled. -/
def maxCrawlerAutoScrollSteps : ℕ := 64

/-- How many links a page may bring. -/
def maxCrawlerDiscoveredLinks : ℕ := 256

/-- How many selectors may be observed. -/
def maxCrawlerSelectorObservations : ℕ := 256

/-- How many pagination controls may be observed. -/
def maxCrawlerPaginationObservations : ℕ := 64

/-- How long a media type may be. -/
def maxCrawlerMediaTypeChars : ℕ := 256

/-- How many artifacts a page may bring. -/
def maxCrawlerArtifacts : ℕ := 5

/-- How large a text may be. -/
def maxCrawlerTextArtifactBytes : ℕ := 8 * 1024 * 1024

/-- How large a screenshot may be. -/
def maxCrawlerScreenshotBytes : ℕ := 16 * 1024 * 1024

/-- How large all artifacts may be together. -/
def maxCrawlerTotalArtifactBytes : ℕ := 32 * 1024 * 1024

/-- The failures of a provider and of a target. -/
inductive CrawlerAdapterError where
  | unavailable
  | timeout
  | accessDenied
  | notFound
  | rateLimited (retryAfterMs : Option ℕ)
  | remoteFailure (statusCode : Option ℕ)
  | unsupportedCapability
  | invalidProviderResponse
  | cancelled
  deriving DecidableEq, Repr

/-! ## Requests -/

/-- Why a request is refused. -/
inductive CrawlerRequestError where
  | invalidHttpUrl
  | timeoutMustBePositive
  | timeoutTooLong
  | userAgentEmpty
  | userAgentInvalid
  | waitForSelectorInvalid
  deriving DecidableEq, Repr

/-- Whether a page is rendered. -/
inductive RenderingRequirement where
  | rawHtml
  | renderedHtml
  deriving DecidableEq, Repr

/-- A bounded number of scroll steps. -/
structure AutoScrollPolicy where
  maxSteps : ℕ
  positive : maxSteps ≠ 0
  bounded : maxSteps ≤ maxCrawlerAutoScrollSteps
  deriving DecidableEq

/-- Which screenshot is taken. -/
inductive ScreenshotPolicy where
  | none
  | viewport
  | fullPage
  deriving DecidableEq, Repr

/-- The evidence that a request asks for. -/
structure CrawlerEvidencePolicy where
  rawHtml : Bool := false
  cleanedHtml : Bool := false
  renderedHtml : Bool := false
  markdown : Bool := false
  screenshot : ScreenshotPolicy := .none
  discoveredLinks : Bool := false
  selectorObservations : Bool := false
  paginationObservations : Bool := false
  deriving DecidableEq, Repr

/-- What the provider is asked for. -/
structure CrawlerExecuteRequest where
  targetUrl : Url
  timeoutMs : ℕ
  userAgent : String
  rendering : RenderingRequirement
  waitForSelector : Option String
  autoScroll : Option AutoScrollPolicy
  evidence : CrawlerEvidencePolicy
  deriving DecidableEq

section Crate

variable (crate : UrlCrate)

/-- An HTTP or HTTPS URL with a host, without credentials and without fragment. -/
def isHttpTarget (u : Url) : Bool :=
  (crate.hostStr u).isSome && (crate.scheme u = "http" || crate.scheme u = "https") &&
    crate.username u = "" && (crate.password u).isNone && (crate.fragment u).isNone

/-- The text is short enough for a URL and has no control character. -/
def isUrlText (s : String) : Bool := s.length ≤ maxCrawlerUrlChars && !hasControl s

/-- A selector that is waited for. -/
def isWaitSelector (selector : String) : Bool :=
  !isBlank selector && selector.length ≤ maxCrawlerSelectorChars && !hasControl selector

/-- `CrawlerExecuteRequest::try_new`. -/
def CrawlerExecuteRequest.tryNew (targetUrl : Url) (timeoutMs : ℕ) (userAgent : String)
    (rendering : RenderingRequirement) (waitForSelector : Option String)
    (autoScroll : Option AutoScrollPolicy) (evidence : CrawlerEvidencePolicy) :
    Except CrawlerRequestError CrawlerExecuteRequest :=
  if ¬ (isUrlText targetUrl.text ∧ isHttpTarget crate targetUrl) then .error .invalidHttpUrl
  else if timeoutMs = 0 then .error .timeoutMustBePositive
  else if maxCrawlerTimeoutMs < timeoutMs then .error .timeoutTooLong
  else if isBlank userAgent then .error .userAgentEmpty
  else if maxCrawlerUserAgentChars < userAgent.length ∨ hasControl userAgent then
    .error .userAgentInvalid
  else if ¬ waitForSelector.all isWaitSelector then .error .waitForSelectorInvalid
  else .ok { targetUrl, timeoutMs, userAgent, rendering, waitForSelector, autoScroll, evidence }

/-- The target, the timeout and the user agent are within the contract. -/
structure Requestable (targetUrl : Url) (timeoutMs : ℕ) (userAgent : String) : Prop where
  text : isUrlText targetUrl.text = true
  target : isHttpTarget crate targetUrl = true
  positive : timeoutMs ≠ 0
  bounded : timeoutMs ≤ maxCrawlerTimeoutMs
  named : isBlank userAgent = false
  agent : userAgent.length ≤ maxCrawlerUserAgentChars ∧ hasControl userAgent = false

variable {crate}

/-- A request without a selector to wait for is made exactly of what is within the
contract. -/
theorem CrawlerExecuteRequest.tryNew_eq_ok {targetUrl : Url} {timeoutMs : ℕ} {userAgent : String}
    {rendering : RenderingRequirement} {autoScroll : Option AutoScrollPolicy}
    {evidence : CrawlerEvidencePolicy} {request : CrawlerExecuteRequest} :
    tryNew crate targetUrl timeoutMs userAgent rendering none autoScroll evidence = .ok request ↔
      Requestable crate targetUrl timeoutMs userAgent ∧
        request = ⟨targetUrl, timeoutMs, userAgent, rendering, none, autoScroll, evidence⟩ := by
  unfold tryNew
  constructor
  · intro h
    split_ifs at h with htarget hpositive hbounded hnamed hagent hselector
    cases h
    rw [not_or] at hagent
    exact ⟨⟨htarget.1, htarget.2, hpositive, not_lt.mp hbounded, by simpa using hnamed,
      not_lt.mp hagent.1, by simpa using hagent.2⟩, rfl⟩
  · rintro ⟨h, rfl⟩
    rw [if_neg (not_not.mpr ⟨h.text, h.target⟩), if_neg h.positive,
      if_neg (not_lt.mpr h.bounded), if_neg (by simp [h.named]),
      if_neg (not_or.mpr ⟨not_lt.mpr h.agent.1, by simp [h.agent.2]⟩)]
    rfl

/-! ## Observations -/

/-- An href as the provider gave it. -/
structure ObservedLink where
  rawHref : String
  selector : Option String
  deriving DecidableEq, Repr

/-- How often a selector matched. -/
structure SelectorObservation where
  selector : String
  matchesFound : ℕ
  deriving DecidableEq, Repr

/-- A pagination control on the page. -/
structure PaginationObservation where
  selector : Option String
  targetUrl : Option String
  deriving DecidableEq, Repr

/-- What the provider saw. -/
structure PageObservation where
  requestedUrl : String
  finalUrl : Option String
  artifactIds : List ℕ
  discoveredLinks : List ObservedLink
  selectorObservations : List SelectorObservation
  paginationObservations : List PaginationObservation
  deriving DecidableEq, Repr

/-- The check on a selector. -/
def isSelectorText (selector : String) : Bool :=
  selector ≠ "" && selector.length ≤ maxCrawlerSelectorChars && !hasControl selector

/-- `validate_for_adapter`.  The href of a link may be empty, no other text may. -/
def PageObservation.validateForAdapter (observation : PageObservation) : Bool :=
  observation.requestedUrl ≠ "" && isUrlText observation.requestedUrl &&
    observation.discoveredLinks.length ≤ maxCrawlerDiscoveredLinks &&
    observation.selectorObservations.length ≤ maxCrawlerSelectorObservations &&
    observation.paginationObservations.length ≤ maxCrawlerPaginationObservations &&
    observation.finalUrl.all (fun finalUrl => finalUrl ≠ "" && isUrlText finalUrl) &&
    observation.discoveredLinks.all (fun link =>
      isUrlText link.rawHref && link.selector.all isSelectorText) &&
    observation.selectorObservations.all (fun observed => isSelectorText observed.selector) &&
    observation.paginationObservations.all fun pagination =>
      pagination.selector.all isSelectorText &&
        pagination.targetUrl.all fun targetUrl => targetUrl ≠ "" && isUrlText targetUrl

/-! ## Response metadata and artifacts -/

/-- A media type without surrounding blanks. -/
structure CrawlerMediaType where
  text : String
  deriving DecidableEq, Repr

/-- `CrawlerMediaType::new`. -/
def CrawlerMediaType.new (value : String) : Option CrawlerMediaType :=
  if isBlank value ∨ maxCrawlerMediaTypeChars < value.length ∨ hasControl value then none
  else some ⟨trim value⟩

/-- What the response said of itself. -/
structure CrawlerResponseMetadata where
  statusCode : Option ℕ
  mediaType : Option CrawlerMediaType
  contentLengthBytes : Option ℕ
  providerElapsedMs : Option ℕ
  deriving DecidableEq, Repr

/-- `CrawlerResponseMetadata::try_new`. -/
def CrawlerResponseMetadata.tryNew (statusCode : Option ℕ) (mediaType : Option CrawlerMediaType)
    (contentLengthBytes providerElapsedMs : Option ℕ) :
    Except CrawlerAdapterError CrawlerResponseMetadata :=
  if statusCode.any fun status => status < 100 || 599 < status then
    .error .invalidProviderResponse
  else .ok { statusCode, mediaType, contentLengthBytes, providerElapsedMs }

/-- The kinds of artifacts. -/
inductive CrawlerArtifactKind where
  | rawHtml
  | cleanedHtml
  | renderedHtml
  | markdown
  | screenshot
  deriving DecidableEq, Repr

/-- An artifact with its content. -/
inductive CrawlerArtifactEvidence where
  | rawHtml (body : String)
  | cleanedHtml (body : String)
  | renderedHtml (body : String)
  | markdown (body : String)
  | screenshot (mediaType : CrawlerMediaType) (bytes : List UInt8)
  deriving DecidableEq

namespace CrawlerArtifactEvidence

/-- The kind of an artifact. -/
def kind : CrawlerArtifactEvidence → CrawlerArtifactKind
  | rawHtml _ => .rawHtml
  | cleanedHtml _ => .cleanedHtml
  | renderedHtml _ => .renderedHtml
  | markdown _ => .markdown
  | screenshot .. => .screenshot

/-- The size of an artifact. -/
def byteLen : CrawlerArtifactEvidence → ℕ
  | rawHtml body | cleanedHtml body | renderedHtml body | markdown body => body.utf8ByteSize
  | screenshot _ bytes => bytes.length

/-- The artifact is as small as one of its kind must be. -/
def fits (artifact : CrawlerArtifactEvidence) : Bool :=
  artifact.byteLen ≤ match artifact.kind with
    | .screenshot => maxCrawlerScreenshotBytes
    | .rawHtml | .cleanedHtml | .renderedHtml | .markdown => maxCrawlerTextArtifactBytes

/-- A constructor of artifacts refuses what is too large. -/
def checked (artifact : CrawlerArtifactEvidence) :
    Except CrawlerAdapterError CrawlerArtifactEvidence :=
  if artifact.fits then .ok artifact else .error .invalidProviderResponse

end CrawlerArtifactEvidence

/-! ## Results -/

/-- Whether the provider gave all that it was asked for. -/
inductive CrawlerResultCompleteness where
  | complete
  | providerReportedPartial
  | requestedEvidenceUnavailable
  deriving DecidableEq, Repr

/-- A partial result counts before missing evidence. -/
def CrawlerResultCompleteness.fromFlags (providerReportedPartial : Bool)
    (requestedEvidenceUnavailable : Bool) : CrawlerResultCompleteness :=
  if providerReportedPartial then .providerReportedPartial
  else if requestedEvidenceUnavailable then .requestedEvidenceUnavailable
  else .complete

/-- Some artifact that was asked for is missing. -/
def requestedEvidenceUnavailable (policy : CrawlerEvidencePolicy)
    (kinds : List CrawlerArtifactKind) : Bool :=
  (policy.rawHtml && CrawlerArtifactKind.rawHtml ∉ kinds) ||
    (policy.cleanedHtml && CrawlerArtifactKind.cleanedHtml ∉ kinds) ||
    (policy.renderedHtml && CrawlerArtifactKind.renderedHtml ∉ kinds) ||
    (policy.markdown && CrawlerArtifactKind.markdown ∉ kinds) ||
    (policy.screenshot ≠ .none && CrawlerArtifactKind.screenshot ∉ kinds)

/-- What the provider answers. -/
structure CrawlerExecuteResult where
  observation : PageObservation
  response : CrawlerResponseMetadata
  artifacts : List CrawlerArtifactEvidence
  completeness : CrawlerResultCompleteness
  deriving DecidableEq

variable (crate)

/-- `validate_absolute_http_url`. -/
def isAbsoluteHttpUrl (value : String) : Bool :=
  isUrlText value && (crate.parse value).any (isHttpTarget crate)

/-- `CrawlerExecuteResult::try_new`.  All its refusals are the same, and few enough
artifacts of bounded size have a total that no counter overflows with. -/
def CrawlerExecuteResult.tryNew (request : CrawlerExecuteRequest) (observation : PageObservation)
    (response : CrawlerResponseMetadata) (artifacts : List CrawlerArtifactEvidence)
    (providerReportedPartial : Bool) : Except CrawlerAdapterError CrawlerExecuteResult :=
  let kinds := artifacts.map CrawlerArtifactEvidence.kind
  if observation.requestedUrl ≠ request.targetUrl.text ∨ observation.artifactIds ≠ [] then
    .error .invalidProviderResponse
  else if ¬ observation.validateForAdapter then .error .invalidProviderResponse
  else if ¬ observation.finalUrl.all (isAbsoluteHttpUrl crate) then .error .invalidProviderResponse
  else if maxCrawlerArtifacts < artifacts.length ∨ ¬ kinds.Nodup ∨
      ¬ artifacts.all CrawlerArtifactEvidence.fits ∨
      maxCrawlerTotalArtifactBytes < (artifacts.map CrawlerArtifactEvidence.byteLen).sum then
    .error .invalidProviderResponse
  else .ok
    { observation
      response
      artifacts
      completeness := .fromFlags providerReportedPartial
        (requestedEvidenceUnavailable request.evidence kinds) }

/-- What the contract promises of an observation. -/
structure PageObservation.Admissible (observation : PageObservation)
    (request : CrawlerExecuteRequest) : Prop where
  requested : observation.requestedUrl = request.targetUrl.text
  valid : observation.validateForAdapter = true
  final : observation.finalUrl.all (isAbsoluteHttpUrl crate) = true

variable {crate}

/-- A result has the observation and the metadata it was made of. -/
theorem CrawlerExecuteResult.tryNew_eq_ok {request : CrawlerExecuteRequest}
    {observation : PageObservation} {response : CrawlerResponseMetadata}
    {artifacts : List CrawlerArtifactEvidence} {providerReportedPartial : Bool}
    {result : CrawlerExecuteResult}
    (h : tryNew crate request observation response artifacts providerReportedPartial = .ok result) :
    result.observation = observation ∧ result.response = response ∧
      observation.Admissible crate request := by
  unfold tryNew at h
  extract_lets kinds at h
  split_ifs at h with hrequested hvalid hfinal hartifacts
  cases h
  rw [not_or, not_not] at hrequested
  exact ⟨rfl, rfl, hrequested.1, hvalid, hfinal⟩

end Crate

end Erabi.Production

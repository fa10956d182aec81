/-
# The Crawl4AI adapter

The request body that the adapter builds, what it refuses to ask the provider for, and
the result that it makes of the provider's answer.
-/
import Mathlib
import Erabi.Production.Adapter
import Erabi.Json.Value
import Erabi.Relational.Transaction

namespace Erabi.Production

open Authoring (UrlCrate eqIgnoreAsciiCase parseDigits trim)
open Relational.Transaction (except_bind_eq_ok)

/-- The longest delay a provider may ask for. -/
def maxRetryAfterSeconds : ℕ := 86400

/-! ## Bodies -/

/-- A link in the provider's answer. -/
structure ProviderLink where
  href : Option String

/-- The links in the provider's answer. -/
structure ProviderLinks where
  internal : List ProviderLink
  external : List ProviderLink

/-- The text in the provider's answer. -/
inductive ProviderMarkdown where
  | structured (rawMarkdown : String)
  | text (markdown : String)

/-- One page of the provider's answer. -/
structure CrawlResult where
  url : String
  html : String
  success : Bool
  cleanedHtml : Option String
  links : ProviderLinks
  markdown : Option ProviderMarkdown
  screenshot : Option String
  responseHeaders : Option (List (String × Json))
  statusCode : Option ℤ
  redirectedUrl : Option String

/-- An answer of the provider, whose durations are floating point numbers. -/
structure CrawlResponse (Seconds : Type) where
  success : Bool
  results : List CrawlResult
  serverProcessingTime : Option Seconds

/-- What is used of the libraries for durations and for Base64. -/
structure Decoders (Seconds : Type) where
  /-- `seconds_to_millis`, `none` for what is no duration. -/
  millis : Seconds → Option ℕ
  base64 : String → Option (List UInt8)

/-! ## Building a request -/

/-- A 64-bit number, which may have a plus sign. -/
def parseU64 : List Char → Option ℕ
  | '+' :: digits => parseDigits (2 ^ 64) digits
  | s => parseDigits (2 ^ 64) s

/-- The first header of a name, in whatever letters. -/
def findHeader (headers : List (String × Json)) (name : String) : Option Json :=
  (headers.find? fun header => eqIgnoreAsciiCase header.1 name).map Prod.snd

/-- `header_string`. -/
def headerString (headers : List (String × Json)) (name : String) :
    Except CrawlerAdapterError (Option String) :=
  match findHeader headers name with
  | none => .ok none
  | some (.string value) => .ok (some value)
  | some _ => .error .invalidProviderResponse

/-- A check that fails with `error` when it does not hold. -/
def check (holds : Bool) (error : CrawlerAdapterError) : Except CrawlerAdapterError Unit :=
  if holds then .ok () else .error error

/-- A missing value makes the answer invalid. -/
def orInvalid {α : Type} (value : Option α) : Except CrawlerAdapterError α :=
  match value with
  | none => .error .invalidProviderResponse
  | some a => .ok a

/-- An optional value, read when there is one. -/
def readOptional {α β : Type} (read : α → Option β) (value : Option α) :
    Except CrawlerAdapterError (Option β) :=
  match value with
  | none => .ok none
  | some a => (orInvalid (read a)).map some

/-- `response_metadata`. -/
def responseMetadata (headers : Option (List (String × Json))) :
    Except CrawlerAdapterError (Option CrawlerMediaType × Option ℕ) :=
  match headers with
  | none => .ok (none, none)
  | some headers => do
    let contentType ← headerString headers "content-type"
    let mediaType ← readOptional CrawlerMediaType.new contentType
    let contentLength ← headerString headers "content-length"
    let contentLength ← readOptional (fun value => parseU64 value.toList) contentLength
    return (mediaType, contentLength)

/-- `retry_after_value_ms`. -/
def retryAfterValueMs (value : String) : Option ℕ :=
  (parseU64 value.toList).bind fun seconds =>
    if maxRetryAfterSeconds < seconds then none else some (seconds * 1000)

/-- `retry_after_from_provider_headers`. -/
def retryAfterFromProviderHeaders (headers : Option (List (String × Json))) : Option ℕ :=
  match headers.bind fun headers => findHeader headers "retry-after" with
  | some (.string value) => retryAfterValueMs (trim value)
  | _ => none

/-- `map_target_failure`. -/
def mapTargetFailure (statusCode : Option ℕ) (headers : Option (List (String × Json))) :
    CrawlerAdapterError :=
  match statusCode with
  | some 401 | some 403 => .accessDenied
  | some 404 => .notFound
  | some 429 => .rateLimited (retryAfterFromProviderHeaders headers)
  | statusCode => .remoteFailure statusCode

/-! ## Normalizing an answer -/

/-- `discovered_links`.  A link without href is one with an empty href. -/
def discoveredLinks (links : ProviderLinks) : List ObservedLink :=
  (links.internal ++ links.external).map fun link => ⟨link.href.getD "", none⟩

/-- The observation that the adapter makes of a page. -/
def observationOf (request : CrawlerExecuteRequest) (result : CrawlResult) : PageObservation where
  requestedUrl := request.targetUrl.text
  finalUrl := result.redirectedUrl.or (some result.url)
  artifactIds := []
  discoveredLinks :=
    if request.evidence.discoveredLinks then discoveredLinks result.links else []
  selectorObservations := []
  paginationObservations := []

/-- An artifact that is asked for and is there. -/
def artifactIf (requested : Bool) (artifact : Option CrawlerArtifactEvidence) :
    Except CrawlerAdapterError (List CrawlerArtifactEvidence) :=
  match requested, artifact with
  | true, some artifact => artifact.checked.map fun artifact => [artifact]
  | _, _ => .ok []

section Seconds

variable {Seconds : Type} (crate : UrlCrate) (decoders : Decoders Seconds)

/-- The screenshot of a page, which is not empty. -/
def screenshotOf (encoded : Option String) :
    Except CrawlerAdapterError (Option CrawlerArtifactEvidence) := do
  let bytes ← readOptional decoders.base64 encoded
  check (bytes ≠ some []) .invalidProviderResponse
  return bytes.map (.screenshot ⟨"image/png"⟩)

/-- The text itself. -/
def ProviderMarkdown.rawMarkdown : ProviderMarkdown → String
  | structured rawMarkdown => rawMarkdown
  | text markdown => markdown

/-- `artifacts_for`.  The one HTML text of the provider is the raw or the rendered one. -/
def artifactsFor (request : CrawlerExecuteRequest) (result : CrawlResult) :
    Except CrawlerAdapterError (List CrawlerArtifactEvidence) := do
  let evidence := request.evidence
  let raw ← artifactIf evidence.rawHtml (some (.rawHtml result.html))
  let rendered ← artifactIf evidence.renderedHtml (some (.renderedHtml result.html))
  let cleaned ← artifactIf evidence.cleanedHtml (result.cleanedHtml.map .cleanedHtml)
  let markdown ← artifactIf evidence.markdown
    (result.markdown.map fun markdown => .markdown markdown.rawMarkdown)
  if evidence.screenshot = .none then
    return raw ++ rendered ++ cleaned ++ markdown
  let screenshot ← artifactIf true (← screenshotOf decoders result.screenshot)
  return raw ++ rendered ++ cleaned ++ markdown ++ screenshot

/-- A page status as a 16-bit number. -/
def statusOf (status : ℤ) : Option ℕ :=
  if 0 ≤ status ∧ status < 65536 then some status.toNat else none

/-- The only result of an answer. -/
def normalizeCrawlResult (request : CrawlerExecuteRequest) (result : CrawlResult)
    (serverProcessingTime : Option Seconds) :
    Except CrawlerAdapterError CrawlerExecuteResult := do
  let statusCode ← readOptional statusOf result.statusCode
  check result.success (mapTargetFailure statusCode result.responseHeaders)
  let (mediaType, contentLength) ← responseMetadata result.responseHeaders
  let providerElapsedMs ← readOptional decoders.millis serverProcessingTime
  let metadata ← CrawlerResponseMetadata.tryNew statusCode mediaType contentLength
    providerElapsedMs
  let artifacts ← artifactsFor decoders request result
  CrawlerExecuteResult.tryNew crate request (observationOf request result) metadata artifacts
    false

/-- `normalize_crawl_response`. -/
def normalizeCrawlResponse (request : CrawlerExecuteRequest) (response : CrawlResponse Seconds) :
    Except CrawlerAdapterError CrawlerExecuteResult :=
  match response.success, response.results with
  | true, [result] =>
    normalizeCrawlResult crate decoders request result response.serverProcessingTime
  | _, _ => .error .invalidProviderResponse

/-- A result of the adapter has the observation of the only page of the answer, and the
media type and the length that its headers say. -/
structure Normalized (request : CrawlerExecuteRequest) (page : CrawlResult)
    (result : CrawlerExecuteResult) : Prop where
  observation : result.observation = observationOf request page
  metadata : responseMetadata page.responseHeaders =
    .ok (result.response.mediaType, result.response.contentLengthBytes)
  admissible : result.observation.Admissible crate request

variable {crate decoders}

/-- A page that is accepted is normalized. -/
theorem normalizeCrawlResult_eq_ok {request : CrawlerExecuteRequest} {page : CrawlResult}
    {serverProcessingTime : Option Seconds} {result : CrawlerExecuteResult}
    (h : normalizeCrawlResult crate decoders request page serverProcessingTime = .ok result) :
    Normalized crate request page result := by
  unfold normalizeCrawlResult at h
  obtain ⟨statusCode, -, h⟩ := except_bind_eq_ok.mp h
  obtain ⟨-, -, h⟩ := except_bind_eq_ok.mp h
  obtain ⟨⟨mediaType, contentLength⟩, hmetadata, h⟩ := except_bind_eq_ok.mp h
  obtain ⟨elapsed, -, h⟩ := except_bind_eq_ok.mp h
  obtain ⟨metadata, hnew, h⟩ := except_bind_eq_ok.mp h
  obtain ⟨artifacts, -, h⟩ := except_bind_eq_ok.mp h
  obtain ⟨hobservation, hresponse, hadmissible⟩ := CrawlerExecuteResult.tryNew_eq_ok h
  unfold CrawlerResponseMetadata.tryNew at hnew
  split_ifs at hnew
  cases hnew
  refine ⟨hobservation, ?_, ?_⟩
  · rw [hresponse]
    exact hmetadata
  · rw [hobservation]
    exact hadmissible

/-- An answer that is accepted has one page. -/
theorem normalizeCrawlResponse_eq_ok {request : CrawlerExecuteRequest}
    {response : CrawlResponse Seconds} {result : CrawlerExecuteResult}
    (h : normalizeCrawlResponse crate decoders request response = .ok result) :
    ∃ page, response.results = [page] ∧ Normalized crate request page result := by
  unfold normalizeCrawlResponse at h
  split at h
  · rename_i page _ hresults
    exact ⟨page, hresults, normalizeCrawlResult_eq_ok h⟩
  · cases h

end Seconds

end Erabi.Production

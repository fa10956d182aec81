/-
# The tables of the crawler repository

Crawlers, their versions and the rows of a version.  Every statement checks what the schema
does: keys, foreign keys, and the triggers that keep the rows of a published version.
-/
import Mathlib
import Erabi.Authoring.Validation
import Erabi.Json.Strings
import Erabi.Relational.Table
import Erabi.Relational.Transaction

namespace Erabi.Versions

open Relational Transaction
open Authoring
open Erabi.Configuration (CrawlerVersionState)

/-! ## Rows -/

/-- A row of `crawlers`, without what is not semantic. -/
structure Crawler where
  id : Id
  activePublishedVersionId : Option Id
  activeDraftVersionId : Option Id
  deriving DecidableEq

/-- A row of `crawler_versions`; the configuration is the document of the whole version. -/
structure VersionRow where
  id : Id
  crawlerId : Id
  state : CrawlerVersionState
  semanticConfiguration : CrawlerVersion

/-- A seed as the version's rows have it. -/
structure SeedRow where
  crawlerVersionId : Id
  seed : Seed
  deriving DecidableEq

/-- A page type, with its configuration as JSON. -/
structure PageTypeRow where
  id : Id
  crawlerVersionId : Id
  name : String
  priority : Int32
  configuration : Json

/-- A matcher of a page type, with its place among them. -/
structure UrlMatcherRow where
  id : Id
  pageTypeId : Id
  ordinal : ℕ
  matcher : UrlMatcher
  deriving DecidableEq

/-- A transition as the version's rows have it. -/
structure TransitionRow where
  id : Id
  crawlerVersionId : Id
  configuration : DiscoveryTransition
  deriving DecidableEq

/-- What an audit event is about. -/
inductive AuditEventType where
  | draftCreated
  | versionPublished
  | versionReactivated
  | semanticMutation (name : String)
  deriving DecidableEq

/-- The record of a change to a version. -/
structure AuditEvent where
  id : String
  eventType : AuditEventType
  actor : String
  occurredAt : String
  versionId : Id
  entityId : Option String
  baseVersionId : Option Id
  configHash : Option String
  warningSummary : List String
  deriving DecidableEq

/-- The tables that the crawler repository writes. -/
structure VersionStore where
  crawlers : Table Crawler Id Crawler.id
  versions : Table VersionRow Id VersionRow.id
  seeds : Table SeedRow Id fun row => row.seed.id
  pageTypes : Table PageTypeRow Id PageTypeRow.id
  urlMatchers : Table UrlMatcherRow Id UrlMatcherRow.id
  transitions : Table TransitionRow Id TransitionRow.id
  auditEvents : Table AuditEvent String AuditEvent.id

namespace VersionStore

/-- The store after the migrations. -/
def empty : VersionStore := ⟨.empty, .empty, .empty, .empty, .empty, .empty, .empty⟩

variable (store : VersionStore)

/-- The state of the version, as the triggers read it, is `PUBLISHED`. -/
def published (versionId : Id) : Bool :=
  (store.versions.find? versionId).any fun row => row.state = .published

/-- The seeds of a version. -/
def seedsOf (versionId : Id) : List Seed :=
  (store.seeds.select fun row => row.crawlerVersionId = versionId).map SeedRow.seed

/-- The page types of a version. -/
def pageTypesOf (versionId : Id) : List PageTypeRow :=
  store.pageTypes.select fun row => row.crawlerVersionId = versionId

/-- The transitions of a version. -/
def transitionsOf (versionId : Id) : List TransitionRow :=
  store.transitions.select fun row => row.crawlerVersionId = versionId

/-- The matchers of a page type. -/
def matchersFor (pageTypeId : Id) : List UrlMatcherRow :=
  store.urlMatchers.select fun row => row.pageTypeId = pageTypeId

/-- The matchers of the page types of a version. -/
def matchersOf (versionId : Id) : List UrlMatcherRow :=
  store.urlMatchers.select fun row =>
    (store.pageTypes.find? row.pageTypeId).any fun pageType => pageType.crawlerVersionId = versionId

end VersionStore

/-! ## Failures -/

/-- The errors of the repository. -/
inductive CrawlerRepositoryError where
  | crawlerNotFound
  | crawlerVersionNotFound
  | versionNotOwnedByCrawler
  | versionNotPublished
  | versionNotDraft
  | versionNotActiveDraft
  | activeDraftExists
  | publishedVersionImmutable
  | pageTypeNotFound
  | pageTypeNotOwnedByVersion
  | pageTypeInUse
  | urlMatcherNotFound
  | urlMatcherNotOwnedByPageType
  | invalidUrlMatcherDefinition
  | discoveryTransitionNotFound
  | transitionNotOwnedByVersion
  | transitionSourcePageTypeNotFound
  | transitionTargetPageTypeNotFound
  | invalidDiscoveryTransition
  | invalidCanonicalizationPolicy
  | invalidDomainScope
  | invalidCrawlGuardrails
  | invalidPageTypeBudget
  | invalidTransitionBudget
  | invalidLifecycleTransition
  | concurrentVersionTransition
  | corruptState
  | publicationValidationFailed (report : VersionValidationReport)
  | publicationValidationInfrastructure
  | database

open CrawlerRepositoryError in
/-- The repository's error for an error of the domain. -/
def mapSemanticError : ErrorCode → CrawlerRepositoryError
  | .invalidCanonicalizationPolicy => invalidCanonicalizationPolicy
  | .invalidDomainScope | .invalidDomainScopeRule | .registrableDomainUnavailable =>
      invalidDomainScope
  | .invalidCrawlGuardrails => invalidCrawlGuardrails
  | .invalidPageTypeBudget => invalidPageTypeBudget
  | .invalidTransitionBudget => invalidTransitionBudget
  | .invalidDiscoveryTransition => invalidDiscoveryTransition
  | .conflict => publishedVersionImmutable
  | .invalidUrl | .unsupportedUrlScheme => corruptState

/-- A result of the domain with its failure translated. -/
def orElse {α : Type} (translate : ProductError → CrawlerRepositoryError) :
    Except ProductError α → Except CrawlerRepositoryError α
  | .ok a => .ok a
  | .error error => .error (translate error)

/-- An error of the domain becomes the repository's own. -/
def orSemanticError {α : Type} : Except ProductError α → Except CrawlerRepositoryError α :=
  orElse fun error => mapSemanticError error.code

/-- An error of the domain in stored rows means that they are corrupt. -/
def orCorrupt {α : Type} : Except ProductError α → Except CrawlerRepositoryError α :=
  orElse fun _ => .corruptState

/-- Stops with the error unless the condition holds. -/
def check (p : Prop) [Decidable p] (e : CrawlerRepositoryError) :
    Except CrawlerRepositoryError Unit :=
  if p then .ok () else .error e

/-- A transaction of the crawler repository. -/
abbrev VersionTx := Transaction VersionStore CrawlerRepositoryError

/-! ## Statements -/

/-- Inserts a crawler, which has no version yet. -/
def insertCrawler (crawler : Crawler) : VersionTx Unit := do
  let store ← read
  let crawlers ← orFail (store.crawlers.insert? crawler) .database
  write fun s => { s with crawlers }

/-- `UPDATE crawlers`, with the number of rows it changes. -/
def updateCrawlers (p : Crawler → Bool) (published draft : Crawler → Option Id) :
    VersionTx ℕ := do
  let store ← read
  write fun s => { s with crawlers := s.crawlers.update p fun crawler =>
    ⟨crawler.id, published crawler, draft crawler⟩ }
  return store.crawlers.changed p

/-- Inserts a version, for a stored crawler. -/
def insertVersion (row : VersionRow) : VersionTx Unit := do
  let store ← read
  require (store.crawlers.find? row.crawlerId).isSome .database
  let versions ← orFail (store.versions.insert? row) .database
  write fun s => { s with versions }

/-- `UPDATE crawler_versions` of a draft, which no trigger refuses. -/
def updateDraftVersion (versionId : Id) (p : VersionRow → Bool) (state : CrawlerVersionState)
    (configuration : CrawlerVersion) : VersionTx ℕ := do
  let store ← read
  let where' := fun row : VersionRow => row.id = versionId && row.state = .draft && p row
  write fun s => { s with versions := s.versions.update where' fun row =>
    ⟨row.id, row.crawlerId, state, configuration⟩ }
  return store.versions.changed where'

/-- Inserts a seed, unless the version is published. -/
def insertSeed (versionId : Id) (seed : Seed) : VersionTx Unit := do
  let store ← read
  require ((store.versions.find? versionId).isSome ∧ store.published versionId = false) .database
  let seeds ← orFail (store.seeds.insert? ⟨versionId, seed⟩) .database
  write fun s => { s with seeds }

/-- Deletes the seeds of a version, unless it is published. -/
def deleteSeeds (versionId : Id) : VersionTx Unit := do
  let store ← read
  require (store.seedsOf versionId = [] ∨ store.published versionId = false) .database
  write fun s => { s with seeds := s.seeds.delete fun row => row.crawlerVersionId = versionId }

/-- Inserts a page type, unless the version is published. -/
def insertPageType (row : PageTypeRow) : VersionTx Unit := do
  let store ← read
  require ((store.versions.find? row.crawlerVersionId).isSome ∧
    store.published row.crawlerVersionId = false) .database
  let pageTypes ← orFail (store.pageTypes.insert? row) .database
  write fun s => { s with pageTypes }

/-- The rows of a version with an identifier. -/
def PageTypeRow.is (pageTypeId versionId : Id) (row : PageTypeRow) : Bool :=
  row.id = pageTypeId && row.crawlerVersionId = versionId

/-- Renames a page type of a version and counts the rows, unless the version is published. -/
def updatePageTypeRow (pageTypeId versionId : Id) (name : String) (priority : Int32) :
    VersionTx ℕ := do
  let store ← read
  let where' := PageTypeRow.is pageTypeId versionId
  require (store.pageTypes.changed where' = 0 ∨ store.published versionId = false) .database
  write fun s => { s with pageTypes := s.pageTypes.update where' fun row =>
    ⟨row.id, row.crawlerVersionId, name, priority, row.configuration⟩ }
  return store.pageTypes.changed where'

/-- A page type with matchers is referenced by them. -/
def deletePageTypeRow (pageTypeId versionId : Id) : VersionTx ℕ := do
  let store ← read
  let where' := PageTypeRow.is pageTypeId versionId
  require (store.pageTypes.changed where' = 0 ∨
    store.published versionId = false ∧ store.matchersFor pageTypeId = []) .database
  write fun s => { s with pageTypes := s.pageTypes.delete where' }
  return store.pageTypes.changed where'

/-- The version of the page type is published. -/
def VersionStore.publishedPageType (store : VersionStore) (pageTypeId : Id) : Bool :=
  (store.pageTypes.find? pageTypeId).any fun row => store.published row.crawlerVersionId

/-- Inserts a matcher at a free place of a page type, unless that is published. -/
def insertUrlMatcher (row : UrlMatcherRow) : VersionTx Unit := do
  let store ← read
  require ((store.pageTypes.find? row.pageTypeId).isSome ∧
    store.publishedPageType row.pageTypeId = false) .database
  require (∀ other ∈ store.matchersFor row.pageTypeId, other.ordinal ≠ row.ordinal) .database
  let urlMatchers ← orFail (store.urlMatchers.insert? row) .database
  write fun s => { s with urlMatchers }

/-- The matcher has the identifier and belongs to the page type. -/
def UrlMatcherRow.is (matcherId pageTypeId : Id) (row : UrlMatcherRow) : Bool :=
  row.id = matcherId && row.pageTypeId = pageTypeId

/-- Replaces a matcher and counts the rows, unless its page type is published. -/
def updateUrlMatcherRow (matcherId pageTypeId : Id) (matcher : UrlMatcher) : VersionTx ℕ := do
  let store ← read
  let where' := UrlMatcherRow.is matcherId pageTypeId
  require (store.urlMatchers.changed where' = 0 ∨ store.publishedPageType pageTypeId = false)
    .database
  write fun s => { s with urlMatchers := s.urlMatchers.update where' fun row =>
    ⟨row.id, row.pageTypeId, row.ordinal, matcher⟩ }
  return store.urlMatchers.changed where'

/-- `DELETE FROM url_matchers` of one page type, with the number of rows. -/
def deleteUrlMatcherRows (pageTypeId : Id) (p : UrlMatcherRow → Bool) : VersionTx ℕ := do
  let store ← read
  let where' := fun row : UrlMatcherRow => row.pageTypeId = pageTypeId && p row
  require (store.urlMatchers.changed where' = 0 ∨ store.publishedPageType pageTypeId = false)
    .database
  write fun s => { s with urlMatchers := s.urlMatchers.delete where' }
  return store.urlMatchers.changed where'

/-- Inserts a transition, unless the version is published. -/
def insertTransition (row : TransitionRow) : VersionTx Unit := do
  let store ← read
  require ((store.versions.find? row.crawlerVersionId).isSome ∧
    store.published row.crawlerVersionId = false) .database
  let transitions ← orFail (store.transitions.insert? row) .database
  write fun s => { s with transitions }

/-- The transition has the identifier and belongs to the version. -/
def TransitionRow.is (transitionId versionId : Id) (row : TransitionRow) : Bool :=
  row.id = transitionId && row.crawlerVersionId = versionId

/-- Replaces a transition and counts the rows, unless the version is published. -/
def updateTransitionRow (transitionId versionId : Id) (configuration : DiscoveryTransition) :
    VersionTx ℕ := do
  let store ← read
  let where' := TransitionRow.is transitionId versionId
  require (store.transitions.changed where' = 0 ∨ store.published versionId = false) .database
  write fun s => { s with transitions := s.transitions.update where' fun row =>
    ⟨row.id, row.crawlerVersionId, configuration⟩ }
  return store.transitions.changed where'

/-- Deletes a transition and counts the rows, unless the version is published. -/
def deleteTransitionRow (transitionId versionId : Id) : VersionTx ℕ := do
  let store ← read
  let where' := TransitionRow.is transitionId versionId
  require (store.transitions.changed where' = 0 ∨ store.published versionId = false) .database
  write fun s => { s with transitions := s.transitions.delete where' }
  return store.transitions.changed where'

/-- Inserts an audit event under a new identifier. -/
def insertAuditEvent (event : AuditEvent) : VersionTx Unit := do
  let store ← read
  let auditEvents ← orFail (store.auditEvents.insert? event) .database
  write fun s => { s with auditEvents }

end Erabi.Versions

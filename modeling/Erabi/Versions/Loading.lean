/-
# Loading versions

What is read of a version is checked against its rows: the declared identifiers are those
of the rows, and what the rows refer to is of the version.  The hash of the configuration
is taken of what passes the checks.
-/
import Mathlib
import Erabi.Versions.Store

namespace Erabi.Versions

open Relational Transaction
open Authoring
open Erabi.Configuration (CrawlerVersionState)

variable (lib : Libraries)

/-! ## Records -/

/-- A matcher as it is loaded. -/
structure UrlMatcherRecord where
  id : Id
  pageTypeId : Id
  ordinal : ℕ
  matcher : UrlMatcher
  deriving DecidableEq

/-- A page type as it is loaded, with its matchers in order. -/
structure PageTypeRecord where
  id : Id
  crawlerVersionId : Id
  name : String
  priority : Int32
  matchers : List UrlMatcherRecord
  deriving DecidableEq

/-- The page type of the domain. -/
def PageTypeRecord.domainPageType (record : PageTypeRecord) : PageType where
  id := record.id
  name := record.name
  priority := record.priority.toInt
  matchers := record.matchers.map UrlMatcherRecord.matcher

/-- A version without its identity and its state. -/
structure SemanticVersion where
  seeds : List Seed
  pageTypeIds : List Id
  transitionIds : List Id
  canonicalizationPolicyId : Option Id
  domainScopeId : Option Id
  canonicalizationPolicy : CanonicalizationPolicy
  domainScope : DomainScopePolicy
  guardrails : CrawlerVersionGuardrails

/-- What the hash of a version reads of its configuration. -/
def semanticVersion (version : CrawlerVersion) : SemanticVersion :=
  ⟨version.seeds, version.pageTypeIds, version.transitionIds, version.canonicalizationPolicyId,
    version.domainScopeId, version.canonicalizationPolicy, version.domainScope,
    version.guardrails⟩

/-- What the hash is taken of.  A transition is without its latest test evidence. -/
structure SemanticHashTemplate where
  version : SemanticVersion
  seeds : List Seed
  pageTypes : List (Id × String × Int32 × Json)
  urlMatchers : List (Id × Id × UrlMatcher)
  transitions : List DiscoveryTransition

/-- The hash of a template, and the contributors to a validation. -/
structure Services where
  hash : SemanticHashTemplate → String
  registry : VersionValidationRegistry

/-! ## Versions -/

/-- The version of a row, which must agree with the row's columns. -/
def versionFromRow (validateSemantics : Bool) (row : VersionRow) :
    Except CrawlerRepositoryError CrawlerVersion := do
  let version := row.semanticConfiguration
  check (version.id = row.id ∧ version.crawlerId = row.crawlerId ∧ version.state = row.state)
    .corruptState
  if validateSemantics then orCorrupt (version.validateSemanticContract lib) else .ok ()
  return version

namespace VersionStore

variable (store : VersionStore)

/-- The crawler is stored. -/
def ensureCrawlerExists (crawlerId : Id) : Except CrawlerRepositoryError Unit :=
  check (store.crawlers.find? crawlerId).isSome .crawlerNotFound

/-- The version is one of the crawler, in the state. -/
def pointsTo (crawlerId versionId : Id) (state : CrawlerVersionState) : Bool :=
  (store.versions.find? versionId).any fun row => row.crawlerId = crawlerId && row.state = state

/-- The pointers of a crawler lead to a draft and to a published version of its own. -/
def ensurePointerConsistency (crawlerId : Id) : Except CrawlerRepositoryError Unit :=
  check (∀ crawler ∈ store.crawlers.find? crawlerId,
    (∀ draft ∈ crawler.activeDraftVersionId, store.pointsTo crawler.id draft .draft) ∧
      ∀ published ∈ crawler.activePublishedVersionId,
        store.pointsTo crawler.id published .published) .corruptState

/-- The draft that the crawler points to. -/
def activeDraftFor (crawlerId : Id) : Except CrawlerRepositoryError (Option Id) :=
  match store.crawlers.find? crawlerId with
  | none => .error .crawlerNotFound
  | some crawler => .ok crawler.activeDraftVersionId

/-- The seeds of the version, by their identifiers, are those of the rows. -/
def validateSeedProjection (version : CrawlerVersion) : Except CrawlerRepositoryError Unit := do
  check ((version.seeds.map Seed.id).Nodup ∧ ∀ seed ∈ version.seeds,
    ∀ hint ∈ seed.entryPageTypeHint, hint ∈ version.pageTypeIds) .corruptState
  check ((store.seedsOf version.id).Perm version.seeds) .corruptState

/-- The version with its seeds checked against their rows. -/
def loadVersionWith (validateSemantics : Bool) (versionId : Id) :
    Except CrawlerRepositoryError CrawlerVersion :=
  match store.versions.find? versionId with
  | none => .error .crawlerVersionNotFound
  | some row => do
      let version ← versionFromRow lib validateSemantics row
      store.validateSeedProjection version
      return version

/-- The version with its semantic contract checked. -/
def loadVersion : Id → Except CrawlerRepositoryError CrawlerVersion :=
  store.loadVersionWith lib true

/-- `load_publication_version`: an invalid policy is left to the validation. -/
def loadPublicationVersion : Id → Except CrawlerRepositoryError CrawlerVersion :=
  store.loadVersionWith lib false

/-! ## Rows of a version -/

/-- The page type is one of the version. -/
def ensurePageTypeBelongsToVersion (versionId pageTypeId : Id) :
    Except CrawlerRepositoryError Unit :=
  match store.pageTypes.find? pageTypeId with
  | none => .error .pageTypeNotFound
  | some row => check (row.crawlerVersionId = versionId) .pageTypeNotOwnedByVersion

/-- The transition is one of the version. -/
def ensureTransitionBelongsToVersion (versionId transitionId : Id) :
    Except CrawlerRepositoryError Unit :=
  match store.transitions.find? transitionId with
  | none => .error .discoveryTransitionNotFound
  | some row => check (row.crawlerVersionId = versionId) .transitionNotOwnedByVersion

/-- The matcher is one of the page type. -/
def ensureMatcherBelongsToPageType (matcherId pageTypeId : Id) :
    Except CrawlerRepositoryError Unit :=
  match store.urlMatchers.find? matcherId with
  | none => .error .urlMatcherNotFound
  | some row => check (row.pageTypeId = pageTypeId) .urlMatcherNotOwnedByPageType

open CrawlerRepositoryError in
/-- `ensure_transition_page_type`, at the source or at the target of a transition. -/
def ensureTransitionPageType (versionId pageTypeId : Id) (source : Bool) :
    Except CrawlerRepositoryError Unit :=
  match store.ensurePageTypeBelongsToVersion versionId pageTypeId with
  | .ok () => .ok ()
  | .error pageTypeNotFound =>
      .error (if source then transitionSourcePageTypeNotFound
        else transitionTargetPageTypeNotFound)
  | .error pageTypeNotOwnedByVersion => .error transitionNotOwnedByVersion
  | .error other => .error other

/-- A matcher is validated when its document is read. -/
def loadMatchersForPageType (pageTypeId : Id) :
    Except CrawlerRepositoryError (List UrlMatcherRecord) :=
  ((store.matchersFor pageTypeId).insertionSort fun a b =>
      a.ordinal < b.ordinal ∨ a.ordinal = b.ordinal ∧ a.id.text ≤ b.id.text).mapM fun row => do
    orCorrupt (row.matcher.validateDefinition lib)
    return ⟨row.id, row.pageTypeId, row.ordinal, row.matcher⟩

/-- A page type with its matchers, which the version must declare. -/
def loadPageTypeRecord (declared : List Id) (row : PageTypeRow) :
    Except CrawlerRepositoryError PageTypeRecord := do
  check (row.id ∈ declared) .corruptState
  let matchers ← store.loadMatchersForPageType lib row.id
  return ⟨row.id, row.crawlerVersionId, row.name, row.priority, matchers⟩

/-- The page types of a version by name: those that it declares, each once. -/
def loadPageTypeRecords (version : CrawlerVersion) :
    Except CrawlerRepositoryError (List PageTypeRecord) := do
  check version.pageTypeIds.Nodup .corruptState
  let records ← ((store.pageTypesOf version.id).insertionSort fun a b =>
    a.name < b.name ∨ a.name = b.name ∧ a.id.text ≤ b.id.text).mapM
      (store.loadPageTypeRecord lib version.pageTypeIds)
  check (∀ id ∈ version.pageTypeIds, id ∈ records.map PageTypeRecord.id) .corruptState
  return records

/-- A page type that the version does not declare may be missing, but not be of another
version. -/
def ensureMissingTransitionPageTypeIsAbsent (pageTypeId : Id) :
    Except CrawlerRepositoryError Unit :=
  check (store.pageTypes.find? pageTypeId = none) .corruptState

/-- A transition that the version declares, between page types of the version. -/
def loadTransitionRecord (version : CrawlerVersion) (validateSemantics : Bool)
    (row : TransitionRow) : Except CrawlerRepositoryError DiscoveryTransition := do
  let transition := row.configuration
  check (row.id ∈ version.transitionIds ∧ transition.id = row.id) .corruptState
  if validateSemantics then do
    check (transition.sourcePageTypeId ∈ version.pageTypeIds ∧
      transition.targetPageTypeId ∈ version.pageTypeIds) .corruptState
    check (store.ensurePageTypeBelongsToVersion version.id transition.sourcePageTypeId).isOk
      .corruptState
    check (store.ensurePageTypeBelongsToVersion version.id transition.targetPageTypeId).isOk
      .corruptState
    orCorrupt transition.validate
  else do
    check (transition.sourcePageTypeId ∈ version.pageTypeIds ∨
      (store.ensureMissingTransitionPageTypeIsAbsent transition.sourcePageTypeId).isOk)
      .corruptState
    check (transition.targetPageTypeId ∈ version.pageTypeIds ∨
      (store.ensureMissingTransitionPageTypeIsAbsent transition.targetPageTypeId).isOk)
      .corruptState
  return transition

/-- The transitions of a version: those that it declares, each once. -/
def loadTransitionRecords (version : CrawlerVersion) (validateSemantics : Bool) :
    Except CrawlerRepositoryError (List DiscoveryTransition) := do
  check version.transitionIds.Nodup .corruptState
  let records ← ((store.transitionsOf version.id).insertionSort fun a b =>
    a.id.text ≤ b.id.text).mapM (store.loadTransitionRecord version validateSemantics)
  check (∀ id ∈ version.transitionIds, id ∈ records.map DiscoveryTransition.id) .corruptState
  return records

/-! ## The hash -/

/-- What the semantic hash is taken of. -/
def template (version : CrawlerVersion) : SemanticHashTemplate where
  version := semanticVersion version
  seeds := store.seedsOf version.id
  pageTypes := (store.pageTypesOf version.id).map fun row =>
    (row.id, row.name, row.priority, row.configuration)
  urlMatchers := (store.matchersOf version.id).map fun row => (row.id, row.pageTypeId, row.matcher)
  transitions := (store.transitionsOf version.id).map fun row =>
    { row.configuration with latestTestEvidenceId := none }

/-- `semantic_hash_with_semantic_validation`. -/
def semanticHashWith (hash : SemanticHashTemplate → String) (version : CrawlerVersion)
    (validateSemantics : Bool) : Except CrawlerRepositoryError String := do
  if validateSemantics then orCorrupt (version.validateSemanticContract lib) else .ok ()
  let _ ← store.loadTransitionRecords version validateSemantics
  check (∀ row ∈ store.matchersOf version.id, (row.matcher.validateDefinition lib).isOk)
    .corruptState
  check (∀ row ∈ store.transitionsOf version.id, row.configuration.id = row.id) .corruptState
  return hash (store.template version)

/-- The hash of a version whose rows are valid. -/
def semanticHash (hash : SemanticHashTemplate → String) (version : CrawlerVersion) :
    Except CrawlerRepositoryError String :=
  store.semanticHashWith lib hash version true

/-! ## Whole versions -/

/-- A version with everything that belongs to it. -/
structure CrawlerSemanticSnapshot where
  version : CrawlerVersion
  pageTypes : List PageTypeRecord
  transitions : List DiscoveryTransition
  configHash : String

/-- Loads a version of a crawler with its children and its hash. -/
def loadSemanticSnapshot (hash : SemanticHashTemplate → String) (crawlerId versionId : Id) :
    Except CrawlerRepositoryError CrawlerSemanticSnapshot := do
  let version ← store.loadVersion lib versionId
  check (version.crawlerId = crawlerId) .versionNotOwnedByCrawler
  store.validateSeedProjection version
  let pageTypes ← store.loadPageTypeRecords lib version
  let transitions ← store.loadTransitionRecords version true
  let configHash ← store.semanticHashWith lib hash version true
  return ⟨version, pageTypes, transitions, configHash⟩

/-- The version that an edit starts from: the active draft, in order. -/
def loadMutationVersion (crawlerId versionId : Id) :
    Except CrawlerRepositoryError CrawlerVersion := do
  store.ensureCrawlerExists crawlerId
  let version ← store.loadVersion lib versionId
  check (version.crawlerId = crawlerId) .versionNotOwnedByCrawler
  check (version.state = .draft) .publishedVersionImmutable
  let active ← store.activeDraftFor crawlerId
  check (active = some versionId) .versionNotActiveDraft
  let _ ← store.loadPageTypeRecords lib version
  let _ ← store.loadTransitionRecords version true
  return version

/-- The context of a publication, with the evidence that is stored for the hash. -/
def publicationValidationContext (hash : SemanticHashTemplate → String) (crawlerId versionId : Id)
    (evidence : String → Except CrawlerRepositoryError (List TestEvidence)) :
    Except CrawlerRepositoryError VersionValidationContext := do
  store.ensureCrawlerExists crawlerId
  store.ensurePointerConsistency crawlerId
  let version ← store.loadPublicationVersion lib versionId
  check (version.crawlerId = crawlerId) .versionNotOwnedByCrawler
  check (version.state = .draft) .versionNotDraft
  let active ← store.activeDraftFor crawlerId
  check (active = some versionId)
    (if active.isSome then .invalidLifecycleTransition else .versionNotDraft)
  let pageTypes ← store.loadPageTypeRecords lib version
  let transitions ← store.loadTransitionRecords version false
  let configHash ← store.semanticHashWith lib hash version false
  let testEvidence ← evidence configHash
  return ⟨version, pageTypes.map PageTypeRecord.domainPageType, transitions, testEvidence,
    configHash⟩

/-- The hash that test evidence is checked against, of the active draft in order. -/
def currentDraftSemanticHash (hash : SemanticHashTemplate → String) (crawlerId versionId : Id) :
    Except CrawlerRepositoryError String := do
  store.ensureCrawlerExists crawlerId
  store.ensurePointerConsistency crawlerId
  let active ← store.activeDraftFor crawlerId
  check (active = some versionId) .versionNotActiveDraft
  let snapshot ← store.loadSemanticSnapshot lib hash crawlerId versionId
  check (snapshot.version.state = .draft) .versionNotDraft
  return snapshot.configHash

end VersionStore

end Erabi.Versions

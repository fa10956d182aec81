/-
# The crawler repository

The operations on crawlers and versions: drafts, clones of published versions, publication,
reactivation, and the edits of the active draft.  Each is one transaction; what is generated
for it is given to it.
-/
import Mathlib
import Erabi.Versions.Loading

namespace Erabi.Versions

open Relational Transaction
open Authoring
open Erabi.Configuration (CrawlerVersionState)

variable (lib : Libraries) (services : Services)

/-- Who acts, when, and the identifier generated for the event. -/
structure Author where
  actor : String
  occurredAt : String
  eventId : Id

/-! ## Audit -/

/-- The event of a lifecycle operation, whose identifier is made of what it is about. -/
def lifecycleEvent (name : String) (eventType : AuditEventType) (author : Author)
    (versionId : Id) (baseVersionId : Option Id) (configHash : Option String)
    (warningSummary : List String) : AuditEvent :=
  ⟨name ++ ":" ++ versionId.text ++ ":" ++ author.occurredAt, eventType, author.actor,
    author.occurredAt, versionId, none, baseVersionId, configHash, warningSummary⟩

/-- Records an edit, with the hash of the version after it. -/
def insertSemanticMutationAudit (name : String) (author : Author) (versionId : Id)
    (entityId : String) (configHash : String) : VersionTx Unit :=
  insertAuditEvent ⟨author.eventId.text, .semanticMutation name, author.actor, author.occurredAt,
    versionId, some entityId, none, some configHash, []⟩

/-- The base of the latest creation or publication of the version. -/
def VersionStore.baseVersionFromAudit (store : VersionStore) (versionId : Id) : Option Id :=
  (((store.auditEvents.select fun event => event.versionId = versionId &&
      (event.eventType = .draftCreated || event.eventType = .versionPublished)).insertionSort
        fun a b => a.occurredAt < b.occurredAt ∨ a.occurredAt = b.occurredAt ∧ a.id ≤ b.id).getLast?
          ).bind AuditEvent.baseVersionId

/-! ## Drafts -/

/-- Creates a crawler without a version. -/
def create (crawlerId : Id) : VersionTx Unit := insertCrawler ⟨crawlerId, none, none⟩

/-- Points a crawler without a draft to one. -/
def activateDraft (versionId crawlerId : Id) : VersionTx Unit := do
  let activated ← updateCrawlers
    (fun crawler => crawler.id = crawlerId && crawler.activeDraftVersionId = none)
    Crawler.activePublishedVersionId fun _ => some versionId
  require (activated = 1) .concurrentVersionTransition

/-- `sync_seed_rows`: the rows are replaced by the seeds of the version. -/
def syncSeedRows (version : CrawlerVersion) : VersionTx Unit := do
  deleteSeeds version.id
  foldEach (fun _ seed => insertSeed version.id seed) () version.seeds

/-- Inserts a draft of a crawler that has none, and records it. -/
def insertDraftInTransaction (version : CrawlerVersion) (baseVersionId : Option Id)
    (author : Author) : VersionTx Unit := do
  lift (orSemanticError (version.validateSemanticContract lib))
  let store ← read
  let activeDraft ← lift (store.activeDraftFor version.crawlerId)
  require (activeDraft = none) .activeDraftExists
  insertVersion ⟨version.id, version.crawlerId, .draft, version⟩
  syncSeedRows version
  activateDraft version.id version.crawlerId
  insertAuditEvent
    (lifecycleEvent "draft" .draftCreated author version.id baseVersionId none [])

/-- Creates an empty draft. -/
def createDraft (crawlerId versionId : Id) (author : Author) : VersionTx Unit :=
  insertDraftInTransaction lib (.draft versionId crawlerId) none author

/-- Saves a draft as a new one, or over the active draft with its identifier. -/
def saveDraftInTransaction (version : CrawlerVersion) (author : Author) : VersionTx Unit := do
  let store ← read
  match store.versions.find? version.id with
  | none => insertDraftInTransaction lib version none author
  | some row =>
      require (row.crawlerId = version.crawlerId) .versionNotOwnedByCrawler
      require (row.state = .draft) .publishedVersionImmutable
      let pointer ← lift (store.activeDraftFor version.crawlerId)
      require (pointer = some version.id) .invalidLifecycleTransition
      let _ ← updateDraftVersion version.id (fun _ => true) .draft version
      syncSeedRows version

/-- Saves a draft that keeps its semantic contract. -/
def saveDraft (version : CrawlerVersion) (author : Author) : VersionTx Unit := do
  require (version.state = .draft) .publishedVersionImmutable
  lift (orSemanticError (version.validateSemanticContract lib))
  saveDraftInTransaction lib version author

/-! ## Clones -/

/-- A map with the pairs inserted one after the other. -/
def collectMap (pairs : List (Id × Id)) : Id → Option Id :=
  pairs.foldl (fun map pair => Function.update map pair.1 (some pair.2)) fun _ => none

/-- What is generated for a clone: the version and its declared children, a row for each
matcher, and rows for children that are not declared. -/
structure CloneIds extends CrawlerVersion.Generated where
  matcher : Id → Id
  undeclared : Id → Id

/-- `remap_json_value` on one string: the first of the maps with an identifier of this text
replaces it. -/
def remapId (maps : List (Id → Option Id)) (id : Id) : Id := (maps.findSome? (· id)).getD id

/-- The identifier written so. -/
def idOfText (s : String) : Option Id :=
  (Uuid.parse s).bind fun uuid =>
    if h : uuid.digits[12]? = some 7 then
      if (Id.mk uuid h).text = s then some ⟨uuid, h⟩ else none
    else none

/-- A text that is an identifier of the source becomes the one of the clone. -/
def remapText (maps : List (Id → Option Id)) (s : String) : String :=
  (idOfText s).elim s fun id => (remapId maps id).text

/-- A document of a URL with another text is read again. -/
def remapUrl (maps : List (Id → Option Id)) (url : Url) :
    Except CrawlerRepositoryError Url :=
  if remapText maps url.text = url.text then .ok url
  else match lib.url.parse (remapText maps url.text) with
    | some url => .ok url
    | none => .error .corruptState

/-- The identifiers in a matcher become those of the clone. -/
def remapMatcher (maps : List (Id → Option Id)) :
    UrlMatcher → Except CrawlerRepositoryError UrlMatcher
  | .exactUrl url => do
      let url ← remapUrl lib maps url
      return .exactUrl url
  | .exactHostPathTemplate host pathTemplate query =>
      .ok (.exactHostPathTemplate (remapText maps host) (remapText maps pathTemplate)
        (query.map fun pair => (pair.1, remapText maps pair.2)))
  | .pathPrefix host path => .ok (.pathPrefix (host.map (remapText maps)) (remapText maps path))
  | .pathGlob host pattern =>
      .ok (.pathGlob (host.map (remapText maps)) (remapText maps pattern))
  | .regex pattern => .ok (.regex (remapText maps pattern))

/-- The transition with its references replaced, and without its test evidence. -/
def remapTransition (maps : List (Id → Option Id)) (transition : DiscoveryTransition) :
    DiscoveryTransition :=
  { transition with
    id := remapId maps transition.id
    sourcePageTypeId := remapId maps transition.sourcePageTypeId
    targetPageTypeId := remapId maps transition.targetPageTypeId
    name := remapText maps transition.name
    linkSelector := remapText maps transition.linkSelector
    urlConstraints := transition.urlConstraints.map (remapText maps)
    latestTestEvidenceId := none }

section Clone

/-- The maps of the seeds, the page types and the transitions of a clone. -/
structure CloneMaps where
  seeds : Id → Option Id
  pageTypes : Id → Option Id
  transitions : Id → Option Id

/-- The maps in the order in which they are tried. -/
def CloneMaps.all (maps : CloneMaps) : List (Id → Option Id) :=
  [maps.seeds, maps.pageTypes, maps.transitions]

/-- `augment_child_id_map`: a row that is not declared gets an identifier of its own. -/
def augmentChildIdMap (map undeclared : Id → Option Id) (id : Id) : Option Id :=
  (map id).or (undeclared id)

variable (store : VersionStore) (source clone : CrawlerVersion) (ids : CloneIds)

/-- From the children of the source to those of the clone, undeclared ones included. -/
def cloneMaps : CloneMaps where
  seeds := collectMap ((source.seeds.map Seed.id).zip (clone.seeds.map Seed.id))
  pageTypes := augmentChildIdMap (collectMap (source.pageTypeIds.zip clone.pageTypeIds)) fun id =>
    if id ∈ (store.pageTypesOf source.id).map PageTypeRow.id then some (ids.undeclared id) else none
  transitions := augmentChildIdMap (collectMap (source.transitionIds.zip clone.transitionIds))
    fun id => if id ∈ (store.transitionsOf source.id).map TransitionRow.id then
      some (ids.undeclared id) else none

variable (target : Id) (maps : CloneMaps)

/-- A hint is of a page type of the source. -/
def cloneHint : Option Id → Except CrawlerRepositoryError (Option Id)
  | none => .ok none
  | some hint => (maps.pageTypes hint).elim (.error .corruptState) fun id => .ok (some id)

/-- Inserts the clone of a seed. -/
def cloneSeed (seed : Seed) : VersionTx Unit := do
  let hint ← lift (cloneHint maps seed.entryPageTypeHint)
  insertSeed target { seed with
    id := (maps.seeds seed.id).getD (ids.undeclared seed.id)
    entryPageTypeHint := hint }

/-- Inserts the clone of a page type. -/
def clonePageType (row : PageTypeRow) : VersionTx Unit :=
  insertPageType ⟨(maps.pageTypes row.id).getD (ids.undeclared row.id), target, row.name,
    row.priority, row.configuration.mapStrings (remapText maps.all)⟩

/-- Inserts the clone of a matcher. -/
def cloneUrlMatcher (row : UrlMatcherRow) : VersionTx Unit := do
  let matcher ← lift (remapMatcher lib maps.all row.matcher)
  let pageTypeId ← orFail (maps.pageTypes row.pageTypeId) .corruptState
  insertUrlMatcher ⟨ids.matcher row.id, pageTypeId, row.ordinal, matcher⟩

/-- Inserts the clone of a transition. -/
def cloneTransition (row : TransitionRow) : VersionTx Unit :=
  insertTransition ⟨(maps.transitions row.id).getD (ids.undeclared row.id), target,
    remapTransition maps.all row.configuration⟩

/-- The rows of the source, in the order of their identifiers. -/
def cloneChildRows : VersionTx Unit := do
  let store ← read
  foldEach (fun _ => cloneSeed ids target maps) ()
    ((store.seedsOf source.id).insertionSort fun a b => a.id.text ≤ b.id.text)
  let store ← read
  foldEach (fun _ => clonePageType ids target maps) ()
    ((store.pageTypesOf source.id).insertionSort fun a b => a.id.text ≤ b.id.text)
  let store ← read
  foldEach (fun _ => cloneUrlMatcher lib ids maps) ()
    ((store.matchersOf source.id).insertionSort fun a b => a.pageTypeId.text < b.pageTypeId.text ∨
      a.pageTypeId = b.pageTypeId ∧ (a.ordinal < b.ordinal ∨
        a.ordinal = b.ordinal ∧ a.id.text ≤ b.id.text))
  let store ← read
  foldEach (fun _ => cloneTransition ids target maps) ()
    ((store.transitionsOf source.id).insertionSort fun a b => a.id.text ≤ b.id.text)

end Clone

/-- Clones a published version to a new draft, with all its rows. -/
def createDraftFromPublished (crawlerId sourceVersionId : Id) (ids : CloneIds) (author : Author) :
    VersionTx Unit := do
  let store ← read
  let activeDraft ← lift (store.activeDraftFor crawlerId)
  require (activeDraft = none) .activeDraftExists
  let source ← lift (store.loadVersion lib sourceVersionId)
  require (source.crawlerId = crawlerId) .versionNotOwnedByCrawler
  require (source.state = .published) .versionNotPublished
  let clone ← lift (orElse (fun _ => .invalidLifecycleTransition)
    (source.draftFromPublished lib ids.toGenerated))
  let maps := cloneMaps store source clone ids
  insertVersion ⟨clone.id, crawlerId, .draft, clone⟩
  cloneChildRows lib source ids clone.id maps
  activateDraft clone.id crawlerId
  let store ← read
  let hash ← lift (store.semanticHash lib services.hash clone)
  insertAuditEvent (lifecycleEvent "draft" .draftCreated author clone.id (some sourceVersionId)
    (some hash) [])

/-! ## Publication -/

/-- A warning as the audit event of a publication names it. -/
def auditSummary (issue : VersionValidationIssue) : String :=
  let subject := issue.subject.elim "" fun subject =>
    subject.id.elim subject.kind fun id => subject.kind ++ ":" ++ id
  if subject = "" then issue.code else issue.code ++ ":" ++ subject

/-- The summaries of the warnings, in order and once. -/
def warningSummary (report : VersionValidationReport) : List String :=
  dedup ((report.warnings.map auditSummary).mergeSort fun a b => a ≤ b)

/-- Publishes the active draft that validation finds no blocker in, and makes it active. -/
def publish (crawlerId versionId : Id)
    (evidence : String → Except CrawlerRepositoryError (List TestEvidence)) (author : Author) :
    VersionTx Unit := do
  let store ← read
  let context ← lift
    (store.publicationValidationContext lib services.hash crawlerId versionId evidence)
  let report ← lift (match services.registry.validate context with
    | .ok report => .ok report
    | .error _ => .error .publicationValidationInfrastructure)
  require (report.publishable = true) (.publicationValidationFailed report)
  let published ← lift (orElse (fun _ => .publishedVersionImmutable) context.version.publish)
  let updated ← updateDraftVersion versionId (fun row => row.crawlerId = crawlerId) .published
    published
  require (updated = 1) .concurrentVersionTransition
  let pointers ← updateCrawlers
    (fun crawler => crawler.id = crawlerId && crawler.activeDraftVersionId = some versionId)
    (fun _ => some versionId) fun _ => none
  require (pointers = 1) .concurrentVersionTransition
  insertAuditEvent (lifecycleEvent "publish" .versionPublished author versionId
    (store.baseVersionFromAudit versionId) (some report.configHash) (warningSummary report))

/-- Makes a published version the active one again. -/
def reactivatePublished (crawlerId versionId : Id) (author : Author) : VersionTx Unit := do
  let store ← read
  let version ← lift (store.loadVersion lib versionId)
  require (version.crawlerId = crawlerId) .versionNotOwnedByCrawler
  require (version.state = .published) .versionNotPublished
  let changed ← updateCrawlers
    (fun crawler => crawler.id = crawlerId && store.pointsTo crawlerId versionId .published)
    (fun _ => some versionId) Crawler.activeDraftVersionId
  require (changed = 1) .concurrentVersionTransition
  insertAuditEvent (lifecycleEvent "reactivate" .versionReactivated author versionId none none [])

/-! ## Edits of the active draft -/

/-- Replaces the configuration of a draft. -/
def updateVersionConfiguration (version : CrawlerVersion) : VersionTx Unit := do
  let updated ← updateDraftVersion version.id (fun _ => true) .draft version
  require (updated = 1) .concurrentVersionTransition

section Edits

variable (crawlerId versionId : Id) (author : Author)

/-- The end of an edit: the hash of what is stored now, and its event. -/
def auditEdit (version : CrawlerVersion) (name entityId : String) : VersionTx Unit := do
  let store ← read
  let hash ← lift (store.semanticHash lib services.hash version)
  insertSemanticMutationAudit name author version.id entityId hash

/-- `update_semantic_version`. -/
def updateSemanticVersion (name entityId : String)
    (update : CrawlerVersion → Except ProductError CrawlerVersion) : VersionTx Unit := do
  let store ← read
  let version ← lift (store.loadMutationVersion lib crawlerId versionId)
  let version ← lift (orSemanticError (update version))
  lift (orSemanticError (version.validateSemanticContract lib))
  updateVersionConfiguration version
  auditEdit lib services author version name entityId

/-- Sets the canonicalization policy of the active draft. -/
def updateCanonicalizationPolicy (policy : CanonicalizationPolicy) : VersionTx Unit := do
  lift (orElse (fun _ => .invalidCanonicalizationPolicy) policy.validate)
  updateSemanticVersion lib services crawlerId versionId author "CANONICALIZATION_POLICY_UPDATED"
    "canonicalization" fun version => version.setCanonicalizationPolicy policy

/-- Sets the domain scope of the active draft. -/
def updateDomainScopePolicy (policy : DomainScopePolicy) : VersionTx Unit := do
  lift (orElse (fun _ => .invalidDomainScope) (policy.validate lib))
  updateSemanticVersion lib services crawlerId versionId author "DOMAIN_SCOPE_UPDATED"
    "domain_scope" fun version => version.setDomainScope lib policy

/-- Sets the guardrails of the active draft. -/
def updateCrawlerVersionGuardrails (guardrails : CrawlerVersionGuardrails) : VersionTx Unit := do
  lift (orSemanticError guardrails.validate)
  updateSemanticVersion lib services crawlerId versionId author "CRAWLER_GUARDRAILS_UPDATED"
    "guardrails" fun version => version.setGuardrails guardrails

/-- Adds a transition between page types of the active draft. -/
def createDiscoveryTransition (transition : DiscoveryTransition) : VersionTx Unit := do
  lift (orElse (fun _ => .invalidDiscoveryTransition) transition.validate)
  let store ← read
  let version ← lift (store.loadMutationVersion lib crawlerId versionId)
  lift (store.ensureTransitionPageType versionId transition.sourcePageTypeId true)
  lift (store.ensureTransitionPageType versionId transition.targetPageTypeId false)
  require (store.transitions.find? transition.id = none) .corruptState
  require (transition.id ∉ version.transitionIds) .corruptState
  let updated ← lift (orSemanticError
    (version.setTransitionIds (version.transitionIds ++ [transition.id])))
  insertTransition ⟨transition.id, versionId, transition⟩
  updateVersionConfiguration updated
  auditEdit lib services author updated "DISCOVERY_TRANSITION_CREATED" transition.id.text

/-- Replaces a transition of the active draft. -/
def updateDiscoveryTransition (transitionId : Id) (transition : DiscoveryTransition) :
    VersionTx Unit := do
  require (transition.id = transitionId) .invalidDiscoveryTransition
  lift (orElse (fun _ => .invalidDiscoveryTransition) transition.validate)
  let store ← read
  let version ← lift (store.loadMutationVersion lib crawlerId versionId)
  lift (store.ensureTransitionBelongsToVersion versionId transitionId)
  lift (store.ensureTransitionPageType versionId transition.sourcePageTypeId true)
  lift (store.ensureTransitionPageType versionId transition.targetPageTypeId false)
  let updated ← updateTransitionRow transitionId versionId transition
  require (updated = 1) .corruptState
  auditEdit lib services author version "DISCOVERY_TRANSITION_UPDATED" transitionId.text

/-- Deletes a transition of the active draft. -/
def deleteDiscoveryTransition (transitionId : Id) : VersionTx Unit := do
  let store ← read
  let version ← lift (store.loadMutationVersion lib crawlerId versionId)
  lift (store.ensureTransitionBelongsToVersion versionId transitionId)
  let updated ← lift (orSemanticError
    (version.setTransitionIds (version.transitionIds.filter (· ≠ transitionId))))
  let deleted ← deleteTransitionRow transitionId versionId
  require (deleted = 1) .corruptState
  updateVersionConfiguration updated
  auditEdit lib services author updated "DISCOVERY_TRANSITION_DELETED" transitionId.text

/-- Adds a page type without matchers to the active draft. -/
def createPageType (pageTypeId : Id) (name : String) (priority : Int32) : VersionTx Unit := do
  let store ← read
  let version ← lift (store.loadMutationVersion lib crawlerId versionId)
  let updated ← lift (orSemanticError (version.setPageTypeIds (version.pageTypeIds ++ [pageTypeId])))
  insertPageType ⟨pageTypeId, versionId, name, priority, .object []⟩
  updateVersionConfiguration updated
  auditEdit lib services author updated "PAGE_TYPE_CREATED" pageTypeId.text

/-- Renames a page type of the active draft. -/
def updatePageType (pageTypeId : Id) (name : String) (priority : Int32) : VersionTx Unit := do
  let store ← read
  let version ← lift (store.loadMutationVersion lib crawlerId versionId)
  lift (store.ensurePageTypeBelongsToVersion versionId pageTypeId)
  let updated ← updatePageTypeRow pageTypeId versionId name priority
  require (updated = 1) .corruptState
  auditEdit lib services author version "PAGE_TYPE_UPDATED" pageTypeId.text

/-- The strings of the document of a transition. -/
def transitionStrings (transition : DiscoveryTransition) : List String :=
  [transition.id.text, transition.sourcePageTypeId.text, transition.targetPageTypeId.text,
    transition.name, transition.linkSelector] ++ transition.urlConstraints.toList ++
      (transition.latestTestEvidenceId.map Id.text).toList

/-- `page_type_is_in_use`: a budget, a hint or a document of the version names it. -/
def pageTypeIsInUse (store : VersionStore) (version : CrawlerVersion) (pageTypeId : Id) : Bool :=
  (version.guardrails.pageTypes.any fun budget => budget.pageTypeId = pageTypeId) ||
    ((store.seedsOf version.id).any fun seed => seed.entryPageTypeHint = some pageTypeId) ||
    ((store.transitionsOf version.id).any fun row =>
      (transitionStrings row.configuration).contains pageTypeId.text) ||
    ((store.pageTypesOf version.id).any fun row =>
      row.id ≠ pageTypeId && row.configuration.strings.contains pageTypeId.text)

/-- A budget of the page type is a use of it. -/
def orInUse (error : ProductError) : CrawlerRepositoryError :=
  if error.code = .invalidPageTypeBudget then .pageTypeInUse else mapSemanticError error.code

/-- Deletes a page type of the active draft that nothing there refers to. -/
def deletePageType (pageTypeId : Id) : VersionTx Unit := do
  let store ← read
  let version ← lift (store.loadMutationVersion lib crawlerId versionId)
  lift (store.ensurePageTypeBelongsToVersion versionId pageTypeId)
  require (pageTypeIsInUse store version pageTypeId = false) .pageTypeInUse
  let updated ← lift
    (orElse orInUse (version.setPageTypeIds (version.pageTypeIds.filter (· ≠ pageTypeId))))
  let _ ← deleteUrlMatcherRows pageTypeId fun _ => true
  let deleted ← deletePageTypeRow pageTypeId versionId
  require (deleted = 1) .corruptState
  updateVersionConfiguration updated
  auditEdit lib services author updated "PAGE_TYPE_DELETED" pageTypeId.text

/-- Adds a matcher behind the others of a page type of the active draft. -/
def createUrlMatcher (pageTypeId matcherId : Id) (matcher : UrlMatcher) : VersionTx Unit := do
  lift (orElse (fun _ => .invalidUrlMatcherDefinition) (matcher.validateDefinition lib))
  let store ← read
  let version ← lift (store.loadMutationVersion lib crawlerId versionId)
  lift (store.ensurePageTypeBelongsToVersion versionId pageTypeId)
  let ordinal := (((store.matchersFor pageTypeId).map UrlMatcherRow.ordinal).max?.map (· + 1)).getD 0
  insertUrlMatcher ⟨matcherId, pageTypeId, ordinal, matcher⟩
  auditEdit lib services author version "URL_MATCHER_CREATED" matcherId.text

/-- Replaces a matcher of a page type of the active draft. -/
def updateUrlMatcher (pageTypeId matcherId : Id) (matcher : UrlMatcher) : VersionTx Unit := do
  lift (orElse (fun _ => .invalidUrlMatcherDefinition) (matcher.validateDefinition lib))
  let store ← read
  let version ← lift (store.loadMutationVersion lib crawlerId versionId)
  lift (store.ensurePageTypeBelongsToVersion versionId pageTypeId)
  let existing ← updateUrlMatcherRow matcherId pageTypeId matcher
  if existing = 1 then
    auditEdit lib services author version "URL_MATCHER_UPDATED" matcherId.text
  else do
    lift (store.ensureMatcherBelongsToPageType matcherId pageTypeId)
    fail .corruptState

/-- Deletes a matcher of a page type of the active draft. -/
def deleteUrlMatcher (pageTypeId matcherId : Id) : VersionTx Unit := do
  let store ← read
  let version ← lift (store.loadMutationVersion lib crawlerId versionId)
  lift (store.ensurePageTypeBelongsToVersion versionId pageTypeId)
  let deleted ← deleteUrlMatcherRows pageTypeId fun row => row.id = matcherId
  if deleted = 1 then
    auditEdit lib services author version "URL_MATCHER_DELETED" matcherId.text
  else do
    lift (store.ensureMatcherBelongsToPageType matcherId pageTypeId)
    fail .urlMatcherNotFound

/-- `attach_transition_evidence`, behind the check of the hash that the evidence names. -/
def attachTransitionEvidence (configHash : String) (transitionId evidenceId : Id) :
    VersionTx Unit := do
  let store ← read
  let currentHash ← lift (store.currentDraftSemanticHash lib services.hash crawlerId versionId)
  require (currentHash = configHash) .concurrentVersionTransition
  match (store.transitionsOf versionId).find? fun row => row.id = transitionId with
  | none => fail .transitionNotOwnedByVersion
  | some row =>
      require (row.configuration.id = transitionId) .corruptState
      let updated ← updateTransitionRow transitionId versionId
        { row.configuration with latestTestEvidenceId := some evidenceId }
      require (updated = 1) .concurrentVersionTransition

end Edits

end Erabi.Versions

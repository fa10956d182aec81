/-
# Operations and published versions

One step of the repository is one operation, committed or rolled back.  The triggers of the
schema let no statement change what is stored of a published version, and so no operation
changes it, whatever it is given and in whatever order they come.
-/
import Mathlib
import Erabi.Versions.Changes

namespace Erabi.Versions

open Relational Transaction
open Authoring
open Erabi.Configuration (CrawlerVersionState)

/-! ## Operations -/

/-- The operations of the crawler repository, with their arguments. -/
inductive Operation where
  | create (crawlerId : Id)
  | createDraft (crawlerId versionId : Id) (author : Author)
  | saveDraft (version : CrawlerVersion) (author : Author)
  | createDraftFromPublished (crawlerId sourceVersionId : Id) (ids : CloneIds) (author : Author)
  | publish (crawlerId versionId : Id)
      (evidence : String → Except CrawlerRepositoryError (List TestEvidence)) (author : Author)
  | reactivatePublished (crawlerId versionId : Id) (author : Author)
  | updateCanonicalizationPolicy (crawlerId versionId : Id) (author : Author)
      (policy : CanonicalizationPolicy)
  | updateDomainScopePolicy (crawlerId versionId : Id) (author : Author)
      (policy : DomainScopePolicy)
  | updateCrawlerVersionGuardrails (crawlerId versionId : Id) (author : Author)
      (guardrails : CrawlerVersionGuardrails)
  | createDiscoveryTransition (crawlerId versionId : Id) (author : Author)
      (transition : DiscoveryTransition)
  | updateDiscoveryTransition (crawlerId versionId : Id) (author : Author) (transitionId : Id)
      (transition : DiscoveryTransition)
  | deleteDiscoveryTransition (crawlerId versionId : Id) (author : Author) (transitionId : Id)
  | createPageType (crawlerId versionId : Id) (author : Author) (pageTypeId : Id) (name : String)
      (priority : Int32)
  | updatePageType (crawlerId versionId : Id) (author : Author) (pageTypeId : Id) (name : String)
      (priority : Int32)
  | deletePageType (crawlerId versionId : Id) (author : Author) (pageTypeId : Id)
  | createUrlMatcher (crawlerId versionId : Id) (author : Author) (pageTypeId matcherId : Id)
      (matcher : UrlMatcher)
  | updateUrlMatcher (crawlerId versionId : Id) (author : Author) (pageTypeId matcherId : Id)
      (matcher : UrlMatcher)
  | deleteUrlMatcher (crawlerId versionId : Id) (author : Author) (pageTypeId matcherId : Id)
  | attachTransitionEvidence (crawlerId versionId : Id) (configHash : String)
      (transitionId evidenceId : Id)

variable (lib : Libraries) (services : Services)

/-- The transaction of an operation. -/
def Operation.perform : Operation → VersionTx Unit
  | create crawlerId => Versions.create crawlerId
  | createDraft crawlerId versionId author => Versions.createDraft lib crawlerId versionId author
  | saveDraft version author => Versions.saveDraft lib version author
  | createDraftFromPublished crawlerId sourceVersionId ids author =>
      Versions.createDraftFromPublished lib services crawlerId sourceVersionId ids author
  | publish crawlerId versionId evidence author =>
      Versions.publish lib services crawlerId versionId evidence author
  | reactivatePublished crawlerId versionId author =>
      Versions.reactivatePublished lib crawlerId versionId author
  | updateCanonicalizationPolicy crawlerId versionId author policy =>
      Versions.updateCanonicalizationPolicy lib services crawlerId versionId author policy
  | updateDomainScopePolicy crawlerId versionId author policy =>
      Versions.updateDomainScopePolicy lib services crawlerId versionId author policy
  | updateCrawlerVersionGuardrails crawlerId versionId author guardrails =>
      Versions.updateCrawlerVersionGuardrails lib services crawlerId versionId author guardrails
  | createDiscoveryTransition crawlerId versionId author transition =>
      Versions.createDiscoveryTransition lib services crawlerId versionId author transition
  | updateDiscoveryTransition crawlerId versionId author transitionId transition =>
      Versions.updateDiscoveryTransition lib services crawlerId versionId author transitionId
        transition
  | deleteDiscoveryTransition crawlerId versionId author transitionId =>
      Versions.deleteDiscoveryTransition lib services crawlerId versionId author transitionId
  | createPageType crawlerId versionId author pageTypeId name priority =>
      Versions.createPageType lib services crawlerId versionId author pageTypeId name priority
  | updatePageType crawlerId versionId author pageTypeId name priority =>
      Versions.updatePageType lib services crawlerId versionId author pageTypeId name priority
  | deletePageType crawlerId versionId author pageTypeId =>
      Versions.deletePageType lib services crawlerId versionId author pageTypeId
  | createUrlMatcher crawlerId versionId author pageTypeId matcherId matcher =>
      Versions.createUrlMatcher lib services crawlerId versionId author pageTypeId matcherId matcher
  | updateUrlMatcher crawlerId versionId author pageTypeId matcherId matcher =>
      Versions.updateUrlMatcher lib services crawlerId versionId author pageTypeId matcherId matcher
  | deleteUrlMatcher crawlerId versionId author pageTypeId matcherId =>
      Versions.deleteUrlMatcher lib services crawlerId versionId author pageTypeId matcherId
  | attachTransitionEvidence crawlerId versionId configHash transitionId evidenceId =>
      Versions.attachTransitionEvidence lib services crawlerId versionId configHash transitionId
        evidenceId

/-- One operation, committed or rolled back. -/
def VersionStore.step (store : VersionStore) (operation : Operation) : VersionStore :=
  ((operation.perform lib services).commit store).2

/-! ## Published versions -/

variable {lib services} {s s' s'' : VersionStore} {v w crawlerId : Id} {author : Author}

/-- What is stored of the published versions is kept. -/
def KeepsPublished (s s' : VersionStore) : Prop :=
  ∀ w, s.published w = true → s'.content? w = s.content? w

/-- Equal content has equal state. -/
theorem published_of_content? (h : s'.content? w = s.content? w) :
    s'.published w = s.published w := by
  have hrow : ∀ s : VersionStore, s.published w =
      ((s.content? w).map Content.row).any fun row => row.state = .published := by
    intro s
    unfold VersionStore.published VersionStore.content?
    cases s.versions.find? w <;> rfl
  rw [hrow, hrow, h]

theorem KeepsPublished.trans (h : KeepsPublished s s') (h' : KeepsPublished s' s'') :
    KeepsPublished s s'' := by
  intro w hw
  have hsame := h w hw
  exact (h' w ((published_of_content? hsame).trans hw)).trans hsame

/-- Statements that edit one unpublished version leave the published ones alone. -/
theorem Edits.keepsPublished (h : Edits v s s') : KeepsPublished s s' :=
  fun w hw => h.others w (Or.inr hw)

/-- A version is inserted for a stored crawler, under a new identifier. -/
theorem insertVersion_eq_ok {row : VersionRow} {u : Unit}
    (h : insertVersion row s = .ok (u, s')) : (s.crawlers.find? row.crawlerId).isSome = true ∧
      ∃ versions, s.versions.insert? row = some versions ∧
        s' = { s with versions := versions } := by
  rw [insertVersion, read_bind, require_bind_eq_ok, orFail_bind_eq_ok] at h
  obtain ⟨hcrawler, versions, hinsert, h⟩ := h
  cases h
  exact ⟨hcrawler, versions, hinsert, rfl⟩

/-- A new version leaves what is stored of the others. -/
theorem content?_insertVersion {row : VersionRow} {versions : Table VersionRow Id VersionRow.id}
    (h : s.versions.insert? row = some versions) (hw : row.id ≠ w) :
    { s with versions := versions : VersionStore }.content? w = s.content? w := by
  show Option.map _ (versions.find? w) = _
  rw [Table.find?_insert h, if_neg hw]
  rfl

/-- A new version takes nothing from the others. -/
theorem insertVersion_performs (row : VersionRow) : Performs KeepsPublished (insertVersion row) :=
  .of_statement fun s _ s' h w hw => by
    obtain ⟨-, versions, hinsert, rfl⟩ := insertVersion_eq_ok h
    refine content?_insertVersion hinsert ?_
    rintro rfl
    rw [VersionStore.published, (Table.insert?_eq_some.mp hinsert).1] at hw
    cases hw

/-- Only drafts are written to. -/
theorem updateDraftVersion_performs (v : Id) (p : VersionRow → Bool) (state : CrawlerVersionState)
    (configuration : CrawlerVersion) :
    Performs KeepsPublished (updateDraftVersion v p state configuration) :=
  .of_statement fun s _ s' h w hw => by
    obtain ⟨-, rfl⟩ := updateDraftVersion_eq_ok h
    exact content?_updateDraftVersion (Or.inr hw)

/-- An update of crawlers sets their two pointers and counts the rows it met. -/
theorem updateCrawlers_eq_ok {p : Crawler → Bool} {published draft : Crawler → Option Id} {n : ℕ}
    (h : updateCrawlers p published draft s = .ok (n, s')) : n = s.crawlers.changed p ∧
      s' = { s with crawlers := s.crawlers.update p fun crawler =>
        ⟨crawler.id, published crawler, draft crawler⟩ } := by
  rw [updateCrawlers, read_bind] at h
  cases h
  exact ⟨rfl, rfl⟩

/-- Pointers are no content of a version. -/
theorem updateCrawlers_performs (p : Crawler → Bool) (published draft : Crawler → Option Id) :
    Performs KeepsPublished (updateCrawlers p published draft) :=
  .of_statement fun s _ s' h w _ => by
    obtain ⟨-, rfl⟩ := updateCrawlers_eq_ok h
    rfl

/-- A crawler is inserted under a new identifier. -/
theorem insertCrawler_eq_ok {crawler : Crawler} {u : Unit}
    (h : insertCrawler crawler s = .ok (u, s')) : ∃ crawlers,
      s.crawlers.insert? crawler = some crawlers ∧ s' = { s with crawlers := crawlers } := by
  rw [insertCrawler, read_bind, orFail_bind_eq_ok] at h
  obtain ⟨crawlers, hinsert, h⟩ := h
  cases h
  exact ⟨crawlers, hinsert, rfl⟩

/-- A new crawler has no version. -/
theorem insertCrawler_performs (crawler : Crawler) :
    Performs KeepsPublished (insertCrawler crawler) :=
  .of_statement fun s _ s' h w _ => by
    obtain ⟨crawlers, -, rfl⟩ := insertCrawler_eq_ok h
    rfl

/-- The trigger on seeds keeps them away from published versions. -/
theorem insertSeed_performs (v : Id) (seed : Seed) : Performs KeepsPublished (insertSeed v seed) :=
  .of_statement fun _ _ _ h => (insertSeed_edits h).keepsPublished

/-- Seeds of published versions are not deleted. -/
theorem deleteSeeds_performs (v : Id) : Performs KeepsPublished (deleteSeeds v) :=
  .of_statement fun _ _ _ h => (deleteSeeds_edits h).keepsPublished

/-- Page types are added to unpublished versions only. -/
theorem insertPageType_performs (row : PageTypeRow) :
    Performs KeepsPublished (insertPageType row) :=
  .of_statement fun _ _ _ h => (insertPageType_edits h).keepsPublished

/-- Page types of published versions are not renamed. -/
theorem updatePageTypeRow_performs (pageTypeId v : Id) (name : String) (priority : Int32) :
    Performs KeepsPublished (updatePageTypeRow pageTypeId v name priority) :=
  .of_statement fun _ _ _ h => (updatePageTypeRow_edits h).keepsPublished

/-- Page types of published versions are not deleted. -/
theorem deletePageTypeRow_performs (pageTypeId v : Id) :
    Performs KeepsPublished (deletePageTypeRow pageTypeId v) :=
  .of_statement fun _ _ _ h => (deletePageTypeRow_edits h).keepsPublished

/-- Transitions are added to unpublished versions only. -/
theorem insertTransition_performs (row : TransitionRow) :
    Performs KeepsPublished (insertTransition row) :=
  .of_statement fun _ _ _ h => (insertTransition_edits h).keepsPublished

/-- Transitions of published versions are not configured anew. -/
theorem updateTransitionRow_performs (transitionId v : Id) (configuration : DiscoveryTransition) :
    Performs KeepsPublished (updateTransitionRow transitionId v configuration) :=
  .of_statement fun _ _ _ h => (updateTransitionRow_edits h).keepsPublished

/-- Transitions of published versions are not deleted. -/
theorem deleteTransitionRow_performs (transitionId v : Id) :
    Performs KeepsPublished (deleteTransitionRow transitionId v) :=
  .of_statement fun _ _ _ h => (deleteTransitionRow_edits h).keepsPublished

/-- Audit events are no content of a version. -/
theorem insertAuditEvent_performs (event : AuditEvent) :
    Performs KeepsPublished (insertAuditEvent event) :=
  .of_statement fun _ _ _ h => (insertAuditEvent_edits event.versionId h).keepsPublished

/-! ### Matchers -/

/-- Matchers are added to page types of unpublished versions only. -/
theorem insertUrlMatcher_performs (row : UrlMatcherRow) :
    Performs KeepsPublished (insertUrlMatcher row) :=
  .of_statement fun s _ s' h => by
    obtain ⟨⟨hfound, -⟩, -⟩ := insertUrlMatcher_eq_ok h
    obtain ⟨pageType, hpageType⟩ := Option.isSome_iff_exists.mp hfound
    exact (insertUrlMatcher_edits h hpageType).keepsPublished

/-- The matchers that a statement changes are of no published version. -/
theorem not_of_published {pageTypeId : Id} {p : UrlMatcherRow → Bool}
    (h : s.urlMatchers.changed p = 0 ∨ s.publishedPageType pageTypeId = false)
    (hof : ∀ row, p row = true → row.pageTypeId = pageTypeId) (hw : s.published w = true)
    {row : UrlMatcherRow} (hrow : row ∈ s.urlMatchers.rows) (hp : p row = true) :
    ((s.pageTypes.find? row.pageTypeId).any fun pageType => pageType.crawlerVersionId = w) =
      false := by
  rcases h with hnone | hdraft
  · rw [Table.changed_eq_zero.mp hnone row hrow] at hp
    cases hp
  · rw [hof row hp]
    cases hpageType : s.pageTypes.find? pageTypeId with
    | none => rfl
    | some pageType =>
      rw [publishedPageType_eq hpageType] at hdraft
      rw [Option.any_some, decide_eq_false_iff_not]
      rintro rfl
      rw [hw] at hdraft
      cases hdraft

/-- A statement on matchers of no published version. -/
theorem keepsPublished_of_matchers {urlMatchers : Table UrlMatcherRow Id UrlMatcherRow.id}
    (h : ∀ w, s.published w = true → urlMatchers.select (fun row =>
      (s.pageTypes.find? row.pageTypeId).any fun pageType => pageType.crawlerVersionId = w) =
        s.matchersOf w) : KeepsPublished s { s with urlMatchers := urlMatchers } := by
  intro w hw
  rw [VersionStore.content?, VersionStore.content?, ← h w hw]
  rfl

/-- Matchers of published page types are not changed. -/
theorem updateUrlMatcherRow_performs (matcherId pageTypeId : Id) (matcher : UrlMatcher) :
    Performs KeepsPublished (updateUrlMatcherRow matcherId pageTypeId matcher) :=
  .of_statement fun s _ s' h => by
    obtain ⟨hdraft, rfl⟩ := updateUrlMatcherRow_eq_ok h
    refine keepsPublished_of_matchers fun w hw => ?_
    refine Table.select_update (by intro; rfl) fun row hrow hp => ?_
    have hnot := not_of_published hdraft (fun row hp => (UrlMatcherRow.is_iff.mp hp).2) hw hrow hp
    exact ⟨hnot, hnot⟩

/-- Matchers of published page types are not deleted. -/
theorem deleteUrlMatcherRows_performs (pageTypeId : Id) (p : UrlMatcherRow → Bool) :
    Performs KeepsPublished (deleteUrlMatcherRows pageTypeId p) :=
  .of_statement fun s _ s' h => by
    obtain ⟨hdraft, rfl⟩ := deleteUrlMatcherRows_eq_ok h
    refine keepsPublished_of_matchers fun w hw => ?_
    refine Table.select_delete fun row hrow hp => not_of_published hdraft ?_ hw hrow hp
    intro row hp
    rw [Bool.and_eq_true, decide_eq_true_eq] at hp
    exact hp.1

/-! ## Operations keep published versions -/

theorem lift_performs {α : Type} (x : Except CrawlerRepositoryError α) :
    Performs KeepsPublished (lift x : VersionTx α) :=
  .of_reads fun _ _ _ h => (lift_eq_ok.mp h).2

/-- The seeds of a version are written over again only while it is a draft. -/
theorem syncSeedRows_performs (version : CrawlerVersion) :
    Performs KeepsPublished (syncSeedRows version) :=
  (deleteSeeds_performs version.id).bind fun _ =>
    .foldEach (fun _ seed => insertSeed_performs version.id seed) _ ()

/-- The pointer to the draft is no content of a version. -/
theorem activateDraft_performs (v crawlerId : Id) :
    Performs KeepsPublished (activateDraft v crawlerId) :=
  (updateCrawlers_performs _ _ _).bind fun _ => .require _ _

/-- A new draft comes beside the published versions. -/
theorem insertDraftInTransaction_performs (version : CrawlerVersion) (base : Option Id)
    (author : Author) : Performs KeepsPublished (insertDraftInTransaction lib version base author) :=
  (lift_performs _).bind fun _ => .bind .read fun _ => (lift_performs _).bind fun _ =>
    (Performs.require _ _).bind fun _ => (insertVersion_performs _).bind fun _ =>
      (syncSeedRows_performs version).bind fun _ => (activateDraft_performs _ _).bind fun _ =>
        insertAuditEvent_performs _

/-- A draft is saved as a new version or over itself. -/
theorem saveDraft_performs (version : CrawlerVersion) (author : Author) :
    Performs KeepsPublished (saveDraft lib version author) := by
  refine (Performs.require _ _).bind fun _ => (lift_performs _).bind fun _ => ?_
  refine Performs.bind .read fun store => ?_
  cases store.versions.find? version.id with
  | none => exact insertDraftInTransaction_performs version none author
  | some row =>
    exact (Performs.require _ _).bind fun _ => (Performs.require _ _).bind fun _ =>
      (lift_performs _).bind fun _ => (Performs.require _ _).bind fun _ =>
        (updateDraftVersion_performs _ _ _ _).bind fun _ => syncSeedRows_performs version

/-- The rows of a clone are all of the clone. -/
theorem cloneChildRows_performs (source : CrawlerVersion) (ids : CloneIds) (target : Id)
    (maps : CloneMaps) : Performs KeepsPublished (cloneChildRows lib source ids target maps) :=
  .bind .read fun _ => (Performs.foldEach (fun _ _ => (lift_performs _).bind fun _ =>
    insertSeed_performs _ _) _ ()).bind fun _ =>
  .bind .read fun _ => (Performs.foldEach (fun _ _ => insertPageType_performs _) _ ()).bind fun _ =>
  .bind .read fun _ => (Performs.foldEach (fun _ _ => (lift_performs _).bind fun _ =>
    (Performs.orFail _ _).bind fun _ => insertUrlMatcher_performs _) _ ()).bind fun _ =>
  .bind .read fun _ => Performs.foldEach (fun _ _ => insertTransition_performs _) _ ()

/-- A clone takes nothing from its source. -/
theorem createDraftFromPublished_performs (crawlerId sourceVersionId : Id) (ids : CloneIds)
    (author : Author) : Performs KeepsPublished
      (createDraftFromPublished lib services crawlerId sourceVersionId ids author) :=
  .bind .read fun _ => (lift_performs _).bind fun _ => (Performs.require _ _).bind fun _ =>
    (lift_performs _).bind fun _ => (Performs.require _ _).bind fun _ =>
      (Performs.require _ _).bind fun _ => (lift_performs _).bind fun _ =>
        (insertVersion_performs _).bind fun _ => (cloneChildRows_performs _ _ _ _).bind fun _ =>
          (activateDraft_performs _ _).bind fun _ => .bind .read fun _ =>
            (lift_performs _).bind fun _ => insertAuditEvent_performs _

/-- A publication changes the version it publishes, which was a draft until then. -/
theorem publish_performs (crawlerId versionId : Id)
    (evidence : String → Except CrawlerRepositoryError (List TestEvidence)) (author : Author) :
    Performs KeepsPublished (publish lib services crawlerId versionId evidence author) :=
  .bind .read fun _ => (lift_performs _).bind fun _ => (lift_performs _).bind fun _ =>
    (Performs.require _ _).bind fun _ => (lift_performs _).bind fun _ =>
      (updateDraftVersion_performs _ _ _ _).bind fun _ => (Performs.require _ _).bind fun _ =>
        (updateCrawlers_performs _ _ _).bind fun _ => (Performs.require _ _).bind fun _ =>
          insertAuditEvent_performs _

/-- Making a published version active again sets a pointer. -/
theorem reactivatePublished_performs (crawlerId versionId : Id) (author : Author) :
    Performs KeepsPublished (reactivatePublished lib crawlerId versionId author) :=
  .bind .read fun _ => (lift_performs _).bind fun _ => (Performs.require _ _).bind fun _ =>
    (Performs.require _ _).bind fun _ => (updateCrawlers_performs _ _ _).bind fun _ =>
      (Performs.require _ _).bind fun _ => insertAuditEvent_performs _

/-- The configuration of a draft is replaced. -/
theorem updateVersionConfiguration_performs (version : CrawlerVersion) :
    Performs KeepsPublished (updateVersionConfiguration version) :=
  (updateDraftVersion_performs _ _ _ _).bind fun _ => .require _ _

/-- The record of an edit writes an audit event. -/
theorem auditEdit_performs (version : CrawlerVersion) (name entityId : String) :
    Performs KeepsPublished (auditEdit lib services author version name entityId) :=
  .bind .read fun _ => (lift_performs _).bind fun _ => insertAuditEvent_performs _

/-- A change of policies concerns the active draft. -/
theorem updateSemanticVersion_performs (name entityId : String)
    (update : CrawlerVersion → Except ProductError CrawlerVersion) : Performs KeepsPublished
      (updateSemanticVersion lib services crawlerId v author name entityId update) :=
  .bind .read fun _ => (lift_performs _).bind fun _ => (lift_performs _).bind fun _ =>
    (lift_performs _).bind fun _ => (updateVersionConfiguration_performs _).bind fun _ =>
      auditEdit_performs _ _ _

/-- An edit of rows, with the configuration stored and the event recorded. -/
theorem storeEdit_performs (version : CrawlerVersion) (name entityId : String) :
    Performs KeepsPublished (do
      updateVersionConfiguration version
      auditEdit lib services author version name entityId) :=
  (updateVersionConfiguration_performs _).bind fun _ => auditEdit_performs _ _ _

/-- What is read and checked before an edit changes nothing. -/
theorem loaded_performs {α : Type} (load : VersionStore → Except CrawlerRepositoryError α)
    {edit : VersionStore → α → VersionTx Unit}
    (hedit : ∀ store a, Performs KeepsPublished (edit store a)) :
    Performs KeepsPublished (do
      let store ← read
      let a ← lift (load store)
      edit store a) :=
  .bind .read fun store => (lift_performs _).bind fun a => hedit store a

/-- A transition is created in the active draft. -/
theorem createDiscoveryTransition_performs (transition : DiscoveryTransition) :
    Performs KeepsPublished
      (createDiscoveryTransition lib services crawlerId v author transition) :=
  (lift_performs _).bind fun _ => loaded_performs _ fun _ _ => (lift_performs _).bind fun _ =>
    (lift_performs _).bind fun _ => (Performs.require _ _).bind fun _ =>
      (Performs.require _ _).bind fun _ => (lift_performs _).bind fun _ =>
        (insertTransition_performs _).bind fun _ => storeEdit_performs _ _ _

/-- A transition is updated in the active draft. -/
theorem updateDiscoveryTransition_performs (transitionId : Id) (transition : DiscoveryTransition) :
    Performs KeepsPublished
      (updateDiscoveryTransition lib services crawlerId v author transitionId transition) :=
  (Performs.require _ _).bind fun _ => (lift_performs _).bind fun _ =>
    loaded_performs _ fun _ _ => (lift_performs _).bind fun _ => (lift_performs _).bind fun _ =>
      (lift_performs _).bind fun _ => (updateTransitionRow_performs _ _ _).bind fun _ =>
        (Performs.require _ _).bind fun _ => auditEdit_performs _ _ _

/-- A transition is deleted from the active draft. -/
theorem deleteDiscoveryTransition_performs (transitionId : Id) : Performs KeepsPublished
    (deleteDiscoveryTransition lib services crawlerId v author transitionId) :=
  loaded_performs _ fun _ _ => (lift_performs _).bind fun _ => (lift_performs _).bind fun _ =>
    (deleteTransitionRow_performs _ _).bind fun _ => (Performs.require _ _).bind fun _ =>
      storeEdit_performs _ _ _

/-- A page type is created in the active draft. -/
theorem createPageType_performs (pageTypeId : Id) (name : String) (priority : Int32) :
    Performs KeepsPublished
      (createPageType lib services crawlerId v author pageTypeId name priority) :=
  loaded_performs _ fun _ _ => (lift_performs _).bind fun _ =>
    (insertPageType_performs _).bind fun _ => storeEdit_performs _ _ _

/-- A page type is updated in the active draft. -/
theorem updatePageType_performs (pageTypeId : Id) (name : String) (priority : Int32) :
    Performs KeepsPublished
      (updatePageType lib services crawlerId v author pageTypeId name priority) :=
  loaded_performs _ fun _ _ => (lift_performs _).bind fun _ =>
    (updatePageTypeRow_performs _ _ _ _).bind fun _ => (Performs.require _ _).bind fun _ =>
      auditEdit_performs _ _ _

/-- A page type is deleted from the active draft, with its matchers. -/
theorem deletePageType_performs (pageTypeId : Id) :
    Performs KeepsPublished (deletePageType lib services crawlerId v author pageTypeId) :=
  loaded_performs _ fun _ _ => (lift_performs _).bind fun _ => (Performs.require _ _).bind fun _ =>
    (lift_performs _).bind fun _ => (deleteUrlMatcherRows_performs _ _).bind fun _ =>
      (deletePageTypeRow_performs _ _).bind fun _ => (Performs.require _ _).bind fun _ =>
        storeEdit_performs _ _ _

/-- A matcher is created in a page type of the active draft. -/
theorem createUrlMatcher_performs (pageTypeId matcherId : Id) (matcher : UrlMatcher) :
    Performs KeepsPublished
      (createUrlMatcher lib services crawlerId v author pageTypeId matcherId matcher) :=
  (lift_performs _).bind fun _ => loaded_performs _ fun _ _ => (lift_performs _).bind fun _ =>
    (insertUrlMatcher_performs _).bind fun _ => auditEdit_performs _ _ _

/-- A matcher is one of its page type, or the edit fails. -/
theorem matcherEdit_performs {p : Prop} [Decidable p] {edit : VersionTx Unit}
    (hedit : Performs KeepsPublished edit) (x : Except CrawlerRepositoryError Unit)
    (error : CrawlerRepositoryError) :
    Performs KeepsPublished (if p then edit else do
      lift x
      fail error) := by
  split
  · exact hedit
  · exact (lift_performs x).bind fun _ => .fail error

/-- A matcher of a page type of the active draft is updated. -/
theorem updateUrlMatcher_performs (pageTypeId matcherId : Id) (matcher : UrlMatcher) :
    Performs KeepsPublished
      (updateUrlMatcher lib services crawlerId v author pageTypeId matcherId matcher) :=
  (lift_performs _).bind fun _ => loaded_performs _ fun _ _ => (lift_performs _).bind fun _ =>
    (updateUrlMatcherRow_performs _ _ _).bind fun _ =>
      matcherEdit_performs (auditEdit_performs _ _ _) _ _

/-- A matcher of a page type of the active draft is deleted. -/
theorem deleteUrlMatcher_performs (pageTypeId matcherId : Id) : Performs KeepsPublished
    (deleteUrlMatcher lib services crawlerId v author pageTypeId matcherId) :=
  loaded_performs _ fun _ _ => (lift_performs _).bind fun _ =>
    (deleteUrlMatcherRows_performs _ _).bind fun _ =>
      matcherEdit_performs (auditEdit_performs _ _ _) _ _

/-- Evidence is attached to a transition of the active draft. -/
theorem attachTransitionEvidence_performs (configHash : String) (transitionId evidenceId : Id) :
    Performs KeepsPublished
      (attachTransitionEvidence lib services crawlerId v configHash transitionId evidenceId) := by
  refine loaded_performs _ fun store _ => (Performs.require _ _).bind fun _ => ?_
  cases (store.transitionsOf v).find? fun row => row.id = transitionId with
  | none => exact .fail _
  | some row =>
    exact (Performs.require _ _).bind fun _ => (updateTransitionRow_performs _ _ _).bind fun _ =>
      .require _ _

/-- **Every operation** leaves the published versions as they are. -/
theorem Operation.performs (operation : Operation) :
    Performs KeepsPublished (operation.perform lib services) := by
  cases operation with
  | create crawlerId => exact insertCrawler_performs _
  | createDraft crawlerId versionId author => exact insertDraftInTransaction_performs _ _ _
  | saveDraft version author => exact saveDraft_performs _ _
  | createDraftFromPublished crawlerId sourceVersionId ids author =>
    exact createDraftFromPublished_performs _ _ _ _
  | publish crawlerId versionId evidence author => exact publish_performs _ _ _ _
  | reactivatePublished crawlerId versionId author => exact reactivatePublished_performs _ _ _
  | updateCanonicalizationPolicy crawlerId versionId author policy =>
    exact (lift_performs _).bind fun _ => updateSemanticVersion_performs _ _ _
  | updateDomainScopePolicy crawlerId versionId author policy =>
    exact (lift_performs _).bind fun _ => updateSemanticVersion_performs _ _ _
  | updateCrawlerVersionGuardrails crawlerId versionId author guardrails =>
    exact (lift_performs _).bind fun _ => updateSemanticVersion_performs _ _ _
  | createDiscoveryTransition crawlerId versionId author transition =>
    exact createDiscoveryTransition_performs _
  | updateDiscoveryTransition crawlerId versionId author transitionId transition =>
    exact updateDiscoveryTransition_performs _ _
  | deleteDiscoveryTransition crawlerId versionId author transitionId =>
    exact deleteDiscoveryTransition_performs _
  | createPageType crawlerId versionId author pageTypeId name priority =>
    exact createPageType_performs _ _ _
  | updatePageType crawlerId versionId author pageTypeId name priority =>
    exact updatePageType_performs _ _ _
  | deletePageType crawlerId versionId author pageTypeId => exact deletePageType_performs _
  | createUrlMatcher crawlerId versionId author pageTypeId matcherId matcher =>
    exact createUrlMatcher_performs _ _ _
  | updateUrlMatcher crawlerId versionId author pageTypeId matcherId matcher =>
    exact updateUrlMatcher_performs _ _ _
  | deleteUrlMatcher crawlerId versionId author pageTypeId matcherId =>
    exact deleteUrlMatcher_performs _ _
  | attachTransitionEvidence crawlerId versionId configHash transitionId evidenceId =>
    exact attachTransitionEvidence_performs _ _ _

/-- A step of the repository commits an operation or nothing at all. -/
theorem step_keepsPublished (s : VersionStore) (operation : Operation) :
    KeepsPublished s (s.step lib services operation) :=
  Transition.keeps_of_reflTransGen (Q := KeepsPublished s)
    (fun _ _ hstep hprev => hprev.trans hstep) (operation.performs.commit s) fun _ _ => rfl

/-- Whatever is done, in any order, what is stored of a published version stays: its
configuration, its seeds, its page types with their matchers, and its transitions. -/
theorem content?_after_of_published (s : VersionStore) (operations : List Operation)
    (hw : s.published w = true) :
    (Transition.after (VersionStore.step lib services) s operations).content? w = s.content? w :=
  Transition.after_invariant (I := fun s' => KeepsPublished s s')
    (fun s' operation h => h.trans (step_keepsPublished s' operation)) (fun _ _ => rfl) operations w
    hw

/-- A crawler and its published version, which has no rows of its own. -/
def publishedAlone : VersionStore :=
  { VersionStore.empty with
    crawlers := ⟨[⟨numberedId 1, some (numberedId 2), none⟩], List.nodup_singleton _⟩
    versions := ⟨[⟨numberedId 2, numberedId 1, .published, .draft (numberedId 2) (numberedId 1)⟩],
      List.nodup_singleton _⟩ }

theorem content?_publishedAlone_edited :
    (Transition.after (VersionStore.step plainLibraries ⟨fun _ => "", .coreOnly plainLibraries⟩)
      publishedAlone
      [.createPageType (numberedId 1) (numberedId 2) ⟨"operator", "2026-01-01", numberedId 50⟩
          (numberedId 4) "Product" 0,
        .saveDraft (.draft (numberedId 2) (numberedId 1))
          ⟨"operator", "2026-01-01", numberedId 51⟩]).content? (numberedId 2) =
      publishedAlone.content? (numberedId 2) :=
  content?_after_of_published publishedAlone _ rfl

end Erabi.Versions

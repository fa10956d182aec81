/-
# Edits of the active draft

An edit loads its version, changes rows of it and takes the hash of what is stored then.
What the hash does not see, the seeds and the page types, the edit keeps in order itself,
and so the store stays coherent.
-/
import Mathlib
import Erabi.Versions.Coherence

namespace Erabi.Versions

open Relational Transaction
open Authoring
open Erabi.Configuration (CrawlerVersionState)

variable {lib : Libraries} {services : Services} {s s₁ s₂ s' : VersionStore} {v crawlerId : Id}
  {author : Author} {u : Unit} {c : Content} {row : VersionRow}

/-! ## The end of an edit -/

/-- An edit of a version keeps what identifies it, and its seeds. -/
structure KeepsIdentity (version version' : CrawlerVersion) : Prop where
  id : version'.id = version.id
  crawlerId : version'.crawlerId = version.crawlerId
  state : version'.state = version.state
  seeds : version'.seeds = version.seeds

/-- What is stored of the version. -/
theorem content?_fields (hc : s.content? v = some c) : s.versions.find? v = some c.row ∧
    c.seeds = s.seedsOf v ∧ c.pageTypes = s.pageTypesOf v := by
  obtain ⟨row, hrow, rfl⟩ := content?_eq_some.mp hc
  exact ⟨hrow, rfl, rfl⟩

/-- The configuration of a draft is replaced and nothing else. -/
theorem updateVersionConfiguration_eq_ok {version : CrawlerVersion}
    (h : updateVersionConfiguration version s = .ok (u, s')) (hid : version.id = v)
    (hrow : s.versions.find? v = some row) (hdraft : row.state = .draft) :
    Edits v s s' ∧ ∃ versions, s' = { s with versions := versions } ∧
      versions.find? v = some ⟨row.id, row.crawlerId, row.state, version⟩ := by
  rw [updateVersionConfiguration, hid, Transaction.bind_eq_ok] at h
  obtain ⟨n, s₁, hupdate, h⟩ := h
  obtain ⟨-, rfl⟩ := require_eq_ok.mp h
  have hedits := updateDraftVersion_edits hupdate
  obtain ⟨-, rfl⟩ := updateDraftVersion_eq_ok hupdate
  refine ⟨hedits, _, rfl, ?_⟩
  have hp : row.isDraft v (fun _ => true) = true :=
    VersionRow.isDraft_iff.mpr ⟨⟨Table.key_of_find? hrow, hdraft⟩, rfl⟩
  rw [find?_updateDraftVersion, hrow, Option.map_some, if_pos hp, hdraft]

/-- An edit is recorded with a hash, so the version is valid after it. -/
theorem auditEdit_eq_ok {version : CrawlerVersion} {name entityId : String}
    (h : auditEdit lib services author version name entityId s = .ok (u, s')) :
    (∃ hash, s.semanticHash lib services.hash version = .ok hash) ∧ (∀ v, Edits v s s') ∧
      ∃ auditEvents, s' = { s with auditEvents := auditEvents } := by
  rw [auditEdit, read_bind, lift_bind_eq_ok] at h
  obtain ⟨hash, hhash, h⟩ := h
  obtain ⟨auditEvents, -, rfl⟩ := insertAuditEvent_eq_ok h
  exact ⟨⟨hash, hhash⟩, fun v => insertAuditEvent_edits v h, auditEvents, rfl⟩

/-- What the hash is taken of is sound, with seeds and page types as the version says. -/
theorem Content.Sound.of_hash {c' : Content} (hsound : c.Sound lib) (hc : s.content? v = some c)
    {hash : SemanticHashTemplate → String} {hashed : String}
    (hkeeps : KeepsIdentity c.row.semanticConfiguration c'.row.semanticConfiguration)
    (hcolumns : c'.row.id = c.row.id ∧ c'.row.columns = c.row.columns)
    (hc' : s'.content? v = some c') (hseeds : c'.seeds = c.seeds)
    (hhints : ∀ seed ∈ c.row.semanticConfiguration.seeds, ∀ hint ∈ seed.entryPageTypeHint,
      hint ∈ c'.row.semanticConfiguration.pageTypeIds)
    (hpageTypes : (c'.pageTypes.map PageTypeRow.id).Perm c'.row.semanticConfiguration.pageTypeIds)
    (hhash : s'.semanticHash lib hash c'.row.semanticConfiguration = .ok hashed) :
    c'.Sound lib := by
  have hid : c'.row.semanticConfiguration.id = v := hkeeps.id.trans (hsound.id_eq hc)
  obtain ⟨⟨hcontract, ⟨htransitions, -⟩, hmatchers⟩, -⟩ := semanticHash_eq_ok.mp hhash
  obtain ⟨hcrawlerId, hstate⟩ := Prod.mk.injEq .. ▸ hcolumns.2
  rw [hid] at htransitions hmatchers
  obtain ⟨row, hrow, rfl⟩ := content?_eq_some.mp hc'
  exact {
    id := hkeeps.id.trans (hsound.id.trans hcolumns.1.symm)
    crawlerId := hkeeps.crawlerId.trans (hsound.crawlerId.trans hcrawlerId.symm)
    state := hkeeps.state.trans (hsound.state.trans hstate.symm)
    contract := hcontract
    seeds := by
      rw [hkeeps.seeds, hseeds]
      exact hsound.seeds
    hints := by
      rw [hkeeps.seeds]
      exact hhints
    pageTypes := hpageTypes
    transitions := htransitions
    matchers := hmatchers }

/-- An edit that ends with its event leaves the store coherent. -/
theorem Coherent.audited (hs : Coherent lib s) (hc : s.content? v = some c)
    (hedits : Edits v s s₁) {version : CrawlerVersion}
    (hkeeps : KeepsIdentity c.row.semanticConfiguration version)
    (hrow : s₁.versions.find? v = some ⟨c.row.id, c.row.crawlerId, c.row.state, version⟩)
    (hseeds : s₁.seedsOf v = s.seedsOf v)
    (hhints : ∀ seed ∈ c.row.semanticConfiguration.seeds, ∀ hint ∈ seed.entryPageTypeHint,
      hint ∈ version.pageTypeIds)
    (hpageTypes : ((s₁.pageTypesOf v).map PageTypeRow.id).Perm version.pageTypeIds)
    {name entityId : String}
    (h : auditEdit lib services author version name entityId s₁ = .ok (u, s')) :
    Coherent lib s' := by
  obtain ⟨⟨hash, hhash⟩, haudit, auditEvents, rfl⟩ := auditEdit_eq_ok h
  refine hs.edit (hedits.trans (haudit v)) fun c' hc' => ?_
  obtain ⟨row', hrow', rfl⟩ := content?_eq_some.mp hc'
  cases hrow.symm.trans hrow'
  exact (hs.sound v c hc).of_hash hc hkeeps ⟨rfl, rfl⟩ hc'
    (hseeds.trans (content?_fields hc).2.1.symm) hhints hpageTypes hhash

/-! ## Edits -/

/-- A change of policies that keeps the identity of the version. -/
theorem updateSemanticVersion_keeps {name entityId : String}
    {update : CrawlerVersion → Except ProductError CrawlerVersion}
    (hupdate : ∀ version version', update version = .ok version' →
      KeepsIdentity version version' ∧ version'.pageTypeIds = version.pageTypeIds) :
    Keeps (Coherent lib)
      (updateSemanticVersion lib services crawlerId v author name entityId update) := by
  intro s u s' h hs
  rw [updateSemanticVersion, read_bind, lift_bind_eq_ok] at h
  obtain ⟨version, hload, h⟩ := h
  obtain ⟨c, hc, hsound, rfl, -, hdraft, -⟩ := loadMutationVersion_eq_ok.mp hload
  obtain ⟨version', hversion', h⟩ := lift_bind_eq_ok.mp h
  obtain ⟨⟨⟩, -, h⟩ := lift_bind_eq_ok.mp h
  obtain ⟨⟨⟩, s₁, hstore, h⟩ := Transaction.bind_eq_ok.mp h
  obtain ⟨hkeeps, hpageTypes⟩ := hupdate _ _ (orElse_eq_ok.mp hversion')
  obtain ⟨hedits, versions, rfl, hrow⟩ := updateVersionConfiguration_eq_ok hstore
    (hkeeps.id.trans (hsound.id_eq hc)) (content?_fields hc).1 hdraft
  refine hs.audited hc hedits hkeeps hrow rfl ?_ ?_ h
  · rw [hpageTypes]
    exact hsound.hints
  · rw [hpageTypes]
    exact (content?_fields hc).2.2 ▸ hsound.pageTypes

/-- The canonicalization policy may be changed. -/
theorem updateCanonicalizationPolicy_keeps (policy : CanonicalizationPolicy) :
    Keeps (Coherent lib)
      (updateCanonicalizationPolicy lib services crawlerId v author policy) := by
  intro s u s' h
  rw [updateCanonicalizationPolicy, lift_bind_eq_ok] at h
  obtain ⟨⟨⟩, -, h⟩ := h
  refine updateSemanticVersion_keeps (fun version version' hset => ?_) s u s' h
  obtain ⟨-, rfl⟩ := CrawlerVersion.setCanonicalizationPolicy_eq_ok hset
  exact ⟨⟨rfl, rfl, rfl, rfl⟩, rfl⟩

/-- The domain scope may be changed. -/
theorem updateDomainScopePolicy_keeps (policy : DomainScopePolicy) :
    Keeps (Coherent lib) (updateDomainScopePolicy lib services crawlerId v author policy) := by
  intro s u s' h
  rw [updateDomainScopePolicy, lift_bind_eq_ok] at h
  obtain ⟨⟨⟩, -, h⟩ := h
  refine updateSemanticVersion_keeps (fun version version' hset => ?_) s u s' h
  obtain ⟨-, rfl⟩ := CrawlerVersion.setDomainScope_eq_ok hset
  exact ⟨⟨rfl, rfl, rfl, rfl⟩, rfl⟩

/-- The guardrails may be changed. -/
theorem updateCrawlerVersionGuardrails_keeps (guardrails : CrawlerVersionGuardrails) :
    Keeps (Coherent lib)
      (updateCrawlerVersionGuardrails lib services crawlerId v author guardrails) := by
  intro s u s' h
  rw [updateCrawlerVersionGuardrails, lift_bind_eq_ok] at h
  obtain ⟨⟨⟩, -, h⟩ := h
  refine updateSemanticVersion_keeps (fun version version' hset => ?_) s u s' h
  obtain ⟨-, -, rfl⟩ := CrawlerVersion.setGuardrails_eq_ok hset
  exact ⟨⟨rfl, rfl, rfl, rfl⟩, rfl⟩

/-! ### Transitions -/

/-- Declaring transitions changes nothing else of a version. -/
theorem setTransitionIds_keeps {version version' : CrawlerVersion} {ids : List Id}
    (h : orSemanticError (version.setTransitionIds ids) = .ok version') :
    KeepsIdentity version version' ∧ version'.pageTypeIds = version.pageTypeIds := by
  obtain ⟨-, rfl⟩ := CrawlerVersion.setTransitionIds_eq_ok.mp (orElse_eq_ok.mp h)
  exact ⟨⟨rfl, rfl, rfl, rfl⟩, rfl⟩

/-- A transition may be created. -/
theorem createDiscoveryTransition_keeps (transition : DiscoveryTransition) :
    Keeps (Coherent lib)
      (createDiscoveryTransition lib services crawlerId v author transition) := by
  intro s u s' h hs
  obtain ⟨⟨⟩, -, h⟩ := lift_bind_eq_ok.mp h
  rw [read_bind, lift_bind_eq_ok] at h
  obtain ⟨version, hload, h⟩ := h
  obtain ⟨c, hc, hsound, rfl, -, hdraft, -⟩ := loadMutationVersion_eq_ok.mp hload
  obtain ⟨⟨⟩, -, h⟩ := lift_bind_eq_ok.mp h
  obtain ⟨⟨⟩, -, h⟩ := lift_bind_eq_ok.mp h
  obtain ⟨-, h⟩ := require_bind_eq_ok.mp h
  obtain ⟨-, h⟩ := require_bind_eq_ok.mp h
  obtain ⟨version', hset, h⟩ := lift_bind_eq_ok.mp h
  obtain ⟨⟨⟩, s₁, hinsert, h⟩ := Transaction.bind_eq_ok.mp h
  obtain ⟨⟨⟩, s₂, hstore, h⟩ := Transaction.bind_eq_ok.mp h
  obtain ⟨hkeeps, hdeclared⟩ := setTransitionIds_keeps hset
  obtain ⟨hrow, -, hpageTypes⟩ := content?_fields hc
  have hinserts := insertTransition_edits hinsert
  obtain ⟨-, transitions, -, rfl⟩ := insertTransition_eq_ok hinsert
  obtain ⟨hedits, versions, rfl, hrow⟩ := updateVersionConfiguration_eq_ok hstore
    (hkeeps.id.trans (hsound.id_eq hc)) hrow hdraft
  exact hs.audited hc (hinserts.trans hedits) hkeeps hrow rfl (hdeclared ▸ hsound.hints)
    (hdeclared ▸ hpageTypes ▸ hsound.pageTypes) h

/-- A transition may be replaced. -/
theorem updateDiscoveryTransition_keeps (transitionId : Id) (transition : DiscoveryTransition) :
    Keeps (Coherent lib)
      (updateDiscoveryTransition lib services crawlerId v author transitionId transition) := by
  intro s u s' h hs
  obtain ⟨-, h⟩ := require_bind_eq_ok.mp h
  obtain ⟨⟨⟩, -, h⟩ := lift_bind_eq_ok.mp h
  rw [read_bind, lift_bind_eq_ok] at h
  obtain ⟨version, hload, h⟩ := h
  obtain ⟨c, hc, hsound, rfl, -, hdraft, -⟩ := loadMutationVersion_eq_ok.mp hload
  obtain ⟨⟨⟩, -, h⟩ := lift_bind_eq_ok.mp h
  obtain ⟨⟨⟩, -, h⟩ := lift_bind_eq_ok.mp h
  obtain ⟨⟨⟩, -, h⟩ := lift_bind_eq_ok.mp h
  obtain ⟨n, s₁, hupdate, h⟩ := Transaction.bind_eq_ok.mp h
  obtain ⟨-, h⟩ := require_bind_eq_ok.mp h
  have hedits := updateTransitionRow_edits hupdate
  obtain ⟨-, rfl⟩ := updateTransitionRow_eq_ok hupdate
  obtain ⟨hrow, -, hpageTypes⟩ := content?_fields hc
  exact hs.audited hc hedits ⟨rfl, rfl, rfl, rfl⟩ hrow rfl hsound.hints
    (hpageTypes ▸ hsound.pageTypes) h

/-- A transition may be deleted. -/
theorem deleteDiscoveryTransition_keeps (transitionId : Id) :
    Keeps (Coherent lib)
      (deleteDiscoveryTransition lib services crawlerId v author transitionId) := by
  intro s u s' h hs
  rw [deleteDiscoveryTransition, read_bind, lift_bind_eq_ok] at h
  obtain ⟨version, hload, h⟩ := h
  obtain ⟨c, hc, hsound, rfl, -, hdraft, -⟩ := loadMutationVersion_eq_ok.mp hload
  obtain ⟨⟨⟩, -, h⟩ := lift_bind_eq_ok.mp h
  obtain ⟨version', hset, h⟩ := lift_bind_eq_ok.mp h
  obtain ⟨n, s₁, hdelete, h⟩ := Transaction.bind_eq_ok.mp h
  obtain ⟨-, h⟩ := require_bind_eq_ok.mp h
  obtain ⟨⟨⟩, s₂, hstore, h⟩ := Transaction.bind_eq_ok.mp h
  obtain ⟨hkeeps, hdeclared⟩ := setTransitionIds_keeps hset
  obtain ⟨hrow, -, hpageTypes⟩ := content?_fields hc
  have hdeletes := deleteTransitionRow_edits hdelete
  obtain ⟨-, rfl⟩ := deleteTransitionRow_eq_ok hdelete
  obtain ⟨hedits, versions, rfl, hrow⟩ := updateVersionConfiguration_eq_ok hstore
    (hkeeps.id.trans (hsound.id_eq hc)) hrow hdraft
  exact hs.audited hc (hdeletes.trans hedits) hkeeps hrow rfl (hdeclared ▸ hsound.hints)
    (hdeclared ▸ hpageTypes ▸ hsound.pageTypes) h

/-! ### Page types -/

/-- Declaring page types changes nothing else of a version. -/
theorem setPageTypeIds_keeps {version version' : CrawlerVersion} {ids : List Id}
    {translate : ProductError → CrawlerRepositoryError}
    (h : orElse translate (version.setPageTypeIds ids) = .ok version') :
    KeepsIdentity version version' ∧ version'.pageTypeIds = ids := by
  obtain ⟨-, -, rfl⟩ := CrawlerVersion.setPageTypeIds_eq_ok.mp (orElse_eq_ok.mp h)
  exact ⟨⟨rfl, rfl, rfl, rfl⟩, rfl⟩

/-- A page type may be created. -/
theorem createPageType_keeps (pageTypeId : Id) (name : String) (priority : Int32) :
    Keeps (Coherent lib)
      (createPageType lib services crawlerId v author pageTypeId name priority) := by
  intro s u s' h hs
  rw [createPageType, read_bind, lift_bind_eq_ok] at h
  obtain ⟨version, hload, h⟩ := h
  obtain ⟨c, hc, hsound, rfl, -, hdraft, -⟩ := loadMutationVersion_eq_ok.mp hload
  obtain ⟨version', hset, h⟩ := lift_bind_eq_ok.mp h
  obtain ⟨⟨⟩, s₁, hinsert, h⟩ := Transaction.bind_eq_ok.mp h
  obtain ⟨⟨⟩, s₂, hstore, h⟩ := Transaction.bind_eq_ok.mp h
  obtain ⟨hkeeps, hdeclared⟩ := setPageTypeIds_keeps hset
  obtain ⟨hrow, -, hpageTypes⟩ := content?_fields hc
  have hinserts := insertPageType_edits hinsert
  obtain ⟨-, pageTypes, hnew, rfl⟩ := insertPageType_eq_ok hinsert
  obtain ⟨hedits, versions, rfl, hrow⟩ := updateVersionConfiguration_eq_ok hstore
    (hkeeps.id.trans (hsound.id_eq hc)) hrow hdraft
  refine hs.audited hc (hinserts.trans hedits) hkeeps hrow rfl ?_ ?_ h
  · intro seed hseed hint hhint
    rw [hdeclared]
    exact List.mem_append_left _ (hsound.hints seed hseed hint hhint)
  · have hrows := pageTypesOf_insert hnew v
    rw [if_pos rfl, ← hpageTypes] at hrows
    rw [hdeclared]
    refine (List.Perm.of_eq (congrArg (List.map PageTypeRow.id) hrows)).trans ?_
    rw [List.map_append, List.map_singleton]
    exact hsound.pageTypes.append_right _

/-- The page types of the version, with the columns of one of them updated. -/
theorem map_id_update {pageTypeId : Id} {name : String} {priority : Int32} :
    ({ s with pageTypes := s.pageTypes.update (PageTypeRow.is pageTypeId v) fun row =>
      ⟨row.id, row.crawlerVersionId, name, priority, row.configuration⟩ : VersionStore }.pageTypesOf
        v).map PageTypeRow.id = (s.pageTypesOf v).map PageTypeRow.id := by
  rw [VersionStore.pageTypesOf, VersionStore.pageTypesOf, Table.select, Table.select,
    Table.update, List.filter_map, List.map_map]
  have hsame : s.pageTypes.rows.filter ((fun row => decide (row.crawlerVersionId = v)) ∘ fun row =>
      if PageTypeRow.is pageTypeId v row then
        ⟨row.id, row.crawlerVersionId, name, priority, row.configuration⟩ else row) =
      s.pageTypes.rows.filter fun row => row.crawlerVersionId = v := by
    refine List.filter_congr fun row _ => ?_
    rw [Function.comp_apply]
    split <;> rfl
  rw [hsame]
  refine List.map_congr_left fun row _ => ?_
  rw [Function.comp_apply]
  split <;> rfl

/-- A page type may be renamed. -/
theorem updatePageType_keeps (pageTypeId : Id) (name : String) (priority : Int32) :
    Keeps (Coherent lib)
      (updatePageType lib services crawlerId v author pageTypeId name priority) := by
  intro s u s' h hs
  rw [updatePageType, read_bind, lift_bind_eq_ok] at h
  obtain ⟨version, hload, h⟩ := h
  obtain ⟨c, hc, hsound, rfl, -, hdraft, -⟩ := loadMutationVersion_eq_ok.mp hload
  obtain ⟨⟨⟩, -, h⟩ := lift_bind_eq_ok.mp h
  obtain ⟨n, s₁, hupdate, h⟩ := Transaction.bind_eq_ok.mp h
  obtain ⟨-, h⟩ := require_bind_eq_ok.mp h
  obtain ⟨hrow, -, hpageTypes⟩ := content?_fields hc
  have hedits := updatePageTypeRow_edits hupdate
  obtain ⟨-, -, rfl⟩ := updatePageTypeRow_eq_ok hupdate
  refine hs.audited hc hedits ⟨rfl, rfl, rfl, rfl⟩ hrow rfl hsound.hints ?_ h
  rw [map_id_update, ← hpageTypes]
  exact hsound.pageTypes

/-- A page type that is in use by a hint is not deleted. -/
theorem hint_ne_of_unused {version : CrawlerVersion} {pageTypeId : Id}
    (h : pageTypeIsInUse s version pageTypeId = false)
    (hseeds : (s.seedsOf version.id).Perm version.seeds) {seed : Seed}
    (hseed : seed ∈ version.seeds) : seed.entryPageTypeHint ≠ some pageTypeId := by
  simp only [pageTypeIsInUse, Bool.or_eq_false_iff, List.any_eq_false, decide_eq_true_eq] at h
  exact h.1.1.2 seed (hseeds.mem_iff.mpr hseed)

/-- A page type that is not used may be deleted. -/
theorem deletePageType_keeps (pageTypeId : Id) :
    Keeps (Coherent lib) (deletePageType lib services crawlerId v author pageTypeId) := by
  intro s u s' h hs
  rw [deletePageType, read_bind, lift_bind_eq_ok] at h
  obtain ⟨version, hload, h⟩ := h
  obtain ⟨c, hc, hsound, rfl, -, hdraft, -⟩ := loadMutationVersion_eq_ok.mp hload
  obtain ⟨⟨⟩, hbelongs, h⟩ := lift_bind_eq_ok.mp h
  obtain ⟨hunused, h⟩ := require_bind_eq_ok.mp h
  obtain ⟨version', hset, h⟩ := lift_bind_eq_ok.mp h
  obtain ⟨n, s₁, hmatchers, h⟩ := Transaction.bind_eq_ok.mp h
  obtain ⟨m, s₂, hdelete, h⟩ := Transaction.bind_eq_ok.mp h
  obtain ⟨-, h⟩ := require_bind_eq_ok.mp h
  obtain ⟨⟨⟩, s₃, hstore, h⟩ := Transaction.bind_eq_ok.mp h
  obtain ⟨hkeeps, hdeclared⟩ := setPageTypeIds_keeps hset
  obtain ⟨hrow, hseeds, hpageTypes⟩ := content?_fields hc
  obtain ⟨pageType, hpageType, rfl⟩ := ensurePageTypeBelongsToVersion_eq_ok.mp hbelongs
  have hmatchersEdits := deleteUrlMatcherRows_edits hmatchers hpageType
  obtain ⟨-, rfl⟩ := deleteUrlMatcherRows_eq_ok hmatchers
  have hdeletes := deletePageTypeRow_edits hdelete
  obtain ⟨-, -, rfl⟩ := deletePageTypeRow_eq_ok hdelete
  obtain ⟨hedits, versions, rfl, hrow⟩ := updateVersionConfiguration_eq_ok hstore
    (hkeeps.id.trans (hsound.id_eq hc)) hrow hdraft
  refine hs.audited hc ((hmatchersEdits.trans hdeletes).trans hedits) hkeeps hrow rfl ?_ ?_ h
  -- a hint to the deleted page type would have made the deletion fail
  · intro seed hseed hint hhint
    rw [hdeclared, List.mem_filter, decide_eq_true_eq]
    refine ⟨hsound.hints seed hseed hint hhint, ?_⟩
    rintro rfl
    refine hint_ne_of_unused hunused ?_ hseed hhint
    rw [hsound.id_eq hc, ← hseeds]
    exact hsound.seeds
  · rw [hdeclared]
    -- what is left of the version's page types is what its list now declares
    have hrows : (s.pageTypes.delete (PageTypeRow.is pageTypeId pageType.crawlerVersionId)).select
        (fun row => row.crawlerVersionId = pageType.crawlerVersionId) =
          (s.pageTypesOf pageType.crawlerVersionId).filter fun row => row.id ≠ pageTypeId := by
      show List.filter _ (List.filter _ _) = List.filter _ (List.filter _ _)
      rw [List.filter_filter, List.filter_filter]
      refine List.filter_congr fun row _ => ?_
      by_cases hv : row.crawlerVersionId = pageType.crawlerVersionId
      · simp [PageTypeRow.is, hv]
      · simp [hv]
    show ((Table.select _ _).map PageTypeRow.id).Perm _
    have hids := hsound.pageTypes.filter (· ≠ pageTypeId)
    rw [hrows, ← hpageTypes]
    rw [List.filter_map] at hids
    exact hids

/-! ### Matchers -/

/-- A valid matcher may be created. -/
theorem createUrlMatcher_keeps (pageTypeId matcherId : Id) (matcher : UrlMatcher) :
    Keeps (Coherent lib)
      (createUrlMatcher lib services crawlerId v author pageTypeId matcherId matcher) := by
  intro s u s' h hs
  obtain ⟨⟨⟩, -, h⟩ := lift_bind_eq_ok.mp h
  rw [read_bind, lift_bind_eq_ok] at h
  obtain ⟨version, hload, h⟩ := h
  obtain ⟨c, hc, hsound, rfl, -, hdraft, -⟩ := loadMutationVersion_eq_ok.mp hload
  obtain ⟨⟨⟩, hbelongs, h⟩ := lift_bind_eq_ok.mp h
  obtain ⟨⟨⟩, s₁, hinsert, h⟩ := Transaction.bind_eq_ok.mp h
  obtain ⟨hrow, -, hpageTypes⟩ := content?_fields hc
  obtain ⟨pageType, hpageType, rfl⟩ := ensurePageTypeBelongsToVersion_eq_ok.mp hbelongs
  have hedits := insertUrlMatcher_edits hinsert hpageType
  obtain ⟨-, -, urlMatchers, -, rfl⟩ := insertUrlMatcher_eq_ok hinsert
  exact hs.audited hc hedits ⟨rfl, rfl, rfl, rfl⟩ hrow rfl hsound.hints
    (hpageTypes ▸ hsound.pageTypes) h

/-- A matcher may be replaced by a valid one. -/
theorem updateUrlMatcher_keeps (pageTypeId matcherId : Id) (matcher : UrlMatcher) :
    Keeps (Coherent lib)
      (updateUrlMatcher lib services crawlerId v author pageTypeId matcherId matcher) := by
  intro s u s' h hs
  obtain ⟨⟨⟩, -, h⟩ := lift_bind_eq_ok.mp h
  rw [read_bind, lift_bind_eq_ok] at h
  obtain ⟨version, hload, h⟩ := h
  obtain ⟨c, hc, hsound, rfl, -, hdraft, -⟩ := loadMutationVersion_eq_ok.mp hload
  obtain ⟨⟨⟩, hbelongs, h⟩ := lift_bind_eq_ok.mp h
  obtain ⟨n, s₁, hupdate, h⟩ := Transaction.bind_eq_ok.mp h
  obtain ⟨hrow, -, hpageTypes⟩ := content?_fields hc
  obtain ⟨pageType, hpageType, rfl⟩ := ensurePageTypeBelongsToVersion_eq_ok.mp hbelongs
  have hedits := updateUrlMatcherRow_edits hupdate hpageType
  obtain ⟨-, rfl⟩ := updateUrlMatcherRow_eq_ok hupdate
  split at h
  · exact hs.audited hc hedits ⟨rfl, rfl, rfl, rfl⟩ hrow rfl hsound.hints
      (hpageTypes ▸ hsound.pageTypes) h
  · obtain ⟨-, -, h⟩ := lift_bind_eq_ok.mp h
    cases h

/-- A matcher may be deleted. -/
theorem deleteUrlMatcher_keeps (pageTypeId matcherId : Id) :
    Keeps (Coherent lib)
      (deleteUrlMatcher lib services crawlerId v author pageTypeId matcherId) := by
  intro s u s' h hs
  rw [deleteUrlMatcher, read_bind, lift_bind_eq_ok] at h
  obtain ⟨version, hload, h⟩ := h
  obtain ⟨c, hc, hsound, rfl, -, hdraft, -⟩ := loadMutationVersion_eq_ok.mp hload
  obtain ⟨⟨⟩, hbelongs, h⟩ := lift_bind_eq_ok.mp h
  obtain ⟨n, s₁, hdelete, h⟩ := Transaction.bind_eq_ok.mp h
  obtain ⟨hrow, -, hpageTypes⟩ := content?_fields hc
  obtain ⟨pageType, hpageType, rfl⟩ := ensurePageTypeBelongsToVersion_eq_ok.mp hbelongs
  have hedits := deleteUrlMatcherRows_edits hdelete hpageType
  obtain ⟨-, rfl⟩ := deleteUrlMatcherRows_eq_ok hdelete
  split at h
  · exact hs.audited hc hedits ⟨rfl, rfl, rfl, rfl⟩ hrow rfl hsound.hints
      (hpageTypes ▸ hsound.pageTypes) h
  · obtain ⟨-, -, h⟩ := lift_bind_eq_ok.mp h
    cases h

/-! ### Test evidence -/

/-- The evidence of a transition is not part of what makes it sound. -/
theorem TransitionsSound.withEvidence {version : CrawlerVersion} {transition : TransitionRow}
    {evidenceId : Id} (h : TransitionsSound version (s.transitionsOf v))
    (htransition : transition ∈ s.transitionsOf v)
    (hupdate : s'.transitions = s.transitions.update (TransitionRow.is transition.id v) fun row =>
      ⟨row.id, row.crawlerVersionId,
        { transition.configuration with latestTestEvidenceId := some evidenceId }⟩) :
    TransitionsSound version (s'.transitionsOf v) := by
  have hrows : s'.transitionsOf v =
      (s.transitionsOf v).map fun row => if TransitionRow.is transition.id v row then
        ⟨row.id, row.crawlerVersionId,
          { transition.configuration with latestTestEvidenceId := some evidenceId }⟩ else row := by
    rw [VersionStore.transitionsOf, hupdate]
    show List.filter _ (List.map _ _) = List.map _ (List.filter _ _)
    rw [List.filter_map]
    refine congrArg _ (List.filter_congr fun row _ => ?_)
    rw [Function.comp_apply]
    split <;> rfl
  -- the row that is updated is the transition, by its key
  have hrow : ∀ row ∈ s.transitionsOf v, TransitionRow.is transition.id v row = true →
      row = transition := fun row hrow hp =>
    s.transitions.eq_of_key_eq (mem_transitionsOf.mp hrow).1 (mem_transitionsOf.mp htransition).1
      (TransitionRow.is_iff.mp hp).1
  rw [hrows]
  refine ⟨?_, ?_, ?_, ?_⟩
  · rw [List.map_map]
    refine (List.Perm.of_eq (List.map_congr_left fun row _ => ?_)).trans h.declared
    rw [Function.comp_apply]
    split <;> rfl
  all_goals
    intro row' hrow'
    obtain ⟨row, hmem, rfl⟩ := List.mem_map.mp hrow'
  · split
    · rename_i hp
      rw [hrow row hmem hp]
      exact h.configured transition htransition
    · exact h.configured row hmem
  · split
    · exact h.endpoints transition htransition
    · exact h.endpoints row hmem
  · split
    · exact h.valid transition htransition
    · exact h.valid row hmem

/-- Evidence may be attached. -/
theorem attachTransitionEvidence_keeps (configHash : String) (transitionId evidenceId : Id) :
    Keeps (Coherent lib)
      (attachTransitionEvidence lib services crawlerId v configHash transitionId evidenceId) := by
  intro s u s' h hs
  rw [attachTransitionEvidence, read_bind, lift_bind_eq_ok] at h
  obtain ⟨hash, -, h⟩ := h
  obtain ⟨-, h⟩ := require_bind_eq_ok.mp h
  cases hfind : (s.transitionsOf v).find? fun row => row.id = transitionId with
  | none =>
    rw [hfind] at h
    cases h
  | some transition =>
    rw [hfind] at h
    obtain ⟨-, h⟩ := require_bind_eq_ok.mp h
    obtain ⟨n, s₁, hupdate, h⟩ := Transaction.bind_eq_ok.mp h
    obtain ⟨-, rfl⟩ := require_eq_ok.mp h
    have htransition := List.mem_of_find?_eq_some hfind
    have hid : transition.id = transitionId := by simpa using List.find?_some hfind
    subst hid
    have hedits := updateTransitionRow_edits hupdate
    obtain ⟨-, rfl⟩ := updateTransitionRow_eq_ok hupdate
    refine hs.edit hedits fun c' hc' => ?_
    obtain ⟨row, hrow, rfl⟩ := content?_eq_some.mp hc'
    have hsound := hs.sound v _ (content?_eq_some.mpr ⟨row, hrow, rfl⟩)
    exact { hsound with transitions := hsound.transitions.withEvidence htransition rfl }

end Erabi.Versions

/-
# Drafts

A new draft is a row, the seeds of it and the pointer of its crawler, in this order.  The
store is coherent again when all of them are there.
-/
import Mathlib
import Erabi.Versions.Editing
import Erabi.Versions.Operations

namespace Erabi.Versions

open Relational Transaction
open Authoring
open Erabi.Configuration (CrawlerVersionState)

variable {lib : Libraries} {services : Services} {s s₁ s₂ s₃ s' : VersionStore}
  {v w crawlerId : Id} {author : Author} {u : Unit} {c : Content} {row : VersionRow}

/-! ## New crawlers and events -/

/-- Other versions and crawlers under the same rows: no version is lost, and each of the new
ones has its crawler. -/
theorem ForeignKeys.of_versions (h : ForeignKeys s) {crawlers : Table Crawler Id Crawler.id}
    {versions : Table VersionRow Id VersionRow.id}
    (hsome : ∀ w, (s.versions.find? w).isSome = true → (versions.find? w).isSome = true)
    (howners : ∀ row ∈ versions.rows, (crawlers.find? row.crawlerId).isSome = true) :
    ForeignKeys { s with crawlers := crawlers, versions := versions } where
  versions := howners
  seeds seed hseed := hsome _ (h.seeds seed hseed)
  pageTypes pageType hpageType := hsome _ (h.pageTypes pageType hpageType)
  urlMatchers := h.urlMatchers
  transitions transition htransition := hsome _ (h.transitions transition htransition)

/-- Audit events do not matter. -/
theorem Coherent.withEvents (hs : Coherent lib s)
    (auditEvents : Table AuditEvent String AuditEvent.id) :
    Coherent lib { s with auditEvents := auditEvents } where
  keys := ⟨hs.keys.versions, hs.keys.seeds, hs.keys.pageTypes, hs.keys.urlMatchers,
    hs.keys.transitions⟩
  drafts := hs.drafts
  published := hs.published
  active := hs.active
  sound := hs.sound

/-- An audit event may be recorded. -/
theorem insertAuditEvent_keeps (event : AuditEvent) :
    Keeps (Coherent lib) (insertAuditEvent event) := by
  intro s u s' h hs
  obtain ⟨auditEvents, -, rfl⟩ := insertAuditEvent_eq_ok h
  exact hs.withEvents auditEvents

/-- A crawler may be created. -/
theorem create_keeps (crawlerId : Id) : Keeps (Coherent lib) (create crawlerId) := by
  intro s u s' h hs
  obtain ⟨crawlers, hinsert, rfl⟩ := insertCrawler_eq_ok h
  have hnew := (Table.insert?_eq_some.mp hinsert).1
  refine ⟨hs.keys.of_versions (fun _ h => h) fun row hrow => ?_, fun crawler hcrawler => ?_,
    fun crawler hcrawler => ?_, fun row hrow hdraft crawler hcrawler howner => ?_, hs.sound⟩
  · show (crawlers.find? row.crawlerId).isSome = true
    rw [Table.find?_insert hinsert]
    split
    · rfl
    · exact hs.keys.versions row hrow
  · rcases (Table.mem_insert hinsert).mp hcrawler with hcrawler | rfl
    · exact hs.drafts crawler hcrawler
    · exact fun _ h => by cases h
  · rcases (Table.mem_insert hinsert).mp hcrawler with hcrawler | rfl
    · exact hs.published crawler hcrawler
    · exact fun _ h => by cases h
  · rcases (Table.mem_insert hinsert).mp hcrawler with hcrawler | rfl
    · exact hs.active row hrow hdraft crawler hcrawler howner
    · -- no version is one of a crawler that was not there
      have hfound := hs.keys.versions row hrow
      rw [← howner, hnew] at hfound
      cases hfound

/-! ## A new draft -/

/-- The crawler points to the draft. -/
theorem activateDraft_eq_ok (h : activateDraft v crawlerId s = .ok (u, s')) :
    s' = { s with crawlers := s.crawlers.update (fun crawler =>
      crawler.id = crawlerId && crawler.activeDraftVersionId = none) fun crawler =>
        ⟨crawler.id, crawler.activePublishedVersionId, some v⟩ } := by
  obtain ⟨n, s₁, hupdate, h⟩ := Transaction.bind_eq_ok.mp h
  obtain ⟨-, rfl⟩ := require_eq_ok.mp h
  exact (updateCrawlers_eq_ok hupdate).2

/-- The crawlers after an update of their pointers. -/
theorem mem_updateCrawlers {crawlers : Table Crawler Id Crawler.id} {p : Crawler → Bool}
    {published draft : Crawler → Option Id} {crawler : Crawler}
    (h : crawler ∈ (crawlers.update p fun crawler =>
      ⟨crawler.id, published crawler, draft crawler⟩).rows) :
    ∃ old ∈ crawlers.rows, crawler.id = old.id ∧
      (p old = true ∧ crawler.activePublishedVersionId = published old ∧
        crawler.activeDraftVersionId = draft old ∨ p old = false ∧ crawler = old) := by
  obtain ⟨old, hold, rfl⟩ := List.mem_map.mp h
  refine ⟨old, hold, ?_⟩
  split
  · rename_i hp
    exact ⟨rfl, Or.inl ⟨hp, rfl, rfl⟩⟩
  · rename_i hp
    exact ⟨rfl, Or.inr ⟨Bool.not_eq_true _ ▸ hp, rfl⟩⟩

/-- No crawler comes or goes. -/
theorem isSome_updateCrawlers {crawlers : Table Crawler Id Crawler.id} {p : Crawler → Bool}
    {published draft : Crawler → Option Id} :
    ((crawlers.update p fun crawler => ⟨crawler.id, published crawler, draft crawler⟩).find?
      crawlerId).isSome = (crawlers.find? crawlerId).isSome := by
  rw [Table.find?_update, Option.isSome_map]

/-- The rows of a draft are inserted and its crawler points to it. -/
structure NewDraft (row : VersionRow) (s s₁ s₂ s₃ : VersionStore) : Prop where
  free : ∀ crawler ∈ s.crawlers.rows, crawler.id = row.crawlerId →
    crawler.activeDraftVersionId = none
  draft : row.state = .draft
  inserted : insertVersion row s = .ok ((), s₁)
  children : Edits row.id s₁ s₂
  activated : activateDraft row.id row.crawlerId s₂ = .ok ((), s₃)

namespace NewDraft

variable (h : NewDraft row s s₁ s₂ s₃)

include h

/-- The version of a new draft was not stored before. -/
theorem find?_versions : s.versions.find? row.id = none := by
  obtain ⟨-, versions, hinsert, -⟩ := insertVersion_eq_ok h.inserted
  exact (Table.insert?_eq_some.mp hinsert).1

/-- The seeds of the draft do not touch the crawlers. -/
theorem crawlers_eq : s₂.crawlers = s.crawlers := by
  obtain ⟨-, versions, -, hs₁⟩ := insertVersion_eq_ok h.inserted
  exact h.children.crawlers.trans (hs₁ ▸ rfl)

/-- The columns of the versions: those that were there, and the draft. -/
theorem columns (w : Id) : (s₃.versions.find? w).map VersionRow.columns =
    if row.id = w then some (row.crawlerId, .draft)
    else (s.versions.find? w).map VersionRow.columns := by
  have hs₃ : s₃.versions = s₂.versions := by
    rw [activateDraft_eq_ok h.activated]
  obtain ⟨-, versions, hinsert, hs₁⟩ := insertVersion_eq_ok h.inserted
  have hfind : s₁.versions.find? w = if row.id = w then some row else s.versions.find? w := by
    rw [hs₁]
    exact Table.find?_insert hinsert w
  rw [hs₃, h.children.columns, hfind]
  split
  · rw [Option.map_some, VersionRow.columns, h.draft]
  · rfl

/-- Pointers to other versions still lead there. -/
theorem pointsTo_old {crawlerId : Id} {state : CrawlerVersionState}
    (hold : s.pointsTo crawlerId w state = true) : s₃.pointsTo crawlerId w state = true := by
  have hne : row.id ≠ w := by
    rintro rfl
    rw [VersionStore.pointsTo, h.find?_versions] at hold
    cases hold
  rw [pointsTo_eq, h.columns, if_neg hne, ← pointsTo_eq]
  exact hold

/-- The crawler points to the new draft. -/
theorem pointsTo_new : s₃.pointsTo row.crawlerId row.id .draft = true := by
  rw [pointsTo_eq, h.columns, if_pos rfl]
  simp

/-- The content of other versions is what it was. -/
theorem content? (hw : w ≠ row.id) : s₃.content? w = s.content? w := by
  have hs₃ : s₃.content? w = s₂.content? w := by
    rw [activateDraft_eq_ok h.activated]
    rfl
  obtain ⟨-, versions, hinsert, hs₁⟩ := insertVersion_eq_ok h.inserted
  rw [hs₃, h.children.others w (Or.inl hw), hs₁]
  exact content?_insertVersion hinsert hw.symm

/-- The draft has the content that was written for it. -/
theorem content?_new : s₃.content? row.id = s₂.content? row.id := by
  rw [activateDraft_eq_ok h.activated]
  rfl

/-- The crawler of the draft points to it, and the others are what they were. -/
theorem mem_crawlers {crawler : Crawler} (hcrawler : crawler ∈ s₃.crawlers.rows) :
    ∃ old ∈ s.crawlers.rows, crawler.id = old.id ∧
      ((old.id = row.crawlerId ∧ old.activeDraftVersionId = none) ∧
        crawler.activePublishedVersionId = old.activePublishedVersionId ∧
          crawler.activeDraftVersionId = some row.id ∨
        old.id ≠ row.crawlerId ∧ crawler = old) := by
  rw [activateDraft_eq_ok h.activated, h.crawlers_eq] at hcrawler
  obtain ⟨old, hold, hid, hcase⟩ := mem_updateCrawlers hcrawler
  refine ⟨old, hold, hid, hcase.imp (fun ⟨hp, hrest⟩ => ⟨?_, hrest⟩)
    fun ⟨hp, hsame⟩ => ⟨fun howner => ?_, hsame⟩⟩
  · simpa using hp
  · simp [howner, h.free old hold howner] at hp

/-- The foreign keys hold with the new draft. -/
theorem keys (hkeys : ForeignKeys s) : ForeignKeys s₃ := by
  have hkeys₁ : ForeignKeys s₁ := by
    obtain ⟨hcrawler, versions, hinsert, hs₁⟩ := insertVersion_eq_ok h.inserted
    have hsome : ∀ w, (s.versions.find? w).isSome = true → (versions.find? w).isSome = true := by
      intro w hw
      rw [Table.find?_insert hinsert]
      split
      · rfl
      · exact hw
    rw [hs₁]
    refine hkeys.of_versions hsome fun other hother => ?_
    rcases (Table.mem_insert hinsert).mp hother with hother | rfl
    · exact hkeys.versions other hother
    · exact hcrawler
  have hkeys₂ := h.children.keys hkeys₁
  rw [activateDraft_eq_ok h.activated]
  exact hkeys₂.of_versions (fun _ h => h) fun other hother =>
    isSome_updateCrawlers.trans (hkeys₂.versions other hother)

/-- A store with a new draft is coherent if the draft is sound. -/
theorem coherent (hs : Coherent lib s) (hv : ∀ c, s₃.content? row.id = some c → c.Sound lib) :
    Coherent lib s₃ := by
  refine ⟨h.keys hs.keys, ?_, ?_, ?_, ?_⟩
  -- a crawler either got the new draft or is as it was
  · intro crawler hcrawler v hv
    obtain ⟨old, hold, hid, ⟨⟨howner, -⟩, -, hdraft⟩ | ⟨-, rfl⟩⟩ := h.mem_crawlers hcrawler
    · rw [hdraft] at hv
      cases hv
      rw [hid, howner]
      exact h.pointsTo_new
    · exact h.pointsTo_old (hs.drafts crawler hold v hv)
  · intro crawler hcrawler v hv
    obtain ⟨old, hold, hid, ⟨-, hpublished, -⟩ | ⟨-, rfl⟩⟩ := h.mem_crawlers hcrawler
    · rw [hpublished] at hv
      rw [hid]
      exact h.pointsTo_old (hs.published old hold v hv)
    · exact h.pointsTo_old (hs.published crawler hold v hv)
  · intro other hother hdraft crawler hcrawler howner
    have hcolumns := h.columns other.id
    rw [Table.find?_key hother, Option.map_some] at hcolumns
    obtain ⟨old, hold, hid, ⟨⟨hfree, hnone⟩, -, hnew⟩ | ⟨hne, rfl⟩⟩ := h.mem_crawlers hcrawler
    all_goals split at hcolumns
    · rename_i heq
      rw [hnew, heq]
    · -- another draft of the crawler would be its active one
      rw [eq_comm, Option.map_eq_some_iff] at hcolumns
      obtain ⟨row', hrow', hcolumns⟩ := hcolumns
      obtain ⟨hcrawlerId, hstate⟩ := Prod.mk.injEq .. ▸ hcolumns
      have hactive := hs.active row' (Table.mem_of_find? hrow') (hstate.trans hdraft) old hold
        (hid.symm.trans (howner.trans hcrawlerId.symm))
      rw [hnone] at hactive
      cases hactive
    · obtain ⟨hcrawlerId, -⟩ := Prod.mk.injEq .. ▸ Option.some.inj hcolumns
      exact absurd (howner.trans hcrawlerId) hne
    · rw [eq_comm, Option.map_eq_some_iff] at hcolumns
      obtain ⟨row', hrow', hcolumns⟩ := hcolumns
      obtain ⟨hcrawlerId, hstate⟩ := Prod.mk.injEq .. ▸ hcolumns
      rw [← Table.key_of_find? hrow']
      exact hs.active row' (Table.mem_of_find? hrow') (hstate.trans hdraft) crawler hold
        (howner.trans hcrawlerId.symm)
  · intro w c hc
    by_cases hw : w = row.id
    · subst hw
      exact hv c hc
    · exact hs.sound w c (h.content? hw ▸ hc)

end NewDraft

/-! ## Seeds and page types of a draft -/

/-- Seeds that are inserted one after the other are the seeds of the version, in order. -/
theorem foldEach_insertSeed {f : Seed → VersionTx Unit} {g : Seed → Seed}
    (hf : ∀ seed s s', f seed s = .ok ((), s') → insertSeed v (g seed) s = .ok ((), s'))
    {seeds : List Seed} (h : foldEach (fun _ => f) () seeds s = .ok ((), s')) :
    Edits v s s' ∧ (∃ rows, s' = { s with seeds := rows }) ∧
      s'.seedsOf v = s.seedsOf v ++ seeds.map g := by
  refine foldEach_induction (Q := fun seeds s s' => Edits v s s' ∧
    (∃ rows, s' = { s with seeds := rows }) ∧ s'.seedsOf v = s.seedsOf v ++ seeds.map g)
      (fun s => ⟨.refl v s, ⟨s.seeds, rfl⟩, (List.append_nil _).symm⟩) ?_ h
  rintro seed seeds s s₁ s' hseed ⟨hedits, ⟨rows, rfl⟩, hrows⟩
  have hinsert := hf seed s s₁ hseed
  obtain ⟨-, rows', hnew, rfl⟩ := insertSeed_eq_ok hinsert
  refine ⟨(insertSeed_edits hinsert).trans hedits, ⟨rows, rfl⟩, ?_⟩
  rw [hrows, seedsOf_insert hnew, if_pos rfl, List.append_assoc]
  rfl

/-- The seed rows of a version are written anew from the version. -/
theorem syncSeedRows_eq_ok {version : CrawlerVersion}
    (h : syncSeedRows version s = .ok (u, s')) : Edits version.id s s' ∧
      (∃ rows, s' = { s with seeds := rows }) ∧ s'.seedsOf version.id = version.seeds := by
  obtain ⟨⟨⟩, s₁, hdelete, h⟩ := Transaction.bind_eq_ok.mp h
  have hdeletes := deleteSeeds_edits hdelete
  obtain ⟨-, rfl⟩ := deleteSeeds_eq_ok hdelete
  obtain ⟨hedits, ⟨rows, rfl⟩, hrows⟩ := foldEach_insertSeed (g := id) (fun _ _ _ h => h) h
  refine ⟨hdeletes.trans hedits, ⟨rows, rfl⟩, ?_⟩
  rw [hrows, seedsOf_delete, List.nil_append, List.map_id]

/-- The page types of a clone are inserted one after another. -/
theorem foldEach_insertPageType {g : PageTypeRow → PageTypeRow}
    (hg : ∀ row, (g row).crawlerVersionId = v) {rows : List PageTypeRow}
    (h : foldEach (fun _ row => insertPageType (g row)) () rows s = .ok ((), s')) :
    Edits v s s' ∧ (∃ pageTypes, s' = { s with pageTypes := pageTypes }) ∧
      ∀ w, s'.pageTypesOf w = s.pageTypesOf w ++ if v = w then rows.map g else [] := by
  refine foldEach_induction (Q := fun rows s s' => Edits v s s' ∧
    (∃ pageTypes, s' = { s with pageTypes := pageTypes }) ∧
      ∀ w, s'.pageTypesOf w = s.pageTypesOf w ++ if v = w then rows.map g else [])
        (fun s => ⟨.refl v s, ⟨s.pageTypes, rfl⟩, fun w => ?_⟩) ?_ h
  · rw [List.map_nil, ite_self, List.append_nil]
  · rintro row rows s s₁ s' hinsert ⟨hedits, ⟨pageTypes, rfl⟩, hrows⟩
    have hinserts := insertPageType_edits hinsert
    obtain ⟨-, pageTypes', hnew, rfl⟩ := insertPageType_eq_ok hinsert
    rw [hg] at hinserts
    refine ⟨hinserts.trans hedits, ⟨pageTypes, rfl⟩, fun w => ?_⟩
    rw [hrows, pageTypesOf_insert hnew, hg, List.append_assoc]
    congr 1
    split <;> rfl

/-- A version that is not there has no rows. -/
theorem noChildren (hkeys : ForeignKeys s) (hv : s.versions.find? v = none) :
    s.seedsOf v = [] ∧ s.pageTypesOf v = [] ∧ s.matchersOf v = [] ∧ s.transitionsOf v = [] := by
  have hpageTypes : ∀ row ∈ s.pageTypes.rows, row.crawlerVersionId ≠ v := by
    rintro row hrow rfl
    have := hkeys.pageTypes row hrow
    rw [hv] at this
    cases this
  refine ⟨seedsOf_eq_nil.mpr fun row hrow heq => ?_, List.filter_eq_nil_iff.mpr fun row hrow => ?_,
    List.eq_nil_iff_forall_not_mem.mpr fun matcher hmatcher => ?_,
      List.filter_eq_nil_iff.mpr fun row hrow => ?_⟩
  · have := hkeys.seeds row hrow
    rw [heq, hv] at this
    cases this
  · rw [decide_eq_true_eq]
    exact hpageTypes row hrow
  · obtain ⟨-, row, hrow, heq⟩ := mem_matchersOf_iff.mp hmatcher
    exact hpageTypes row (Table.mem_of_find? hrow) heq
  · rw [decide_eq_true_eq]
    rintro heq
    have := hkeys.transitions row hrow
    rw [heq, hv] at this
    cases this

/-! ## Drafts -/

/-- The crawler of the identifier has no active draft. -/
theorem free_of_activeDraftFor (h : s.activeDraftFor crawlerId = .ok none) :
    ∀ crawler ∈ s.crawlers.rows, crawler.id = crawlerId → crawler.activeDraftVersionId = none := by
  obtain ⟨found, hfound, hnone⟩ := activeDraftFor_eq_ok.mp h
  rintro crawler hcrawler rfl
  rw [Table.find?_key hcrawler] at hfound
  cases hfound
  exact hnone

/-- A new draft is inserted with its seeds and its audit event. -/
theorem insertDraftInTransaction_eq_ok {version : CrawlerVersion} {base : Option Id}
    (h : insertDraftInTransaction lib version base author s = .ok (u, s')) :
    version.Contract lib ∧ ∃ s₁ s₂ s₃,
      NewDraft ⟨version.id, version.crawlerId, .draft, version⟩ s s₁ s₂ s₃ ∧
        (∃ rows, s₂ = { s₁ with seeds := rows }) ∧ s₂.seedsOf version.id = version.seeds ∧
          ∃ event, insertAuditEvent event s₃ = .ok ((), s') := by
  obtain ⟨⟨⟩, hcontract, h⟩ := lift_bind_eq_ok.mp h
  rw [read_bind, lift_bind_eq_ok] at h
  obtain ⟨active, hactive, h⟩ := h
  obtain ⟨hnone, h⟩ := require_bind_eq_ok.mp h
  obtain ⟨⟨⟩, s₁, hinsert, h⟩ := Transaction.bind_eq_ok.mp h
  obtain ⟨⟨⟩, s₂, hsync, h⟩ := Transaction.bind_eq_ok.mp h
  obtain ⟨⟨⟩, s₃, hactivate, h⟩ := Transaction.bind_eq_ok.mp h
  obtain ⟨hedits, hrows, hseeds⟩ := syncSeedRows_eq_ok hsync
  exact ⟨CrawlerVersion.validateSemanticContract_eq_ok.mp (orElse_eq_ok.mp hcontract), s₁, s₂, s₃,
    ⟨free_of_activeDraftFor (hnone ▸ hactive), rfl, hinsert, hedits, hactivate⟩, hrows, hseeds, _,
      h⟩

/-- What is stored of a version that was just inserted with its seeds. -/
theorem NewDraft.content?_seeds (hkeys : ForeignKeys s) (h : NewDraft row s s₁ s₂ s₃)
    (hrows : ∃ rows, s₂ = { s₁ with seeds := rows }) :
    s₃.content? row.id = some ⟨row, s₂.seedsOf row.id, [], [], []⟩ := by
  obtain ⟨-, hpageTypes, hmatchers, htransitions⟩ := noChildren hkeys h.find?_versions
  obtain ⟨-, versions, hinsert, hs₁⟩ := insertVersion_eq_ok h.inserted
  obtain ⟨rows, hs₂⟩ := hrows
  have hsame : s₂.versions.find? row.id = some row ∧ s₂.pageTypesOf row.id = [] ∧
      s₂.matchersOf row.id = [] ∧ s₂.transitionsOf row.id = [] := by
    rw [hs₂, hs₁]
    exact ⟨(Table.find?_insert hinsert row.id).trans (if_pos rfl), hpageTypes, hmatchers,
      htransitions⟩
  obtain ⟨hfind, hpageTypes, hmatchers, htransitions⟩ := hsame
  rw [h.content?_new]
  refine content?_eq_some.mpr ⟨row, hfind, ?_⟩
  rw [hpageTypes, hmatchers, htransitions]

/-- An empty draft may be created. -/
theorem createDraft_keeps (versionId : Id) (author : Author) :
    Keeps (Coherent lib) (createDraft lib crawlerId versionId author) := by
  intro s u s' h hs
  obtain ⟨hcontract, s₁, s₂, s₃, hdraft, hrows, hseeds, event, hevent⟩ :=
    insertDraftInTransaction_eq_ok h
  refine insertAuditEvent_keeps event s₃ _ s' hevent (hdraft.coherent hs fun c hc => ?_)
  rw [hdraft.content?_seeds hs.keys hrows, Option.some.injEq] at hc
  subst hc
  exact {
    id := rfl
    crawlerId := rfl
    state := rfl
    contract := hcontract
    seeds := List.Perm.of_eq hseeds
    hints := fun _ h => by cases h
    pageTypes := .nil
    transitions := ⟨.nil, fun _ h => (by cases h), fun _ h => (by cases h), fun _ h => (by cases h)⟩
    matchers := fun _ h => by cases h }

/-- A draft that is saved declares what is stored of it, and its hints are of its page types. -/
def SavesStored (s : VersionStore) (version : CrawlerVersion) : Prop :=
  (∃ row ∈ s.versions.find? version.id,
    version.pageTypeIds.Perm row.semanticConfiguration.pageTypeIds ∧
      version.transitionIds.Perm row.semanticConfiguration.transitionIds) ∧
    ∀ seed ∈ version.seeds, ∀ hint ∈ seed.entryPageTypeHint, hint ∈ version.pageTypeIds

/-- The order in which a version declares its children does not matter. -/
theorem TransitionsSound.of_perm {version version' : CrawlerVersion}
    {transitions : List TransitionRow} (h : TransitionsSound version transitions)
    (hpageTypes : version'.pageTypeIds.Perm version.pageTypeIds)
    (htransitions : version'.transitionIds.Perm version.transitionIds) :
    TransitionsSound version' transitions where
  declared := h.declared.trans htransitions.symm
  configured := h.configured
  endpoints row hrow := ⟨hpageTypes.mem_iff.mpr (h.endpoints row hrow).1,
    hpageTypes.mem_iff.mpr (h.endpoints row hrow).2⟩
  valid := h.valid

/-- A draft may be saved that declares the children stored of it. -/
theorem saveDraft_coherent {version : CrawlerVersion}
    (h : saveDraft lib version author s = .ok (u, s')) (hs : Coherent lib s)
    (hsaves : SavesStored s version) : Coherent lib s' := by
  obtain ⟨⟨row, hrow, hpageTypes, htransitions⟩, hhints⟩ := hsaves
  -- through the checks of the source in their order, down to the two writes
  obtain ⟨hstate, h⟩ := require_bind_eq_ok.mp h
  obtain ⟨⟨⟩, hcontract, h⟩ := lift_bind_eq_ok.mp h
  rw [saveDraftInTransaction, read_bind, Option.mem_def.mp hrow] at h
  obtain ⟨hcrawler, h⟩ := require_bind_eq_ok.mp h
  obtain ⟨hdraft, h⟩ := require_bind_eq_ok.mp h
  obtain ⟨active, hactive, h⟩ := lift_bind_eq_ok.mp h
  obtain ⟨hpointer, h⟩ := require_bind_eq_ok.mp h
  obtain ⟨n, s₁, hupdate, hsync⟩ := Transaction.bind_eq_ok.mp h
  have hupdates := updateDraftVersion_edits hupdate
  obtain ⟨-, rfl⟩ := updateDraftVersion_eq_ok hupdate
  obtain ⟨hedits, ⟨rows, hs'⟩, hseeds⟩ := syncSeedRows_eq_ok hsync
  refine hs.edit (hupdates.trans hedits) fun c hc => ?_
  have hsound := hs.sound version.id _ (content?_eq_some.mpr ⟨row, hrow, rfl⟩)
  obtain ⟨row', hrow', rfl⟩ := content?_eq_some.mp hc
  have hp : row.isDraft version.id (fun _ => true) = true :=
    VersionRow.isDraft_iff.mpr ⟨⟨Table.key_of_find? hrow, hdraft⟩, rfl⟩
  rw [hs'] at hrow'
  have hfind := find?_updateDraftVersion s version.id (fun _ => true) .draft version version.id
  rw [Option.mem_def.mp hrow, Option.map_some, if_pos hp] at hfind
  cases hfind.symm.trans hrow'
  rw [hs'] at hseeds ⊢
  exact {
    id := (Table.key_of_find? hrow).symm
    crawlerId := hcrawler.symm
    state := hstate
    contract := CrawlerVersion.validateSemanticContract_eq_ok.mp (orElse_eq_ok.mp hcontract)
    seeds := List.Perm.of_eq hseeds
    hints := hhints
    pageTypes := hsound.pageTypes.trans hpageTypes.symm
    transitions := hsound.transitions.of_perm hpageTypes htransitions
    matchers := hsound.matchers }

/-! ## Publication -/

/-- What is validated before a publication is the stored draft. -/
theorem publicationValidationContext_eq_ok {versionId : Id}
    {evidence : String → Except CrawlerRepositoryError (List TestEvidence)}
    {context : VersionValidationContext}
    (h : s.publicationValidationContext lib services.hash crawlerId versionId evidence =
      .ok context) : ∃ row, s.versions.find? versionId = some row ∧
        context.version = row.semanticConfiguration ∧ row.crawlerId = crawlerId ∧
          row.state = .draft := by
  rw [VersionStore.publicationValidationContext, except_bind_eq_ok] at h
  obtain ⟨⟨⟩, -, h⟩ := h
  obtain ⟨⟨⟩, -, h⟩ := except_bind_eq_ok.mp h
  obtain ⟨version, hversion, h⟩ := except_bind_eq_ok.mp h
  obtain ⟨hcrawler, h⟩ := check_then_eq_ok.mp h
  obtain ⟨hstate, h⟩ := check_then_eq_ok.mp h
  obtain ⟨active, -, h⟩ := except_bind_eq_ok.mp h
  obtain ⟨-, h⟩ := check_then_eq_ok.mp h
  obtain ⟨pageTypes, -, h⟩ := except_bind_eq_ok.mp h
  obtain ⟨transitions, -, h⟩ := except_bind_eq_ok.mp h
  obtain ⟨hash, -, h⟩ := except_bind_eq_ok.mp h
  obtain ⟨testEvidence, -, h⟩ := except_bind_eq_ok.mp h
  cases h
  rw [VersionStore.loadPublicationVersion, VersionStore.loadVersionWith] at hversion
  cases hrow : s.versions.find? versionId with
  | none =>
    rw [hrow] at hversion
    cases hversion
  | some row =>
    rw [hrow] at hversion
    obtain ⟨loaded, hload, hversion⟩ := except_bind_eq_ok.mp hversion
    obtain ⟨⟨⟩, -, hversion⟩ := except_bind_eq_ok.mp hversion
    cases hversion
    rw [versionFromRow, check_then_eq_ok, if_neg (by simp)] at hload
    obtain ⟨⟨-, howner, hcolumn⟩, hload⟩ := hload
    cases hload
    exact ⟨row, rfl, rfl, howner.symm.trans hcrawler, hcolumn.symm.trans hstate⟩

/-- A sound version stays sound when it is published. -/
theorem Content.Sound.published (h : c.Sound lib) {published : CrawlerVersion}
    (hpublished : c.row.semanticConfiguration.publish = .ok published) :
    Content.Sound lib
      { c with row := ⟨c.row.id, c.row.crawlerId, .published, published⟩ } := by
  obtain ⟨-, rfl⟩ := CrawlerVersion.publish_eq_ok.mp hpublished
  exact {
    id := h.id
    crawlerId := h.crawlerId
    state := rfl
    contract := ⟨h.contract.canonicalizationPolicy, h.contract.domainScope,
      h.contract.guardrails, h.contract.budgets⟩
    seeds := h.seeds
    hints := h.hints
    pageTypes := h.pageTypes
    transitions := h.transitions.of_perm (.refl _) (.refl _)
    matchers := h.matchers }

section Publish

variable (hrow : s.versions.find? v = some row) (hdraft : row.state = .draft)

/-- The versions with one of them published. -/
def VersionStore.publishedRow (s : VersionStore) (v crawlerId : Id) (published : CrawlerVersion) :
    Table VersionRow Id VersionRow.id :=
  s.versions.update (VersionRow.isDraft v fun row => row.crawlerId = crawlerId) fun row =>
    ⟨row.id, row.crawlerId, .published, published⟩

include hrow hdraft

/-- The published version is the only row that changes. -/
theorem find?_publishedRow {published : CrawlerVersion} (w : Id) :
    (s.publishedRow v row.crawlerId published).find? w =
      if w = v then some ⟨row.id, row.crawlerId, .published, published⟩
      else s.versions.find? w := by
  rw [VersionStore.publishedRow, find?_updateDraftVersion]
  split
  · rename_i hw
    have hp : row.isDraft v (fun other => other.crawlerId = row.crawlerId) = true :=
      VersionRow.isDraft_iff.mpr ⟨⟨Table.key_of_find? hrow, hdraft⟩, decide_eq_true rfl⟩
    rw [hw, hrow, Option.map_some, if_pos hp]
  · rename_i hw
    cases hother : s.versions.find? w with
    | none => rfl
    | some other =>
      rw [Option.map_some, if_neg fun hp => hw ?_]
      exact (Table.key_of_find? hother).symm.trans (VersionRow.isDraft_iff.mp hp).1.1

/-- The other versions are what they were. -/
theorem pointsTo_publishedRow {published : CrawlerVersion}
    {crawlers : Table Crawler Id Crawler.id} {owner : Id} {state : CrawlerVersionState}
    (hw : w ≠ v) : VersionStore.pointsTo { s with
      versions := s.publishedRow v row.crawlerId published
      crawlers := crawlers } owner w state = s.pointsTo owner w state := by
  unfold VersionStore.pointsTo
  dsimp only
  rw [find?_publishedRow hrow hdraft, if_neg hw]

/-- The active draft of a crawler is published. -/
theorem Coherent.publish (hs : Coherent lib s) {published : CrawlerVersion}
    (hpublished : row.semanticConfiguration.publish = .ok published) :
    Coherent lib { s with
      versions := s.publishedRow v row.crawlerId published
      crawlers := s.crawlers.update (fun crawler =>
        crawler.id = row.crawlerId && crawler.activeDraftVersionId = some v) fun crawler =>
          ⟨crawler.id, some v, none⟩ } := by
  -- a crawler that is not updated has another draft
  have hothers : ∀ crawler ∈ s.crawlers.rows, ∀ draft ∈ crawler.activeDraftVersionId,
      (crawler.id = row.crawlerId && crawler.activeDraftVersionId = some v) = false →
        draft ≠ v := by
    rintro crawler hcrawler draft hdraft' hp rfl
    have hpoints := hs.drafts crawler hcrawler draft hdraft'
    rw [VersionStore.pointsTo, hrow, Option.any_some, Bool.and_eq_true, decide_eq_true_eq] at hpoints
    rw [← hpoints.1, Option.mem_def.mp hdraft'] at hp
    simp at hp
  have hfind : ∀ w, (s.publishedRow v row.crawlerId published).find? w =
      if w = v then some ⟨row.id, row.crawlerId, .published, published⟩
      else s.versions.find? w := find?_publishedRow hrow hdraft
  have hsome : ∀ w, (s.versions.find? w).isSome = true →
      ((s.publishedRow v row.crawlerId published).find? w).isSome = true := by
    intro w hw
    rw [hfind]
    split
    · rfl
    · exact hw
  refine ⟨hs.keys.of_versions hsome fun other hother => ?_, ?_, ?_, ?_, ?_⟩
  · obtain ⟨old, hold, rfl⟩ := List.mem_map.mp hother
    split <;> exact isSome_updateCrawlers.trans (hs.keys.versions old hold)
  · intro crawler hcrawler draft hdraft'
    obtain ⟨old, hold, hid', ⟨-, -, hnone⟩ | ⟨hp, rfl⟩⟩ := mem_updateCrawlers hcrawler
    · rw [hnone] at hdraft'
      cases hdraft'
    · rw [pointsTo_publishedRow hrow hdraft (hothers crawler hold draft hdraft' hp)]
      exact hs.drafts crawler hold draft hdraft'
  · intro crawler hcrawler w hw
    obtain ⟨old, hold, hid', ⟨hp, hpointer', -⟩ | ⟨hp, rfl⟩⟩ := mem_updateCrawlers hcrawler
    · rw [hpointer'] at hw
      cases hw
      rw [Bool.and_eq_true, decide_eq_true_eq] at hp
      rw [VersionStore.pointsTo, hfind, if_pos rfl, hid', hp.1]
      simp
    · have hpoints := hs.published crawler hold w hw
      rw [pointsTo_publishedRow hrow hdraft]
      · exact hpoints
      · rintro rfl
        rw [VersionStore.pointsTo, hrow, Option.any_some, hdraft] at hpoints
        simp at hpoints
  · intro other hother hdraft' crawler hcrawler hcrawlerId
    have hfound := Table.find?_key hother
    rw [hfind] at hfound
    split at hfound
    · cases hfound
      cases hdraft'
    · rename_i hne
      have hmem := Table.mem_of_find? hfound
      obtain ⟨old, hold, hid', ⟨hp, -⟩ | ⟨hp, rfl⟩⟩ := mem_updateCrawlers hcrawler
      · have hother' := hs.active other hmem hdraft' old hold (hid'.symm.trans hcrawlerId)
        simp only [Bool.and_eq_true, decide_eq_true_eq] at hp
        rw [hp.2] at hother'
        exact absurd (Option.some.inj hother').symm hne
      · exact hs.active other hmem hdraft' crawler hold hcrawlerId
  · intro w c hc
    by_cases hw : w = v
    · subst hw
      have hsound := hs.sound w _ (content?_eq_some.mpr ⟨row, hrow, rfl⟩)
      obtain ⟨row', hrow', rfl⟩ := content?_eq_some.mp hc
      rw [hfind, if_pos rfl] at hrow'
      cases hrow'
      exact hsound.published hpublished
    · refine hs.sound w c ?_
      rw [VersionStore.content?, hfind, if_neg hw] at hc
      exact hc

end Publish

/-- A draft may be published. -/
theorem publish_keeps (versionId : Id)
    (evidence : String → Except CrawlerRepositoryError (List TestEvidence)) (author : Author) :
    Keeps (Coherent lib) (publish lib services crawlerId versionId evidence author) := by
  intro s u s' h hs
  rw [Versions.publish, read_bind, lift_bind_eq_ok] at h
  obtain ⟨context, hcontext, h⟩ := h
  obtain ⟨report, -, h⟩ := lift_bind_eq_ok.mp h
  obtain ⟨-, h⟩ := require_bind_eq_ok.mp h
  obtain ⟨published, hpublished, h⟩ := lift_bind_eq_ok.mp h
  obtain ⟨n, s₁, hupdate, h⟩ := Transaction.bind_eq_ok.mp h
  obtain ⟨-, h⟩ := require_bind_eq_ok.mp h
  obtain ⟨m, s₂, hpointers, h⟩ := Transaction.bind_eq_ok.mp h
  obtain ⟨-, h⟩ := require_bind_eq_ok.mp h
  obtain ⟨row, hrow, hversion, rfl, hdraft⟩ := publicationValidationContext_eq_ok hcontext
  rw [hversion] at hpublished
  obtain ⟨-, rfl⟩ := updateDraftVersion_eq_ok hupdate
  obtain ⟨-, rfl⟩ := updateCrawlers_eq_ok hpointers
  exact insertAuditEvent_keeps _ _ _ s' h
    (Coherent.publish hrow hdraft hs (orElse_eq_ok.mp hpublished))

/-- A published version may be made active again. -/
theorem reactivatePublished_keeps (versionId : Id) (author : Author) :
    Keeps (Coherent lib) (reactivatePublished lib crawlerId versionId author) := by
  intro s u s' h hs
  rw [reactivatePublished, read_bind, lift_bind_eq_ok] at h
  obtain ⟨version, -, h⟩ := h
  obtain ⟨-, h⟩ := require_bind_eq_ok.mp h
  obtain ⟨-, h⟩ := require_bind_eq_ok.mp h
  obtain ⟨n, s₁, hupdate, h⟩ := Transaction.bind_eq_ok.mp h
  obtain ⟨-, h⟩ := require_bind_eq_ok.mp h
  obtain ⟨-, rfl⟩ := updateCrawlers_eq_ok hupdate
  refine insertAuditEvent_keeps _ _ _ s' h
    ⟨hs.keys.of_versions (fun _ h => h) fun row hrow => ?_, ?_, ?_, ?_, hs.sound⟩
  · exact isSome_updateCrawlers.trans (hs.keys.versions row hrow)
  · intro crawler hcrawler draft hdraft
    obtain ⟨old, hold, hid, ⟨-, -, hsame⟩ | ⟨-, rfl⟩⟩ := mem_updateCrawlers hcrawler
    · rw [hid]
      exact hs.drafts old hold draft (hsame ▸ hdraft)
    · exact hs.drafts crawler hold draft hdraft
  · intro crawler hcrawler published hpublished
    obtain ⟨old, hold, hid, ⟨hp, hpointer, -⟩ | ⟨-, rfl⟩⟩ := mem_updateCrawlers hcrawler
    · rw [hpointer] at hpublished
      cases hpublished
      rw [Bool.and_eq_true, decide_eq_true_eq] at hp
      rw [hid, hp.1]
      exact hp.2
    · exact hs.published crawler hold published hpublished
  · intro row hrow hdraft crawler hcrawler howner
    obtain ⟨old, hold, hid, ⟨-, -, hsame⟩ | ⟨-, rfl⟩⟩ := mem_updateCrawlers hcrawler
    · rw [hsame]
      exact hs.active row hrow hdraft old hold (hid.symm.trans howner)
    · exact hs.active row hrow hdraft crawler hold howner

end Erabi.Versions

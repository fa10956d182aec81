/-
# Publication of an active draft

In a coherent store an active draft passes every check of its publication but one: nothing
else than the evidence and the report of the validation decides whether it is published.
What is published once can be made the active version again.
-/
import Mathlib
import Erabi.Versions.Runs

namespace Erabi.Versions

open Relational Transaction
open Authoring
open Erabi.Configuration (CrawlerVersionState)

variable {lib : Libraries} {services : Services} {s : VersionStore} {v : Id} {c : Content}
  {version : CrawlerVersion} {crawler : Crawler} {author : Author}

/-! ## Without a validation -/

/-- A result is handed on. -/
theorem ok_bind {ε α β : Type} (a : α) (f : α → Except ε β) : (Except.ok a >>= f) = f a := rfl

/-- A check passes where its condition holds. -/
theorem check_of {p : Prop} [Decidable p] {e : CrawlerRepositoryError} (h : p) :
    check p e = .ok () := check_eq_ok.mpr h

/-- Where every element is accepted with the same value, so is the list. -/
theorem mapM_mono {ε α β : Type} {f g : α → Except ε β} (h : ∀ a b, f a = .ok b → g a = .ok b)
    {as : List α} {bs : List β} (hf : as.mapM f = .ok bs) : as.mapM g = .ok bs := by
  induction as generalizing bs with
  | nil =>
    rw [List.mapM_nil] at hf ⊢
    exact hf
  | cons a as ih =>
    rw [List.mapM_cons, except_bind_eq_ok] at hf ⊢
    obtain ⟨b, hb, hf⟩ := hf
    obtain ⟨tail, htail, hf⟩ := except_bind_eq_ok.mp hf
    exact ⟨b, h a b hb, except_bind_eq_ok.mpr ⟨tail, ih htail, hf⟩⟩

/-- A transition that passes the validation is also read without it. -/
theorem loadTransitionRecord_unvalidated {row : TransitionRow} {transition : DiscoveryTransition}
    (h : s.loadTransitionRecord version true row = .ok transition) :
    s.loadTransitionRecord version false row = .ok transition := by
  obtain ⟨⟨hrow, ⟨hsource, htarget⟩, -⟩, rfl⟩ := loadTransitionRecord_eq_ok.mp h
  rw [VersionStore.loadTransitionRecord, check_then_eq_ok, if_neg Bool.false_ne_true,
    check_then_eq_ok, check_then_eq_ok]
  exact ⟨hrow, Or.inl hsource, Or.inl htarget, rfl⟩

/-- What is loaded with validation is loaded without it. -/
theorem loadTransitionRecords_unvalidated {records : List DiscoveryTransition}
    (h : s.loadTransitionRecords version true = .ok records) :
    s.loadTransitionRecords version false = .ok records := by
  rw [VersionStore.loadTransitionRecords, check_then_eq_ok, except_bind_eq_ok] at h ⊢
  obtain ⟨hdeclared, loaded, hloaded, h⟩ := h
  exact ⟨hdeclared, loaded, mapM_mono (fun _ _ => loadTransitionRecord_unvalidated) hloaded, h⟩

/-- A sound version is loaded for its publication. -/
theorem Content.Sound.loadPublicationVersion (h : c.Sound lib) (hc : s.content? v = some c) :
    s.loadPublicationVersion lib v = .ok c.row.semanticConfiguration := by
  have hid := h.id_eq hc
  obtain ⟨row, hrow, rfl⟩ := content?_eq_some.mp hc
  rw [VersionStore.loadPublicationVersion, VersionStore.loadVersionWith, hrow]
  refine except_bind_eq_ok.mpr ⟨row.semanticConfiguration, ?_,
    except_bind_eq_ok.mpr ⟨(), validateSeedProjection_eq_ok.mpr ?_, rfl⟩⟩
  · rw [versionFromRow, check_then_eq_ok]
    exact ⟨⟨h.id, h.crawlerId, h.state⟩, rfl⟩
  · rw [hid]
    exact ⟨h.seeds, h.hints⟩

/-- The hash of a sound version is also taken without a validation. -/
theorem Content.Sound.semanticHashWith (hash : SemanticHashTemplate → String) (h : c.Sound lib)
    (hc : s.content? v = some c) :
    s.semanticHashWith lib hash c.row.semanticConfiguration false =
      .ok (hash (s.template c.row.semanticConfiguration)) := by
  obtain ⟨-, -, transitions, htransitions⟩ := (sound_iff hc).mp h
  have hconfigured := (loadTransitionRecords_eq_ok.mp htransitions).1.1.configured
  rw [VersionStore.semanticHashWith, if_neg Bool.false_ne_true]
  refine except_bind_eq_ok.mpr ⟨(), rfl, except_bind_eq_ok.mpr
    ⟨transitions, loadTransitionRecords_unvalidated htransitions, ?_⟩⟩
  rw [check_then_eq_ok, check_then_eq_ok]
  refine ⟨fun row hrow => isOk_iff.mpr (h.matchers row ?_), hconfigured, rfl⟩
  rw [h.id_eq hc] at hrow
  obtain ⟨row', -, rfl⟩ := content?_eq_some.mp hc
  exact hrow

/-! ## The context of a publication -/

/-- What is stored of the version, as the validation sees it. -/
def VersionStore.storedContext (s : VersionStore) (hash : SemanticHashTemplate → String)
    (version : CrawlerVersion) (testEvidence : List TestEvidence) : VersionValidationContext :=
  ⟨version,
    (((s.pageTypesOf version.id).insertionSort fun a b =>
      a.name < b.name ∨ a.name = b.name ∧ a.id.text ≤ b.id.text).map
        (PageTypeRow.loadedWith s)).map PageTypeRecord.domainPageType,
    ((s.transitionsOf version.id).insertionSort fun a b => a.id.text ≤ b.id.text).map
      TransitionRow.configuration,
    testEvidence, hash (s.template version)⟩

/-- Of an active draft the validation sees what is stored, if the evidence is there. -/
theorem Coherent.publicationValidationContext (hs : Coherent lib s)
    (hash : SemanticHashTemplate → String)
    (evidence : String → Except CrawlerRepositoryError (List TestEvidence))
    (hcrawler : crawler ∈ s.crawlers.rows) (hv : crawler.activeDraftVersionId = some v) :
    ∃ row, s.versions.find? v = some row ∧ row.crawlerId = crawler.id ∧ row.state = .draft ∧
      row.semanticConfiguration.state = .draft ∧
        s.publicationValidationContext lib hash crawler.id v evidence =
          evidence (hash (s.template row.semanticConfiguration)) >>= fun testEvidence =>
            .ok (s.storedContext hash row.semanticConfiguration testEvidence) := by
  obtain ⟨row, hrow, rfl, howner, hdraft⟩ := pointsTo_iff.mp (hs.drafts crawler hcrawler v hv)
  have hfind := Table.find?_key hrow
  have hc := content?_eq_some.mpr ⟨row, hfind, rfl⟩
  have hsound := hs.sound row.id _ hc
  obtain ⟨-, ⟨pageTypes, hpageTypes⟩, transitions, htransitions⟩ := (sound_iff hc).mp hsound
  have hexists : s.ensureCrawlerExists crawler.id = .ok () :=
    check_of (by rw [Table.find?_key hcrawler]; rfl)
  have hpointers : s.ensurePointerConsistency crawler.id = .ok () := by
    refine check_of fun found hfound => ?_
    cases (Table.find?_key hcrawler).symm.trans hfound
    exact ⟨hs.drafts crawler hcrawler, hs.published crawler hcrawler⟩
  have hactive : s.activeDraftFor crawler.id = .ok (some row.id) :=
    activeDraftFor_eq_ok.mpr ⟨crawler, Table.find?_key hcrawler, hv⟩
  refine ⟨row, hfind, howner, hdraft, hsound.state.trans hdraft, ?_⟩
  rw [VersionStore.publicationValidationContext, hexists, ok_bind, hpointers, ok_bind,
    hsound.loadPublicationVersion hc, ok_bind,
    check_of (hsound.crawlerId.trans howner), ok_bind,
    check_of (hsound.state.trans hdraft), ok_bind, hactive, ok_bind, check_of rfl, ok_bind, hpageTypes, ok_bind,
    loadTransitionRecords_unvalidated htransitions, ok_bind,
    hsound.semanticHashWith hash hc, ok_bind, (loadPageTypeRecords_eq_ok.mp hpageTypes).2,
    (loadTransitionRecords_eq_ok.mp htransitions).2]
  rfl

/-! ## Publication -/

/-- An event under a new identifier is inserted. -/
theorem exists_insert_event (event : AuditEvent) (hfresh : s.auditEvents.find? event.id = none) :
    ∃ auditEvents, s.auditEvents.insert? event = some auditEvents :=
  ⟨⟨_, s.auditEvents.insert_keysNodup event hfresh⟩, Table.insert?_eq_some.mpr ⟨hfresh, rfl⟩⟩

/-- The draft of a crawler is written by its own statement. -/
theorem changed_isDraft {crawlerId : Id} :
    s.versions.changed (VersionRow.isDraft v fun row => row.crawlerId = crawlerId) = 1 ↔
      ∃ row, s.versions.find? v = some row ∧ row.state = .draft ∧ row.crawlerId = crawlerId := by
  rw [Table.changed_eq_one_iff fun row hp => (VersionRow.isDraft_iff.mp hp).1.1]
  refine exists_congr fun row => and_congr_right fun hrow => ?_
  rw [VersionRow.isDraft_iff, decide_eq_true_eq]
  exact ⟨fun ⟨⟨_, hdraft⟩, howner⟩ => ⟨hdraft, howner⟩,
    fun ⟨hdraft, howner⟩ => ⟨⟨Table.key_of_find? hrow, hdraft⟩, howner⟩⟩

/-- An update of the crawler's draft pointer meets one row exactly where it points there. -/
theorem changed_activeDraft {crawlerId : Id} :
    s.crawlers.changed (fun crawler =>
      crawler.id = crawlerId && crawler.activeDraftVersionId = some v) = 1 ↔
        ∃ crawler, s.crawlers.find? crawlerId = some crawler ∧
          crawler.activeDraftVersionId = some v := by
  have hkey : ∀ crawler : Crawler,
      (crawler.id = crawlerId && crawler.activeDraftVersionId = some v) = true ↔
        crawler.id = crawlerId ∧ crawler.activeDraftVersionId = some v := fun crawler => by
    rw [Bool.and_eq_true, decide_eq_true_eq, decide_eq_true_eq]
  rw [Table.changed_eq_one_iff fun crawler hp => ((hkey crawler).mp hp).1]
  refine exists_congr fun crawler => and_congr_right fun hcrawler => ?_
  rw [hkey]
  exact and_iff_right (Table.key_of_find? hcrawler)

/-- A publication publishes the version and makes it the one its crawler has published. -/
theorem publish_eq_ok {crawlerId : Id} {u : Unit} {s' : VersionStore}
    {evidence : String → Except CrawlerRepositoryError (List TestEvidence)}
    (h : publish lib services crawlerId v evidence author s = .ok (u, s')) :
    s'.published v = true ∧ s'.crawlers.find? crawlerId = some ⟨crawlerId, some v, none⟩ := by
  rw [Versions.publish, read_bind, lift_bind_eq_ok] at h
  obtain ⟨context, -, h⟩ := h
  obtain ⟨report, -, h⟩ := lift_bind_eq_ok.mp h
  obtain ⟨-, h⟩ := require_bind_eq_ok.mp h
  obtain ⟨published, -, h⟩ := lift_bind_eq_ok.mp h
  obtain ⟨n, s₁, hupdate, h⟩ := Transaction.bind_eq_ok.mp h
  obtain ⟨hone, h⟩ := require_bind_eq_ok.mp h
  obtain ⟨m, s₂, hpointers, h⟩ := Transaction.bind_eq_ok.mp h
  obtain ⟨hpointer, h⟩ := require_bind_eq_ok.mp h
  obtain ⟨auditEvents, -, rfl⟩ := insertAuditEvent_eq_ok h
  obtain ⟨rfl, rfl⟩ := updateDraftVersion_eq_ok hupdate
  obtain ⟨rfl, rfl⟩ := updateCrawlers_eq_ok hpointers
  obtain ⟨row, hrow, hdraft, howner⟩ := changed_isDraft.mp hone
  obtain ⟨crawler, hcrawler, hactive⟩ := changed_activeDraft.mp hpointer
  constructor
  · unfold VersionStore.published
    dsimp only
    rw [find?_updateDraftVersion, hrow, Option.map_some, if_pos (VersionRow.isDraft_iff.mpr
      ⟨⟨Table.key_of_find? hrow, hdraft⟩, decide_eq_true howner⟩)]
    rfl
  · dsimp only
    rw [Table.find?_update, hcrawler, Option.map_some, if_pos (by
      simp [hactive, show crawler.id = crawlerId from Table.key_of_find? hcrawler]),
      show crawler.id = crawlerId from Table.key_of_find? hcrawler]

/-- A published version can be made the one its crawler has published, whatever else the
crawler has published since, and the draft of the crawler stays. -/
def Reactivatable (lib : Libraries) (s : VersionStore) : Prop :=
  ∀ row ∈ s.versions.rows, row.state = .published → ∀ author,
    s.auditEvents.find? ("reactivate" ++ ":" ++ row.id.text ++ ":" ++ author.occurredAt) = none →
      ∃ s' crawler, reactivatePublished lib row.crawlerId row.id author s = .ok ((), s') ∧
        s.crawlers.find? row.crawlerId = some crawler ∧
          s'.crawlers.find? row.crawlerId =
            some ⟨crawler.id, some row.id, crawler.activeDraftVersionId⟩

/-- In a coherent store every published version may be made active again. -/
theorem Coherent.reactivatable (hs : Coherent lib s) : Reactivatable lib s := by
  intro row hrow hpublished author hfresh
  have hc := content?_eq_some.mpr ⟨row, Table.find?_key hrow, rfl⟩
  have hsound := hs.sound row.id _ hc
  obtain ⟨crawler, hcrawler⟩ := Option.isSome_iff_exists.mp (hs.keys.versions row hrow)
  have hpoints : s.pointsTo row.crawlerId row.id .published = true :=
    pointsTo_iff.mpr ⟨row, hrow, rfl, rfl, hpublished⟩
  have hupdates : ∀ crawler : Crawler, (crawler.id = row.crawlerId &&
      s.pointsTo row.crawlerId row.id .published) = true ↔ crawler.id = row.crawlerId := by
    intro crawler
    rw [hpoints, Bool.and_true, decide_eq_true_eq]
  have hone : s.crawlers.changed (fun crawler => crawler.id = row.crawlerId &&
      s.pointsTo row.crawlerId row.id .published) = 1 :=
    (Table.changed_eq_one_iff fun crawler => (hupdates crawler).mp).mpr
      ⟨crawler, hcrawler, (hupdates crawler).mpr (Table.key_of_find? hcrawler)⟩
  obtain ⟨auditEvents, hinsert⟩ := exists_insert_event
    (lifecycleEvent "reactivate" .versionReactivated author row.id none none []) hfresh
  refine ⟨{ s with
    crawlers := s.crawlers.update (fun crawler => crawler.id = row.crawlerId &&
      s.pointsTo row.crawlerId row.id .published) fun crawler =>
        ⟨crawler.id, some row.id, crawler.activeDraftVersionId⟩
    auditEvents := auditEvents }, crawler, ?_, hcrawler, ?_⟩
  · rw [reactivatePublished, read_bind, lift_bind_eq_ok]
    refine ⟨row.semanticConfiguration, loadVersion_eq_ok.mpr ⟨_, hc, hsound.toProjected, rfl⟩,
      require_bind_eq_ok.mpr ⟨hsound.crawlerId, require_bind_eq_ok.mpr
        ⟨hsound.state.trans hpublished, Transaction.bind_eq_ok.mpr ⟨_, _, rfl,
          require_bind_eq_ok.mpr ⟨hone, ?_⟩⟩⟩⟩⟩
    rw [insertAuditEvent, read_bind, orFail_bind_eq_ok]
    exact ⟨auditEvents, hinsert, rfl⟩
  · dsimp only
    rw [Table.find?_update, hcrawler, Option.map_some,
      if_pos ((hupdates crawler).mpr (Table.key_of_find? hcrawler))]

/-- In every run from an empty store whose saved drafts declare what is stored of them. -/
theorem reactivatable_throughout (operations : List Operation)
    (h : Transition.Meets (VersionStore.step lib services) (fun s operation => operation.Saves s)
      .empty operations) :
    Transition.Throughout (VersionStore.step lib services) (Reactivatable lib) .empty operations :=
  (coherent_throughout operations h).mono fun _ hs => hs.reactivatable

/-- A run that publishes a draft and clones it. -/
theorem reactivatable_draftedAgain :
    Transition.Throughout (VersionStore.step plainLibraries plainServices)
      (Reactivatable plainLibraries) .empty draftedAgain :=
  reactivatable_throughout draftedAgain meets_draftedAgain

end Erabi.Versions

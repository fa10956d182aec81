/-
# Runs of the repository

From an empty store, whatever operations come in whatever order, every version stays sound
and the pointers of the crawlers stay right, as long as a saved draft declares what is
stored of it.
-/
import Mathlib
import Erabi.Versions.Clones

namespace Erabi.Versions

open Relational Transaction
open Authoring
open Erabi.Configuration (CrawlerVersionState)

variable {lib : Libraries} {services : Services} {s : VersionStore} {v crawlerId : Id}

/-! ## Steps -/

/-- A saved draft declares what is stored of it; the other operations need nothing. -/
def Operation.Saves (s : VersionStore) : Operation → Prop
  | saveDraft version _ => SavesStored s version
  | _ => True

/-- Every operation leaves a coherent store coherent, whether it is committed or not. -/
theorem Coherent.step (hs : Coherent lib s) {operation : Operation} (h : operation.Saves s) :
    Coherent lib (s.step lib services operation) := by
  cases operation with
  | create crawlerId => exact (create_keeps _).commit hs
  | createDraft crawlerId versionId author => exact (createDraft_keeps _ _).commit hs
  | saveDraft version author =>
    rcases hsave : saveDraft lib version author s with e | ⟨⟨⟩, s'⟩
    · rw [VersionStore.step, Operation.perform, commit_of_error hsave]
      exact hs
    · rw [VersionStore.step, Operation.perform, commit_of_ok hsave]
      exact saveDraft_coherent hsave hs h
  | createDraftFromPublished crawlerId sourceVersionId ids author =>
    exact (createDraftFromPublished_keeps _ _ _).commit hs
  | publish crawlerId versionId evidence author => exact (publish_keeps _ _ _).commit hs
  | reactivatePublished crawlerId versionId author =>
    exact (reactivatePublished_keeps _ _).commit hs
  | updateCanonicalizationPolicy crawlerId versionId author policy =>
    exact (updateCanonicalizationPolicy_keeps _).commit hs
  | updateDomainScopePolicy crawlerId versionId author policy =>
    exact (updateDomainScopePolicy_keeps _).commit hs
  | updateCrawlerVersionGuardrails crawlerId versionId author guardrails =>
    exact (updateCrawlerVersionGuardrails_keeps _).commit hs
  | createDiscoveryTransition crawlerId versionId author transition =>
    exact (createDiscoveryTransition_keeps _).commit hs
  | updateDiscoveryTransition crawlerId versionId author transitionId transition =>
    exact (updateDiscoveryTransition_keeps _ _).commit hs
  | deleteDiscoveryTransition crawlerId versionId author transitionId =>
    exact (deleteDiscoveryTransition_keeps _).commit hs
  | createPageType crawlerId versionId author pageTypeId name priority =>
    exact (createPageType_keeps _ _ _).commit hs
  | updatePageType crawlerId versionId author pageTypeId name priority =>
    exact (updatePageType_keeps _ _ _).commit hs
  | deletePageType crawlerId versionId author pageTypeId => exact (deletePageType_keeps _).commit hs
  | createUrlMatcher crawlerId versionId author pageTypeId matcherId matcher =>
    exact (createUrlMatcher_keeps _ _ _).commit hs
  | updateUrlMatcher crawlerId versionId author pageTypeId matcherId matcher =>
    exact (updateUrlMatcher_keeps _ _ _).commit hs
  | deleteUrlMatcher crawlerId versionId author pageTypeId matcherId =>
    exact (deleteUrlMatcher_keeps _ _).commit hs
  | attachTransitionEvidence crawlerId versionId configHash transitionId evidenceId =>
    exact (attachTransitionEvidence_keeps _ _ _).commit hs

/-! ## Runs -/

/-- Every version is loaded without a complaint; the draft of a crawler is the active one, and
what it has published is a published version of it. -/
structure WellKept (lib : Libraries) (hash : SemanticHashTemplate → String) (s : VersionStore) :
    Prop where
  snapshots : ∀ row ∈ s.versions.rows,
    (s.loadSemanticSnapshot lib hash row.crawlerId row.id).isOk = true
  drafts : ∀ crawler ∈ s.crawlers.rows, ∀ row ∈ s.versions.rows, row.crawlerId = crawler.id →
    (row.state = .draft ↔ crawler.activeDraftVersionId = some row.id)
  active : ∀ crawler ∈ s.crawlers.rows, ∀ v ∈ crawler.activeDraftVersionId,
    ∃ row ∈ s.versions.rows, row.id = v ∧ row.crawlerId = crawler.id
  published : ∀ crawler ∈ s.crawlers.rows, ∀ v ∈ crawler.activePublishedVersionId,
    ∃ row ∈ s.versions.rows, row.id = v ∧ row.crawlerId = crawler.id ∧ row.state = .published

/-- Where a pointer leads is a row of the version. -/
theorem pointsTo_iff {state : CrawlerVersionState} : s.pointsTo crawlerId v state = true ↔
    ∃ row ∈ s.versions.rows, row.id = v ∧ row.crawlerId = crawlerId ∧ row.state = state := by
  unfold VersionStore.pointsTo
  constructor
  · intro h
    obtain ⟨row, hrow, hcolumns⟩ := (Option.any_eq_true _ _).mp h
    rw [Bool.and_eq_true, decide_eq_true_eq, decide_eq_true_eq] at hcolumns
    exact ⟨row, Table.mem_of_find? hrow, Table.key_of_find? hrow, hcolumns⟩
  · rintro ⟨row, hrow, rfl, hcrawler, hstate⟩
    rw [Table.find?_key hrow, Option.any_some, hcrawler, hstate]
    simp

/-- A coherent store loads whatever it keeps. -/
theorem Coherent.wellKept (hs : Coherent lib s) (hash : SemanticHashTemplate → String) :
    WellKept lib hash s where
  snapshots row hrow := by
    have hc := content?_eq_some.mpr ⟨row, Table.find?_key hrow, rfl⟩
    exact (loadSemanticSnapshot_isOk_iff hc).mpr (hs.sound row.id _ hc)
  drafts crawler hcrawler row hrow howner := by
    refine ⟨fun hdraft => hs.active row hrow hdraft crawler hcrawler howner.symm, fun hactive => ?_⟩
    obtain ⟨found, hfound, hid, -, hdraft⟩ := pointsTo_iff.mp
      (hs.drafts crawler hcrawler row.id hactive)
    rw [← s.versions.eq_of_key_eq hfound hrow hid]
    exact hdraft
  active crawler hcrawler v hv := by
    obtain ⟨row, hrow, hid, howner, -⟩ := pointsTo_iff.mp (hs.drafts crawler hcrawler v hv)
    exact ⟨row, hrow, hid, howner⟩
  published crawler hcrawler v hv := pointsTo_iff.mp (hs.published crawler hcrawler v hv)

/-- Coherence along every run in which drafts are saved as declared. -/
theorem coherent_throughout (operations : List Operation)
    (h : Transition.Meets (VersionStore.step lib services) (fun s operation => operation.Saves s)
      .empty operations) :
    Transition.Throughout (VersionStore.step lib services) (Coherent lib) .empty operations :=
  Transition.throughout_of_meets (I := fun _ => True) (P := Coherent lib) (fun _ _ _ => trivial)
    (fun _ _ _ hs hsaves => hs.step hsaves) trivial coherent_empty h

/-- In every run from an empty store whose saved drafts declare what is stored of them. -/
theorem wellKept_throughout (operations : List Operation)
    (h : Transition.Meets (VersionStore.step lib services) (fun s operation => operation.Saves s)
      .empty operations) :
    Transition.Throughout (VersionStore.step lib services) (WellKept lib services.hash) .empty
      operations :=
  (coherent_throughout operations h).mono fun _ hs => hs.wellKept services.hash

/-! ## A run -/

/-- A crawler with a page type, published and drafted again. -/
def plainServices : Services := ⟨fun _ => "", .coreOnly plainLibraries⟩

/-- An operator with a numbered audit event. -/
def plainAuthor (n : ℕ) : Author := ⟨"operator", "2026-01-01T00:00:00Z", numberedId n⟩

theorem printable_root : Printable "https://shop.example/" := by
  simp [Printable, isControl]

/-- The root of a site. -/
def plainRoot : Url := ⟨"https://shop.example/", printable_root⟩

/-- The only seed of the draft. -/
def plainSeed : Seed :=
  ⟨numberedId 3, plainRoot, plainRoot, true, none, none⟩

/-- The draft with its only seed. -/
def seededDraft : CrawlerVersion :=
  { CrawlerVersion.draft (numberedId 2) (numberedId 1) with seeds := [plainSeed] }

/-- The identifiers of a clone. -/
def plainCloneIds : CloneIds where
  version := numberedId 10
  seed i := numberedId (20 + i)
  pageType i := numberedId (30 + i)
  transition i := numberedId (40 + i)
  matcher _ := numberedId 60
  undeclared := id

/-- A draft is created, saved, edited and published, and then cloned. -/
def draftedAgain : List Operation :=
  [.create (numberedId 1), .createDraft (numberedId 1) (numberedId 2) (plainAuthor 50),
    .saveDraft seededDraft (plainAuthor 51),
    .createPageType (numberedId 1) (numberedId 2) (plainAuthor 52) (numberedId 4) "Product" 0,
    .createUrlMatcher (numberedId 1) (numberedId 2) (plainAuthor 53) (numberedId 4) (numberedId 5)
      (.pathPrefix none "/"),
    .publish (numberedId 1) (numberedId 2) (fun _ => .ok []) (plainAuthor 54),
    .createDraftFromPublished (numberedId 1) (numberedId 2) plainCloneIds (plainAuthor 55)]

/-- The draft of the run is saved as it declares itself. -/
theorem meets_draftedAgain :
    Transition.Meets (VersionStore.step plainLibraries plainServices)
      (fun s operation => operation.Saves s) .empty draftedAgain :=
  ⟨trivial, trivial,
    ⟨⟨⟨numberedId 2, numberedId 1, .draft, .draft (numberedId 2) (numberedId 1)⟩, by rfl, .nil, .nil⟩,
      by
        intro seed hseed hint hhint
        rw [seededDraft, List.mem_singleton] at hseed
        subst hseed
        cases hhint⟩, trivial, trivial, trivial, trivial, trivial⟩

/-- Whatever the run keeps can be loaded. -/
theorem wellKept_draftedAgain :
    Transition.Throughout (VersionStore.step plainLibraries plainServices)
      (WellKept plainLibraries plainServices.hash) .empty draftedAgain :=
  wellKept_throughout draftedAgain meets_draftedAgain

end Erabi.Versions

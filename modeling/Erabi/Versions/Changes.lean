/-
# What the statements change

A statement on the rows of a version leaves the rows of every other version alone, and
changes no row of a version that is published.
-/
import Mathlib
import Erabi.Transition.Run
import Erabi.Versions.Repository

namespace Erabi.Versions

open Relational Transaction
open Authoring
open Erabi.Configuration (CrawlerVersionState)

/-! ## The content of a version -/

/-- What is stored of a version. -/
structure Content where
  row : VersionRow
  seeds : List Seed
  pageTypes : List PageTypeRow
  urlMatchers : List UrlMatcherRow
  transitions : List TransitionRow

/-- All that is stored of a version, if it is. -/
def VersionStore.content? (store : VersionStore) (versionId : Id) : Option Content :=
  (store.versions.find? versionId).map fun row =>
    ⟨row, store.seedsOf versionId, store.pageTypesOf versionId, store.matchersOf versionId,
      store.transitionsOf versionId⟩

/-- The crawler and the state of a version. -/
def VersionRow.columns (row : VersionRow) : Id × CrawlerVersionState := (row.crawlerId, row.state)

/-- What is referred to exists. -/
structure ForeignKeys (s : VersionStore) : Prop where
  versions : ∀ row ∈ s.versions.rows, (s.crawlers.find? row.crawlerId).isSome = true
  seeds : ∀ row ∈ s.seeds.rows, (s.versions.find? row.crawlerVersionId).isSome = true
  pageTypes : ∀ row ∈ s.pageTypes.rows, (s.versions.find? row.crawlerVersionId).isSome = true
  urlMatchers : ∀ row ∈ s.urlMatchers.rows, (s.pageTypes.find? row.pageTypeId).isSome = true
  transitions : ∀ row ∈ s.transitions.rows, (s.versions.find? row.crawlerVersionId).isSome = true

/-- The version has the same seeds, page types, matchers and transitions in both stores. -/
structure SameChildren (s s' : VersionStore) (w : Id) : Prop where
  seeds : s'.seedsOf w = s.seedsOf w
  pageTypes : s'.pageTypesOf w = s.pageTypesOf w
  urlMatchers : s'.matchersOf w = s.matchersOf w
  transitions : s'.transitionsOf w = s.transitionsOf w

/-- The store is changed in what it holds of one version, and not if that is published. -/
structure Edits (v : Id) (s s' : VersionStore) : Prop where
  crawlers : s'.crawlers = s.crawlers
  columns : ∀ w, (s'.versions.find? w).map VersionRow.columns =
    (s.versions.find? w).map VersionRow.columns
  others : ∀ w, w ≠ v ∨ s.published w = true → s'.content? w = s.content? w
  keys : ForeignKeys s → ForeignKeys s'

variable {s s' s'' : VersionStore} {v w : Id} {u : Unit} {n : ℕ}

/-- Whether a version is published is in its columns. -/
theorem published_eq : s.published w =
    ((s.versions.find? w).map VersionRow.columns).any fun columns => columns.2 = .published := by
  unfold VersionStore.published
  cases s.versions.find? w <;> rfl

/-- Edits publish nothing. -/
theorem Edits.published (h : Edits v s s') (w : Id) : s'.published w = s.published w := by
  rw [published_eq, published_eq, h.columns]

theorem Edits.refl (v : Id) (s : VersionStore) : Edits v s s :=
  ⟨rfl, fun _ => rfl, fun _ _ => rfl, id⟩

theorem Edits.trans (h : Edits v s s') (h' : Edits v s' s'') : Edits v s s'' where
  crawlers := h'.crawlers.trans h.crawlers
  columns w := (h'.columns w).trans (h.columns w)
  others w hw := (h'.others w (h.published w ▸ hw)).trans (h.others w hw)
  keys hkeys := h'.keys (h.keys hkeys)

/-- A statement on the children of a version. -/
theorem Edits.of_children (hcrawlers : s'.crawlers = s.crawlers)
    (hversions : s'.versions = s.versions)
    (hsame : ∀ w, w ≠ v ∨ s.published w = true → SameChildren s s' w)
    (hkeys : ForeignKeys s → ForeignKeys s') : Edits v s s' where
  crawlers := hcrawlers
  columns w := by rw [hversions]
  others w hw := by
    obtain ⟨hseeds, hpageTypes, hurlMatchers, htransitions⟩ := hsame w hw
    rw [VersionStore.content?, VersionStore.content?, hversions, hseeds, hpageTypes, hurlMatchers,
      htransitions]
  keys := hkeys

/-! ## Seeds -/

/-- A seed is inserted into an unpublished version. -/
theorem insertSeed_eq_ok {seed : Seed} (h : insertSeed v seed s = .ok (u, s')) :
    ((s.versions.find? v).isSome = true ∧ s.published v = false) ∧
      ∃ seeds, s.seeds.insert? ⟨v, seed⟩ = some seeds ∧ s' = { s with seeds := seeds } := by
  rw [insertSeed, read_bind, require_bind_eq_ok, orFail_bind_eq_ok] at h
  obtain ⟨hversion, seeds, hinsert, h⟩ := h
  cases h
  exact ⟨hversion, seeds, hinsert, rfl⟩

/-- The new seed is the last one of its version. -/
theorem seedsOf_insert {seed : Seed} {seeds : Table SeedRow Id fun row => row.seed.id}
    (h : s.seeds.insert? ⟨v, seed⟩ = some seeds) (w : Id) :
    { s with seeds := seeds : VersionStore }.seedsOf w =
      s.seedsOf w ++ if v = w then [seed] else [] := by
  show (seeds.select _).map SeedRow.seed = _
  rw [Table.select_insert h, List.map_append]
  congr 1
  by_cases hvw : v = w
  · rw [if_pos (by simpa using hvw), if_pos hvw, List.map_singleton]
  · rw [if_neg (by simpa using hvw), if_neg hvw, List.map_nil]

/-- It is an edit of the version. -/
theorem insertSeed_edits {seed : Seed} (h : insertSeed v seed s = .ok (u, s')) :
    Edits v s s' := by
  obtain ⟨⟨hversion, hdraft⟩, seeds, hinsert, rfl⟩ := insertSeed_eq_ok h
  refine .of_children rfl rfl (fun w hw => ⟨?_, rfl, rfl, rfl⟩) fun hkeys => { hkeys with
    seeds := fun row hrow => ?_ }
  · rw [seedsOf_insert hinsert, if_neg, List.append_nil]
    rintro rfl
    rcases hw with hw | hw
    · exact hw rfl
    · rw [hdraft] at hw
      cases hw
  · rcases (Table.mem_insert hinsert).mp hrow with hrow | rfl
    · exact hkeys.seeds row hrow
    · exact hversion

/-- Seeds are deleted from an unpublished version, or there were none. -/
theorem deleteSeeds_eq_ok (h : deleteSeeds v s = .ok (u, s')) :
    (s.seedsOf v = [] ∨ s.published v = false) ∧
      s' = { s with seeds := s.seeds.delete fun row => row.crawlerVersionId = v } := by
  rw [deleteSeeds, read_bind, require_bind_eq_ok] at h
  obtain ⟨hdraft, h⟩ := h
  cases h
  exact ⟨hdraft, rfl⟩

/-- A version without seeds has no seed rows. -/
theorem seedsOf_eq_nil : s.seedsOf v = [] ↔ ∀ row ∈ s.seeds.rows, row.crawlerVersionId ≠ v := by
  rw [VersionStore.seedsOf, List.map_eq_nil_iff, Table.select, List.filter_eq_nil_iff]
  exact forall₂_congr fun row _ => by rw [decide_eq_true_eq]

/-- It is an edit of the version. -/
theorem deleteSeeds_edits (h : deleteSeeds v s = .ok (u, s')) : Edits v s s' := by
  obtain ⟨hdraft, rfl⟩ := deleteSeeds_eq_ok h
  refine .of_children rfl rfl (fun w hw => ⟨?_, rfl, rfl, rfl⟩) fun hkeys => { hkeys with
    seeds := fun row hrow => hkeys.seeds row (Table.mem_delete.mp hrow).1 }
  show ((s.seeds.delete _).select _).map SeedRow.seed = _
  rw [Table.select_delete fun row hrow hv => ?_]
  · rfl
  · rw [decide_eq_true_eq] at hv
    rw [decide_eq_false_iff_not]
    rintro rfl
    rcases hdraft with hnone | hdraft
    · exact seedsOf_eq_nil.mp hnone row hrow hv
    · rcases hw with hw | hw
      · exact hw hv
      · rw [hv, hdraft] at hw
        cases hw

/-- No seed of the version is left. -/
theorem seedsOf_delete (s : VersionStore) (v : Id) :
    { s with seeds := s.seeds.delete fun row => row.crawlerVersionId = v }.seedsOf v = [] := by
  rw [seedsOf_eq_nil]
  intro row hrow hv
  simp [Table.mem_delete, hv] at hrow

/-! ## Page types -/

/-- A row of a published version is of none that a statement may change. -/
theorem ne_of_draft (hw : w ≠ v ∨ s.published w = true) (hdraft : s.published v = false) :
    w ≠ v := by
  rintro rfl
  rcases hw with hw | hw
  · exact hw rfl
  · rw [hdraft] at hw
    cases hw

/-- A page type is inserted into an unpublished version. -/
theorem insertPageType_eq_ok {row : PageTypeRow} (h : insertPageType row s = .ok (u, s')) :
    ((s.versions.find? row.crawlerVersionId).isSome = true ∧
      s.published row.crawlerVersionId = false) ∧
        ∃ pageTypes, s.pageTypes.insert? row = some pageTypes ∧
          s' = { s with pageTypes := pageTypes } := by
  rw [insertPageType, read_bind, require_bind_eq_ok, orFail_bind_eq_ok] at h
  obtain ⟨hversion, pageTypes, hinsert, h⟩ := h
  cases h
  exact ⟨hversion, pageTypes, hinsert, rfl⟩

/-- The new page type is the last one of its version. -/
theorem pageTypesOf_insert {row : PageTypeRow} {pageTypes : Table PageTypeRow Id PageTypeRow.id}
    (h : s.pageTypes.insert? row = some pageTypes) (w : Id) :
    { s with pageTypes := pageTypes : VersionStore }.pageTypesOf w =
      s.pageTypesOf w ++ if row.crawlerVersionId = w then [row] else [] := by
  show pageTypes.select _ = _
  rw [Table.select_insert h]
  simp only [decide_eq_true_eq]
  rfl

/-- It is an edit of the version. -/
theorem insertPageType_edits {row : PageTypeRow} (h : insertPageType row s = .ok (u, s')) :
    Edits row.crawlerVersionId s s' := by
  obtain ⟨⟨hversion, hdraft⟩, pageTypes, hinsert, rfl⟩ := insertPageType_eq_ok h
  have hfind := Table.find?_insert hinsert
  refine .of_children rfl rfl (fun w hw => ⟨rfl, ?_, ?_, rfl⟩) fun hkeys => { hkeys with
    pageTypes := fun other hother => ?_
    urlMatchers := fun matcher hmatcher => ?_ }
  · rw [pageTypesOf_insert hinsert, if_neg (ne_of_draft hw hdraft).symm, List.append_nil]
  · refine List.filter_congr fun matcher _ => ?_
    dsimp only
    rw [hfind]
    split
    · rename_i hid
      have hnew : s.pageTypes.find? matcher.pageTypeId = none :=
        hid ▸ (Table.insert?_eq_some.mp hinsert).1
      rw [hnew, Option.any_none, Option.any_some, decide_eq_false_iff_not]
      exact (ne_of_draft hw hdraft).symm
    · rfl
  · rcases (Table.mem_insert hinsert).mp hother with hother | rfl
    · exact hkeys.pageTypes other hother
    · exact hversion
  · show (pageTypes.find? matcher.pageTypeId).isSome = true
    rw [hfind]
    split
    · rfl
    · exact hkeys.urlMatchers matcher hmatcher

/-- The condition of the statements on a page type. -/
theorem PageTypeRow.is_iff {pageTypeId versionId : Id} {row : PageTypeRow} :
    PageTypeRow.is pageTypeId versionId row = true ↔
      row.id = pageTypeId ∧ row.crawlerVersionId = versionId := by
  rw [PageTypeRow.is, Bool.and_eq_true, decide_eq_true_eq, decide_eq_true_eq]

/-- A page type is renamed in an unpublished version, or there is none. -/
theorem updatePageTypeRow_eq_ok {pageTypeId : Id} {name : String} {priority : Int32}
    (h : updatePageTypeRow pageTypeId v name priority s = .ok (n, s')) :
    (s.pageTypes.changed (PageTypeRow.is pageTypeId v) = 0 ∨ s.published v = false) ∧
      n = s.pageTypes.changed (PageTypeRow.is pageTypeId v) ∧
        s' = { s with pageTypes := s.pageTypes.update (PageTypeRow.is pageTypeId v) fun row =>
          ⟨row.id, row.crawlerVersionId, name, priority, row.configuration⟩ } := by
  rw [updatePageTypeRow, read_bind, require_bind_eq_ok] at h
  obtain ⟨hdraft, h⟩ := h
  cases h
  exact ⟨hdraft, rfl, rfl⟩

/-- A statement that changes rows of one version only, and of a draft only. -/
theorem not_published_of_changed {ρ : Type} {key : ρ → Id} {t : Table ρ Id key} {p : ρ → Bool}
    (h : t.changed p = 0 ∨ s.published v = false) {r : ρ} (hr : r ∈ t.rows) (hp : p r = true) :
    s.published v = false := by
  rcases h with hnone | hdraft
  · rw [Table.changed_eq_zero.mp hnone r hr] at hp
    cases hp
  · exact hdraft

/-- It is an edit of the version. -/
theorem updatePageTypeRow_edits {pageTypeId : Id} {name : String} {priority : Int32}
    (h : updatePageTypeRow pageTypeId v name priority s = .ok (n, s')) : Edits v s s' := by
  obtain ⟨hdraft, -, rfl⟩ := updatePageTypeRow_eq_ok h
  have hfind := Table.find?_update s.pageTypes (PageTypeRow.is pageTypeId v)
    (fun row => ⟨row.id, row.crawlerVersionId, name, priority, row.configuration⟩) fun _ => rfl
  refine .of_children rfl rfl (fun w hw => ⟨rfl, ?_, ?_, rfl⟩) fun hkeys => { hkeys with
    pageTypes := fun row hrow => ?_
    urlMatchers := fun matcher hmatcher => ?_ }
  · refine Table.select_update (by intro; rfl) fun row hrow hp => ?_
    have hne := ne_of_draft hw (not_published_of_changed hdraft hrow hp)
    have hv := (PageTypeRow.is_iff.mp hp).2
    exact ⟨decide_eq_false (hv ▸ hne.symm), decide_eq_false (hv ▸ hne.symm)⟩
  · refine List.filter_congr fun matcher _ => ?_
    dsimp only
    rw [hfind]
    cases s.pageTypes.find? matcher.pageTypeId with
    | none => rfl
    | some row =>
      rw [Option.map_some, Option.any_some, Option.any_some]
      split <;> rfl
  · obtain ⟨other, hother, rfl⟩ := List.mem_map.mp hrow
    have := hkeys.pageTypes other hother
    split <;> exact this
  · show ((s.pageTypes.update _ _).find? matcher.pageTypeId).isSome = true
    rw [hfind, Option.isSome_map]
    exact hkeys.urlMatchers matcher hmatcher

/-- A page type without matchers is deleted from an unpublished version, or there is none. -/
theorem deletePageTypeRow_eq_ok {pageTypeId : Id}
    (h : deletePageTypeRow pageTypeId v s = .ok (n, s')) :
    (s.pageTypes.changed (PageTypeRow.is pageTypeId v) = 0 ∨
      s.published v = false ∧ s.matchersFor pageTypeId = []) ∧
        n = s.pageTypes.changed (PageTypeRow.is pageTypeId v) ∧
          s' = { s with pageTypes := s.pageTypes.delete (PageTypeRow.is pageTypeId v) } := by
  rw [deletePageTypeRow, read_bind, require_bind_eq_ok] at h
  obtain ⟨hdraft, h⟩ := h
  cases h
  exact ⟨hdraft, rfl, rfl⟩

/-- It is an edit of the version. -/
theorem deletePageTypeRow_edits {pageTypeId : Id}
    (h : deletePageTypeRow pageTypeId v s = .ok (n, s')) : Edits v s s' := by
  obtain ⟨hdraft, -, rfl⟩ := deletePageTypeRow_eq_ok h
  have hfind := Table.find?_delete s.pageTypes (PageTypeRow.is pageTypeId v)
  have hdraft' : s.pageTypes.changed (PageTypeRow.is pageTypeId v) = 0 ∨ s.published v = false :=
    hdraft.imp_right And.left
  refine .of_children rfl rfl (fun w hw => ⟨rfl, ?_, ?_, rfl⟩) fun hkeys => { hkeys with
    pageTypes := fun row hrow => hkeys.pageTypes row (Table.mem_delete.mp hrow).1
    urlMatchers := fun matcher hmatcher => ?_ }
  · refine Table.select_delete fun row hrow hp => ?_
    have hne := ne_of_draft hw (not_published_of_changed hdraft' hrow hp)
    exact decide_eq_false ((PageTypeRow.is_iff.mp hp).2 ▸ hne.symm)
  -- a matcher is attributed through its page type, which is deleted from a draft only
  · refine List.filter_congr fun matcher _ => ?_
    dsimp only
    rw [hfind]
    cases hrow : s.pageTypes.find? matcher.pageTypeId with
    | none => rfl
    | some row =>
      cases hp : PageTypeRow.is pageTypeId v row with
      | false => rw [Option.filter_some_pos (by simp [hp])]
      | true =>
        have hne := ne_of_draft hw (not_published_of_changed hdraft' (Table.mem_of_find? hrow) hp)
        rw [Option.filter_some_neg (by simp [hp]), Option.any_none, Option.any_some]
        exact (decide_eq_false ((PageTypeRow.is_iff.mp hp).2 ▸ hne.symm)).symm
  · show ((s.pageTypes.delete _).find? matcher.pageTypeId).isSome = true
    obtain ⟨row, hrow⟩ := Option.isSome_iff_exists.mp (hkeys.urlMatchers matcher hmatcher)
    rw [hfind, hrow, Option.filter_some_pos]
    · rfl
    · rw [Bool.not_eq_true', ← Bool.not_eq_true]
      intro hp
      -- a page type with matchers is not deleted
      rcases hdraft with hnone | ⟨-, hfree⟩
      · rw [Table.changed_eq_zero.mp hnone row (Table.mem_of_find? hrow)] at hp
        cases hp
      · have hmem : matcher ∈ s.matchersFor pageTypeId := Table.mem_select.mpr ⟨hmatcher,
          decide_eq_true ((Table.key_of_find? hrow).symm.trans (PageTypeRow.is_iff.mp hp).1)⟩
        rw [hfree] at hmem
        cases hmem

/-! ## Matchers -/

/-- A matcher is one of a version through its page type. -/
theorem mem_matchersOf_iff {matcher : UrlMatcherRow} : matcher ∈ s.matchersOf w ↔
    matcher ∈ s.urlMatchers.rows ∧ ∃ row, s.pageTypes.find? matcher.pageTypeId = some row ∧
      row.crawlerVersionId = w := by
  rw [VersionStore.matchersOf, Table.mem_select]
  refine and_congr_right fun _ => ?_
  cases s.pageTypes.find? matcher.pageTypeId with
  | none => simp
  | some row => simp

section Matchers

variable {pageType : PageTypeRow} {pageTypeId : Id}

/-- A page type is published with its version. -/
theorem publishedPageType_eq (h : s.pageTypes.find? pageTypeId = some pageType) :
    s.publishedPageType pageTypeId = s.published pageType.crawlerVersionId := by
  rw [VersionStore.publishedPageType, h, Option.any_some]

/-- The matchers of a page type are of its version only. -/
theorem matcher_not_of (h : s.pageTypes.find? pageTypeId = some pageType)
    (hw : pageType.crawlerVersionId ≠ w) {matcher : UrlMatcherRow}
    (hmatcher : matcher.pageTypeId = pageTypeId) :
    ((s.pageTypes.find? matcher.pageTypeId).any fun row => row.crawlerVersionId = w) = false := by
  rw [hmatcher, h, Option.any_some, decide_eq_false_iff_not]
  exact hw

/-- A matcher is inserted at a free place of an unpublished page type. -/
theorem insertUrlMatcher_eq_ok {row : UrlMatcherRow} (h : insertUrlMatcher row s = .ok (u, s')) :
    ((s.pageTypes.find? row.pageTypeId).isSome = true ∧
      s.publishedPageType row.pageTypeId = false) ∧
        (∀ other ∈ s.matchersFor row.pageTypeId, other.ordinal ≠ row.ordinal) ∧
          ∃ urlMatchers, s.urlMatchers.insert? row = some urlMatchers ∧
            s' = { s with urlMatchers := urlMatchers } := by
  rw [insertUrlMatcher, read_bind, require_bind_eq_ok, require_bind_eq_ok, orFail_bind_eq_ok] at h
  obtain ⟨hpageType, hordinal, urlMatchers, hinsert, h⟩ := h
  cases h
  exact ⟨hpageType, hordinal, urlMatchers, hinsert, rfl⟩

/-- It is an edit of the page type's version. -/
theorem insertUrlMatcher_edits {row : UrlMatcherRow} (h : insertUrlMatcher row s = .ok (u, s'))
    (hrow : s.pageTypes.find? row.pageTypeId = some pageType) :
    Edits pageType.crawlerVersionId s s' := by
  obtain ⟨⟨hfound, hdraft⟩, -, urlMatchers, hinsert, rfl⟩ := insertUrlMatcher_eq_ok h
  rw [publishedPageType_eq hrow] at hdraft
  refine .of_children rfl rfl (fun w hw => ⟨rfl, rfl, ?_, rfl⟩) fun hkeys => { hkeys with
    urlMatchers := fun matcher hmatcher => ?_ }
  · show urlMatchers.select _ = _
    rw [Table.select_insert hinsert, if_neg, List.append_nil]
    · rfl
    · rw [Bool.not_eq_true]
      exact matcher_not_of hrow (ne_of_draft hw hdraft).symm rfl
  · rcases (Table.mem_insert hinsert).mp hmatcher with hmatcher | rfl
    · exact hkeys.urlMatchers matcher hmatcher
    · exact hfound

/-- The condition of the statements on a matcher. -/
theorem UrlMatcherRow.is_iff {matcherId : Id} {row : UrlMatcherRow} :
    UrlMatcherRow.is matcherId pageTypeId row = true ↔
      row.id = matcherId ∧ row.pageTypeId = pageTypeId := by
  rw [UrlMatcherRow.is, Bool.and_eq_true, decide_eq_true_eq, decide_eq_true_eq]

/-- A matcher is replaced in an unpublished page type, or there is none. -/
theorem updateUrlMatcherRow_eq_ok {matcherId : Id} {matcher : UrlMatcher}
    (h : updateUrlMatcherRow matcherId pageTypeId matcher s = .ok (n, s')) :
    (s.urlMatchers.changed (UrlMatcherRow.is matcherId pageTypeId) = 0 ∨
      s.publishedPageType pageTypeId = false) ∧
        s' = { s with urlMatchers :=
          s.urlMatchers.update (UrlMatcherRow.is matcherId pageTypeId) fun row =>
            ⟨row.id, row.pageTypeId, row.ordinal, matcher⟩ } := by
  rw [updateUrlMatcherRow, read_bind, require_bind_eq_ok] at h
  obtain ⟨hdraft, h⟩ := h
  cases h
  exact ⟨hdraft, rfl⟩

/-- It is an edit of the page type's version. -/
theorem updateUrlMatcherRow_edits {matcherId : Id} {matcher : UrlMatcher}
    (h : updateUrlMatcherRow matcherId pageTypeId matcher s = .ok (n, s'))
    (hrow : s.pageTypes.find? pageTypeId = some pageType) :
    Edits pageType.crawlerVersionId s s' := by
  obtain ⟨hdraft, rfl⟩ := updateUrlMatcherRow_eq_ok h
  rw [publishedPageType_eq hrow] at hdraft
  refine .of_children rfl rfl (fun w hw => ⟨rfl, rfl, ?_, rfl⟩) fun hkeys => { hkeys with
    urlMatchers := fun row hmatcher => ?_ }
  · refine Table.select_update (by intro; rfl) fun row hmatcher hp => ?_
    have hne := (ne_of_draft hw (not_published_of_changed hdraft hmatcher hp)).symm
    have hof := (UrlMatcherRow.is_iff.mp hp).2
    exact ⟨matcher_not_of hrow hne hof, matcher_not_of hrow hne hof⟩
  · obtain ⟨other, hother, rfl⟩ := List.mem_map.mp hmatcher
    have := hkeys.urlMatchers other hother
    split <;> exact this

/-- Matchers are deleted from an unpublished page type, or there are none. -/
theorem deleteUrlMatcherRows_eq_ok {p : UrlMatcherRow → Bool}
    (h : deleteUrlMatcherRows pageTypeId p s = .ok (n, s')) :
    (s.urlMatchers.changed (fun row => row.pageTypeId = pageTypeId && p row) = 0 ∨
      s.publishedPageType pageTypeId = false) ∧
        s' = { s with urlMatchers :=
          s.urlMatchers.delete fun row => row.pageTypeId = pageTypeId && p row } := by
  rw [deleteUrlMatcherRows, read_bind, require_bind_eq_ok] at h
  obtain ⟨hdraft, h⟩ := h
  cases h
  exact ⟨hdraft, rfl⟩

/-- It is an edit of the page type's version. -/
theorem deleteUrlMatcherRows_edits {p : UrlMatcherRow → Bool}
    (h : deleteUrlMatcherRows pageTypeId p s = .ok (n, s'))
    (hrow : s.pageTypes.find? pageTypeId = some pageType) :
    Edits pageType.crawlerVersionId s s' := by
  obtain ⟨hdraft, rfl⟩ := deleteUrlMatcherRows_eq_ok h
  rw [publishedPageType_eq hrow] at hdraft
  refine .of_children rfl rfl (fun w hw => ⟨rfl, rfl, ?_, rfl⟩) fun hkeys => { hkeys with
    urlMatchers := fun row hmatcher => hkeys.urlMatchers row (Table.mem_delete.mp hmatcher).1 }
  refine Table.select_delete fun row hmatcher hp => ?_
  have hne := (ne_of_draft hw (not_published_of_changed hdraft hmatcher hp)).symm
  rw [Bool.and_eq_true, decide_eq_true_eq] at hp
  exact matcher_not_of hrow hne hp.1

end Matchers

/-! ## Transitions -/

section Transitions

variable {transitionId : Id}

/-- A transition is inserted into an unpublished version. -/
theorem insertTransition_eq_ok {row : TransitionRow} (h : insertTransition row s = .ok (u, s')) :
    ((s.versions.find? row.crawlerVersionId).isSome = true ∧
      s.published row.crawlerVersionId = false) ∧
        ∃ transitions, s.transitions.insert? row = some transitions ∧
          s' = { s with transitions := transitions } := by
  rw [insertTransition, read_bind, require_bind_eq_ok, orFail_bind_eq_ok] at h
  obtain ⟨hversion, transitions, hinsert, h⟩ := h
  cases h
  exact ⟨hversion, transitions, hinsert, rfl⟩

/-- It is an edit of the version. -/
theorem insertTransition_edits {row : TransitionRow} (h : insertTransition row s = .ok (u, s')) :
    Edits row.crawlerVersionId s s' := by
  obtain ⟨⟨hversion, hdraft⟩, transitions, hinsert, rfl⟩ := insertTransition_eq_ok h
  refine .of_children rfl rfl (fun w hw => ⟨rfl, rfl, rfl, ?_⟩) fun hkeys => { hkeys with
    transitions := fun other hother => ?_ }
  · show transitions.select _ = _
    rw [Table.select_insert hinsert, if_neg, List.append_nil]
    · rfl
    · rw [decide_eq_true_eq]
      exact (ne_of_draft hw hdraft).symm
  · rcases (Table.mem_insert hinsert).mp hother with hother | rfl
    · exact hkeys.transitions other hother
    · exact hversion

/-- The condition of the statements on a transition. -/
theorem TransitionRow.is_iff {versionId : Id} {row : TransitionRow} :
    TransitionRow.is transitionId versionId row = true ↔
      row.id = transitionId ∧ row.crawlerVersionId = versionId := by
  rw [TransitionRow.is, Bool.and_eq_true, decide_eq_true_eq, decide_eq_true_eq]

/-- A transition is replaced in an unpublished version, or there is none. -/
theorem updateTransitionRow_eq_ok {configuration : DiscoveryTransition}
    (h : updateTransitionRow transitionId v configuration s = .ok (n, s')) :
    (s.transitions.changed (TransitionRow.is transitionId v) = 0 ∨ s.published v = false) ∧
      s' = { s with transitions :=
        s.transitions.update (TransitionRow.is transitionId v) fun row =>
          ⟨row.id, row.crawlerVersionId, configuration⟩ } := by
  rw [updateTransitionRow, read_bind, require_bind_eq_ok] at h
  obtain ⟨hdraft, h⟩ := h
  cases h
  exact ⟨hdraft, rfl⟩

/-- It is an edit of the version. -/
theorem updateTransitionRow_edits {configuration : DiscoveryTransition}
    (h : updateTransitionRow transitionId v configuration s = .ok (n, s')) : Edits v s s' := by
  obtain ⟨hdraft, rfl⟩ := updateTransitionRow_eq_ok h
  refine .of_children rfl rfl (fun w hw => ⟨rfl, rfl, rfl, ?_⟩) fun hkeys => { hkeys with
    transitions := fun row hrow => ?_ }
  · refine Table.select_update (by intro; rfl) fun row hrow hp => ?_
    have hne := (ne_of_draft hw (not_published_of_changed hdraft hrow hp)).symm
    have hv := (TransitionRow.is_iff.mp hp).2
    exact ⟨decide_eq_false (hv ▸ hne), decide_eq_false (hv ▸ hne)⟩
  · obtain ⟨other, hother, rfl⟩ := List.mem_map.mp hrow
    have := hkeys.transitions other hother
    split <;> exact this

/-- A transition is deleted from an unpublished version, or there is none. -/
theorem deleteTransitionRow_eq_ok (h : deleteTransitionRow transitionId v s = .ok (n, s')) :
    (s.transitions.changed (TransitionRow.is transitionId v) = 0 ∨ s.published v = false) ∧
      s' = { s with transitions := s.transitions.delete (TransitionRow.is transitionId v) } := by
  rw [deleteTransitionRow, read_bind, require_bind_eq_ok] at h
  obtain ⟨hdraft, h⟩ := h
  cases h
  exact ⟨hdraft, rfl⟩

/-- It is an edit of the version. -/
theorem deleteTransitionRow_edits (h : deleteTransitionRow transitionId v s = .ok (n, s')) :
    Edits v s s' := by
  obtain ⟨hdraft, rfl⟩ := deleteTransitionRow_eq_ok h
  refine .of_children rfl rfl (fun w hw => ⟨rfl, rfl, rfl, ?_⟩) fun hkeys => { hkeys with
    transitions := fun row hrow => hkeys.transitions row (Table.mem_delete.mp hrow).1 }
  refine Table.select_delete fun row hrow hp => ?_
  have hne := (ne_of_draft hw (not_published_of_changed hdraft hrow hp)).symm
  exact decide_eq_false ((TransitionRow.is_iff.mp hp).2 ▸ hne)

end Transitions

/-! ## Versions, crawlers and events -/

/-- The rows of the versions that an update of a draft changes. -/
def VersionRow.isDraft (versionId : Id) (p : VersionRow → Bool) (row : VersionRow) : Bool :=
  row.id = versionId && row.state = .draft && p row

/-- The condition of the statements on a draft. -/
theorem VersionRow.isDraft_iff {versionId : Id} {p : VersionRow → Bool} {row : VersionRow} :
    row.isDraft versionId p = true ↔ (row.id = versionId ∧ row.state = .draft) ∧ p row = true := by
  rw [VersionRow.isDraft, Bool.and_eq_true, Bool.and_eq_true, decide_eq_true_eq, decide_eq_true_eq]

/-- The draft that meets the condition gets its state and its configuration. -/
theorem updateDraftVersion_eq_ok {p : VersionRow → Bool} {state : CrawlerVersionState}
    {configuration : CrawlerVersion}
    (h : updateDraftVersion v p state configuration s = .ok (n, s')) :
    n = s.versions.changed (VersionRow.isDraft v p) ∧
      s' = { s with versions := s.versions.update (VersionRow.isDraft v p) fun row =>
        ⟨row.id, row.crawlerId, state, configuration⟩ } := by
  rw [updateDraftVersion, read_bind] at h
  cases h
  exact ⟨rfl, rfl⟩

/-- Every other version stays as it is. -/
theorem find?_updateDraftVersion (s : VersionStore) (v : Id) (p : VersionRow → Bool)
    (state : CrawlerVersionState) (configuration : CrawlerVersion) (w : Id) :
    (s.versions.update (VersionRow.isDraft v p) fun row =>
      ⟨row.id, row.crawlerId, state, configuration⟩).find? w =
        (s.versions.find? w).map fun row =>
          if row.isDraft v p then ⟨row.id, row.crawlerId, state, configuration⟩ else row :=
  Table.find?_update ..

/-- Neither another version nor a published one is changed. -/
theorem content?_updateDraftVersion {p : VersionRow → Bool} {state : CrawlerVersionState}
    {configuration : CrawlerVersion} (hw : w ≠ v ∨ s.published w = true) :
    { s with versions := s.versions.update (VersionRow.isDraft v p) fun row =>
      ⟨row.id, row.crawlerId, state, configuration⟩ : VersionStore }.content? w =
        s.content? w := by
  have hfind := find?_updateDraftVersion s v p state configuration w
  rw [VersionStore.content?, hfind, VersionStore.content?]
  cases hrow : s.versions.find? w with
  | none => rfl
  | some row =>
    rw [Option.map_some, if_neg]
    · rfl
    · intro hp
      obtain ⟨⟨hid, hdraft⟩, -⟩ := VersionRow.isDraft_iff.mp hp
      rcases hw with hw | hw
      · exact hw ((Table.key_of_find? hrow).symm.trans hid)
      · rw [VersionStore.published, hrow, Option.any_some, hdraft] at hw
        cases hw

/-- A new configuration of a draft is an edit of it. -/
theorem updateDraftVersion_edits {p : VersionRow → Bool} {configuration : CrawlerVersion}
    (h : updateDraftVersion v p .draft configuration s = .ok (n, s')) : Edits v s s' := by
  obtain ⟨-, rfl⟩ := updateDraftVersion_eq_ok h
  have hfind := find?_updateDraftVersion s v p .draft configuration
  have hsome : ∀ w, ((s.versions.update (VersionRow.isDraft v p) fun row =>
      ⟨row.id, row.crawlerId, .draft, configuration⟩).find? w).isSome =
        (s.versions.find? w).isSome := fun w => by rw [hfind, Option.isSome_map]
  refine ⟨rfl, fun w => ?_, fun w hw => content?_updateDraftVersion hw, fun hkeys => { hkeys with
    versions := fun row hrow => ?_
    seeds := fun row hrow => (hsome _).trans (hkeys.seeds row hrow)
    pageTypes := fun row hrow => (hsome _).trans (hkeys.pageTypes row hrow)
    transitions := fun row hrow => (hsome _).trans (hkeys.transitions row hrow) }⟩
  · show ((s.versions.update _ _).find? w).map _ = _
    rw [hfind, Option.map_map]
    cases s.versions.find? w with
    | none => rfl
    | some row =>
      rw [Option.map_some, Option.map_some, Function.comp_apply]
      split
      · rename_i hp
        exact congrArg some (Prod.ext rfl (VersionRow.isDraft_iff.mp hp).1.2.symm)
      · rfl
  · obtain ⟨other, hother, rfl⟩ := List.mem_map.mp hrow
    have := hkeys.versions other hother
    split <;> exact this

/-- An audit event comes under a new identifier. -/
theorem insertAuditEvent_eq_ok {event : AuditEvent} (h : insertAuditEvent event s = .ok (u, s')) :
    ∃ auditEvents, s.auditEvents.insert? event = some auditEvents ∧
      s' = { s with auditEvents := auditEvents } := by
  rw [insertAuditEvent, read_bind, orFail_bind_eq_ok] at h
  obtain ⟨auditEvents, hinsert, h⟩ := h
  cases h
  exact ⟨auditEvents, hinsert, rfl⟩

/-- It is no edit of any version. -/
theorem insertAuditEvent_edits (v : Id) {event : AuditEvent}
    (h : insertAuditEvent event s = .ok (u, s')) : Edits v s s' := by
  obtain ⟨auditEvents, -, rfl⟩ := insertAuditEvent_eq_ok h
  exact ⟨rfl, fun _ => rfl, fun _ _ => rfl,
    fun hkeys => ⟨hkeys.versions, hkeys.seeds, hkeys.pageTypes, hkeys.urlMatchers,
      hkeys.transitions⟩⟩

end Erabi.Versions

/-
# Clones of published versions

The rows of a clone are those of its source under the identifiers of the clone.  What the
clone declares is what its rows are, because the source is sound: its identifiers are there
once, and each row has the identifier generated for its place.
-/
import Mathlib
import Erabi.Versions.Drafts

namespace Erabi.Versions

open Relational Transaction
open Authoring
open Erabi.Configuration (CrawlerVersionState)

variable {lib : Libraries} {services : Services} {s s' : VersionStore} {v w crawlerId : Id}
  {author : Author} {u : Unit} {ids : CloneIds} {maps : CloneMaps}

/-! ## Maps of identifiers -/

/-- What is not named by the pairs stays unmapped. -/
theorem foldl_update_of_not_mem {pairs : List (Id × Id)} {map : Id → Option Id} {id : Id}
    (h : id ∉ pairs.map Prod.fst) :
    pairs.foldl (fun (map : Id → Option Id) pair => Function.update map pair.1 (some pair.2)) map id =
      map id := by
  induction pairs generalizing map with
  | nil => rfl
  | cons pair pairs ih =>
    rw [List.map_cons, List.mem_cons, not_or] at h
    rw [List.foldl_cons, ih h.2, Function.update_of_ne h.1]

/-- A map that is collected from pairs of different identifiers holds each of them. -/
theorem collectMap_of_mem {pairs : List (Id × Id)} (hnodup : (pairs.map Prod.fst).Nodup)
    {pair : Id × Id} (hpair : pair ∈ pairs) : collectMap pairs pair.1 = some pair.2 := by
  have hfold : ∀ map : Id → Option Id, pairs.foldl (fun (map : Id → Option Id) pair =>
      Function.update map pair.1 (some pair.2)) map pair.1 = some pair.2 := by
    induction pairs with
    | nil => cases hpair
    | cons head pairs ih =>
      intro map
      rw [List.map_cons, List.nodup_cons] at hnodup
      rcases List.mem_cons.mp hpair with rfl | hpair
      · rw [List.foldl_cons, foldl_update_of_not_mem hnodup.1, Function.update_self]
      · exact ih hnodup.2 hpair _
  exact hfold _

/-- The map of a list of identifiers to one of its length. -/
theorem collectMap_zip {sources targets : List Id} (hnodup : sources.Nodup)
    (hlength : sources.length = targets.length) {i : ℕ} (hi : i < sources.length) :
    collectMap (sources.zip targets) sources[i] = some targets[i] := by
  have hpair : (sources[i], targets[i]) ∈ sources.zip targets := by
    refine List.mem_iff_getElem.mpr ⟨i, ?_, List.getElem_zip⟩
    rw [List.length_zip]
    omega
  refine collectMap_of_mem ?_ hpair
  rw [List.map_fst_zip hlength.le]
  exact hnodup

/-! ## Rows of a clone -/

/-- The seed of the clone. -/
def Seed.clonedWith (ids : CloneIds) (maps : CloneMaps) (seed : Seed) : Seed :=
  { seed with
    id := (maps.seeds seed.id).getD (ids.undeclared seed.id)
    entryPageTypeHint := seed.entryPageTypeHint.bind maps.pageTypes }

/-- The page type of the clone. -/
def PageTypeRow.clonedWith (ids : CloneIds) (target : Id) (maps : CloneMaps) (row : PageTypeRow) :
    PageTypeRow :=
  ⟨(maps.pageTypes row.id).getD (ids.undeclared row.id), target, row.name, row.priority,
    row.configuration.mapStrings (remapText maps.all)⟩

/-- A cloned seed is inserted with its new identifiers. -/
theorem cloneSeed_eq_ok {seed : Seed} (h : cloneSeed ids v maps seed s = .ok ((), s')) :
    insertSeed v (Seed.clonedWith ids maps seed) s = .ok ((), s') := by
  obtain ⟨hint, hhint, h⟩ := lift_bind_eq_ok.mp h
  have hsame : hint = seed.entryPageTypeHint.bind maps.pageTypes := by
    cases hseed : seed.entryPageTypeHint with
    | none =>
      rw [hseed] at hhint
      exact (Except.ok.inj hhint).symm
    | some source =>
      rw [hseed, cloneHint] at hhint
      cases hmap : maps.pageTypes source with
      | none =>
        rw [hmap] at hhint
        cases hhint
      | some target =>
        rw [hmap] at hhint
        rw [Option.bind_some, hmap]
        exact (Except.ok.inj hhint).symm
  rw [hsame] at h
  exact h

/-- Matchers of page types of one version, inserted one after the other. -/
theorem foldEach_cloneUrlMatcher {rows : List UrlMatcherRow}
    (hrows : ∀ row ∈ rows, ∀ id, maps.pageTypes row.pageTypeId = some id →
      ∃ pageType, s.pageTypes.find? id = some pageType ∧ pageType.crawlerVersionId = v)
    (h : foldEach (fun _ => cloneUrlMatcher lib ids maps) () rows s = .ok ((), s')) :
    Edits v s s' ∧ ∃ urlMatchers, s' = { s with urlMatchers := urlMatchers } := by
  refine foldEach_induction (Q := fun rows s s' => (∀ row ∈ rows, ∀ id,
    maps.pageTypes row.pageTypeId = some id → ∃ pageType, s.pageTypes.find? id = some pageType ∧
      pageType.crawlerVersionId = v) →
        Edits v s s' ∧ ∃ urlMatchers, s' = { s with urlMatchers := urlMatchers })
          (fun s _ => ⟨.refl v s, s.urlMatchers, rfl⟩) ?_ h hrows
  intro row rows s s₁ s' hrow ih hall
  obtain ⟨matcher, -, hrow⟩ := lift_bind_eq_ok.mp hrow
  obtain ⟨id, hid, hinsert⟩ := orFail_bind_eq_ok.mp hrow
  obtain ⟨pageType, hpageType, rfl⟩ := hall row List.mem_cons_self id hid
  have hedits := insertUrlMatcher_edits hinsert hpageType
  obtain ⟨-, -, urlMatchers, -, rfl⟩ := insertUrlMatcher_eq_ok hinsert
  obtain ⟨hrest, urlMatchers', rfl⟩ := ih fun row hrow => hall row (List.mem_cons_of_mem _ hrow)
  exact ⟨hedits.trans hrest, urlMatchers', rfl⟩

/-- The transitions of a clone are inserted one after another. -/
theorem foldEach_cloneTransition {rows : List TransitionRow}
    (h : foldEach (fun _ => cloneTransition ids v maps) () rows s = .ok ((), s')) :
    Edits v s s' ∧ ∃ transitions, s' = { s with transitions := transitions } := by
  refine foldEach_induction (Q := fun _ s s' => Edits v s s' ∧
    ∃ transitions, s' = { s with transitions := transitions })
      (fun s => ⟨.refl v s, s.transitions, rfl⟩) ?_ h
  rintro row rows s s₁ s' hinsert ⟨hrest, transitions, rfl⟩
  have hedits := insertTransition_edits hinsert
  obtain ⟨-, transitions', -, rfl⟩ := insertTransition_eq_ok hinsert
  exact ⟨hedits.trans hrest, transitions, rfl⟩

/-- The rows of a clone: a seed and a page type for each of the source. -/
theorem cloneChildRows_eq_ok {source : CrawlerVersion} (hne : source.id ≠ v)
    (h : cloneChildRows lib source ids v maps s = .ok (u, s')) :
    Edits v s s' ∧ s'.versions = s.versions ∧
      s'.seedsOf v = s.seedsOf v ++ ((s.seedsOf source.id).insertionSort fun a b =>
        a.id.text ≤ b.id.text).map (Seed.clonedWith ids maps) ∧
      s'.pageTypesOf v = s.pageTypesOf v ++ ((s.pageTypesOf source.id).insertionSort fun a b =>
        a.id.text ≤ b.id.text).map (PageTypeRow.clonedWith ids v maps) := by
  rw [cloneChildRows, read_bind] at h
  obtain ⟨⟨⟩, s₁, hseeds, h⟩ := Transaction.bind_eq_ok.mp h
  obtain ⟨hedits₁, ⟨seeds, rfl⟩, hseeds⟩ :=
    foldEach_insertSeed (fun _ _ _ h => cloneSeed_eq_ok h) hseeds
  rw [read_bind] at h
  obtain ⟨⟨⟩, s₂, hpageTypes, h⟩ := Transaction.bind_eq_ok.mp h
  obtain ⟨hedits₂, ⟨pageTypes, rfl⟩, hpageTypes⟩ :=
    foldEach_insertPageType (g := PageTypeRow.clonedWith ids v maps) (fun _ => rfl) hpageTypes
  rw [read_bind] at h
  obtain ⟨⟨⟩, s₃, hmatchers, h⟩ := Transaction.bind_eq_ok.mp h
  -- the page type of a matcher of the source has its clone by now
  have hcloned : ∀ matcher ∈ VersionStore.matchersOf
      { s with seeds := seeds, pageTypes := pageTypes } source.id, ∀ id,
        maps.pageTypes matcher.pageTypeId = some id →
          ∃ pageType, pageTypes.find? id = some pageType ∧ pageType.crawlerVersionId = v := by
    intro matcher hmatcher id hid
    obtain ⟨-, pageType, hpageType, hsource⟩ := mem_matchersOf_iff.mp hmatcher
    have hmem := mem_pageTypesOf.mpr ⟨Table.mem_of_find? hpageType, hsource⟩
    rw [hpageTypes source.id, if_neg hne.symm, List.append_nil] at hmem
    have hclone : PageTypeRow.clonedWith ids v maps pageType ∈
        VersionStore.pageTypesOf { s with seeds := seeds, pageTypes := pageTypes } v := by
      rw [hpageTypes v, if_pos rfl]
      exact List.mem_append_right _ (List.mem_map_of_mem ((List.mem_insertionSort _).mpr hmem))
    obtain ⟨hrow, hv⟩ := mem_pageTypesOf.mp hclone
    refine ⟨PageTypeRow.clonedWith ids v maps pageType, ?_, hv⟩
    have hkey := Table.find?_key hrow
    have hid' : (PageTypeRow.clonedWith ids v maps pageType).id = id := by
      rw [PageTypeRow.clonedWith, Table.key_of_find? hpageType, hid, Option.getD_some]
    rw [hid'] at hkey
    exact hkey
  obtain ⟨hedits₃, urlMatchers, rfl⟩ := foldEach_cloneUrlMatcher
    (fun matcher hmatcher => hcloned matcher ((List.mem_insertionSort _).mp hmatcher)) hmatchers
  rw [read_bind] at h
  obtain ⟨hedits₄, transitions, rfl⟩ := foldEach_cloneTransition h
  refine ⟨((hedits₁.trans hedits₂).trans hedits₃).trans hedits₄, rfl, hseeds, ?_⟩
  have hnew := hpageTypes v
  rw [if_pos rfl] at hnew
  exact hnew

/-! ## What the clone declares -/

section Source

variable {source : CrawlerVersion}

/-- The clone of a version under the identifiers generated for it. -/
theorem cloneMaps_pageTypes (hnodup : source.pageTypeIds.Nodup) {id : Id}
    (hid : id ∈ source.pageTypeIds) :
    (cloneMaps s source (source.cloned ids.toGenerated) ids).pageTypes id =
      some (source.clonedPageType ids.toGenerated id) := by
  have hlt := List.idxOf_lt_length_iff.mpr hid
  have hmap := collectMap_zip hnodup (show source.pageTypeIds.length =
    (source.cloned ids.toGenerated).pageTypeIds.length by simp [CrawlerVersion.cloned]) hlt
  rw [List.getElem_idxOf hlt] at hmap
  show (collectMap _ id).or _ = _
  rw [hmap, Option.some_or]
  simp [CrawlerVersion.cloned, CrawlerVersion.clonedPageType]

/-- A declared seed is mapped to the one at its position. -/
theorem cloneMaps_seeds (hnodup : (source.seeds.map Seed.id).Nodup) {i : ℕ}
    (hi : i < source.seeds.length) :
    (cloneMaps s source (source.cloned ids.toGenerated) ids).seeds source.seeds[i].id =
      some (ids.seed i) := by
  have hmap := collectMap_zip hnodup (show (source.seeds.map Seed.id).length =
    ((source.cloned ids.toGenerated).seeds.map Seed.id).length by simp [CrawlerVersion.cloned])
      (show i < (source.seeds.map Seed.id).length by simpa using hi)
  rw [List.getElem_map] at hmap
  show collectMap _ _ = _
  rw [hmap]
  simp [CrawlerVersion.cloned]

/-- The seeds of the clone are the clones of the seeds. -/
theorem map_clonedWith_seeds (hseeds : (source.seeds.map Seed.id).Nodup)
    (hpageTypes : source.pageTypeIds.Nodup)
    (hhints : ∀ seed ∈ source.seeds, ∀ hint ∈ seed.entryPageTypeHint, hint ∈ source.pageTypeIds) :
    source.seeds.map
      (Seed.clonedWith ids (cloneMaps s source (source.cloned ids.toGenerated) ids)) =
        (source.cloned ids.toGenerated).seeds := by
  refine List.ext_getElem (by simp [CrawlerVersion.cloned]) fun i hi hi' => ?_
  rw [List.length_map] at hi
  have hid : (cloneMaps s source (source.cloned ids.toGenerated) ids).seeds source.seeds[i].id =
      some (ids.seed i) := cloneMaps_seeds hseeds hi
  have hhint : source.seeds[i].entryPageTypeHint.bind
      (cloneMaps s source (source.cloned ids.toGenerated) ids).pageTypes =
        source.seeds[i].entryPageTypeHint.bind (source.remapPageType ids.toGenerated) := by
    cases hseed : source.seeds[i].entryPageTypeHint with
    | none => rfl
    | some hint =>
      have hdeclared := hhints source.seeds[i] (List.getElem_mem hi) hint hseed
      rw [Option.bind_some, Option.bind_some, cloneMaps_pageTypes hpageTypes hdeclared,
        CrawlerVersion.remapPageType, if_pos hdeclared, CrawlerVersion.clonedPageType]
  rw [List.getElem_map, Seed.clonedWith, hid, hhint]
  simp [CrawlerVersion.cloned]

/-- The page types of the clone are the clones of the page types. -/
theorem map_clonedWith_pageTypes (hpageTypes : source.pageTypeIds.Nodup) :
    source.pageTypeIds.map (fun id => ((cloneMaps s source (source.cloned ids.toGenerated)
      ids).pageTypes id).getD (ids.undeclared id)) =
        (source.cloned ids.toGenerated).pageTypeIds := by
  refine List.ext_getElem (by simp [CrawlerVersion.cloned]) fun i hi hi' => ?_
  rw [List.length_map] at hi
  rw [List.getElem_map, cloneMaps_pageTypes hpageTypes (List.getElem_mem hi), Option.getD_some,
    CrawlerVersion.clonedPageType, hpageTypes.idxOf_getElem i hi]
  simp [CrawlerVersion.cloned]

/-- In whatever order the seeds of the source are read. -/
theorem clonedSeeds_perm {seeds : List Seed} (hsource : seeds.Perm source.seeds)
    (hseeds : (source.seeds.map Seed.id).Nodup) (hpageTypes : source.pageTypeIds.Nodup)
    (hhints : ∀ seed ∈ source.seeds, ∀ hint ∈ seed.entryPageTypeHint, hint ∈ source.pageTypeIds) :
    ((seeds.insertionSort fun a b => a.id.text ≤ b.id.text).map (Seed.clonedWith ids
      (cloneMaps s source (source.cloned ids.toGenerated) ids))).Perm
        (source.cloned ids.toGenerated).seeds := by
  rw [← map_clonedWith_seeds hseeds hpageTypes hhints]
  exact ((List.perm_insertionSort _ _).trans hsource).map _

/-- The page types of the clone are those that the clone declares. -/
theorem clonedPageTypes_perm {rows : List PageTypeRow}
    (hsource : (rows.map PageTypeRow.id).Perm source.pageTypeIds)
    (hpageTypes : source.pageTypeIds.Nodup) :
    (((rows.insertionSort fun a b => a.id.text ≤ b.id.text).map (PageTypeRow.clonedWith ids v
      (cloneMaps s source (source.cloned ids.toGenerated) ids))).map PageTypeRow.id).Perm
        (source.cloned ids.toGenerated).pageTypeIds := by
  rw [List.map_map, ← map_clonedWith_pageTypes (s := s) hpageTypes]
  refine ((List.perm_insertionSort _ _).map _).trans ?_
  have hmapped := hsource.map fun id => ((cloneMaps s source (source.cloned ids.toGenerated)
    ids).pageTypes id).getD (ids.undeclared id)
  rw [List.map_map] at hmapped
  exact hmapped

/-- The hints of the clone are page types of the clone. -/
theorem hints_cloned {seed : Seed} {hint : Id}
    (hseed : seed ∈ (source.cloned ids.toGenerated).seeds) (hhint : hint ∈ seed.entryPageTypeHint) :
    hint ∈ (source.cloned ids.toGenerated).pageTypeIds := by
  obtain ⟨i, hi, rfl⟩ := List.mem_iff_getElem.mp hseed
  simp only [CrawlerVersion.cloned, List.getElem_mapIdx, Option.mem_def,
    Option.bind_eq_some_iff] at hhint
  obtain ⟨old, -, hremap⟩ := hhint
  rw [CrawlerVersion.remapPageType] at hremap
  split at hremap
  · rename_i hdeclared
    cases hremap
    exact CrawlerVersion.clonedPageType_mem hdeclared
  · cases hremap

end Source

/-- A clone is inserted as its source is stored, and is sound as its source is. -/
theorem createDraftFromPublished_keeps (sourceVersionId : Id) (ids : CloneIds) (author : Author) :
    Keeps (Coherent lib)
      (createDraftFromPublished lib services crawlerId sourceVersionId ids author) := by
  intro s u s' h hs
  rw [createDraftFromPublished, read_bind, lift_bind_eq_ok] at h
  obtain ⟨active, hactive, h⟩ := h
  obtain ⟨hnone, h⟩ := require_bind_eq_ok.mp h
  obtain ⟨source, hload, h⟩ := lift_bind_eq_ok.mp h
  obtain ⟨howner, h⟩ := require_bind_eq_ok.mp h
  obtain ⟨hstate, h⟩ := require_bind_eq_ok.mp h
  obtain ⟨clone, hclone, h⟩ := lift_bind_eq_ok.mp h
  obtain ⟨⟨⟩, s₁, hinsert, h⟩ := Transaction.bind_eq_ok.mp h
  obtain ⟨⟨⟩, s₂, hchildren, h⟩ := Transaction.bind_eq_ok.mp h
  obtain ⟨⟨⟩, s₃, hactivate, h⟩ := Transaction.bind_eq_ok.mp h
  rw [read_bind, lift_bind_eq_ok] at h
  obtain ⟨hash, hhash, haudit⟩ := h
  obtain ⟨c, hc, -, hsource⟩ := loadVersion_eq_ok.mp hload
  have hsound := hs.sound sourceVersionId c hc
  have hsourceId := hsound.id_eq hc
  obtain ⟨hrow, hseedsOf, hpageTypesOf⟩ := content?_fields hc
  rw [← hsource] at hsourceId
  obtain ⟨-, -, hhints, rfl⟩ := CrawlerVersion.draftFromPublished_eq_ok.mp (orElse_eq_ok.mp hclone)
  obtain ⟨-, versions, hnew, hs₁⟩ := insertVersion_eq_ok hinsert
  have hfree : s.versions.find? (source.cloned ids.toGenerated).id = none :=
    (Table.insert?_eq_some.mp hnew).1
  have hne : source.id ≠ (source.cloned ids.toGenerated).id := by
    intro heq
    rw [← heq, hsourceId, hrow] at hfree
    cases hfree
  obtain ⟨hedits, hversions, hseeds, hpageTypes⟩ := cloneChildRows_eq_ok hne hchildren
  have hdraft : NewDraft ⟨(source.cloned ids.toGenerated).id, crawlerId, .draft,
      source.cloned ids.toGenerated⟩ s s₁ s₂ s₃ :=
    ⟨free_of_activeDraftFor (hnone ▸ hactive), rfl, hinsert, hedits, hactivate⟩
  refine insertAuditEvent_keeps _ s₃ _ s' haudit (hdraft.coherent hs fun c' hc' => ?_)
  -- the rows of the clone, from those of its source
  obtain ⟨hnoSeeds, hnoPageTypes, -⟩ := noChildren hs.keys hfree
  have hseedIds : (source.seeds.map Seed.id).Nodup := by
    rw [hsource]
    exact (hsound.seeds.map Seed.id).nodup_iff.mp (hseedsOf ▸ nodup_seedsOf s sourceVersionId)
  have hpageTypeIds : source.pageTypeIds.Nodup := by
    rw [hsource]
    exact hsound.pageTypes.nodup_iff.mp (hpageTypesOf ▸ nodup_ids s.pageTypes _)
  have hseedRows : (s₃.seedsOf (source.cloned ids.toGenerated).id).Perm
      (source.cloned ids.toGenerated).seeds := by
    rw [activateDraft_eq_ok hactivate]
    show (s₂.seedsOf _).Perm _
    rw [hseeds, hs₁]
    show (s.seedsOf _ ++ _).Perm _
    rw [hnoSeeds, List.nil_append]
    refine clonedSeeds_perm ?_ hseedIds hpageTypeIds hhints
    show (s.seedsOf source.id).Perm _
    rw [hsourceId, ← hseedsOf, hsource]
    exact hsound.seeds
  have hpageTypeRows : ((s₃.pageTypesOf (source.cloned ids.toGenerated).id).map
      PageTypeRow.id).Perm (source.cloned ids.toGenerated).pageTypeIds := by
    rw [activateDraft_eq_ok hactivate]
    show ((s₂.pageTypesOf _).map _).Perm _
    rw [hpageTypes, hs₁]
    show ((s.pageTypesOf _ ++ _).map _).Perm _
    rw [hnoPageTypes, List.nil_append]
    refine clonedPageTypes_perm ?_ hpageTypeIds
    show ((s.pageTypesOf source.id).map PageTypeRow.id).Perm _
    rw [hsourceId, ← hpageTypesOf, hsource]
    exact hsound.pageTypes
  obtain ⟨row, hfound, rfl⟩ := content?_eq_some.mp hc'
  have hsame : s₃.versions = versions := by
    rw [activateDraft_eq_ok hactivate]
    exact hversions.trans (hs₁ ▸ rfl)
  rw [hsame] at hfound
  cases ((Table.find?_insert hnew _).trans (if_pos rfl)).symm.trans hfound
  obtain ⟨⟨hcontract, ⟨htransitions, -⟩, hmatchers⟩, -⟩ := semanticHash_eq_ok.mp hhash
  exact {
    id := rfl
    crawlerId := howner
    state := rfl
    contract := hcontract
    seeds := hseedRows
    hints := fun seed hseed hint hhint => hints_cloned hseed hhint
    pageTypes := hpageTypeRows
    transitions := htransitions
    matchers := hmatchers }

end Erabi.Versions

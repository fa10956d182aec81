/-
# Coherent stores

The rows of a version are those that it declares, and what it refers to is its own.  A
version passes the checks of a loading exactly if it is so, and then all of them.
-/
import Mathlib
import Erabi.Authoring.Contract
import Erabi.Versions.Changes

namespace Erabi.Versions

open Relational Transaction
open Authoring
open Erabi.Configuration (CrawlerVersionState)

variable {lib : Libraries} {s s' : VersionStore} {v w : Id} {version : CrawlerVersion}

/-! ## Checks that succeed -/

/-- A check passes where its condition holds. -/
theorem check_eq_ok {p : Prop} [Decidable p] {e : CrawlerRepositoryError} {u : Unit} :
    check p e = .ok u ↔ p := by
  unfold check
  split
  · rename_i hp
    exact ⟨fun _ => hp, fun _ => rfl⟩
  · rename_i hp
    exact ⟨fun h => (by cases h), fun h => absurd h hp⟩

/-- A check in front is one more condition. -/
theorem check_then_eq_ok {β : Type} {p : Prop} [Decidable p] {e : CrawlerRepositoryError}
    {f : Unit → Except CrawlerRepositoryError β} {b : β} :
    (check p e >>= f) = .ok b ↔ p ∧ f () = .ok b := by
  rw [except_bind_eq_ok]
  exact ⟨fun ⟨_, hp, hf⟩ => ⟨check_eq_ok.mp hp, hf⟩, fun ⟨hp, hf⟩ => ⟨(), check_eq_ok.mpr hp, hf⟩⟩

/-- Translating the error changes no result. -/
theorem orElse_eq_ok {α : Type} {translate : ProductError → CrawlerRepositoryError}
    {x : Except ProductError α} {a : α} : orElse translate x = .ok a ↔ x = .ok a := by
  cases x with
  | error e => exact ⟨fun h => (by cases h), fun h => (by cases h)⟩
  | ok b => exact ⟨fun h => (by cases h; rfl), fun h => (by cases h; rfl)⟩

/-- A check without value has one result. -/
theorem isOk_iff {ε : Type} {x : Except ε Unit} : x.isOk = true ↔ x = .ok () := by
  cases x with
  | error e => exact ⟨fun h => (by cases h), fun h => (by cases h)⟩
  | ok u => exact ⟨fun _ => rfl, fun _ => rfl⟩

/-! ## Rows of a version -/

/-- The transitions of the version are those it declares, valid, and between its page types. -/
structure TransitionsSound (version : CrawlerVersion) (transitions : List TransitionRow) :
    Prop where
  declared : (transitions.map TransitionRow.id).Perm version.transitionIds
  configured : ∀ row ∈ transitions, row.configuration.id = row.id
  endpoints : ∀ row ∈ transitions, row.configuration.sourcePageTypeId ∈ version.pageTypeIds ∧
    row.configuration.targetPageTypeId ∈ version.pageTypeIds
  valid : ∀ row ∈ transitions, row.configuration.validate = .ok ()

/-- The row and the seeds of the version are what it says. -/
structure Content.Projected (lib : Libraries) (c : Content) : Prop where
  id : c.row.semanticConfiguration.id = c.row.id
  crawlerId : c.row.semanticConfiguration.crawlerId = c.row.crawlerId
  state : c.row.semanticConfiguration.state = c.row.state
  contract : c.row.semanticConfiguration.Contract lib
  seeds : c.seeds.Perm c.row.semanticConfiguration.seeds
  hints : ∀ seed ∈ c.row.semanticConfiguration.seeds, ∀ hint ∈ seed.entryPageTypeHint,
    hint ∈ c.row.semanticConfiguration.pageTypeIds

/-- What is stored of the version is what it says. -/
structure Content.Sound (lib : Libraries) (c : Content) : Prop extends c.Projected lib where
  pageTypes : (c.pageTypes.map PageTypeRow.id).Perm c.row.semanticConfiguration.pageTypeIds
  transitions : TransitionsSound c.row.semanticConfiguration c.transitions
  matchers : ∀ row ∈ c.urlMatchers, row.matcher.validateDefinition lib = .ok ()

/-- The rows of one version have their identifiers once. -/
theorem nodup_ids {ρ : Type} {key : ρ → Id} (t : Table ρ Id key) (p : ρ → Bool) :
    ((t.select p).map key).Nodup :=
  (List.filter_sublist.map key).nodup t.keysNodup

/-- Seeds are keyed by their identifiers. -/
theorem nodup_seedsOf (s : VersionStore) (v : Id) : ((s.seedsOf v).map Seed.id).Nodup := by
  rw [VersionStore.seedsOf, List.map_map]
  exact nodup_ids s.seeds _

/-- The check finds the row of the page type. -/
theorem ensurePageTypeBelongsToVersion_eq_ok {pageTypeId : Id} :
    s.ensurePageTypeBelongsToVersion v pageTypeId = .ok () ↔
      ∃ row, s.pageTypes.find? pageTypeId = some row ∧ row.crawlerVersionId = v := by
  unfold VersionStore.ensurePageTypeBelongsToVersion
  cases s.pageTypes.find? pageTypeId with
  | none => simp
  | some row => simp [check_eq_ok]

/-- The page types of a version are the rows of it. -/
theorem mem_pageTypesOf {row : PageTypeRow} :
    row ∈ s.pageTypesOf v ↔ row ∈ s.pageTypes.rows ∧ row.crawlerVersionId = v := by
  rw [VersionStore.pageTypesOf, Table.mem_select, decide_eq_true_eq]

/-- The transitions of a version are those of its rows. -/
theorem mem_transitionsOf {row : TransitionRow} :
    row ∈ s.transitionsOf v ↔ row ∈ s.transitions.rows ∧ row.crawlerVersionId = v := by
  rw [VersionStore.transitionsOf, Table.mem_select, decide_eq_true_eq]

/-- A page type belongs to the version that lists it. -/
theorem belongs_iff {pageTypeId : Id} : s.ensurePageTypeBelongsToVersion v pageTypeId = .ok () ↔
    pageTypeId ∈ (s.pageTypesOf v).map PageTypeRow.id := by
  rw [ensurePageTypeBelongsToVersion_eq_ok, List.mem_map]
  constructor
  · rintro ⟨row, hrow, hv⟩
    exact ⟨row, mem_pageTypesOf.mpr ⟨Table.mem_of_find? hrow, hv⟩, Table.key_of_find? hrow⟩
  · rintro ⟨row, hrow, rfl⟩
    exact ⟨row, Table.find?_key (mem_pageTypesOf.mp hrow).1, (mem_pageTypesOf.mp hrow).2⟩

/-! ## Transitions -/

/-- When a transition is loaded: it is declared, between declared page types, and valid. -/
theorem loadTransitionRecord_eq_ok {row : TransitionRow} {transition : DiscoveryTransition} :
    s.loadTransitionRecord version true row = .ok transition ↔
      ((row.id ∈ version.transitionIds ∧ row.configuration.id = row.id) ∧
        (row.configuration.sourcePageTypeId ∈ version.pageTypeIds ∧
          row.configuration.targetPageTypeId ∈ version.pageTypeIds) ∧
        row.configuration.sourcePageTypeId ∈ (s.pageTypesOf version.id).map PageTypeRow.id ∧
        row.configuration.targetPageTypeId ∈ (s.pageTypesOf version.id).map PageTypeRow.id ∧
        row.configuration.validate = .ok ()) ∧ transition = row.configuration := by
  rw [VersionStore.loadTransitionRecord, check_then_eq_ok, if_pos rfl, check_then_eq_ok,
    check_then_eq_ok, check_then_eq_ok, isOk_iff, isOk_iff, belongs_iff, belongs_iff,
    except_bind_eq_ok]
  constructor
  · rintro ⟨hrow, hendpoints, hsource, htarget, ⟨⟩, hvalid, h⟩
    cases h
    exact ⟨⟨hrow, hendpoints, hsource, htarget, orElse_eq_ok.mp hvalid⟩, rfl⟩
  · rintro ⟨⟨hrow, hendpoints, hsource, htarget, hvalid⟩, rfl⟩
    exact ⟨hrow, hendpoints, hsource, htarget, (), orElse_eq_ok.mpr hvalid, rfl⟩

/-- The order in which rows are read does not matter for what is among them. -/
theorem forall_mem_insertionSort {α : Type} {r : α → α → Prop} [DecidableRel r] {l : List α}
    {P : α → Prop} : (∀ a ∈ l.insertionSort r, P a) ↔ ∀ a ∈ l, P a :=
  forall_congr' fun _ => imp_congr_left (List.mem_insertionSort r)

/-- Identifiers that are there once are the declared ones if each is one of the others. -/
theorem perm_iff_declared {ids declared : List Id} (hids : ids.Nodup) :
    (declared.Nodup ∧ (∀ id ∈ ids, id ∈ declared) ∧ ∀ id ∈ declared, id ∈ ids) ↔
      ids.Perm declared := by
  constructor
  · rintro ⟨hdeclared, hsub, hsup⟩
    exact (List.perm_ext_iff_of_nodup hids hdeclared).mpr fun id => ⟨hsub id, hsup id⟩
  · intro h
    exact ⟨h.nodup_iff.mp hids, fun id => h.mem_iff.mp, fun id => h.mem_iff.mpr⟩

/-- When the transitions are loaded, in the order of their identifiers. -/
theorem loadTransitionRecords_eq_ok {records : List DiscoveryTransition} :
    s.loadTransitionRecords version true = .ok records ↔
      (TransitionsSound version (s.transitionsOf version.id) ∧
        ∀ row ∈ s.transitionsOf version.id,
          row.configuration.sourcePageTypeId ∈ (s.pageTypesOf version.id).map PageTypeRow.id ∧
            row.configuration.targetPageTypeId ∈ (s.pageTypesOf version.id).map PageTypeRow.id) ∧
        records = ((s.transitionsOf version.id).insertionSort fun a b => a.id.text ≤ b.id.text).map
          TransitionRow.configuration := by
  rw [VersionStore.loadTransitionRecords, check_then_eq_ok, except_bind_eq_ok]
  simp only [except_mapM_eq_ok fun _ _ => loadTransitionRecord_eq_ok, check_then_eq_ok,
    forall_mem_insertionSort]
  have hnodup : ((s.transitionsOf version.id).map TransitionRow.id).Nodup :=
    nodup_ids s.transitions _
  -- rows whose configuration has their identifier are listed by either
  have hids : ∀ rows : List TransitionRow, (∀ row ∈ rows, row.configuration.id = row.id) →
      (rows.map TransitionRow.configuration).map DiscoveryTransition.id =
        rows.map TransitionRow.id := fun rows h => by
    rw [List.map_map]
    exact List.map_congr_left h
  constructor
  · rintro ⟨hdeclared, loaded, ⟨hrows, rfl⟩, hall, h⟩
    cases h
    rw [hids _ (forall_mem_insertionSort.mpr fun row hrow => (hrows row hrow).1.2)] at hall
    have hperm := ((List.perm_insertionSort (fun a b : TransitionRow => a.id.text ≤ b.id.text)
      (s.transitionsOf version.id)).map TransitionRow.id)
    refine ⟨⟨⟨?_, fun row hrow => (hrows row hrow).1.2, fun row hrow => (hrows row hrow).2.1,
      fun row hrow => (hrows row hrow).2.2.2.2⟩,
        fun row hrow => ⟨(hrows row hrow).2.2.1, (hrows row hrow).2.2.2.1⟩⟩, rfl⟩
    refine (perm_iff_declared hnodup).mp ⟨hdeclared, ?_, fun id hid => hperm.mem_iff.mp (hall id hid)⟩
    intro id hid
    obtain ⟨row, hrow, rfl⟩ := List.mem_map.mp hid
    exact (hrows row hrow).1.1
  · rintro ⟨⟨⟨hdeclared, hconfigured, hendpoints, hvalid⟩, hbelong⟩, rfl⟩
    obtain ⟨hnodup', hsub, hsup⟩ := (perm_iff_declared hnodup).mpr hdeclared
    refine ⟨hnodup', _, ⟨fun row hrow => ?_, rfl⟩, ?_, rfl⟩
    · exact ⟨⟨hsub _ (List.mem_map_of_mem hrow), hconfigured row hrow⟩, hendpoints row hrow,
        (hbelong row hrow).1, (hbelong row hrow).2, hvalid row hrow⟩
    · rw [hids _ (forall_mem_insertionSort.mpr hconfigured)]
      exact fun id hid => ((List.perm_insertionSort _ _).map TransitionRow.id).mem_iff.mpr
        (hsup id hid)

/-! ## Page types -/

/-- What is loaded of the row. -/
def PageTypeRow.loadedWith (store : VersionStore) (row : PageTypeRow) : PageTypeRecord :=
  ⟨row.id, row.crawlerVersionId, row.name, row.priority,
    ((store.matchersFor row.id).insertionSort fun a b =>
      a.ordinal < b.ordinal ∨ a.ordinal = b.ordinal ∧ a.id.text ≤ b.id.text).map fun row =>
        ⟨row.id, row.pageTypeId, row.ordinal, row.matcher⟩⟩

/-- When the matchers are loaded, in their order. -/
theorem loadMatchersForPageType_eq_ok {pageTypeId : Id} {records : List UrlMatcherRecord} :
    s.loadMatchersForPageType lib pageTypeId = .ok records ↔
      (∀ row ∈ s.matchersFor pageTypeId, row.matcher.validateDefinition lib = .ok ()) ∧
        records = ((s.matchersFor pageTypeId).insertionSort fun a b =>
          a.ordinal < b.ordinal ∨ a.ordinal = b.ordinal ∧ a.id.text ≤ b.id.text).map fun row =>
            ⟨row.id, row.pageTypeId, row.ordinal, row.matcher⟩ := by
  rw [VersionStore.loadMatchersForPageType, except_mapM_eq_ok
    (P := fun row : UrlMatcherRow => row.matcher.validateDefinition lib = .ok ())
    (g := fun row => ⟨row.id, row.pageTypeId, row.ordinal, row.matcher⟩), forall_mem_insertionSort]
  intro row record
  rw [except_bind_eq_ok]
  constructor
  · rintro ⟨⟨⟩, hvalid, h⟩
    exact ⟨orElse_eq_ok.mp hvalid, (Except.ok.inj h).symm⟩
  · rintro ⟨hvalid, rfl⟩
    exact ⟨(), orElse_eq_ok.mpr hvalid, rfl⟩

/-- When a page type is loaded. -/
theorem loadPageTypeRecord_eq_ok {declared : List Id} {row : PageTypeRow}
    {record : PageTypeRecord} : s.loadPageTypeRecord lib declared row = .ok record ↔
      (row.id ∈ declared ∧
        ∀ matcher ∈ s.matchersFor row.id, matcher.matcher.validateDefinition lib = .ok ()) ∧
          record = row.loadedWith s := by
  rw [VersionStore.loadPageTypeRecord, check_then_eq_ok, except_bind_eq_ok]
  simp only [loadMatchersForPageType_eq_ok]
  constructor
  · rintro ⟨hdeclared, _, ⟨hvalid, rfl⟩, h⟩
    exact ⟨⟨hdeclared, hvalid⟩, (Except.ok.inj h).symm⟩
  · rintro ⟨⟨hdeclared, hvalid⟩, rfl⟩
    exact ⟨hdeclared, _, ⟨hvalid, rfl⟩, rfl⟩

/-- When the page types are loaded, in the order of their names. -/
theorem loadPageTypeRecords_eq_ok {records : List PageTypeRecord} :
    s.loadPageTypeRecords lib version = .ok records ↔
      (((s.pageTypesOf version.id).map PageTypeRow.id).Perm version.pageTypeIds ∧
        ∀ row ∈ s.pageTypesOf version.id, ∀ matcher ∈ s.matchersFor row.id,
          matcher.matcher.validateDefinition lib = .ok ()) ∧
        records = ((s.pageTypesOf version.id).insertionSort fun a b =>
          a.name < b.name ∨ a.name = b.name ∧ a.id.text ≤ b.id.text).map
            (PageTypeRow.loadedWith s) := by
  rw [VersionStore.loadPageTypeRecords, check_then_eq_ok, except_bind_eq_ok]
  simp only [except_mapM_eq_ok fun _ _ => loadPageTypeRecord_eq_ok, check_then_eq_ok,
    forall_mem_insertionSort]
  have hnodup : ((s.pageTypesOf version.id).map PageTypeRow.id).Nodup := nodup_ids s.pageTypes _
  have hids : ∀ rows : List PageTypeRow,
      (rows.map (PageTypeRow.loadedWith s)).map PageTypeRecord.id = rows.map PageTypeRow.id :=
    fun rows => List.map_map
  have hperm := ((List.perm_insertionSort (fun a b : PageTypeRow =>
    a.name < b.name ∨ a.name = b.name ∧ a.id.text ≤ b.id.text) (s.pageTypesOf version.id)).map
      PageTypeRow.id)
  constructor
  · rintro ⟨hdeclared, loaded, ⟨hrows, rfl⟩, hall, h⟩
    cases h
    rw [hids] at hall
    refine ⟨⟨(perm_iff_declared hnodup).mp ⟨hdeclared, ?_, fun id hid =>
      hperm.mem_iff.mp (hall id hid)⟩, fun row hrow => (hrows row hrow).2⟩, rfl⟩
    intro id hid
    obtain ⟨row, hrow, rfl⟩ := List.mem_map.mp hid
    exact (hrows row hrow).1
  · rintro ⟨⟨hdeclared, hvalid⟩, rfl⟩
    obtain ⟨hnodup', hsub, hsup⟩ := (perm_iff_declared hnodup).mpr hdeclared
    refine ⟨hnodup', _, ⟨fun row hrow => ⟨hsub _ (List.mem_map_of_mem hrow), hvalid row hrow⟩,
      rfl⟩, ?_, rfl⟩
    rw [hids]
    exact fun id hid => hperm.mem_iff.mpr (hsup id hid)

/-! ## Versions -/

/-- The seed rows are the seeds of the version, with hints of its own. -/
theorem validateSeedProjection_eq_ok : s.validateSeedProjection version = .ok () ↔
    (s.seedsOf version.id).Perm version.seeds ∧
      ∀ seed ∈ version.seeds, ∀ hint ∈ seed.entryPageTypeHint, hint ∈ version.pageTypeIds := by
  rw [VersionStore.validateSeedProjection, check_then_eq_ok, check_eq_ok]
  constructor
  · rintro ⟨⟨-, hhints⟩, hperm⟩
    exact ⟨hperm, hhints⟩
  · rintro ⟨hperm, hhints⟩
    exact ⟨⟨(hperm.map Seed.id).nodup_iff.mp (nodup_seedsOf s version.id), hhints⟩, hperm⟩

/-- The content of a version is in its rows. -/
theorem content?_eq_some {c : Content} : s.content? v = some c ↔
    ∃ row, s.versions.find? v = some row ∧
      c = ⟨row, s.seedsOf v, s.pageTypesOf v, s.matchersOf v, s.transitionsOf v⟩ := by
  rw [VersionStore.content?, Option.map_eq_some_iff]
  exact exists_congr fun row => and_congr_right fun _ => eq_comm

/-- A version is loaded exactly if its row and its seeds are what it says. -/
theorem loadVersion_eq_ok : s.loadVersion lib v = .ok version ↔
    ∃ c, s.content? v = some c ∧ c.Projected lib ∧ version = c.row.semanticConfiguration := by
  rw [VersionStore.loadVersion, VersionStore.loadVersionWith, VersionStore.content?]
  cases hrow : s.versions.find? v with
  | none =>
    constructor
    · intro h
      cases h
    · rintro ⟨c, h, -⟩
      cases h
  | some row =>
    have hid := Table.key_of_find? hrow
    rw [Option.map_some, except_bind_eq_ok]
    constructor
    · rintro ⟨loaded, hload, h⟩
      rw [versionFromRow, check_then_eq_ok, if_pos rfl, except_bind_eq_ok] at hload
      obtain ⟨⟨hversion, hcrawler, hstate⟩, ⟨⟩, hcontract, hload⟩ := hload
      cases hload
      rw [except_bind_eq_ok] at h
      obtain ⟨⟨⟩, hseeds, h⟩ := h
      cases h
      rw [validateSeedProjection_eq_ok, hversion, hid] at hseeds
      exact ⟨_, rfl, ⟨hversion, hcrawler, hstate,
        CrawlerVersion.validateSemanticContract_eq_ok.mp (orElse_eq_ok.mp hcontract), hseeds.1,
        hseeds.2⟩, rfl⟩
    · rintro ⟨c, hc, ⟨hversion, hcrawler, hstate, hcontract, hseeds, hhints⟩, rfl⟩
      cases hc
      refine ⟨row.semanticConfiguration, ?_, except_bind_eq_ok.mpr ⟨(), ?_, rfl⟩⟩
      · rw [versionFromRow, check_then_eq_ok, if_pos rfl, except_bind_eq_ok]
        exact ⟨⟨hversion, hcrawler, hstate⟩, (), orElse_eq_ok.mpr
          (CrawlerVersion.validateSemanticContract_eq_ok.mpr hcontract), rfl⟩
      · rw [validateSeedProjection_eq_ok, hversion, hid]
        exact ⟨hseeds, hhints⟩

/-! ## The hash -/

/-- When a version has a hash: its contract and its rows are valid. -/
theorem semanticHash_eq_ok {hash : SemanticHashTemplate → String} {h : String} :
    s.semanticHash lib hash version = .ok h ↔
      (version.Contract lib ∧ (TransitionsSound version (s.transitionsOf version.id) ∧
        ∀ row ∈ s.transitionsOf version.id,
          row.configuration.sourcePageTypeId ∈ (s.pageTypesOf version.id).map PageTypeRow.id ∧
            row.configuration.targetPageTypeId ∈ (s.pageTypesOf version.id).map PageTypeRow.id) ∧
        ∀ row ∈ s.matchersOf version.id, row.matcher.validateDefinition lib = .ok ()) ∧
      h = hash (s.template version) := by
  rw [VersionStore.semanticHash, VersionStore.semanticHashWith, if_pos rfl, except_bind_eq_ok]
  constructor
  · rintro ⟨⟨⟩, hcontract, h⟩
    obtain ⟨_, hload, h⟩ := except_bind_eq_ok.mp h
    obtain ⟨htransitions, -⟩ := loadTransitionRecords_eq_ok.mp hload
    rw [check_then_eq_ok, check_then_eq_ok] at h
    obtain ⟨hmatchers, -, h⟩ := h
    simp only [isOk_iff] at hmatchers
    exact ⟨⟨CrawlerVersion.validateSemanticContract_eq_ok.mp (orElse_eq_ok.mp hcontract),
      htransitions, hmatchers⟩, (Except.ok.inj h).symm⟩
  · rintro ⟨⟨hcontract, htransitions, hmatchers⟩, rfl⟩
    refine ⟨(), orElse_eq_ok.mpr (CrawlerVersion.validateSemanticContract_eq_ok.mpr hcontract),
      except_bind_eq_ok.mpr ⟨_, loadTransitionRecords_eq_ok.mpr ⟨htransitions, rfl⟩, ?_⟩⟩
    rw [check_then_eq_ok, check_then_eq_ok]
    exact ⟨fun row hrow => isOk_iff.mpr (hmatchers row hrow), htransitions.1.configured, rfl⟩

/-! ## Whole versions -/

section Whole

variable {c : Content}

/-- The content of a version has its identifier. -/
theorem Content.Projected.id_eq (h : c.Projected lib) (hc : s.content? v = some c) :
    c.row.semanticConfiguration.id = v := by
  obtain ⟨row, hrow, rfl⟩ := content?_eq_some.mp hc
  exact h.id.trans (Table.key_of_find? hrow)

/-- The matchers of the page types of a version are the matchers of the version. -/
theorem matchersFor_sub {row : PageTypeRow} (hrow : row ∈ s.pageTypesOf v)
    {matcher : UrlMatcherRow} (hmatcher : matcher ∈ s.matchersFor row.id) :
    matcher ∈ s.matchersOf v := by
  rw [VersionStore.matchersFor, Table.mem_select, decide_eq_true_eq] at hmatcher
  obtain ⟨hrow, hv⟩ := mem_pageTypesOf.mp hrow
  exact mem_matchersOf_iff.mpr ⟨hmatcher.1, row, hmatcher.2 ▸ Table.find?_key hrow, hv⟩

/-- A matcher of a version is one of its page types. -/
theorem matchersOf_sub {matcher : UrlMatcherRow} (hmatcher : matcher ∈ s.matchersOf v) :
    ∃ row ∈ s.pageTypesOf v, matcher ∈ s.matchersFor row.id := by
  obtain ⟨hmatcher, row, hrow, hv⟩ := mem_matchersOf_iff.mp hmatcher
  refine ⟨row, mem_pageTypesOf.mpr ⟨Table.mem_of_find? hrow, hv⟩, Table.mem_select.mpr
    ⟨hmatcher, decide_eq_true (Table.key_of_find? hrow).symm⟩⟩

/-- Whatever the checks of a whole version read, they pass exactly if the version is sound. -/
theorem sound_iff (hc : s.content? v = some c) : c.Sound lib ↔ c.Projected lib ∧
    (∃ records, s.loadPageTypeRecords lib c.row.semanticConfiguration = .ok records) ∧
      ∃ records, s.loadTransitionRecords c.row.semanticConfiguration true = .ok records := by
  constructor
  · intro h
    have hid := h.id_eq hc
    obtain ⟨row, hrow, rfl⟩ := content?_eq_some.mp hc
    refine ⟨h.toProjected, ⟨_, loadPageTypeRecords_eq_ok.mpr ⟨?_, rfl⟩⟩,
      ⟨_, loadTransitionRecords_eq_ok.mpr ⟨?_, rfl⟩⟩⟩
    · rw [hid]
      exact ⟨h.pageTypes, fun pageType hpageType matcher hmatcher =>
        h.matchers matcher (matchersFor_sub hpageType hmatcher)⟩
    · rw [hid]
      refine ⟨h.transitions, fun transition htransition => ?_⟩
      obtain ⟨hsource, htarget⟩ := h.transitions.endpoints transition htransition
      exact ⟨h.pageTypes.mem_iff.mpr hsource, h.pageTypes.mem_iff.mpr htarget⟩
  · rintro ⟨h, ⟨_, hpageTypes⟩, ⟨_, htransitions⟩⟩
    have hid := h.id_eq hc
    obtain ⟨row, hrow, rfl⟩ := content?_eq_some.mp hc
    obtain ⟨⟨hpageTypes, hmatchers⟩, -⟩ := loadPageTypeRecords_eq_ok.mp hpageTypes
    obtain ⟨⟨htransitions, -⟩, -⟩ := loadTransitionRecords_eq_ok.mp htransitions
    rw [hid] at hpageTypes hmatchers htransitions
    refine ⟨h, hpageTypes, htransitions, fun matcher hmatcher => ?_⟩
    obtain ⟨pageType, hpageType, hmatcher⟩ := matchersOf_sub hmatcher
    exact hmatchers pageType hpageType matcher hmatcher

/-- The hash of a sound version is taken. -/
theorem Content.Sound.semanticHash (hash : SemanticHashTemplate → String) (h : c.Sound lib)
    (hc : s.content? v = some c) : s.semanticHash lib hash c.row.semanticConfiguration =
      .ok (hash (s.template c.row.semanticConfiguration)) := by
  have htransitions := (sound_iff hc).mp h |>.2.2
  obtain ⟨_, hload⟩ := htransitions
  refine semanticHash_eq_ok.mpr ⟨⟨h.contract, (loadTransitionRecords_eq_ok.mp hload).1, ?_⟩, rfl⟩
  rw [h.id_eq hc]
  obtain ⟨row, hrow, rfl⟩ := content?_eq_some.mp hc
  exact h.matchers

/-- The snapshot of a version is loaded exactly if the version is sound. -/
theorem loadSemanticSnapshot_isOk_iff {hash : SemanticHashTemplate → String}
    (hc : s.content? v = some c) :
    (s.loadSemanticSnapshot lib hash c.row.crawlerId v).isOk = true ↔ c.Sound lib := by
  constructor
  · intro h
    cases hload : s.loadSemanticSnapshot lib hash c.row.crawlerId v with
    | error e =>
      rw [hload] at h
      cases h
    | ok snapshot =>
      rw [VersionStore.loadSemanticSnapshot] at hload
      obtain ⟨version, hversion, hload⟩ := except_bind_eq_ok.mp hload
      obtain ⟨-, hload⟩ := check_then_eq_ok.mp hload
      obtain ⟨⟨⟩, -, hload⟩ := except_bind_eq_ok.mp hload
      obtain ⟨pageTypes, hpageTypes, hload⟩ := except_bind_eq_ok.mp hload
      obtain ⟨transitions, htransitions, -⟩ := except_bind_eq_ok.mp hload
      obtain ⟨c', hc', hprojected, rfl⟩ := loadVersion_eq_ok.mp hversion
      cases hc.symm.trans hc'
      exact (sound_iff hc).mpr ⟨hprojected, ⟨_, hpageTypes⟩, ⟨_, htransitions⟩⟩
  · intro h
    obtain ⟨hprojected, ⟨pageTypes, hpageTypes⟩, ⟨transitions, htransitions⟩⟩ :=
      (sound_iff hc).mp h
    -- the projections are checked once more, and the version has passed them
    have hseeds : s.validateSeedProjection c.row.semanticConfiguration = .ok () := by
      rw [validateSeedProjection_eq_ok, hprojected.id_eq hc]
      obtain ⟨row, hrow, rfl⟩ := content?_eq_some.mp hc
      exact ⟨hprojected.seeds, hprojected.hints⟩
    have hload : s.loadSemanticSnapshot lib hash c.row.crawlerId v = .ok
        ⟨c.row.semanticConfiguration, pageTypes, transitions,
          hash (s.template c.row.semanticConfiguration)⟩ := by
      rw [VersionStore.loadSemanticSnapshot]
      refine except_bind_eq_ok.mpr ⟨_, loadVersion_eq_ok.mpr ⟨c, hc, hprojected, rfl⟩,
        check_then_eq_ok.mpr ⟨hprojected.crawlerId, except_bind_eq_ok.mpr ⟨(), hseeds,
          except_bind_eq_ok.mpr ⟨pageTypes, hpageTypes, except_bind_eq_ok.mpr
            ⟨transitions, htransitions, except_bind_eq_ok.mpr ⟨_, h.semanticHash hash hc, rfl⟩⟩⟩⟩⟩⟩
    rw [hload]
    rfl

/-- The draft that the row of the crawler points to. -/
theorem activeDraftFor_eq_ok {crawlerId : Id} {active : Option Id} :
    s.activeDraftFor crawlerId = .ok active ↔
      ∃ crawler, s.crawlers.find? crawlerId = some crawler ∧
        crawler.activeDraftVersionId = active := by
  unfold VersionStore.activeDraftFor
  cases s.crawlers.find? crawlerId with
  | none => simp
  | some crawler => simp

/-- The version of an edit is sound, and the active draft of its crawler. -/
theorem loadMutationVersion_eq_ok {crawlerId : Id} :
    s.loadMutationVersion lib crawlerId v = .ok version ↔
      ∃ c, s.content? v = some c ∧ c.Sound lib ∧ version = c.row.semanticConfiguration ∧
        c.row.crawlerId = crawlerId ∧ c.row.state = .draft ∧
          ∃ crawler, s.crawlers.find? crawlerId = some crawler ∧
            crawler.activeDraftVersionId = some v := by
  rw [VersionStore.loadMutationVersion, VersionStore.ensureCrawlerExists, check_then_eq_ok]
  constructor
  · rintro ⟨-, hload⟩
    obtain ⟨loaded, hversion, hload⟩ := except_bind_eq_ok.mp hload
    obtain ⟨hcrawler, hload⟩ := check_then_eq_ok.mp hload
    obtain ⟨hstate, hload⟩ := check_then_eq_ok.mp hload
    obtain ⟨active, hdraft, hload⟩ := except_bind_eq_ok.mp hload
    obtain ⟨hv, hload⟩ := check_then_eq_ok.mp hload
    obtain ⟨pageTypes, hpageTypes, hload⟩ := except_bind_eq_ok.mp hload
    obtain ⟨transitions, htransitions, hload⟩ := except_bind_eq_ok.mp hload
    obtain rfl := Except.ok.inj hload
    obtain ⟨c, hc, hprojected, rfl⟩ := loadVersion_eq_ok.mp hversion
    exact ⟨c, hc, (sound_iff hc).mpr ⟨hprojected, ⟨_, hpageTypes⟩, ⟨_, htransitions⟩⟩, rfl,
      hprojected.crawlerId.symm.trans hcrawler, hprojected.state.symm.trans hstate,
        activeDraftFor_eq_ok.mp (hv ▸ hdraft)⟩
  · rintro ⟨c, hc, hsound, rfl, hcrawler, hstate, crawler, hfind, hdraft⟩
    obtain ⟨hprojected, ⟨pageTypes, hpageTypes⟩, ⟨transitions, htransitions⟩⟩ :=
      (sound_iff hc).mp hsound
    refine ⟨by rw [hfind]; rfl, except_bind_eq_ok.mpr ⟨_,
      loadVersion_eq_ok.mpr ⟨c, hc, hprojected, rfl⟩, check_then_eq_ok.mpr
        ⟨hprojected.crawlerId.trans hcrawler, check_then_eq_ok.mpr
          ⟨hprojected.state.trans hstate, except_bind_eq_ok.mpr
            ⟨some v, activeDraftFor_eq_ok.mpr ⟨crawler, hfind, hdraft⟩, check_then_eq_ok.mpr
              ⟨rfl, except_bind_eq_ok.mpr ⟨pageTypes, hpageTypes,
                except_bind_eq_ok.mpr ⟨transitions, htransitions, rfl⟩⟩⟩⟩⟩⟩⟩⟩

end Whole

/-! ## Coherent stores -/

/-- What is referred to exists, the pointers of a crawler are to its versions, its draft is
the active one, and every version is sound. -/
structure Coherent (lib : Libraries) (s : VersionStore) : Prop where
  keys : ForeignKeys s
  drafts : ∀ crawler ∈ s.crawlers.rows, ∀ v ∈ crawler.activeDraftVersionId,
    s.pointsTo crawler.id v .draft = true
  published : ∀ crawler ∈ s.crawlers.rows, ∀ v ∈ crawler.activePublishedVersionId,
    s.pointsTo crawler.id v .published = true
  active : ∀ row ∈ s.versions.rows, row.state = .draft →
    ∀ crawler ∈ s.crawlers.rows, crawler.id = row.crawlerId →
      crawler.activeDraftVersionId = some row.id
  sound : ∀ v c, s.content? v = some c → c.Sound lib

/-- An empty store is coherent. -/
theorem coherent_empty : Coherent lib .empty where
  keys := ⟨fun _ h => (by cases h), fun _ h => (by cases h), fun _ h => (by cases h),
    fun _ h => (by cases h), fun _ h => (by cases h)⟩
  drafts := fun _ h => by cases h
  published := fun _ h => by cases h
  active := fun _ h => by cases h
  sound := fun _ _ h => by cases h

/-- Where a pointer leads is in the columns of the version. -/
theorem pointsTo_eq {crawlerId : Id} {state : CrawlerVersionState} :
    s.pointsTo crawlerId v state = ((s.versions.find? v).map VersionRow.columns).any fun columns =>
      columns.1 = crawlerId && columns.2 = state := by
  unfold VersionStore.pointsTo
  cases s.versions.find? v <;> rfl

/-- An edit of a version leaves the store coherent if it leaves the version sound. -/
theorem Coherent.edit (hs : Coherent lib s) (h : Edits v s s')
    (hv : ∀ c, s'.content? v = some c → c.Sound lib) : Coherent lib s' where
  keys := h.keys hs.keys
  drafts := by
    intro crawler hcrawler w hw
    rw [pointsTo_eq, h.columns, ← pointsTo_eq]
    exact hs.drafts crawler (h.crawlers ▸ hcrawler) w hw
  published := by
    intro crawler hcrawler w hw
    rw [pointsTo_eq, h.columns, ← pointsTo_eq]
    exact hs.published crawler (h.crawlers ▸ hcrawler) w hw
  active := by
    intro row hrow hdraft crawler hcrawler howner
    have hcolumns := h.columns row.id
    rw [Table.find?_key hrow, Option.map_some, eq_comm, Option.map_eq_some_iff] at hcolumns
    obtain ⟨old, hold, hcolumns⟩ := hcolumns
    obtain ⟨hcrawlerId, hstate⟩ := Prod.mk.injEq .. ▸ hcolumns
    rw [← Table.key_of_find? hold]
    exact hs.active old (Table.mem_of_find? hold) (hstate.trans hdraft) crawler
      (h.crawlers ▸ hcrawler) (howner.trans hcrawlerId.symm)
  sound := by
    intro w c hc
    by_cases hw : w = v
    · subst hw
      exact hv c hc
    · exact hs.sound w c (h.others w (Or.inl hw) ▸ hc)

end Erabi.Versions

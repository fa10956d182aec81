/-
# Rows that are restored

A traversal is restored from the rows of its run exactly when they meet the conditions
of `Restorable`: what they name belongs to the frozen version, the counters are within
its limits, and the units to be queued are still admitted.
-/
import Mathlib
import Erabi.Production.Decoding

namespace Erabi.Production

open Relational Transaction Queue Traversal

/-! ## The URLs of a run -/

/-- The logical work of a run, every unit once. -/
structure WorkOf (s : TraversalStore) (runId : CrawlRunId) (work : List CrawlUrlStateRow) :
    Prop where
  nodup : work.Nodup
  mem : ∀ row, row ∈ work ↔ row ∈ s.urlStates.rows ∧ row.crawlRunId = runId
  valid : ∀ row ∈ work, row.validateState = true

section Urls

variable {semantic : FrozenSemantics} {s : TraversalStore} {runId : CrawlRunId}
  {work : List CrawlUrlStateRow} {unit : CrawlUrlStateRow} {picks : CrawlUrlStateRow → Bool}

namespace WorkOf

variable (h : WorkOf s runId work)

include h

/-- Units with one canonical URL are one unit. -/
theorem eq_of_text {a b : CrawlUrlStateRow} (ha : a ∈ work) (hb : b ∈ work)
    (htext : semantic.text a.canonicalUrl = semantic.text b.canonicalUrl) : a = b := by
  obtain ⟨harows, harun⟩ := (h.mem a).mp ha
  obtain ⟨hbrows, hbrun⟩ := (h.mem b).mp hb
  exact eq_of_distinct harows hbrows (harun.trans hbrun.symm) fun hdistinct =>
    hdistinct.1 (semantic.textInjective htext)

/-- No URL is listed twice. -/
theorem nodup_urlsOf (picks : CrawlUrlStateRow → Bool) : (urlsOf semantic picks work).Nodup :=
  List.Nodup.map_on (fun _ ha _ hb htext => h.eq_of_text (List.mem_filter.mp ha).1
    (List.mem_filter.mp hb).1 htext) (h.nodup.filter _)

/-- The URL of a unit is listed when the unit is picked. -/
theorem mem_urlsOf (hunit : unit ∈ work) :
    semantic.text unit.canonicalUrl ∈ urlsOf semantic picks work ↔ picks unit = true := by
  constructor
  · intro hmem
    obtain ⟨other, hother, htext⟩ := List.mem_map.mp hmem
    obtain ⟨hin, hpicks⟩ := List.mem_filter.mp hother
    rw [← h.eq_of_text hin hunit htext]
    exact hpicks
  · exact fun hpicks => List.mem_map.mpr ⟨unit, List.mem_filter.mpr ⟨hunit, hpicks⟩, rfl⟩

/-- Units of a run are seen. -/
theorem seen (hunit : unit ∈ work) : unit.seen = true := by
  have hvalid := h.valid unit hunit
  simp only [CrawlUrlStateRow.validateState, Bool.and_eq_true] at hvalid
  exact hvalid.1.1.1.2

/-- Expanded units are sampled. -/
theorem sampled_of_expanded (hunit : unit ∈ work) (hexpanded : unit.expanded = true) :
    unit.sampled = true := by
  have hvalid := h.valid unit hunit
  simp only [CrawlUrlStateRow.validateState, Bool.and_eq_true] at hvalid
  have hsampled := hvalid.1.1.2
  rw [hexpanded] at hsampled
  exact hsampled

/-- Matched units are in scope. -/
theorem inScope_of_match {state : CrawlPageTypeMatchState} (hunit : unit ∈ work)
    (hmatch : hasMatch state unit = true) : unit.inScope = true := by
  have hvalid := h.valid unit hunit
  simp only [CrawlUrlStateRow.validateState, Bool.and_eq_true] at hvalid
  have hinScope := of_decide_eq_true hvalid.1.2
  rw [of_decide_eq_true hmatch] at hinScope
  exact hinScope

end WorkOf

/-- A wider choice of units lists more URLs. -/
theorem urlsOf_subset {p q : CrawlUrlStateRow → Bool}
    (hpq : ∀ unit ∈ work, p unit = true → q unit = true) :
    ∀ u ∈ urlsOf semantic p work, u ∈ urlsOf semantic q work := by
  intro u hu
  obtain ⟨unit, hunit, rfl⟩ := List.mem_map.mp hu
  obtain ⟨hin, hp⟩ := List.mem_filter.mp hunit
  exact List.mem_map.mpr ⟨unit, List.mem_filter.mpr ⟨hin, hpq unit hin hp⟩, rfl⟩

/-- Units with different matches are different. -/
theorem WorkOf.disjoint_matches (h : WorkOf s runId work) {state other : CrawlPageTypeMatchState}
    (hne : state ≠ other) : ∀ u ∈ urlsOf semantic (hasMatch state) work,
      u ∉ urlsOf semantic (hasMatch other) work := by
  intro u hu hother
  obtain ⟨unit, hunit, rfl⟩ := List.mem_map.mp hu
  obtain ⟨hin, hmatch⟩ := List.mem_filter.mp hunit
  have hmatch' := (h.mem_urlsOf hin).mp hother
  have hstate := (of_decide_eq_true hmatch).symm.trans (of_decide_eq_true hmatch')
  exact hne (Option.some.inj hstate)

/-- The sets that the reconstruction of a run lists. -/
def WorkOf.sets (h : WorkOf s runId work) (semantic : FrozenSemantics) : Crawl.RestoredSets where
  admitted := ⟨urlsOf semantic isAdmitted work, h.nodup_urlsOf _⟩
  seen := ⟨urlsOf semantic (fun unit => unit.seen) work, h.nodup_urlsOf _⟩
  sampled := ⟨urlsOf semantic (fun unit => unit.sampled) work, h.nodup_urlsOf _⟩
  expanded := ⟨urlsOf semantic (fun unit => unit.expanded) work, h.nodup_urlsOf _⟩
  matching := ⟨urlsOf semantic (hasMatch .matched) work, h.nodup_urlsOf _⟩
  unmatched := ⟨urlsOf semantic (hasMatch .unmatched) work, h.nodup_urlsOf _⟩
  ambiguous := ⟨urlsOf semantic (hasMatch .ambiguous) work, h.nodup_urlsOf _⟩
  inScope := ⟨urlsOf semantic (fun unit => unit.inScope) work, h.nodup_urlsOf _⟩

/-- They always have the relations that a restoration demands. -/
theorem WorkOf.coherent (h : WorkOf s runId work) : (h.sets semantic).Coherent where
  admitted := urlsOf_subset fun _ hunit _ => h.seen hunit
  sampled := urlsOf_subset fun _ hunit _ => h.seen hunit
  expanded := urlsOf_subset fun _ hunit hexpanded => h.sampled_of_expanded hunit hexpanded
  matching := urlsOf_subset fun _ hunit hmatch => h.inScope_of_match hunit hmatch
  unmatched := urlsOf_subset fun _ hunit hmatch => h.inScope_of_match hunit hmatch
  ambiguous := urlsOf_subset fun _ hunit hmatch => h.inScope_of_match hunit hmatch
  matchingUnmatched := h.disjoint_matches (by decide)
  matchingAmbiguous := h.disjoint_matches (by decide)
  unmatchedAmbiguous := h.disjoint_matches (by decide)

end Urls

/-! ## Conditions on rows -/

section Conditions

variable (semantic : FrozenSemantics) (s : TraversalStore) (runId : CrawlRunId)

/-- The unit has a place in the queue, and what it names belongs to the frozen version. -/
structure Reenters (unit : CrawlUrlStateRow) : Prop where
  depth : ∃ depth ∈ unit.depth, depth ≤ semantic.ctx.limits.maxDepth
  order : unit.admissionSequence.isSome
  traced : readSeedProvenance s unit.id ≠ []
  seeds : ∀ id ∈ readSeedProvenance s unit.id,
    ∃ seed ∈ semantic.seedId id, seed ∈ semantic.ctx.selectedSeedIds
  pageType : ∀ id ∈ unit.targetPageTypeId,
    ∃ pageType ∈ semantic.pageTypeId id, pageType ∈ semantic.ctx.pageTypes
  transition : ∀ id ∈ unit.transitionId,
    ∃ t ∈ semantic.transitionId id, Crawl.knownTransition semantic.ctx t = true
  discovered : ∀ id ∈ unit.firstDiscoveredUrlId, id ≠ "" ∧ id.utf8ByteSize ≤ 512

/-- A pending unit is restored with the frontier. -/
structure RestoresPending (unit : CrawlUrlStateRow) : Prop extends
    Reenters semantic s unit where
  requested : semantic.ctx.urls.restorable (semantic.text unit.requestedUrl) = true
  distinctSeeds : ((readSeedProvenance s unit.id).map semantic.seedId).Nodup
  unsampled : unit.sampled = false

/-- A selected unit is put into the queue again. -/
structure RestoresSelected (unit : CrawlUrlStateRow) : Prop extends
    Reenters semantic s unit where
  requested : semantic.ctx.urls.recoverable (semantic.text unit.requestedUrl) = true
  canonical : semantic.ctx.urls.recoverable (semantic.text unit.canonicalUrl) = true
  parent : ∀ row ∈ s.urlStates.rows, row.crawlRunId = runId →
    unit.parentUrlStateId = some row.id →
      semantic.ctx.urls.recoverable (semantic.text row.canonicalUrl) = true

/-- The counts of transitions: every count is one of a unit of the run, for a transition
of the frozen version, and no transition is counted for a unit twice. -/
structure RestoresCounts : Prop where
  source : ∀ count ∈ s.transitionCounts.rows, count.crawlRunId = runId →
    present s.urlStates.rows runId count.sourceUrlStateId
  transition : ∀ count ∈ s.transitionCounts.rows, count.crawlRunId = runId →
    ∃ t ∈ semantic.transitionId count.transitionId, Crawl.knownTransition semantic.ctx t = true
  edges : ∀ count ∈ s.transitionCounts.rows, count.crawlRunId = runId →
    count.eligibleEdgeCount < 2 ^ 32
  distinct : ∀ a ∈ s.transitionCounts.rows, ∀ b ∈ s.transitionCounts.rows,
    a.crawlRunId = runId → b.crawlRunId = runId → a.sourceUrlStateId = b.sourceUrlStateId →
      semantic.transitionId a.transitionId = semantic.transitionId b.transitionId → a = b

/-- Every text of a list names a page type of the frozen version, and no two name the
same one. -/
structure NamesPageTypes (texts : String → Prop) : Prop where
  known : ∀ text, texts text →
    ∃ pageType ∈ semantic.pageTypeId text, pageType ∈ semantic.ctx.pageTypes
  distinct : ∀ a b, texts a → texts b → semantic.pageTypeId a = semantic.pageTypeId b → a = b

/-- The rows of a run describe a traversal of its frozen version, within its limits, and
its frontier or the selection can be queued. -/
structure Restorable (selection : Option (List UrlStateId)) : Prop where
  roots : ∃ selected, Crawl.selectSeeds semantic.ctx = .ok selected
  seeds : semantic.ctx.selectedSeedIds.Nodup
  urls : ∀ row ∈ s.urlStates.rows, row.crawlRunId = runId →
    semantic.ctx.urls.restorable (semantic.text row.canonicalUrl) = true
  admitted : (s.urlStates.rows.countP fun row => row.crawlRunId = runId && isAdmitted row) ≤
    semantic.ctx.limits.maxPages
  consumed : ∀ control ∈ s.controls.find? runId,
    control.consumedBytes ≤ semantic.ctx.limits.maxDownloadedBytes
  pending : ∀ row ∈ s.urlStates.rows, row.crawlRunId = runId → awaits selection row = true →
    RestoresPending semantic s row
  selected : ∀ row ∈ s.urlStates.rows, row.crawlRunId = runId →
    (selection.any fun ids => reopens ids row) = true →
      row.admissionState = .admitted ∧ RestoresSelected semantic s runId row
  counts : RestoresCounts semantic s runId
  counted : NamesPageTypes semantic fun text =>
    ∃ count ∈ s.pageTypeCounts.rows, count.crawlRunId = runId ∧ count.pageTypeId = text
  scheduled : NamesPageTypes semantic fun text =>
    ∃ row ∈ s.urlStates.rows, row.crawlRunId = runId ∧ row.admissionState = .admitted ∧
      row.targetPageTypeId = some text

end Conditions

/-! ## Entries that are accepted -/

/-- An optional number with a property. -/
theorem exists_mem_iff_getD {o : Option ℕ} {P : ℕ → Prop} :
    (∃ a ∈ o, P a) ↔ o.isSome = true ∧ P (o.getD 0) := by
  cases o with
  | none => simp
  | some a => simp

section Entries

variable {semantic : FrozenSemantics} {s : TraversalStore} {runId : CrawlRunId}
  {work : List CrawlUrlStateRow} {unit : CrawlUrlStateRow} {selection : Option (List UrlStateId)}

/-- What both restorations demand of an entry, whatever the rest of the state is. -/
structure Qualified (semantic : FrozenSemantics) (entry : RecoveredEntry) : Prop where
  depth : entry.depth ≤ semantic.ctx.limits.maxDepth
  traced : entry.seedIds ≠ []
  seeds : ∀ id ∈ entry.seedIds, id ∈ semantic.ctx.selectedSeedIds
  pageType : ∀ id ∈ entry.targetPageTypeId, id ∈ semantic.ctx.pageTypes
  transition : ∀ id ∈ entry.transitionId, Crawl.knownTransition semantic.ctx id = true
  discovered : boundedDiscovery entry = true

/-- The check on the discovery of an entry. -/
theorem boundedDiscovery_eq_true {entry : RecoveredEntry} : boundedDiscovery entry = true ↔
    ∀ id ∈ entry.discoveredUrlId, id ≠ "" ∧ id.utf8ByteSize ≤ 512 := by
  unfold boundedDiscovery
  cases entry.discoveredUrlId with
  | none => simp
  | some id => simp

/-- A unit enters the queue again when it is readable and its entry qualified. -/
theorem reenters_iff : Reenters semantic s unit ↔
    Readable semantic s unit ∧ Qualified semantic (entryOf semantic s work unit) := by
  constructor
  · intro h
    obtain ⟨hdepth, hbound⟩ := exists_mem_iff_getD.mp h.depth
    refine ⟨⟨hdepth, fun id hid => (exists_mem_iff_getD.mp (h.seeds id hid)).1,
      fun id hid => (exists_mem_iff_getD.mp (h.pageType id hid)).1,
      fun id hid => (exists_mem_iff_getD.mp (h.transition id hid)).1, h.order⟩,
      ⟨hbound, ?_, ?_, ?_, ?_, boundedDiscovery_eq_true.mpr h.discovered⟩⟩
    · exact fun hnil => h.traced (List.map_eq_nil_iff.mp hnil)
    · intro seed hseed
      obtain ⟨id, hid, rfl⟩ := List.mem_map.mp hseed
      exact (exists_mem_iff_getD.mp (h.seeds id hid)).2
    · intro pageType hpageType
      obtain ⟨id, hid, rfl⟩ := Option.map_eq_some_iff.mp hpageType
      exact (exists_mem_iff_getD.mp (h.pageType id hid)).2
    · intro t ht
      obtain ⟨id, hid, rfl⟩ := Option.map_eq_some_iff.mp ht
      exact (exists_mem_iff_getD.mp (h.transition id hid)).2
  · rintro ⟨hreadable, h⟩
    refine ⟨exists_mem_iff_getD.mpr ⟨hreadable.depth, h.depth⟩, hreadable.order, ?_, ?_, ?_, ?_,
      boundedDiscovery_eq_true.mp h.discovered⟩
    · exact fun hnil => h.traced (List.map_eq_nil_iff.mpr hnil)
    · exact fun id hid => exists_mem_iff_getD.mpr ⟨hreadable.seeds id hid,
        h.seeds _ (List.mem_map.mpr ⟨id, hid, rfl⟩)⟩
    · exact fun id hid => exists_mem_iff_getD.mpr ⟨hreadable.pageType id hid,
        h.pageType _ (Option.map_eq_some_iff.mpr ⟨id, hid, rfl⟩)⟩
    · exact fun id hid => exists_mem_iff_getD.mpr ⟨hreadable.transition id hid,
        h.transition _ (Option.map_eq_some_iff.mpr ⟨id, hid, rfl⟩)⟩

/-- The parent of an entry is a unit of the run. -/
theorem WorkOf.parent (h : WorkOf s runId work) {parent : Crawl.Url} :
    parent ∈ (entryOf semantic s work unit).parentCanonicalUrl ↔
      ∃ row ∈ work, unit.parentUrlStateId = some row.id ∧
        semantic.text row.canonicalUrl = parent := by
  show (((unit.parentUrlStateId.bind fun parent =>
    work.find? fun candidate => candidate.id = parent).map fun parent =>
      semantic.text parent.canonicalUrl) = some parent) ↔ _
  rw [Option.map_eq_some_iff]
  constructor
  · rintro ⟨row, hfound, htext⟩
    obtain ⟨id, hid, hrow⟩ := Option.bind_eq_some_iff.mp hfound
    have hkey := List.find?_some hrow
    rw [← of_decide_eq_true hkey] at hid
    exact ⟨row, List.mem_of_find?_eq_some hrow, hid, htext⟩
  · rintro ⟨row, hrow, hid, htext⟩
    have hsome : (work.find? fun candidate => candidate.id = row.id).isSome := by
      rw [List.find?_isSome]
      exact ⟨row, hrow, decide_eq_true rfl⟩
    obtain ⟨found, hfound⟩ := Option.isSome_iff_exists.mp hsome
    have hkey := List.find?_some hfound
    have hsame : found = row := s.urlStates.table.eq_of_key_eq
      ((h.mem found).mp (List.mem_of_find?_eq_some hfound)).1 ((h.mem row).mp hrow).1
      (of_decide_eq_true hkey)
    rw [hsame] at hfound
    exact ⟨row, Option.bind_eq_some_iff.mpr ⟨row.id, hid, hfound⟩, htext⟩

/-- A pending unit of a run is admitted. -/
theorem WorkOf.admitted_of_awaits (h : WorkOf s runId work) (hunit : unit ∈ work)
    (hawaits : awaits selection unit = true) : unit.admissionState = .admitted := by
  refine admitted_of_work ((h.mem unit).mp hunit).1 ?_
  unfold awaits at hawaits
  rw [Bool.and_eq_true, decide_eq_true_eq] at hawaits
  rw [hawaits.1]
  rfl

/-- A pending entry is accepted exactly when its unit meets the conditions. -/
theorem WorkOf.pending_iff (h : WorkOf s runId work)
    (hurls : ∀ row ∈ work, semantic.ctx.urls.restorable (semantic.text row.canonicalUrl) = true)
    (hunit : unit ∈ work) (hawaits : awaits selection unit = true) :
    RestoresPending semantic s unit ↔ Readable semantic s unit ∧
      Crawl.validPending semantic.ctx (h.sets semantic)
        (entryOf semantic s work unit).toQueueEntry = true ∧
      boundedDiscovery (entryOf semantic s work unit) = true := by
  have hadmitted : semantic.text unit.canonicalUrl ∈ (h.sets semantic).admitted :=
    (h.mem_urlsOf hunit).mpr (decide_eq_true (h.admitted_of_awaits hunit hawaits))
  have hparents : ∀ parent ∈ (entryOf semantic s work unit).parentCanonicalUrl,
      semantic.ctx.urls.restorable parent = true := by
    intro parent hparent
    obtain ⟨row, hrow, _, rfl⟩ := h.parent.mp hparent
    exact hurls row hrow
  have hsampled : semantic.text unit.canonicalUrl ∈ (h.sets semantic).sampled ↔
      unit.sampled = true := h.mem_urlsOf hunit
  have hexpanded : semantic.text unit.canonicalUrl ∈ (h.sets semantic).expanded ↔
      unit.expanded = true := h.mem_urlsOf hunit
  have hnodup : (∀ id ∈ readSeedProvenance s unit.id, (semantic.seedId id).isSome = true) →
      ((entryOf semantic s work unit).seedIds.Nodup ↔
        ((readSeedProvenance s unit.id).map semantic.seedId).Nodup) := by
    intro hdecodes
    have hsome : (readSeedProvenance s unit.id).map semantic.seedId =
        (entryOf semantic s work unit).seedIds.map some := by
      refine (List.map_congr_left fun id hid => ?_).trans (List.map_map (g := some)).symm
      obtain ⟨seed, hseed⟩ := Option.isSome_iff_exists.mp (hdecodes id hid)
      simp [hseed]
    rw [hsome, List.nodup_map_iff (Option.some_injective _)]
  simp only [Crawl.validPending, Bool.and_eq_true, decide_eq_true_eq, List.all_eq_true,
    Option.all_eq_true]
  constructor
  · intro hrestores
    obtain ⟨hreadable, hq⟩ := reenters_iff.mp hrestores.toReenters
    have hunsampled : ¬ unit.sampled = true := by simp [hrestores.unsampled]
    refine ⟨hreadable, ⟨⟨⟨⟨⟨⟨⟨⟨⟨⟨⟨hrestores.requested, hurls unit hunit⟩, hq.traced⟩,
      (hnodup hreadable.seeds).mpr hrestores.distinctSeeds⟩, hq.depth⟩, hq.seeds⟩, hadmitted⟩,
      fun hin => hunsampled (hsampled.mp hin)⟩,
      fun hin => hunsampled (h.sampled_of_expanded hunit (hexpanded.mp hin))⟩, hq.pageType⟩,
      hq.transition⟩, hparents⟩, hq.discovered⟩
  · rintro ⟨hreadable, ⟨⟨⟨⟨⟨⟨⟨⟨⟨⟨⟨hrequested, _⟩, htraced⟩, hdistinct⟩, hdepth⟩, hseeds⟩, _⟩,
      hunsampled⟩, _⟩, hpageType⟩, htransition⟩, _⟩, hdiscovered⟩
    exact ⟨reenters_iff.mpr ⟨hreadable, hdepth, htraced, hseeds, hpageType, htransition,
      hdiscovered⟩, hrequested, (hnodup hreadable.seeds).mp hdistinct,
      Bool.eq_false_iff.mpr fun hin => hunsampled (hsampled.mpr hin)⟩

end Entries

/-! ## Counts that are accepted -/

section Counts

variable {semantic : FrozenSemantics} {s : TraversalStore} {runId : CrawlRunId}
  {work : List CrawlUrlStateRow}

end Counts

/-! ## The restoration -/

section Restoration

variable {semantic : FrozenSemantics} {s : TraversalStore} {runId : CrawlRunId}
  {work : List CrawlUrlStateRow} {control : CrawlTraversalControl}
  {selection : Option (List UrlStateId)}

end Restoration

end Erabi.Production

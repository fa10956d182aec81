/-
# Rows that decode

The reconstruction of a traversal reads the rows of a run one by one.  It succeeds
exactly when each of them decodes, and then the checkpoint is the one they describe.
-/
import Mathlib
import Erabi.Production.Reconstruction

namespace Erabi.Production

open Relational Transaction Queue Traversal

/-! ## What decodes -/

/-- A value is there. -/
theorem okOr_eq_ok {α : Type} {value : Option α} {e : CrawlStageError} {a : α} :
    okOr value e = .ok a ↔ value = some a := by
  cases value with
  | none => exact ⟨fun h => (by cases h), fun h => (by cases h)⟩
  | some b => exact ⟨fun h => congrArg some (Except.ok.inj h),
      fun h => congrArg Except.ok (Option.some.inj h)⟩

/-- A value is there, or it would be the default. -/
theorem okOr_eq_getD {α : Type} {value : Option α} {e : CrawlStageError} {a d : α} :
    okOr value e = .ok a ↔ value.isSome = true ∧ a = value.getD d := by
  rw [okOr_eq_ok]
  cases value with
  | none => simp
  | some b => simp [eq_comm]

/-- What succeeds for an optional value, with the result known. -/
theorem option_mapM_eq_ok {ε α β : Type} {f : α → Except ε β} {P : α → Prop} {g : α → β}
    (hf : ∀ a b, f a = .ok b ↔ P a ∧ b = g a) {value : Option α} {result : Option β} :
    value.mapM f = .ok result ↔ (∀ a ∈ value, P a) ∧ result = value.map g := by
  cases value with
  | none =>
    refine ⟨fun h => ⟨fun a ha => (by cases ha), (Except.ok.inj h).symm⟩, fun h => ?_⟩
    rw [h.2]
    rfl
  | some a =>
    have hmapM : (some a).mapM f = (do let b ← f a; pure (some b)) := rfl
    rw [hmapM, except_bind_eq_ok]
    constructor
    · rintro ⟨b, hb, h⟩
      obtain ⟨hP, rfl⟩ := (hf a b).mp hb
      cases h
      exact ⟨fun a' ha' => Option.some.inj ha' ▸ hP, rfl⟩
    · rintro ⟨hP, rfl⟩
      exact ⟨g a, (hf a _).mpr ⟨hP a rfl, rfl⟩, rfl⟩

section Rows

variable (semantic : FrozenSemantics) (s : TraversalStore)

/-- The unit has a place in the queue, and every identity it names decodes. -/
structure Readable (unit : CrawlUrlStateRow) : Prop where
  depth : unit.depth.isSome
  seeds : ∀ id ∈ readSeedProvenance s unit.id, (semantic.seedId id).isSome
  pageType : ∀ id ∈ unit.targetPageTypeId, (semantic.pageTypeId id).isSome
  transition : ∀ id ∈ unit.transitionId, (semantic.transitionId id).isSome
  order : unit.admissionSequence.isSome

/-- The entry of a readable unit. -/
def entryOf (work : List CrawlUrlStateRow) (unit : CrawlUrlStateRow) : RecoveredEntry where
  requestedUrl := semantic.text unit.requestedUrl
  canonicalUrl := semantic.text unit.canonicalUrl
  depth := unit.depth.getD 0
  seedIds := (readSeedProvenance s unit.id).map fun id => (semantic.seedId id).getD 0
  targetPageTypeId := unit.targetPageTypeId.map fun id => (semantic.pageTypeId id).getD 0
  transitionId := unit.transitionId.map fun id => (semantic.transitionId id).getD 0
  parentCanonicalUrl := (unit.parentUrlStateId.bind fun parent =>
    work.find? fun candidate => candidate.id = parent).map fun parent =>
      semantic.text parent.canonicalUrl
  pagination := unit.pagination
  order := unit.admissionSequence.getD 0
  discoveredUrlId := unit.firstDiscoveredUrlId

/-- A unit becomes an entry when it is readable. -/
theorem queueEntry_eq_ok {work : List CrawlUrlStateRow} {unit : CrawlUrlStateRow}
    {entry : RecoveredEntry} : Production.queueEntry semantic s work unit = .ok entry ↔
      Readable semantic s unit ∧ entry = entryOf semantic s work unit := by
  have hseeds : ∀ seeds, (readSeedProvenance s unit.id).mapM (fun id =>
      okOr (semantic.seedId id) .traversalSeedIdInvalid) = .ok seeds ↔ _ :=
    fun seeds => except_mapM_eq_ok fun _ _ => okOr_eq_getD (d := 0)
  have hpageType : ∀ target, unit.targetPageTypeId.mapM (fun id =>
      okOr (semantic.pageTypeId id) .traversalPageTypeIdInvalid) = .ok target ↔ _ :=
    fun target => option_mapM_eq_ok fun _ _ => okOr_eq_getD (d := 0)
  have htransition : ∀ t, unit.transitionId.mapM (fun id =>
      okOr (semantic.transitionId id) .traversalTransitionIdInvalid) = .ok t ↔ _ :=
    fun t => option_mapM_eq_ok fun _ _ => okOr_eq_getD (d := 0)
  unfold Production.queueEntry
  simp only [except_bind_eq_ok, okOr_eq_getD (d := 0), hseeds, hpageType, htransition]
  constructor
  · rintro ⟨_, ⟨hdepth, rfl⟩, _, ⟨hids, rfl⟩, _, ⟨htarget, rfl⟩, _, ⟨hfollowed, rfl⟩, _,
      ⟨horder, rfl⟩, h⟩
    cases h
    exact ⟨⟨hdepth, hids, htarget, hfollowed, horder⟩, rfl⟩
  · rintro ⟨h, rfl⟩
    exact ⟨_, ⟨h.depth, rfl⟩, _, ⟨h.seeds, rfl⟩, _, ⟨h.pageType, rfl⟩, _, ⟨h.transition, rfl⟩, _,
      ⟨h.order, rfl⟩, rfl⟩

/-! ## Counts -/

/-- A count is one of a unit of the work, for an identity that decodes, and small enough. -/
structure Countable (work : List CrawlUrlStateRow) (count : CrawlTransitionSourceCountRow) :
    Prop where
  source : ∃ unit ∈ work, unit.id = count.sourceUrlStateId
  transition : (semantic.transitionId count.transitionId).isSome
  edges : count.eligibleEdgeCount < 2 ^ 32

/-- The canonical URL of the source of a count. -/
def sourceOf (work : List CrawlUrlStateRow) (count : CrawlTransitionSourceCountRow) : Crawl.Url :=
  ((work.find? fun unit => unit.id = count.sourceUrlStateId).map fun source =>
    semantic.text source.canonicalUrl).getD 0

/-- A transition's count, decoded. -/
def pageCountOf (work : List CrawlUrlStateRow) (count : CrawlTransitionSourceCountRow) :
    Crawl.TransitionPageCount :=
  ⟨(semantic.transitionId count.transitionId).getD 0, sourceOf semantic work count,
    count.eligibleEdgeCount⟩

/-- A count is decoded when its names are known. -/
theorem transitionPageCount_eq_ok {work : List CrawlUrlStateRow}
    {count : CrawlTransitionSourceCountRow} {value : Crawl.TransitionPageCount} :
    transitionPageCount semantic work count = .ok value ↔
      Countable semantic work count ∧ value = pageCountOf semantic work count := by
  unfold transitionPageCount
  simp only [except_bind_eq_ok, okOr_eq_ok]
  constructor
  · rintro ⟨source, hsource, id, hid, edges, hedges, h⟩
    obtain ⟨hlt, hsome⟩ := Option.ite_none_right_eq_some.mp hedges
    cases hsome
    cases h
    have hfound := List.find?_some hsource
    refine ⟨⟨⟨source, List.mem_of_find?_eq_some hsource, of_decide_eq_true hfound⟩, ?_, hlt⟩, ?_⟩
    · rw [hid]
      rfl
    · rw [pageCountOf, sourceOf, hid, hsource]
      rfl
  · rintro ⟨⟨⟨unit, hunit, hid⟩, htransition, hlt⟩, rfl⟩
    have hfound : (work.find? fun unit => unit.id = count.sourceUrlStateId).isSome := by
      rw [List.find?_isSome]
      exact ⟨unit, hunit, decide_eq_true hid⟩
    obtain ⟨source, hsource⟩ := Option.isSome_iff_exists.mp hfound
    obtain ⟨id, hid⟩ := Option.isSome_iff_exists.mp htransition
    refine ⟨source, hsource, id, hid, _, if_pos hlt, ?_⟩
    rw [pageCountOf, sourceOf, hid, hsource]
    rfl

/-- Counts are decoded when their page types are known. -/
theorem decodeCounts_eq_ok {values : List (String × ℕ)} {result : List (Crawl.PageTypeId × ℕ)} :
    decodeCounts semantic values = .ok result ↔
      (∀ value ∈ values, (semantic.pageTypeId value.1).isSome) ∧
        result = values.map fun value => ((semantic.pageTypeId value.1).getD 0, value.2) := by
  refine except_mapM_eq_ok fun value result => ?_
  rw [except_bind_eq_ok]
  simp only [okOr_eq_getD (d := 0)]
  constructor
  · rintro ⟨_, ⟨hsome, rfl⟩, h⟩
    cases h
    exact ⟨hsome, rfl⟩
  · rintro ⟨hsome, rfl⟩
    exact ⟨_, ⟨hsome, rfl⟩, rfl⟩

/-! ## The reconstruction -/

/-- Whatever the reconstruction reads of a run decodes. -/
structure Decodes (work : List CrawlUrlStateRow) (runId : CrawlRunId)
    (selection : Option (List UrlStateId)) : Prop where
  pending : ∀ unit ∈ work, awaits selection unit = true → Readable semantic s unit
  selected : ∀ unit ∈ work, (selection.any fun ids => reopens ids unit) = true →
    Readable semantic s unit
  counts : ∀ count ∈ transitionSourceCounts s runId, Countable semantic work count
  pageTypes : ∀ count ∈ pageTypeCountsOf s runId, (semantic.pageTypeId count.pageTypeId).isSome
  scheduled : ∀ id ∈ scheduledTexts work, (semantic.pageTypeId id).isSome

/-- The counts of page types with their identities. -/
def decodedCounts (values : List (String × ℕ)) : List (Crawl.PageTypeId × ℕ) :=
  values.map fun value => ((semantic.pageTypeId value.1).getD 0, value.2)

/-- The checkpoint of a run whose rows decode. -/
def reconstructionOf (work : List CrawlUrlStateRow) (control : CrawlTraversalControl)
    (runId : CrawlRunId) (selection : Option (List UrlStateId)) : ReconstructedTraversal :=
  let pending := (work.filter (awaits selection)).map (entryOf semantic s work)
  let counts := transitionSourceCounts s runId
  let stored := pageTypeCountsOf s runId
  { checkpoint := checkpointOf semantic work control counts pending
      (counts.map (pageCountOf semantic work))
      (decodedCounts semantic (stored.map fun count => (count.pageTypeId, count.sampledCount)))
      (decodedCounts semantic (stored.map fun count => (count.pageTypeId, count.discoveredCount)))
      (decodedCounts semantic (scheduledCounts work))
    pending
    recoveryEntries := (work.filter fun unit => selection.any fun ids => reopens ids unit).map
      (entryOf semantic s work) }

/-- A checkpoint is reconstructed when all of its parts decode. -/
theorem reconstruct_eq_ok {work : List CrawlUrlStateRow} {control : CrawlTraversalControl}
    {runId : CrawlRunId} {selection : Option (List UrlStateId)} {result : ReconstructedTraversal}
    (hcontrol : s.controls.find? runId = some control)
    (hwork : reconstructRecoveryState s runId = some work) :
    reconstructTraversalCheckpoint semantic s runId selection = .ok result ↔
      Decodes semantic s work runId selection ∧
        result = reconstructionOf semantic s work control runId selection := by
  -- each list is decoded element by element, so it succeeds exactly when all elements do
  have hentries : ∀ (units : List CrawlUrlStateRow) entries,
      units.mapM (Production.queueEntry semantic s work) = .ok entries ↔
        (∀ unit ∈ units, Readable semantic s unit) ∧
          entries = units.map (entryOf semantic s work) :=
    fun _ _ => except_mapM_eq_ok fun _ _ => queueEntry_eq_ok semantic s
  have hcounts : ∀ (counts : List CrawlTransitionSourceCountRow) values,
      counts.mapM (transitionPageCount semantic work) = .ok values ↔
        (∀ count ∈ counts, Countable semantic work count) ∧
          values = counts.map (pageCountOf semantic work) :=
    fun _ _ => except_mapM_eq_ok fun _ _ => transitionPageCount_eq_ok semantic
  unfold reconstructTraversalCheckpoint
  simp only [except_bind_eq_ok, okOr_eq_ok, hcontrol, hwork, Option.some.injEq, exists_eq_left',
    hentries, hcounts, decodeCounts_eq_ok]
  constructor
  · rintro ⟨_, ⟨hpending, rfl⟩, _, ⟨hselected, rfl⟩, _, ⟨hcounted, rfl⟩, _, ⟨hsampled, rfl⟩, _,
      ⟨_, rfl⟩, _, ⟨hscheduled, rfl⟩, h⟩
    cases h
    refine ⟨⟨?_, ?_, hcounted, ?_, ?_⟩, rfl⟩
    · exact fun unit hunit hawaits => hpending unit (List.mem_filter.mpr ⟨hunit, hawaits⟩)
    · exact fun unit hunit hreopens => hselected unit (List.mem_filter.mpr ⟨hunit, hreopens⟩)
    · exact fun count hcount => hsampled _ (List.mem_map_of_mem hcount)
    · intro id hid
      refine hscheduled (id, (scheduledTexts work).count id) (List.mem_map.mpr ⟨id, ?_, rfl⟩)
      exact (List.mem_insertionSort _).mpr (List.mem_dedup.mpr hid)
  · rintro ⟨h, rfl⟩
    refine ⟨_, ⟨?_, rfl⟩, _, ⟨?_, rfl⟩, _, ⟨h.counts, rfl⟩, _, ⟨?_, rfl⟩, _, ⟨?_, rfl⟩, _,
      ⟨?_, rfl⟩, rfl⟩
    · exact fun unit hunit => h.pending unit (List.mem_filter.mp hunit).1 (List.mem_filter.mp hunit).2
    · exact fun unit hunit =>
        h.selected unit (List.mem_filter.mp hunit).1 (List.mem_filter.mp hunit).2
    · intro value hvalue
      obtain ⟨count, hcount, rfl⟩ := List.mem_map.mp hvalue
      exact h.pageTypes count hcount
    · intro value hvalue
      obtain ⟨count, hcount, rfl⟩ := List.mem_map.mp hvalue
      exact h.pageTypes count hcount
    · intro value hvalue
      obtain ⟨id, hid, rfl⟩ := List.mem_map.mp hvalue
      exact h.scheduled id (List.mem_dedup.mp ((List.mem_insertionSort _).mp hid))

end Rows

end Erabi.Production

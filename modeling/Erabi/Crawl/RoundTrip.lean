/-
# Checkpoints round trip

What the traversal of a run exports can be restored unless it has a URL in two of
its match sets, or one that no checkpoint may list.  The restored traversal is
alike the exported one and goes on like it.
-/
import Erabi.Crawl.Resumption
import Erabi.Crawl.Exports

namespace Erabi.Crawl

open Relational Transaction Transition

variable {ctx : TraversalContext} {s : SemanticTraversal}

/-! ## Restoring an export -/

/-- The sets of an exported checkpoint. -/
def exportedSets (s : SemanticTraversal) : RestoredSets where
  admitted := s.admitted.arrange
  seen := s.seen.arrange
  sampled := s.sampled.arrange
  expanded := s.expanded.arrange
  matching := s.matchingUrls.arrange
  unmatched := s.unmatchedUrls.arrange
  ambiguous := s.ambiguousUrls.arrange
  inScope := s.inScopeUrls.arrange

/-- The parts that an exported checkpoint is rebuilt from. -/
def exportedParts (s : SemanticTraversal) : RestoredParts where
  sets := exportedSets s
  queued := ⟨s.queue, Table.keysNodup_of_perm (List.perm_insertionSort _ _)⟩
  transitionCounts :=
    ⟨((s.transitionCounts.rows.insertionSort fun a b => a.transitionId ≤ b.transitionId).map
      TransitionRuntimeCount.state).map SemanticTraversalTransitionState.runtime, by
      rw [List.map_map, List.map_map]
      exact Table.keysNodup_of_perm (List.perm_insertionSort _ _)⟩
  transitionPageCounts :=
    ⟨s.transitionPageCounts.rows.insertionSort fun a b => a.before b = true,
      Table.keysNodup_of_perm (List.perm_insertionSort _ _)⟩
  pageTypeSampled := s.pageTypeSampled
  pageTypeDiscovered := s.pageTypeDiscovered
  pageTypeScheduled := s.pageTypeScheduled

/-- A use that is taken up is recorded as before. -/
theorem state_runtime (c : TransitionRuntimeCount) : c.state.runtime.state = c.state := by
  have hsame : (KeySet.ofList c.sourcePages.sorted).Same c.sourcePages := by
    intro u
    rw [KeySet.mem_ofList, KeySet.mem_sorted]
  simp only [TransitionRuntimeCount.state, SemanticTraversalTransitionState.runtime, hsame.sorted]

/-- The rebuilt traversal of an export is alike the exported one. -/
theorem alike_exported (ctx : TraversalContext) (s : SemanticTraversal) (selected : List Seed)
    (elapsed : ℕ) :
    Alike s.pages s.paths s
      ((exportedParts s).traversal (checkpointState ctx s elapsed) selected) where
  bare := rfl
  queued := Table.Same.of_mem fun _ => SemanticTraversal.mem_queue.symm
  admitted := s.admitted.same_arrange
  seen := s.seen.same_arrange
  sampled := s.sampled.same_arrange
  expanded := s.expanded.same_arrange
  pages := (List.append_nil _).symm
  paths := (List.append_nil _).symm
  transitionCounts := by
    intro id
    rw [← find?_transitionStates, ← find?_transitionStates]
    refine Table.Same.of_mem (fun value => ?_) id
    show value ∈ s.transitionCounts.rows.map _ ↔ value ∈ List.map _ (List.map _ (List.map _ _))
    rw [List.map_map, List.map_map, List.mem_map, List.mem_map]
    constructor
    · rintro ⟨c, hc, rfl⟩
      exact ⟨c, (List.mem_insertionSort _).mpr hc, state_runtime c⟩
    · rintro ⟨c, hc, rfl⟩
      exact ⟨c, (List.mem_insertionSort _).mp hc, (state_runtime c).symm⟩
  transitionPageCounts := Table.Same.of_mem fun _ => (List.mem_insertionSort _).symm
  matching := s.matchingUrls.same_arrange
  unmatched := s.unmatchedUrls.same_arrange
  ambiguous := s.ambiguousUrls.same_arrange
  inScope := s.inScopeUrls.same_arrange

/-- What an exported checkpoint must meet beyond the relations that the steps keep:
no URL has two of the three matches, and the URLs are restorable. -/
structure Restorable (ctx : TraversalContext) (s : SemanticTraversal) : Prop where
  seedIds : ctx.selectedSeedIds.Nodup
  matchingUnmatched : s.matchingUrls.Disjoint s.unmatchedUrls
  matchingAmbiguous : s.matchingUrls.Disjoint s.ambiguousUrls
  unmatchedAmbiguous : s.unmatchedUrls.Disjoint s.ambiguousUrls
  urls : ∀ u ∈ s.seen, ctx.urls.restorable u = true
  pending : ∀ e ∈ s.queued.rows, ctx.urls.restorable e.requestedUrl = true ∧ e.seedIds.Nodup ∧
    e.canonicalUrl ∉ s.sampled

/-- The counts of known page types come back. -/
theorem restorePageTypeCounts_pageTypeValues {counts : PageTypeCounts}
    (h : ∀ id ∉ ctx.pageTypes, counts id = none) :
    restorePageTypeCounts ctx (pageTypeValues ctx counts) = some counts := by
  -- the list holds exactly the page types that have a count
  have hmem : ∀ value : PageTypeId × ℕ, value ∈ pageTypeValues ctx counts ↔
      counts value.1 = some value.2 := by
    intro value
    rw [pageTypeValues, List.mem_filterMap]
    constructor
    · rintro ⟨id, _, hvalue⟩
      obtain ⟨count, hcount, rfl⟩ := Option.map_eq_some_iff.mp hvalue
      exact hcount
    · intro hcount
      have hid : value.1 ∈ ctx.pageTypes := by
        by_contra hid
        rw [h _ hid] at hcount
        cases hcount
      exact ⟨value.1, hid, by rw [hcount]; rfl⟩
  have hnodup : ((pageTypeValues ctx counts).map Prod.fst).Nodup := by
    rw [pageTypeValues, List.map_filterMap]
    refine ctx.pageTypesNodup.filterMap fun a b id ha hb => ?_
    simp only [Option.map_map, Option.mem_def, Option.map_eq_some_iff, Function.comp_apply] at ha hb
    obtain ⟨_, _, rfl⟩ := ha
    obtain ⟨_, _, rfl⟩ := hb
    rfl
  have hknown : (pageTypeValues ctx counts).all (fun value => value.1 ∈ ctx.pageTypes) = true := by
    refine List.all_eq_true.mpr fun value hvalue => decide_eq_true ?_
    by_contra hid
    have hcount := (hmem value).mp hvalue
    rw [h _ hid] at hcount
    cases hcount
  rw [restorePageTypeCounts, if_pos ⟨hknown, hnodup⟩]
  refine congrArg some (funext fun id => ?_)
  let table : Table (PageTypeId × ℕ) PageTypeId Prod.fst := ⟨_, hnodup⟩
  show (table.find? id).map Prod.snd = counts id
  -- reading the list back finds a count where there was one and none elsewhere
  rcases hcount : counts id with _ | count
  · have hnone : table.find? id = none := Table.find?_eq_none.mpr fun value hvalue hid => by
      have hsome := (hmem value).mp hvalue
      rw [hid, hcount] at hsome
      cases hsome
    rw [hnone]
    rfl
  · have hsome : table.find? id = some (id, count) :=
      Table.find?_eq_some.mpr ⟨(hmem (id, count)).mpr hcount, rfl⟩
    rw [hsome]
    rfl

/-- Sorted URLs come back as their set. -/
theorem collectUrls_sorted {set : KeySet Url} (h : ∀ u ∈ set, ctx.urls.restorable u = true) :
    collectUrls ctx set.sorted = some set.arrange :=
  collectUrls_eq_some.mpr
    ⟨fun u hu => h u (KeySet.mem_sorted.mp hu), set.nodup_sorted, rfl⟩

/-- The exported sets come back. -/
theorem restoreSets_exported (hbase : Base s) (h : Exportable ctx s)
    (hurls : ∀ u ∈ s.seen, ctx.urls.restorable u = true) (elapsed : ℕ) :
    restoreSets ctx (checkpointState ctx s elapsed) = some (exportedSets s) := by
  have hinScope : ∀ u ∈ s.inScopeUrls, ctx.urls.restorable u = true := fun u hu =>
    (h.inScope u hu).elim (hurls u) id
  have hsampled : ∀ u ∈ s.sampled, ctx.urls.restorable u = true := fun u hu =>
    hurls u (hbase.sampled u hu)
  simp only [restoreSets, checkpointState, collectUrls_sorted hurls, collectUrls_sorted hinScope,
    collectUrls_sorted hsampled, collectUrls_sorted fun u hu => hinScope u (h.matching u hu),
    collectUrls_sorted fun u hu => hurls u (hbase.admitted u hu),
    collectUrls_sorted fun u hu => hsampled u (hbase.expanded u hu),
    collectUrls_sorted fun u hu => hinScope u (h.unmatched u hu),
    collectUrls_sorted fun u hu => hinScope u (h.ambiguous u hu), Option.bind_eq_bind,
    Option.bind_some, Option.pure_def]
  rfl

/-- The exported sets are coherent. -/
theorem coherent_exported (hbase : Base s) (h : Exportable ctx s) (hr : Restorable ctx s) :
    (exportedSets s).Coherent where
  admitted u hu := KeySet.mem_arrange.mpr (hbase.admitted u (KeySet.mem_arrange.mp hu))
  sampled u hu := KeySet.mem_arrange.mpr (hbase.sampled u (KeySet.mem_arrange.mp hu))
  expanded u hu := KeySet.mem_arrange.mpr (hbase.expanded u (KeySet.mem_arrange.mp hu))
  matching u hu := KeySet.mem_arrange.mpr (h.matching u (KeySet.mem_arrange.mp hu))
  unmatched u hu := KeySet.mem_arrange.mpr (h.unmatched u (KeySet.mem_arrange.mp hu))
  ambiguous u hu := KeySet.mem_arrange.mpr (h.ambiguous u (KeySet.mem_arrange.mp hu))
  matchingUnmatched u hu hu' :=
    hr.matchingUnmatched u (KeySet.mem_arrange.mp hu) (KeySet.mem_arrange.mp hu')
  matchingAmbiguous u hu hu' :=
    hr.matchingAmbiguous u (KeySet.mem_arrange.mp hu) (KeySet.mem_arrange.mp hu')
  unmatchedAmbiguous u hu hu' :=
    hr.unmatchedAmbiguous u (KeySet.mem_arrange.mp hu) (KeySet.mem_arrange.mp hu')

/-- The exported units are valid. -/
theorem validPending_exported {e : QueueEntry} (hbase : Base s) (h : Exportable ctx s)
    (hr : Restorable ctx s) (he : e ∈ s.queued.rows) :
    validPending ctx (exportedSets s) e = true := by
  obtain ⟨hrequested, hnodup, hunsampled⟩ := hr.pending e he
  have hadmitted := hbase.queued e he
  have hq := h.entries e he
  have hunexpanded : e.canonicalUrl ∉ s.expanded := fun hmem =>
    hunsampled (hbase.expanded _ hmem)
  simp only [validPending, exportedSets, Bool.and_eq_true, decide_eq_true_eq, KeySet.mem_arrange,
    List.all_eq_true, Option.all_eq_true]
  exact ⟨⟨⟨⟨⟨⟨⟨⟨⟨⟨⟨hrequested, hr.urls _ (hbase.admitted _ hadmitted)⟩, hq.seedIds⟩, hnodup⟩,
    hq.depth⟩, hq.selected⟩, hadmitted⟩, hunsampled⟩, hunexpanded⟩, hq.target⟩,
    hq.transition⟩, fun u hu => (hq.parent u hu).elim (hr.urls u) id⟩

/-- The exported uses come back. -/
theorem restoreTransitionCounts_exported (h : Exportable ctx s) (elapsed : ℕ) :
    restoreTransitionCounts ctx (checkpointState ctx s elapsed).transitionCounts =
      some (exportedParts s).transitionCounts := by
  have hknown : (checkpointState ctx s elapsed).transitionCounts.all (fun value =>
      ctx.transitions.any fun t => t.id = value.transitionId && t.name = value.name) = true := by
    refine List.all_eq_true.mpr fun value hvalue => ?_
    obtain ⟨c, hc, rfl⟩ := List.mem_map.mp hvalue
    have hmem := h.transitions.mem_iff.mp
      (List.mem_map_of_mem (f := fun c => (c.transitionId, c.name))
        ((List.mem_insertionSort _).mp hc))
    obtain ⟨t, ht, hkey⟩ := List.mem_map.mp hmem
    obtain ⟨hid, hname⟩ := Prod.ext_iff.mp hkey
    exact List.any_eq_true.mpr ⟨t, ht, by
      rw [Bool.and_eq_true, decide_eq_true_eq, decide_eq_true_eq]
      exact ⟨hid, hname⟩⟩
  have hlength : (checkpointState ctx s elapsed).transitionCounts.length =
      ctx.transitions.length := by
    have hperm := h.transitions.length_eq
    rw [List.length_map, List.length_map] at hperm
    show (List.map _ (List.insertionSort _ _)).length = _
    rw [List.length_map, List.length_insertionSort, hperm]
  rw [restoreTransitionCounts, if_pos ⟨hknown, hlength⟩]
  exact Table.ofList?_of_nodup _

/-- The exported page counts come back. -/
theorem restoreTransitionPageCounts_exported (h : Exportable ctx s) (hr : Restorable ctx s)
    (elapsed : ℕ) :
    restoreTransitionPageCounts ctx (checkpointState ctx s elapsed).transitionPageCounts =
      some (exportedParts s).transitionPageCounts := by
  have hall : (checkpointState ctx s elapsed).transitionPageCounts =
      s.transitionPageCounts.rows.insertionSort fun a b => a.before b = true :=
    List.filter_eq_self.mpr fun c hc => (h.sources c ((List.mem_insertionSort _).mp hc)).2
  have hvalid : (checkpointState ctx s elapsed).transitionPageCounts.all (fun value =>
      ctx.urls.restorable value.source && knownTransition ctx value.transitionId) = true := by
    rw [hall]
    refine List.all_eq_true.mpr fun c hc => ?_
    obtain ⟨hsource, hknown⟩ := h.sources c ((List.mem_insertionSort _).mp hc)
    rw [Bool.and_eq_true]
    exact ⟨hsource.elim (hr.urls _) id, hknown⟩
  rw [restoreTransitionPageCounts, if_pos hvalid, hall]
  exact Table.ofList?_of_nodup _

/-- A restorable export is rebuilt. -/
theorem rebuild_exported (hbase : Base s) (h : Exportable ctx s)
    (hr : Restorable ctx s) (elapsed : ℕ) :
    (exportedParts s).Rebuild ctx (checkpointState ctx s elapsed) where
  seedIds := hr.seedIds
  selected := rfl
  sets := restoreSets_exported hbase h hr.urls elapsed
  coherent := coherent_exported hbase h hr
  admitted := (s.admitted.length_sorted).trans_le h.admitted
  consumed := h.consumed
  sampled := hbase.pages.trans s.sampled.length_sorted.symm
  newly := hbase.newly.trans s.admitted.length_sorted.symm
  pending _ he := validPending_exported hbase h hr (SemanticTraversal.mem_queue.mp he)
  queued := Table.ofList?_of_nodup _
  transitions := restoreTransitionCounts_exported h elapsed
  transitionPages := restoreTransitionPageCounts_exported h hr elapsed
  pageTypeSampled := restorePageTypeCounts_pageTypeValues fun id hid => (h.counted id hid).1
  pageTypeDiscovered := restorePageTypeCounts_pageTypeValues fun id hid => (h.counted id hid).2.1
  pageTypeScheduled := restorePageTypeCounts_pageTypeValues fun id hid => (h.counted id hid).2.2

/-- An export that is rebuilt is restorable. -/
theorem restorable_of_rebuild {parts : RestoredParts} {elapsed : ℕ}
    (hparts : parts.Rebuild ctx (checkpointState ctx s elapsed)) : Restorable ctx s := by
  have hlists := restoreSets_eq_some hparts.sets
  have hmatching : ∀ u, u ∈ parts.sets.matching ↔ u ∈ s.matchingUrls := fun u => by
    rw [KeySet.mem_def, hlists.matching]
    exact KeySet.mem_sorted
  have hunmatched : ∀ u, u ∈ parts.sets.unmatched ↔ u ∈ s.unmatchedUrls := fun u => by
    rw [KeySet.mem_def, hlists.unmatched]
    exact KeySet.mem_sorted
  have hambiguous : ∀ u, u ∈ parts.sets.ambiguous ↔ u ∈ s.ambiguousUrls := fun u => by
    rw [KeySet.mem_def, hlists.ambiguous]
    exact KeySet.mem_sorted
  have hsampled : ∀ u, u ∈ parts.sets.sampled ↔ u ∈ s.sampled := fun u => by
    rw [KeySet.mem_def, hlists.sampled]
    exact KeySet.mem_sorted
  refine ⟨hparts.seedIds, fun u hu hu' => ?_, fun u hu hu' => ?_, fun u hu hu' => ?_,
    fun u hu => ?_, fun e he => ?_⟩
  · exact hparts.coherent.matchingUnmatched u ((hmatching u).mpr hu) ((hunmatched u).mpr hu')
  · exact hparts.coherent.matchingAmbiguous u ((hmatching u).mpr hu) ((hambiguous u).mpr hu')
  · exact hparts.coherent.unmatchedAmbiguous u ((hunmatched u).mpr hu) ((hambiguous u).mpr hu')
  · have hsets := hparts.sets
    simp only [restoreSets, Option.bind_eq_bind, Option.bind_eq_some_iff] at hsets
    obtain ⟨_, _, seen, hseen, _⟩ := hsets
    exact (collectUrls_eq_some.mp hseen).1 u (KeySet.mem_sorted.mpr hu)
  · have hvalid := hparts.pending e (SemanticTraversal.mem_queue.mpr he)
    simp only [validPending, Bool.and_eq_true, decide_eq_true_eq] at hvalid
    obtain ⟨⟨⟨⟨⟨⟨⟨⟨⟨⟨⟨hrequested, _⟩, _⟩, hnodup⟩, _⟩, _⟩, _⟩, hunsampled⟩, _⟩, _⟩, _⟩, _⟩ := hvalid
    exact ⟨hrequested, hnodup, fun hmem => hunsampled ((hsampled _).mpr hmem)⟩

/-- The restoration of an export succeeds exactly when the export is restorable,
and it rebuilds the exported traversal. -/
theorem restore_exported {selected : List Seed} (hselect : selectSeeds ctx = .ok selected)
    (hbase : Base s) (h : Exportable ctx s) (elapsed : ℕ)
    {r : SemanticTraversal} :
    restoreFromCheckpoint ctx (checkpointState ctx s elapsed) = .ok r ↔
      Restorable ctx s ∧
        r = (exportedParts s).traversal (checkpointState ctx s elapsed) selected := by
  have hrebuilt : Restorable ctx s → restoreFromCheckpoint ctx (checkpointState ctx s elapsed) =
      .ok ((exportedParts s).traversal (checkpointState ctx s elapsed) selected) := fun hr =>
    restoreFromCheckpoint_eq_ok.mpr
      ⟨selected, exportedParts s, hselect, rebuild_exported hbase h hr elapsed, rfl⟩
  constructor
  · intro hrestore
    obtain ⟨_, parts, _, hparts, _⟩ := restoreFromCheckpoint_eq_ok.mp hrestore
    have hr := restorable_of_rebuild hparts
    exact ⟨hr, Except.ok.inj (hrestore.symm.trans (hrebuilt hr))⟩
  · rintro ⟨hr, rfl⟩
    exact hrebuilt hr

/-! ## Runs over matched URLs -/

/-- Merging repeats no seed. -/
theorem QueueEntry.nodup_merge {e : QueueEntry} {seedIds : List SeedId} {depth : Option ℕ}
    (h : e.seedIds.Nodup) : (e.merge seedIds depth).seedIds.Nodup := by
  show (seedIds.foldl (fun ids id => if id ∈ ids then ids else ids ++ [id]) e.seedIds).Nodup
  generalize e.seedIds = ids at h
  induction seedIds generalizing ids with
  | nil => exact h
  | cons id rest ih =>
    rw [List.foldl_cons]
    apply ih
    split
    · exact h
    · rename_i hnew
      refine List.nodup_append.mpr ⟨h, List.nodup_singleton id, fun a ha b hb hab => ?_⟩
      rw [List.mem_singleton.mp hb] at hab
      exact hnew (hab ▸ ha)

/-- A URL that a checkpoint may list and that has one page type if it is in scope. -/
def Matched (ctx : TraversalContext) (u : Url) : Prop :=
  ctx.urls.restorable u = true ∧
    (ctx.classify u = some .inScope → (ctx.resolvePageType u).winner.isSome = true)

/-- Every change that matched URLs make keeps an export restorable. -/
theorem Restorable.invariant :
    Invariant ctx (fun s => (Base s ∧ Exportable ctx s) ∧ Restorable ctx s)
      (fun e => (e.seedIds ≠ [] ∧ ∀ id ∈ e.seedIds, id ∈ ctx.selectedSeedIds) ∧ e.seedIds.Nodup)
      (Matched ctx) (Matched ctx) where
  base h := h.1.1
  frame h hf := ⟨Exportable.invariant.frame h.1 hf, by
    rw [hf.eq]
    exact { h.2 with }⟩
  consume hle h := ⟨Exportable.invariant.consume hle h.1, { h.2 with }⟩
  see {s u} hu h := by
    refine ⟨Exportable.invariant.see (Or.inl trivial) h.1, { h.2 with urls := fun v hv => ?_ }⟩
    rcases KeySet.mem_insert.mp hv with hv | rfl
    · exact h.2.urls v hv
    · exact (hu.elim id id).1
  -- a redirect only takes URLs out of the three sets of matches
  redirect hQ _ hr h := by
    refine ⟨Exportable.invariant.redirect hQ.1 trivial hr h.1, { h.2 with
      matchingUnmatched := fun v hv hv' => ?_
      matchingAmbiguous := fun v hv hv' => ?_
      unmatchedAmbiguous := fun v hv hv' => ?_
      pending := fun e he => h.2.pending e (Table.mem_delete.mp he).1 }⟩
    · exact h.2.matchingUnmatched v (KeySet.mem_remove.mp hv).1 (KeySet.mem_remove.mp hv').1
    · exact h.2.matchingAmbiguous v (KeySet.mem_remove.mp hv).1 (KeySet.mem_remove.mp hv').1
    · exact h.2.unmatchedAmbiguous v (KeySet.mem_remove.mp hv).1 (KeySet.mem_remove.mp hv').1
  register {s u fromHref} hseen hu hclassify h := by
    refine ⟨Exportable.invariant.register hseen (Or.inl trivial) hclassify h.1, ?_⟩
    by_cases hknown : u ∈ s.inScopeUrls
    · rw [Exportable.registerMatch_of_mem hknown]
      exact h.2
    obtain ⟨winner, hwinner⟩ := Option.isSome_iff_exists.mp ((hu.elim id id).2 hclassify)
    have hmatch := PageTypeMatch.eq_matched hwinner
    refine { h.2 with
      matchingUnmatched := ?_, matchingAmbiguous := ?_, unmatchedAmbiguous := ?_ }
    -- a URL enters one of the three sets only if it was in none
    all_goals
      simp only [SemanticTraversal.registerMatch, hknown, hmatch, not_false_eq_true, true_and,
        if_false, PageTypeMatch.isAmbiguous, reduceCtorEq, Bool.false_eq_true]
      intro v hv hv'
    · rcases KeySet.mem_insert.mp hv with hv | rfl
      · exact h.2.matchingUnmatched v hv hv'
      · exact hknown (h.1.2.unmatched v hv')
    · rcases KeySet.mem_insert.mp hv with hv | rfl
      · exact h.2.matchingAmbiguous v hv hv'
      · exact hknown (h.1.2.ambiguous v hv')
    · exact h.2.unmatchedAmbiguous v hv hv'
  sample {s f scope} _ hs h := by
    refine ⟨Exportable.invariant.sample trivial hs h.1, ?_⟩
    rw [SemanticTraversal.sample, if_neg hs.first]
    refine { h.2 with pending := fun e he => ?_ }
    obtain ⟨hrequested, hnodup, hunsampled⟩ := h.2.pending e he
    refine ⟨hrequested, hnodup, fun hmem => ?_⟩
    rcases KeySet.mem_insert.mp hmem with hmem | heq
    · exact hunsampled hmem
    · exact hs.popped e he heq
  expand hf h := ⟨Exportable.invariant.expand hf h.1, { h.2 with }⟩
  merge hQ hdepth h := by
    refine ⟨Exportable.invariant.merge hQ.1 hdepth h.1, { h.2 with pending := fun e he => ?_ }⟩
    obtain ⟨e₀, he₀, rfl⟩ := List.mem_map.mp he
    obtain ⟨hrequested, hnodup, hunsampled⟩ := h.2.pending e₀ he₀
    split
    · exact ⟨hrequested, QueueEntry.nodup_merge hnodup, hunsampled⟩
    · exact ⟨hrequested, hnodup, hunsampled⟩
  consumeTransition ht hj hsource h :=
    ⟨Exportable.invariant.consumeTransition ht hj hsource h.1, { h.2 with }⟩
  enqueue hbefore hunseen hQ ha h := by
    refine ⟨Exportable.invariant.enqueue hbefore.1 hunseen hQ.1 ha h.1,
      { h.2 with pending := fun e he => ?_ }⟩
    rcases Table.mem_put.mp he with ⟨he, _⟩ | rfl
    · exact h.2.pending e he
    · exact ⟨ha.requested ▸ h.2.urls _ ha.seen, ha.seedIds ▸ hQ.2, ha.sampled⟩

/-- A restoration of a checkpoint demands that its export is restorable. -/
theorem Restorable.restored {state : SemanticTraversalCheckpoint} {r : SemanticTraversal}
    (h : restoreFromCheckpoint ctx state = .ok r) : Restorable ctx r := by
  obtain ⟨selected, parts, _, hparts, rfl⟩ := restoreFromCheckpoint_eq_ok.mp h
  refine ⟨hparts.seedIds, hparts.coherent.matchingUnmatched, hparts.coherent.matchingAmbiguous,
    hparts.coherent.unmatchedAmbiguous, fun u hu => ?_, fun e he => ?_⟩
  · have hsets := hparts.sets
    simp only [restoreSets, Option.bind_eq_bind, Option.bind_eq_some_iff, Option.pure_def,
      Option.some.injEq] at hsets
    obtain ⟨_, _, seen, hseen, hrest⟩ := hsets
    obtain ⟨_, _, _, _, _, _, _, _, _, _, _, _, hrebuilt⟩ := hrest
    obtain ⟨hvalid, _, hkeys⟩ := collectUrls_eq_some.mp hseen
    have hmem : u ∈ seen := by
      have hsame : parts.sets.seen = seen := by rw [← hrebuilt]
      exact hsame ▸ hu
    exact hvalid u (hkeys ▸ hmem)
  · have hvalid := hparts.pending e ((Table.ofList?_eq_some.mp hparts.queued).2 ▸ he)
    simp only [validPending, Bool.and_eq_true, decide_eq_true_eq] at hvalid
    obtain ⟨⟨⟨⟨⟨⟨⟨⟨⟨⟨⟨hrequested, _⟩, _⟩, hnodup⟩, _⟩, _⟩, _⟩, hunsampled⟩, _⟩, _⟩, _⟩, _⟩ := hvalid
    exact ⟨hrequested, hnodup, hunsampled⟩

/-- **Matched URLs keep every checkpoint restorable.**  In a run whose answers lead
to URLs that have one page type or are out of scope, every boundary can be
exported and restored when the roots can. -/
theorem restorable_throughout {s : SemanticTraversal} (hstart : forFrozenSnapshot ctx = .ok s)
    (hs : Restorable ctx s) {inputs : List TraversalInput}
    (hmatched : Meets (runStep ctx fun _ _ selection => selection = none)
      (Guarded fun _ outcome => outcome.Leads ctx (Matched ctx) (Matched ctx)) (.start s) inputs) :
    Throughout (runStep ctx fun _ _ selection => selection = none)
      (fun run => ∀ boundary ∈ run.boundaries, Restorable ctx boundary.traversal)
      (.start s) inputs := by
  have hroots := Exportable.rootInvariant.start hstart fun _ _ _ => trivial
  refine Throughout.mono (fun run hrun boundary hb => (hrun boundary hb).2)
    (boundaries_throughout
      (P := fun boundary => (Base boundary.traversal ∧ Exportable ctx boundary.traversal) ∧
        Restorable ctx boundary.traversal)
      (fun boundary readings outcome result s' hsound hleads hstep => ?_)
      (fun boundary state selection s' _ hselection hs' => ?_) ⟨hroots, hs⟩ hmatched)
  · refine Restorable.invariant.step hstep (fun entry rest hqueue => ?_) hleads hsound
    have hentry : entry ∈ boundary.traversal.queued.rows := by
      rw [← SemanticTraversal.mem_queue, hqueue]
      exact List.mem_cons_self
    have hq := hsound.1.2.entries entry hentry
    exact ⟨⟨⟨hq.seedIds, hq.selected⟩, (hsound.2.pending entry hentry).2.1⟩,
      ⟨hsound.1.1.pop entry, hsound.1.2.pop entry⟩,
      { hsound.2 with pending := fun e he => hsound.2.pending e (Table.mem_delete.mp he).1 }⟩
  · subst hselection
    exact ⟨⟨Base.restored hs', Exportable.restored hs'⟩, Restorable.restored hs'⟩

/-! ## Round trips in runs -/

/-- The exported checkpoint of `s` is restored, and the answers of the provider
bring the restored traversal to the same steps, pages, paths and checkpoint. -/
def RoundTrips (ctx : TraversalContext) (s : SemanticTraversal) (elapsed : ℕ)
    (answers : List (ClockReadings × ProviderOutcome)) : Prop :=
  ∃ r, restoreFromCheckpoint ctx (checkpointState ctx s elapsed) = .ok r ∧
    (drive ctx answers r).results = (drive ctx answers s).results ∧
    (drive ctx answers s).traversal.pages = s.pages ++ (drive ctx answers r).traversal.pages ∧
    (drive ctx answers s).traversal.paths = s.paths ++ (drive ctx answers r).traversal.paths ∧
    ∀ later, checkpointState ctx (drive ctx answers r).traversal later =
      checkpointState ctx (drive ctx answers s).traversal later

/-- A restorable traversal round trips, as long as its full report drops no link
that the restored one keeps. -/
theorem roundTrips_of_restorable {selected : List Seed}
    (hselect : selectSeeds ctx = .ok selected) (hbase : Base s) (h : Exportable ctx s)
    (hr : Restorable ctx s) (elapsed : ℕ) {answers : List (ClockReadings × ProviderOutcome)}
    (hroom : s.paths = [] ∨ KeepsPaths ctx answers s) : RoundTrips ctx s elapsed answers := by
  obtain ⟨hresults, halike⟩ := drive_alike (alike_exported ctx s selected elapsed) hroom
  exact ⟨_, (restore_exported hselect hbase h elapsed).mpr ⟨hr, rfl⟩, hresults.symm,
    halike.pages, halike.paths, fun later => (halike.checkpointState later).symm⟩

/-- **Checkpoints round trip unless a URL has two matches.**  In every run from the
roots, whatever the provider answers and whatever is restored, the export of a
boundary can be restored only when it is restorable, and then the restored
traversal goes on like the exported one. -/
theorem checkpoint_roundTrips_throughout {s : SemanticTraversal}
    (hstart : forFrozenSnapshot ctx = .ok s) (inputs : List TraversalInput) :
    Throughout (runStep ctx fun _ _ _ => True)
      (fun run => ∀ boundary ∈ run.boundaries, ∀ elapsed answers,
        (RoundTrips ctx boundary.traversal elapsed answers → Restorable ctx boundary.traversal) ∧
        (Restorable ctx boundary.traversal →
          boundary.traversal.paths = [] ∨ KeepsPaths ctx answers boundary.traversal →
          RoundTrips ctx boundary.traversal elapsed answers))
      (.start s) inputs := by
  obtain ⟨selected, hselect⟩ : ∃ selected, selectSeeds ctx = .ok selected := by
    unfold forFrozenSnapshot at hstart
    rcases hselect : selectSeeds ctx with e | selected
    · rw [hselect] at hstart
      cases hstart
    · exact ⟨selected, rfl⟩
  have hroots := Exportable.rootInvariant.start hstart fun _ _ _ => trivial
  have hfree : Meets (runStep ctx fun _ _ _ => True) (Guarded fun _ _ => True) (.start s) inputs :=
    meets_of_forall fun run input => by cases input <;> trivial
  refine Throughout.mono (fun run hrun boundary hb elapsed answers => ?_)
    (boundaries_throughout
      (P := fun boundary => Base boundary.traversal ∧ Exportable ctx boundary.traversal)
      (fun boundary readings outcome result s' hsound _ hstep => ?_)
      (fun boundary state selection s' _ _ hs => ⟨Base.restored hs, Exportable.restored hs⟩)
      hroots hfree)
  · obtain ⟨hbase, h⟩ := hrun boundary hb
    refine ⟨fun hround => ?_, fun hr hroom =>
      roundTrips_of_restorable hselect hbase h hr elapsed hroom⟩
    obtain ⟨r, hrestore, _⟩ := hround
    exact ((restore_exported hselect hbase h elapsed).mp hrestore).1
  · refine Exportable.invariant.step hstep (fun entry rest hqueue => ?_)
      (outcome.leads_of_forall (fun _ => trivial) fun _ => trivial) hsound
    have hentry : entry ∈ boundary.traversal.queued.rows := by
      rw [← SemanticTraversal.mem_queue, hqueue]
      exact List.mem_cons_self
    have hq := hsound.2.entries entry hentry
    exact ⟨⟨hq.seedIds, hq.selected⟩, hsound.1.pop entry, hsound.2.pop entry⟩

/-! ## A traversal that meets an unmatched URL -/

/-- A run whose first page links to two URLs of the plain site. -/
theorem checkpoint_roundTrips_throughout_plain :
    Throughout (runStep roomyContext fun _ _ _ => True)
      (fun run => ∀ boundary ∈ run.boundaries, ∀ elapsed answers,
        (RoundTrips roomyContext boundary.traversal elapsed answers →
          Restorable roomyContext boundary.traversal) ∧
        (Restorable roomyContext boundary.traversal →
          boundary.traversal.paths = [] ∨ KeepsPaths roomyContext answers boundary.traversal →
          RoundTrips roomyContext boundary.traversal elapsed answers))
      (.start (rootTraversal roomyContext)) [.step .zero (observed 1 none [2, 3])] :=
  checkpoint_roundTrips_throughout (by rfl) _

/-- The plain site, where only the root has a page type. -/
def unmatchedContext : TraversalContext :=
  { roomyContext with
    resolvePageType := fun u => if u = 1 then .matched 0 else .unmatched
    resolvedPageTypes := by
      intro u p h
      split at h
      · cases h
        exact List.mem_singleton.mpr rfl
      · cases h }

/-- URL 1 links to 2, which has no page type: it is listed as matching and as
unmatched, and no restoration accepts the checkpoint. -/
theorem checkpoint_not_restored :
    ¬ Throughout (runStep unmatchedContext fun _ _ _ => True)
      (fun run => ∀ boundary ∈ run.boundaries, ∀ elapsed answers,
        RoundTrips unmatchedContext boundary.traversal elapsed answers)
      (.start (rootTraversal unmatchedContext)) [.step .zero (observed 1 none [2])] := by
  intro h
  obtain ⟨r, hrestore, _⟩ := h.atEnd _ List.mem_cons_self 0 []
  have hrefused : (restoreFromCheckpoint unmatchedContext (checkpointState unmatchedContext
      (runStep unmatchedContext (fun _ _ _ => True) (.start (rootTraversal unmatchedContext))
        (.step .zero (observed 1 none [2]))).current.traversal 0)).isOk = false := by
    decide +kernel
  rw [show restoreFromCheckpoint unmatchedContext (checkpointState unmatchedContext
      (runStep unmatchedContext (fun _ _ _ => True) (.start (rootTraversal unmatchedContext))
        (.step .zero (observed 1 none [2]))).current.traversal 0) = .ok r from hrestore] at hrefused
  cases hrefused

end Erabi.Crawl

/-
# What a restoration accepts

A restoration succeeds exactly when the sets and counts of the checkpoint can be
rebuilt and its relations hold, and then the traversal is the one the checkpoint
lists.
-/
import Erabi.Crawl.Checkpoint

namespace Erabi.Crawl

open Relational

variable {ctx : TraversalContext}

/-! ## Sets -/

/-- URLs are collected when they are distinct and can be restored. -/
theorem collectUrls_eq_some {values : List Url} {set : KeySet Url} :
    collectUrls ctx values = some set ↔
      (∀ u ∈ values, ctx.urls.restorable u = true) ∧ values.Nodup ∧ set.keys = values := by
  unfold collectUrls
  split
  · rename_i hall
    rw [KeySet.ofList?_eq_some]
    simp only [List.all_eq_true] at hall
    exact (and_iff_right hall).symm
  · rename_i hall
    simp only [List.all_eq_true] at hall
    exact ⟨fun h => (by cases h), fun h => absurd h.1 hall⟩

/-- The sets of a checkpoint, list by list. -/
structure RestoredSets.Lists (sets : RestoredSets) (state : SemanticTraversalCheckpoint) :
    Prop where
  admitted : sets.admitted.keys = state.admittedCanonicalUrls
  seen : sets.seen.keys = state.seenCanonicalUrls
  sampled : sets.sampled.keys = state.sampledCanonicalUrls
  expanded : sets.expanded.keys = state.expandedCanonicalUrls
  matching : sets.matching.keys = state.matchingCanonicalUrls
  unmatched : sets.unmatched.keys = state.unmatchedCanonicalUrls
  ambiguous : sets.ambiguous.keys = state.ambiguousCanonicalUrls
  inScope : sets.inScope.keys = state.inScopeCanonicalUrls

/-- A set is given by its list. -/
theorem RestoredSets.Lists.unique {state : SemanticTraversalCheckpoint} {sets sets' : RestoredSets}
    (h : sets.Lists state) (h' : sets'.Lists state) : sets = sets' := by
  have hkeys : ∀ a b : KeySet Url, a.keys = b.keys → a = b := by
    rintro ⟨_, _⟩ ⟨_, _⟩ rfl
    rfl
  cases sets with
  | mk a b c d e f g i =>
  cases sets' with
  | mk a' b' c' d' e' f' g' i' =>
  rw [hkeys a a' (h.admitted.trans h'.admitted.symm), hkeys b b' (h.seen.trans h'.seen.symm),
    hkeys c c' (h.sampled.trans h'.sampled.symm), hkeys d d' (h.expanded.trans h'.expanded.symm),
    hkeys e e' (h.matching.trans h'.matching.symm),
    hkeys f f' (h.unmatched.trans h'.unmatched.symm),
    hkeys g g' (h.ambiguous.trans h'.ambiguous.symm), hkeys i i' (h.inScope.trans h'.inScope.symm)]

/-- The lists of canonical URLs of a checkpoint. -/
def SemanticTraversalCheckpoint.urlLists (state : SemanticTraversalCheckpoint) : List (List Url) :=
  [state.admittedCanonicalUrls, state.seenCanonicalUrls, state.sampledCanonicalUrls,
    state.expandedCanonicalUrls, state.matchingCanonicalUrls, state.unmatchedCanonicalUrls,
    state.ambiguousCanonicalUrls, state.inScopeCanonicalUrls]

/-- The recorded sets come back when their URLs can be restored. -/
theorem restoreSets_eq_some_iff {state : SemanticTraversalCheckpoint} {sets : RestoredSets} :
    restoreSets ctx state = some sets ↔ sets.Lists state ∧
      ∀ list ∈ state.urlLists, ∀ u ∈ list, ctx.urls.restorable u = true := by
  simp only [restoreSets, Option.bind_eq_bind, Option.bind_eq_some_iff, collectUrls_eq_some,
    Option.pure_def, Option.some.injEq, SemanticTraversalCheckpoint.urlLists, List.forall_mem_cons,
    List.not_mem_nil, IsEmpty.forall_iff, implies_true, and_true]
  constructor
  · rintro ⟨_, ⟨v₁, _, h₁⟩, _, ⟨v₂, _, h₂⟩, _, ⟨v₃, _, h₃⟩, _, ⟨v₄, _, h₄⟩, _, ⟨v₅, _, h₅⟩, _,
      ⟨v₆, _, h₆⟩, _, ⟨v₇, _, h₇⟩, _, ⟨v₈, _, h₈⟩, rfl⟩
    exact ⟨⟨h₁, h₂, h₃, h₄, h₅, h₆, h₇, h₈⟩, v₁, v₂, v₃, v₄, v₅, v₆, v₇, v₈⟩
  · rintro ⟨h, v₁, v₂, v₃, v₄, v₅, v₆, v₇, v₈⟩
    exact ⟨_, ⟨v₁, h.admitted ▸ sets.admitted.nodup, h.admitted⟩, _,
      ⟨v₂, h.seen ▸ sets.seen.nodup, h.seen⟩, _, ⟨v₃, h.sampled ▸ sets.sampled.nodup, h.sampled⟩, _,
      ⟨v₄, h.expanded ▸ sets.expanded.nodup, h.expanded⟩, _,
      ⟨v₅, h.matching ▸ sets.matching.nodup, h.matching⟩, _,
      ⟨v₆, h.unmatched ▸ sets.unmatched.nodup, h.unmatched⟩, _,
      ⟨v₇, h.ambiguous ▸ sets.ambiguous.nodup, h.ambiguous⟩, _,
      ⟨v₈, h.inScope ▸ sets.inScope.nodup, h.inScope⟩, rfl⟩

/-- The sets that come back are those recorded. -/
theorem restoreSets_eq_some {state : SemanticTraversalCheckpoint} {sets : RestoredSets}
    (h : restoreSets ctx state = some sets) : sets.Lists state :=
  (restoreSets_eq_some_iff.mp h).1

/-! ## Traversals -/

/-- The rebuilt parts of a checkpoint. -/
structure RestoredParts where
  sets : RestoredSets
  queued : Table QueueEntry Url QueueEntry.canonicalUrl
  transitionCounts : Table TransitionRuntimeCount TransitionId
    TransitionRuntimeCount.transitionId
  transitionPageCounts : Table TransitionPageCount (TransitionId × Url) TransitionPageCount.key
  pageTypeSampled : PageTypeCounts
  pageTypeDiscovered : PageTypeCounts
  pageTypeScheduled : PageTypeCounts

/-- The traversal of a checkpoint and its rebuilt parts. -/
def RestoredParts.traversal (parts : RestoredParts) (state : SemanticTraversalCheckpoint)
    (selected : List Seed) : SemanticTraversal where
  queued := parts.queued
  admitted := parts.sets.admitted
  seen := parts.sets.seen
  sampled := parts.sets.sampled
  expanded := parts.sets.expanded
  pages := []
  seeds := selected.map restoredSeed
  paths := []
  transitionCounts := parts.transitionCounts
  transitionPageCounts := parts.transitionPageCounts
  pageTypeSampled := parts.pageTypeSampled
  pageTypeDiscovered := parts.pageTypeDiscovered
  pageTypeScheduled := parts.pageTypeScheduled
  matchingUrls := parts.sets.matching
  unmatchedUrls := parts.sets.unmatched
  ambiguousUrls := parts.sets.ambiguous
  inScopeUrls := parts.sets.inScope
  consumedBytes := state.consumedBytes
  pagesSampled := state.pagesSampled
  urlsDiscovered := state.urlsDiscovered
  duplicatesPrevented := state.duplicatesPrevented
  robotsExcluded := state.robotsExcluded
  providerErrors := state.providerErrors
  externalUrls := state.externalUrls
  blockedUrls := state.blockedUrls
  newlyEnqueuedUrls := state.newlyEnqueuedUrls
  peakNewFromPage := state.peakNewFromPage
  timeBudgetHit := state.timeBudgetHit
  paginationTruncationCount := state.paginationTruncationCount
  durationWorkNotExpanded := state.durationWorkNotExpanded

/-- The parts rebuild the checkpoint, and its relations hold. -/
structure RestoredParts.Rebuild (ctx : TraversalContext) (parts : RestoredParts)
    (state : SemanticTraversalCheckpoint) : Prop where
  seedIds : ctx.selectedSeedIds.Nodup
  selected : state.selectedSeedIds = ctx.selectedSeedIds
  sets : restoreSets ctx state = some parts.sets
  coherent : parts.sets.Coherent
  admitted : parts.sets.admitted.size ≤ ctx.limits.maxPages
  consumed : state.consumedBytes ≤ ctx.limits.maxDownloadedBytes
  sampled : state.pagesSampled = parts.sets.sampled.size
  newly : state.newlyEnqueuedUrls = parts.sets.admitted.size
  pending : ∀ entry ∈ state.pending, validPending ctx parts.sets entry = true
  queued : Table.ofList? state.pending = some parts.queued
  transitions : restoreTransitionCounts ctx state.transitionCounts = some parts.transitionCounts
  transitionPages : restoreTransitionPageCounts ctx state.transitionPageCounts =
    some parts.transitionPageCounts
  pageTypeSampled : restorePageTypeCounts ctx state.pageTypeSampled = some parts.pageTypeSampled
  pageTypeDiscovered : restorePageTypeCounts ctx state.pageTypeDiscovered =
    some parts.pageTypeDiscovered
  pageTypeScheduled : restorePageTypeCounts ctx state.pageTypeScheduled =
    some parts.pageTypeScheduled

/-- A state is restored from parts that rebuild it. -/
theorem restoreState_eq_some {state : SemanticTraversalCheckpoint} {selected : List Seed}
    {s : SemanticTraversal} : restoreState ctx state selected = some s ↔
      ∃ parts : RestoredParts, parts.Rebuild ctx state ∧ s = parts.traversal state selected := by
  simp only [restoreState, Option.bind_eq_bind, Option.bind_eq_some_iff, Option.guard_eq_some',
    Option.pure_def, Option.some.injEq]
  constructor
  · rintro ⟨_, ⟨hnodup, hids⟩, sets, hsets, _, hcoherent, _, ⟨hadmitted, hconsumed, hsampled,
      hnewly⟩, _, hpending, queued, hqueued, transitions, htransitions, pages, hpages, sampled,
      hsampledCounts, discovered, hdiscovered, scheduled, hscheduled, rfl⟩
    exact ⟨⟨sets, queued, transitions, pages, sampled, discovered, scheduled⟩,
      ⟨hnodup, hids, hsets, hcoherent, hadmitted, hconsumed, hsampled, hnewly,
        List.all_eq_true.mp hpending, hqueued, htransitions, hpages, hsampledCounts, hdiscovered,
        hscheduled⟩, rfl⟩
  · rintro ⟨⟨sets, queued, transitions, pages, sampled, discovered, scheduled⟩, h, rfl⟩
    exact ⟨(), ⟨h.seedIds, h.selected⟩, sets, h.sets, (), h.coherent, (),
      ⟨h.admitted, h.consumed, h.sampled, h.newly⟩, (), List.all_eq_true.mpr h.pending, queued,
      h.queued, transitions, h.transitions, pages, h.transitionPages, sampled, h.pageTypeSampled,
      discovered, h.pageTypeDiscovered, scheduled, h.pageTypeScheduled, rfl⟩

/-- A checkpoint is restored from parts under the selected seeds. -/
theorem restoreFromCheckpoint_eq_ok {state : SemanticTraversalCheckpoint}
    {s : SemanticTraversal} : restoreFromCheckpoint ctx state = .ok s ↔
      ∃ selected parts, selectSeeds ctx = .ok selected ∧
        RestoredParts.Rebuild ctx parts state ∧ s = parts.traversal state selected := by
  unfold restoreFromCheckpoint
  cases hselect : selectSeeds ctx with
  | error e => simp
  | ok selected =>
    simp only [Except.ok.injEq, exists_and_left, exists_eq_left']
    rw [← restoreState_eq_some]
    cases restoreState ctx state selected <;> simp

/-- A recovery is a restoration with the selected units as its frontier. -/
theorem restoreForRecovery_eq_ok {state : SemanticTraversalCheckpoint}
    {entries : List QueueEntry} {s : SemanticTraversal} :
    restoreForRecovery ctx state entries = .ok s ↔
      ∃ s₀ queued, restoreFromCheckpoint ctx state = .ok s₀ ∧
        (∀ entry ∈ entries, validRecovery ctx s₀ entry = true) ∧
        Table.ofList? entries = some queued ∧ s = { s₀ with queued } := by
  unfold restoreForRecovery
  cases hrestore : restoreFromCheckpoint ctx state with
  | error e => simp
  | ok s₀ =>
    simp only [Except.ok.injEq, exists_and_left, exists_eq_left', ← List.all_eq_true]
    cases hvalid : entries.all (validRecovery ctx s₀) with
    | false => simp
    | true =>
      cases hqueued : (Table.ofList? entries : Option (Table QueueEntry Url _)) with
      | none => simp
      | some queued => simp [eq_comm]

end Erabi.Crawl

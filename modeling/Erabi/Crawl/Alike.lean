/-
# Traversals that go on alike

Two traversals with the same sets, tables and counters.  They may keep them in
different orders, and the report of one of them may begin earlier.  Every change
of a step keeps them alike.
-/
import Erabi.Crawl.Effects
import Erabi.Relational.Coupling

namespace Erabi.Crawl

open Relational Transaction

/-- The counters, flags and page-type counts of a traversal. -/
def SemanticTraversal.bare (s : SemanticTraversal) : SemanticTraversal :=
  { s with
    queued := Table.empty
    admitted := KeySet.empty
    seen := KeySet.empty
    sampled := KeySet.empty
    expanded := KeySet.empty
    pages := []
    seeds := []
    paths := []
    transitionCounts := Table.empty
    transitionPageCounts := Table.empty
    matchingUrls := KeySet.empty
    unmatchedUrls := KeySet.empty
    ambiguousUrls := KeySet.empty
    inScopeUrls := KeySet.empty }

/-- `s` is `t` with an earlier report of `pages` and `paths` before its own. -/
structure Alike (pages : List DiscoveryPreviewPage) (paths : List DiscoveryPath)
    (s t : SemanticTraversal) : Prop where
  bare : s.bare = t.bare
  queued : s.queued.Same t.queued
  admitted : s.admitted.Same t.admitted
  seen : s.seen.Same t.seen
  sampled : s.sampled.Same t.sampled
  expanded : s.expanded.Same t.expanded
  pages : s.pages = pages ++ t.pages
  paths : s.paths = paths ++ t.paths
  transitionCounts : ∀ id, (s.transitionCounts.find? id).map TransitionRuntimeCount.state =
    (t.transitionCounts.find? id).map TransitionRuntimeCount.state
  transitionPageCounts : s.transitionPageCounts.Same t.transitionPageCounts
  matching : s.matchingUrls.Same t.matchingUrls
  unmatched : s.unmatchedUrls.Same t.unmatchedUrls
  ambiguous : s.ambiguousUrls.Same t.ambiguousUrls
  inScope : s.inScopeUrls.Same t.inScopeUrls

variable {ctx : TraversalContext} {readings : ClockReadings} {entry : QueueEntry}
  {pages : List DiscoveryPreviewPage} {paths : List DiscoveryPath} {s t : SemanticTraversal}

namespace Alike

/-! ## What both read -/

/-- What a function reads of the counters, it reads of both. -/
theorem reads {γ : Type*} (h : Alike pages paths s t) (f : SemanticTraversal → γ)
    (hf : ∀ s, f s.bare = f s) : f s = f t := by
  rw [← hf s, h.bare, hf t]

/-- Alike states have consumed as much. -/
theorem consumedBytes (h : Alike pages paths s t) : s.consumedBytes = t.consumedBytes :=
  h.reads SemanticTraversal.consumedBytes fun _ => rfl

/-- Alike states have enqueued as many URLs. -/
theorem newlyEnqueuedUrls (h : Alike pages paths s t) :
    s.newlyEnqueuedUrls = t.newlyEnqueuedUrls :=
  h.reads SemanticTraversal.newlyEnqueuedUrls fun _ => rfl

/-- Alike states have scheduled the same page types. -/
theorem pageTypeScheduled (h : Alike pages paths s t) :
    s.pageTypeScheduled = t.pageTypeScheduled :=
  h.reads SemanticTraversal.pageTypeScheduled fun _ => rfl

/-- Alike states have the same queue. -/
theorem queue (h : Alike pages paths s t) : s.queue = t.queue := by
  refine h.queued.sort _ fun a b hab hba => ?_
  rw [QueueEntry.before_iff] at hab hba
  have hkeys := toLex.injective (le_antisymm hab hba)
  have horders := toLex.injective (Prod.ext_iff.mp hkeys).2
  have hurls := toLex.injective (Prod.ext_iff.mp horders).2
  exact (Prod.ext_iff.mp hurls).1

/-- Alike states have counted the same eligible edges. -/
theorem eligibleEdges (h : Alike pages paths s t) (id : TransitionId) :
    (s.transitionCounts.find? id).map TransitionRuntimeCount.eligibleEdges =
      (t.transitionCounts.find? id).map TransitionRuntimeCount.eligibleEdges := by
  have hstates := congrArg
    (Option.map SemanticTraversalTransitionState.eligibleEdges) (h.transitionCounts id)
  rw [Option.map_map, Option.map_map] at hstates
  exact hstates

/-- A candidate is put to the same budgets. -/
theorem budgetCandidate (h : Alike pages paths s t) (elapsed : ℕ) (source : Url)
    (transition : DiscoveryTransition) (targetMatch : PageTypeMatch) :
    budgetCandidate s elapsed entry source transition targetMatch =
      budgetCandidate t elapsed entry source transition targetMatch := by
  unfold Crawl.budgetCandidate
  rw [h.admitted.size, h.consumedBytes, h.pageTypeScheduled, h.transitionPageCounts,
    h.eligibleEdges]

/-- A transition is judged alike. -/
theorem judgeTransition (h : Alike pages paths s t) (elapsed : ℕ) (source : Url)
    (link : ObservedLink) (targetMatch : PageTypeMatch) (transition : DiscoveryTransition) :
    judgeTransition ctx s elapsed entry source link targetMatch transition =
      judgeTransition ctx t elapsed entry source link targetMatch transition := by
  unfold Crawl.judgeTransition checkTransitionBudget
  rw [h.budgetCandidate, h.admitted.size]

/-- An admission is decided alike. -/
theorem decideAdmission (h : Alike pages paths s t) (targetMatch : PageTypeMatch)
    (evaluated : EvaluatedTransitions) :
    decideAdmission ctx s targetMatch evaluated = decideAdmission ctx t targetMatch evaluated := by
  unfold Crawl.decideAdmission
  rw [h.admitted.size, h.pageTypeScheduled]

/-- The same unit is admitted. -/
theorem admittedEntry (h : Alike pages paths s t) (source : ObservedSource)
    (link : TraversalObservedLink) (canonical : Url)
    (admission : PageTypeId × ℕ × Option TransitionId) :
    admittedEntry ctx s entry source link canonical admission =
      admittedEntry ctx t entry source link canonical admission := by
  unfold Crawl.admittedEntry SemanticTraversal.nextOrder
  rw [h.newlyEnqueuedUrls]

/-- The same depth is found for a duplicate. -/
theorem queuedDuplicateProspectiveDepth (h : Alike pages paths s t) (sourcePageType : PageTypeId)
    (link : ObservedLink) (canonical : Url) :
    queuedDuplicateProspectiveDepth ctx entry sourcePageType s link canonical =
      queuedDuplicateProspectiveDepth ctx entry sourcePageType t link canonical := by
  unfold Crawl.queuedDuplicateProspectiveDepth
  rw [h.queued]

/-- A page meets the same limits. -/
theorem pageBudgetHits (h : Alike pages paths s t) (final : Url)
    (pageMatch : Option PageTypeMatch) :
    pageBudgetHits ctx s entry final pageMatch = pageBudgetHits ctx t entry final pageMatch := by
  have hhit : actualFinalPageTypeBudgetHit ctx s entry =
      actualFinalPageTypeBudgetHit ctx t entry := by
    funext pageType
    unfold actualFinalPageTypeBudgetHit
    rw [h.pageTypeScheduled]
  unfold Crawl.pageBudgetHits
  simp only [h.sampled final, hhit]

/-! ## Changes -/

/-- A change of the counters that reads the counters only. -/
theorem change (h : Alike pages paths s t) (f : SemanticTraversal → SemanticTraversal)
    (hf : ∀ s, (f s).bare = (f s.bare).bare) : (f s).bare = (f t).bare := by
  rw [hf s, h.bare, ← hf t]

theorem recordPaginationTruncation (h : Alike pages paths s t) (count : ℕ) :
    Alike pages paths (s.recordPaginationTruncation count) (t.recordPaginationTruncation count) :=
  { h with bare := h.change (·.recordPaginationTruncation count) fun _ => rfl }

theorem countScope (h : Alike pages paths s t) (state : PreviewUrlState) :
    Alike pages paths (s.countScope state) (t.countScope state) :=
  { h with bare := h.change (·.countScope state) fun _ => rfl }

theorem countLink (h : Alike pages paths s t) : Alike pages paths s.countLink t.countLink :=
  { h with bare := h.change (·.countLink) fun _ => rfl }

theorem hitTimeBudget (h : Alike pages paths s t) :
    Alike pages paths s.hitTimeBudget t.hitTimeBudget :=
  { h with bare := h.change (·.hitTimeBudget) fun _ => rfl }

theorem readClock (h : Alike pages paths s t) (elapsed : ℕ) :
    Alike pages paths (s.readClock ctx elapsed) (t.readClock ctx elapsed) := by
  unfold SemanticTraversal.readClock
  split
  · exact h.hitTimeBudget
  · exact h

theorem consume (h : Alike pages paths s t) (downloadedBytes : ℕ) :
    Alike pages paths (s.consume downloadedBytes) (t.consume downloadedBytes) :=
  { h with bare := h.change (·.consume downloadedBytes) fun _ => rfl }

theorem leaveUnexpanded (h : Alike pages paths s t) (observation : PageObservation)
    (canExpand : Bool) :
    Alike pages paths (s.leaveUnexpanded observation canExpand)
      (t.leaveUnexpanded observation canExpand) :=
  { h with bare := h.change (·.leaveUnexpanded observation canExpand) fun _ => rfl }

theorem pushPath (h : Alike pages paths s t) (path : DiscoveryPath) :
    Alike pages paths (s.pushPath path) (t.pushPath path) :=
  { h with
    bare := h.bare
    paths := by
      show s.paths ++ [path] = paths ++ (t.paths ++ [path])
      rw [h.paths, List.append_assoc] }

theorem see (h : Alike pages paths s t) (u : Url) :
    Alike pages paths { s with seen := s.seen.insert u } { t with seen := t.seen.insert u } :=
  { h with bare := h.bare, seen := h.seen.insert u }

theorem pop (h : Alike pages paths s t) (e : QueueEntry) :
    Alike pages paths (s.pop e) (t.pop e) :=
  { h with bare := h.bare, queued := h.queued.delete _ }

theorem mergeQueuedDuplicateProvenance (h : Alike pages paths s t) (canonical : Url)
    (seedIds : List SeedId) (depth : Option ℕ) :
    Alike pages paths (s.mergeQueuedDuplicateProvenance canonical seedIds depth)
      (t.mergeQueuedDuplicateProvenance canonical seedIds depth) :=
  { h with
    bare := h.bare
    queued := h.queued.update (fun e => e.canonicalUrl = canonical)
      (fun e => e.merge seedIds depth) fun _ => rfl }

theorem enqueue (h : Alike pages paths s t) (e : QueueEntry) (winner : PageTypeId) :
    Alike pages paths (s.enqueue e winner) (t.enqueue e winner) :=
  { h with
    bare := h.change (·.enqueue e winner) fun _ => rfl
    admitted := h.admitted.insert _
    queued := h.queued.put _ }

/-- The admission of a link, under the order that both give it. -/
theorem enqueueAdmitted (h : Alike pages paths s t) (source : ObservedSource) (link : TraversalObservedLink)
    (canonical : Url) (admission : PageTypeId × ℕ × Option TransitionId) :
    Alike pages paths
      (s.enqueue (Crawl.admittedEntry ctx s entry source link canonical admission) admission.1)
      (t.enqueue (Crawl.admittedEntry ctx t entry source link canonical admission)
        admission.1) := by
  rw [h.admittedEntry]
  exact h.enqueue _ _

/-- One more edge of a transition, from one source. -/
theorem state_consume {c d : TransitionRuntimeCount} (h : c.state = d.state) (source : Url) :
    TransitionRuntimeCount.state { c with
        eligibleEdges := c.eligibleEdges + 1, sourcePages := c.sourcePages.insert source } =
      TransitionRuntimeCount.state { d with
        eligibleEdges := d.eligibleEdges + 1, sourcePages := d.sourcePages.insert source } := by
  simp only [TransitionRuntimeCount.state, SemanticTraversalTransitionState.mk.injEq] at h ⊢
  obtain ⟨hid, hname, hedges, hsources⟩ := h
  have hsame : c.sourcePages.Same d.sourcePages := by
    intro u
    rw [← KeySet.mem_sorted, hsources, KeySet.mem_sorted]
  exact ⟨hid, hname, by rw [hedges], (hsame.insert source).sorted⟩

theorem consumeTransition (h : Alike pages paths s t) (transition : DiscoveryTransition)
    (source : Url) :
    Alike pages paths (s.consumeTransition transition source)
      (t.consumeTransition transition source) :=
  { h with
    bare := h.bare
    transitionPageCounts := by
      show (s.transitionPageCounts.put _).Same (t.transitionPageCounts.put _)
      rw [h.transitionPageCounts]
      exact h.transitionPageCounts.put _
    transitionCounts := by
      intro id
      have hfind : ∀ s : SemanticTraversal,
          (s.consumeTransition transition source).transitionCounts.find? id =
            (s.transitionCounts.find? id).map fun c =>
              if c.transitionId = transition.id then
                { c with
                  eligibleEdges := c.eligibleEdges + 1
                  sourcePages := c.sourcePages.insert source }
              else c := by
        intro s
        rw [SemanticTraversal.consumeTransition, Table.find?_update]
        simp only [decide_eq_true_eq]
      have hstates := h.transitionCounts id
      rw [hfind, hfind]
      rcases hs : s.transitionCounts.find? id with _ | c <;>
        rcases ht : t.transitionCounts.find? id with _ | d <;>
        simp only [hs, ht, Option.map_none, Option.map_some, reduceCtorEq] at hstates ⊢
      · have hstate : c.state = d.state := Option.some.inj hstates
        have hid : c.transitionId = d.transitionId :=
          congrArg SemanticTraversalTransitionState.transitionId hstate
        by_cases hkey : c.transitionId = transition.id
        · rw [if_pos hkey, if_pos (hid ▸ hkey)]
          exact congrArg some (state_consume hstate source)
        · rw [if_neg hkey, if_neg (hid ▸ hkey)]
          exact congrArg some hstate }

theorem registerMatch (h : Alike pages paths s t) (u : Url) (evidence : PageTypeMatch)
    (fromHref : Bool) :
    Alike pages paths (s.registerMatch u evidence fromHref)
      (t.registerMatch u evidence fromHref) := by
  have hdiscovered : s.pageTypeDiscovered = t.pageTypeDiscovered :=
    h.reads SemanticTraversal.pageTypeDiscovered fun _ => rfl
  have hcounts : (s.registerMatch u evidence fromHref).pageTypeDiscovered =
      (t.registerMatch u evidence fromHref).pageTypeDiscovered := by
    simp only [SemanticTraversal.registerMatch, hdiscovered, h.inScope u]
  have hbare : ∀ s : SemanticTraversal, (s.registerMatch u evidence fromHref).bare =
      { s.bare with
        pageTypeDiscovered := (s.registerMatch u evidence fromHref).pageTypeDiscovered } :=
    fun _ => rfl
  refine { h with
    bare := by rw [hbare, hbare, hcounts, h.bare]
    inScope := h.inScope.insert u, matching := ?_, unmatched := ?_, ambiguous := ?_ }
  all_goals
    simp only [SemanticTraversal.registerMatch, h.inScope u]
    split
  · exact h.matching
  · exact h.matching.insert u
  · exact h.unmatched.insert u
  · exact h.unmatched
  · exact h.ambiguous.insert u
  · exact h.ambiguous

theorem arrive (h : Alike pages paths s t) (aliasUrl final : Url) :
    Alike pages paths (s.arrive aliasUrl final) (t.arrive aliasUrl final) := by
  have hduplicates : s.duplicatesPrevented = t.duplicatesPrevented :=
    h.reads SemanticTraversal.duplicatesPrevented fun _ => rfl
  have hcount : (s.arrive aliasUrl final).duplicatesPrevented =
      (t.arrive aliasUrl final).duplicatesPrevented := by
    simp only [SemanticTraversal.arrive, hduplicates, h.seen final]
  have hbare : ∀ s : SemanticTraversal, (s.arrive aliasUrl final).bare =
      { s.bare with duplicatesPrevented := (s.arrive aliasUrl final).duplicatesPrevented } :=
    fun _ => rfl
  exact { h with
    bare := by rw [hbare, hbare, hcount, h.bare]
    seen := h.seen.insert final }

theorem dropAlias (h : Alike pages paths s t) (aliasUrl final : Url) :
    Alike pages paths (s.dropAlias aliasUrl final) (t.dropAlias aliasUrl final) :=
  { h with
    bare := h.bare
    inScope := h.inScope.remove aliasUrl
    matching := h.matching.remove aliasUrl
    unmatched := h.unmatched.remove aliasUrl
    ambiguous := h.ambiguous.remove aliasUrl
    queued := h.queued.delete _ }

theorem sample (h : Alike pages paths s t) (final : Url) (pageMatch : Option PageTypeMatch)
    (state : PreviewUrlState) :
    Alike pages paths (s.sample final pageMatch state) (t.sample final pageMatch state) := by
  unfold SemanticTraversal.sample
  simp only [h.sampled final]
  split
  · exact h
  · exact { h with
      bare := h.change
        (fun s => { s.countScope state with
          pageTypeSampled := (pageMatch.bind PageTypeMatch.winner).elim s.pageTypeSampled
            s.pageTypeSampled.increment
          pagesSampled := s.pagesSampled + 1 }) fun _ => rfl
      sampled := h.sampled.insert final }

/-- A page at the end of the report, with whatever becomes of the roots. -/
theorem report (h : Alike pages paths s t) (page : DiscoveryPreviewPage)
    (seeds seeds' : List DiscoveryPreviewSeed) :
    Alike pages paths { s with seeds := seeds, pages := s.pages ++ [page] }
      { t with seeds := seeds', pages := t.pages ++ [page] } :=
  { h with
    bare := h.bare
    pages := by
      show s.pages ++ [page] = pages ++ (t.pages ++ [page])
      rw [h.pages, List.append_assoc] }

end Alike

/-! ## Links -/

/-- Alike traversals, with room for the paths of `n` more links in the longer
report. -/
structure Abreast (pages : List DiscoveryPreviewPage) (paths : List DiscoveryPath) (n : ℕ)
    (s t : SemanticTraversal) : Prop where
  alike : Alike pages paths s t
  room : paths = [] ∨ s.paths.length + n ≤ maxPreviewProvenanceEdges

section Links

variable {n : ℕ} {source : ObservedSource} {sourceMatch : PageTypeMatch}
  {sourcePageType : PageTypeId} {canonical : Url}

/-- A path takes one place of the room. -/
theorem Abreast.pushPath (h : Abreast pages paths (n + 1) s t) (path : DiscoveryPath) :
    Abreast pages paths n (s.pushPath path) (t.pushPath path) where
  alike := h.alike.pushPath path
  room := by
    refine h.room.imp_right fun hroom => ?_
    show (s.paths ++ [path]).length + n ≤ _
    rw [List.length_append, List.length_singleton]
    omega

/-- Both reports are full, or neither is. -/
theorem Abreast.full_iff (h : Abreast pages paths (n + 1) s t) :
    maxPreviewProvenanceEdges ≤ s.paths.length ↔ maxPreviewProvenanceEdges ≤ t.paths.length := by
  have hlength : s.paths.length = paths.length + t.paths.length := by
    rw [h.alike.paths, List.length_append]
  rcases h.room with rfl | hroom
  · rw [hlength, List.length_nil, Nat.zero_add]
  · constructor <;> intro hfull <;> omega

/-- A transition is evaluated alike. -/
theorem evaluateTransition_coupled {link : ObservedLink} {targetMatch : PageTypeMatch} {src : Url}
    {acc : EvaluatedTransitions} {transition : DiscoveryTransition}
    (h : Abreast pages paths n s t) :
    Coupled (Abreast pages paths n)
      (evaluateTransition ctx readings entry src link canonical targetMatch acc transition s)
      (evaluateTransition ctx readings entry src link canonical targetMatch acc transition t) := by
  unfold evaluateTransition
  rw [read_bind, read_bind, h.alike.judgeTransition]
  refine .lift_bind fun judgement _ => ?_
  cases hel : judgement.isEligible with
  | true => exact .returned _ ⟨h.alike.consumeTransition transition src, h.room⟩
  | false => exact .returned _ h

theorem evaluateTransitions_coupled {link : ObservedLink} {targetMatch : PageTypeMatch} {src : Url}
    {acc : EvaluatedTransitions} {transitions : List DiscoveryTransition}
    (h : Abreast pages paths n s t) :
    Coupled (Abreast pages paths n)
      (foldEach (evaluateTransition ctx readings entry src link canonical targetMatch) acc
        transitions s)
      (foldEach (evaluateTransition ctx readings entry src link canonical targetMatch) acc
        transitions t) :=
  Coupled.foldEach (R := fun _ => Abreast pages paths n)
    (f := evaluateTransition ctx readings entry src link canonical targetMatch)
    (fun _ _ _ _ _ hround => evaluateTransition_coupled hround) h

/-- An invalid link is expanded alike. -/
theorem expandInvalid_coupled {link : ObservedLink} (h : Abreast pages paths (n + 1) s t) :
    Coupled (Abreast pages paths n) (expandInvalid entry source sourceMatch link s)
      (expandInvalid entry source sourceMatch link t) := by
  unfold expandInvalid
  exact .lift_bind fun path _ => .returned () (h.pushPath path)

/-- A change of the counters, on the way to a path. -/
theorem Abreast.duplicate (h : Abreast pages paths n s t) :
    Abreast pages paths n { s with duplicatesPrevented := s.duplicatesPrevented + 1 }
      { t with duplicatesPrevented := t.duplicatesPrevented + 1 } :=
  ⟨{ h.alike with
      bare := h.alike.change
        (fun s => { s with duplicatesPrevented := s.duplicatesPrevented + 1 }) fun _ => rfl },
    h.room⟩

/-- A link out of scope is expanded alike. -/
theorem expandOutOfScope_coupled {link : ObservedLink} {resolved : Url}
    {scope : DomainScopeStatus} {unique : Bool} (h : Abreast pages paths (n + 1) s t) :
    Coupled (Abreast pages paths n)
      (expandOutOfScope entry source sourceMatch link resolved canonical scope unique s)
      (expandOutOfScope entry source sourceMatch link resolved canonical scope unique t) := by
  unfold expandOutOfScope
  rw [write_bind, write_bind]
  cases unique with
  | true =>
    exact .lift_bind fun path _ =>
      .returned () (Abreast.pushPath ⟨h.alike.countScope _, h.room⟩ path)
  | false => exact .lift_bind fun path _ => .returned () (h.duplicate.pushPath path)

/-- A link met before is expanded alike. -/
theorem expandDuplicate_coupled {link : ObservedLink} {resolved : Url}
    {scope : DomainScopeStatus} (h : Abreast pages paths (n + 1) s t) :
    Coupled (Abreast pages paths n)
      (expandDuplicate ctx entry source sourceMatch sourcePageType link resolved canonical scope s)
      (expandDuplicate ctx entry source sourceMatch sourcePageType link resolved canonical scope
        t) := by
  unfold expandDuplicate
  rw [write_bind, write_bind, read_bind, read_bind, h.duplicate.alike.queuedDuplicateProspectiveDepth]
  have hsampled : canonical ∈ s.sampled ↔ canonical ∈ t.sampled := h.alike.sampled canonical
  simp only [hsampled]
  refine .lift_bind fun depth _ => ?_
  rw [write_bind, write_bind]
  refine .lift_bind fun path _ => .returned () (Abreast.pushPath ?_ _)
  by_cases hmem : canonical ∈ t.sampled
  · simp only [hsampled, hmem, if_true]
    exact h.duplicate
  · simp only [hsampled, hmem, if_false]
    exact ⟨h.duplicate.alike.mergeQueuedDuplicateProvenance _ _ _, h.room⟩

/-- A new link is expanded alike. -/
theorem expandNew_coupled {link : TraversalObservedLink} {resolved : Url}
    {scope : DomainScopeStatus} {newFromPage : ℕ} (h : Abreast pages paths (n + 1) s t) :
    Coupled (Abreast pages paths n)
      (expandNew ctx readings entry source sourceMatch sourcePageType link resolved canonical
        scope newFromPage s)
      (expandNew ctx readings entry source sourceMatch sourcePageType link resolved canonical
        scope newFromPage t) := by
  unfold expandNew
  rw [write_bind, write_bind]
  have hmet : Abreast pages paths (n + 1)
      (s.registerMatch canonical (ctx.resolvePageType canonical) true)
      (t.registerMatch canonical (ctx.resolvePageType canonical) true) :=
    ⟨h.alike.registerMatch _ _ _, h.room⟩
  refine Coupled.bind (evaluateTransitions_coupled hmet) fun evaluated s₁ t₁ h₁ => ?_
  rw [read_bind, read_bind, write_bind, write_bind, h₁.alike.decideAdmission]
  refine .lift_bind fun path _ => ?_
  rw [write_bind, write_bind]
  have hpushed := Abreast.pushPath (n := n) (s := s₁.recordPaginationTruncation _)
    (t := t₁.recordPaginationTruncation _)
    ⟨h₁.alike.recordPaginationTruncation
      (if link.isPagination ∧ (decideAdmission ctx t₁ (ctx.resolvePageType canonical)
        evaluated).state = .budgetExcluded then 1 else 0), h₁.room⟩
    (newPath ctx path canonical evaluated
      (decideAdmission ctx t₁ (ctx.resolvePageType canonical) evaluated))
  cases (decideAdmission ctx t₁ (ctx.resolvePageType canonical) evaluated).admission with
  | none => exact .returned _ hpushed
  | some admission =>
    exact .returned _ ⟨hpushed.alike.enqueueAdmitted source link canonical admission, hpushed.room⟩

theorem expandLink_coupled {link : TraversalObservedLink} {newFromPage : ℕ}
    (h : Abreast pages paths (n + 1) s t) :
    Coupled (Abreast pages paths n)
      (expandLink ctx readings entry source sourceMatch sourcePageType newFromPage link s)
      (expandLink ctx readings entry source sourceMatch sourcePageType newFromPage link t) := by
  have hcount : Abreast pages paths (n + 1) s.countLink t.countLink := ⟨h.alike.countLink, h.room⟩
  have hfull := h.full_iff
  unfold expandLink
  rw [write_bind, write_bind, read_bind, read_bind]
  by_cases hs : maxPreviewProvenanceEdges ≤ s.paths.length
  · simp only [ge_iff_le, hs, hfull.mp hs, if_true, write_bind, pure_apply]
    exact .returned _ ⟨hcount.alike.recordPaginationTruncation _,
      hcount.room.imp_right (Nat.le_of_succ_le)⟩
  have ht : ¬ maxPreviewProvenanceEdges ≤ t.paths.length := fun ht => hs (hfull.mpr ht)
  simp only [ge_iff_le, hs, ht, if_false]
  rcases resolveHref ctx source.base link.link.rawHref with _ | ⟨resolved, canonical⟩
  · exact (expandInvalid_coupled hcount).bind fun _ _ _ h₁ => .returned _ h₁
  refine .lift_bind fun scope _ => ?_
  rw [write_bind, write_bind]
  have hseen : canonical ∈ s.seen ↔ canonical ∈ t.seen := h.alike.seen canonical
  have hsee : Abreast pages paths (n + 1) { s.countLink with seen := s.seen.insert canonical }
      { t.countLink with seen := t.seen.insert canonical } := ⟨hcount.alike.see canonical, h.room⟩
  simp only [hseen]
  split
  · exact (expandOutOfScope_coupled hsee).bind fun _ _ _ h₁ => .returned _ h₁
  · split
    · exact (expandDuplicate_coupled hsee).bind fun _ _ _ h₁ => .returned _ h₁
    · exact expandNew_coupled hsee

/-- The links of a page, with room for their paths. -/
theorem expandLinks_coupled {links : List TraversalObservedLink} {newFromPage : ℕ}
    (h : Abreast pages paths links.length s t) :
    Coupled (Abreast pages paths 0)
      (foldEach (expandLink ctx readings entry source sourceMatch sourcePageType) newFromPage
        links s)
      (foldEach (expandLink ctx readings entry source sourceMatch sourcePageType) newFromPage
        links t) :=
  Coupled.foldEach (R := fun links => Abreast pages paths links.length)
    (f := expandLink ctx readings entry source sourceMatch sourcePageType)
    (fun _ _ _ _ _ hround => expandLink_coupled hround) h

end Links

end Erabi.Crawl

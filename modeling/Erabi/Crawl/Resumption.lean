/-
# Steps of alike traversals

Two alike traversals that get the same answers take the same steps, as long as no
link of a page is dropped because the longer report is full.
-/
import Erabi.Crawl.Alike

namespace Erabi.Crawl

open Relational Transaction

variable {ctx : TraversalContext} {readings : ClockReadings} {entry : QueueEntry}
  {pages : List DiscoveryPreviewPage} {paths : List DiscoveryPath} {s t : SemanticTraversal}

/-! ## Room for the paths of a page -/

/-- The links that the step to an observation looks at: those of a page that is
expanded. -/
def expandedLinks (ctx : TraversalContext) (readings : ClockReadings) (s : SemanticTraversal)
    (entry : QueueEntry) (observation : PageObservation) : List TraversalObservedLink :=
  (ctx.canonicalize observation.finalOriginal).elim [] fun final =>
    if readings.beforeExpansion < ctx.limits.maxDurationMs ∧
        sourceCanExpand ((ctx.classify final).getD .blocked)
          (some (ctx.resolvePageType final)) = true ∧
        pageBudgetHits ctx s entry final (some (ctx.resolvePageType final)) = [] ∧
        final ∉ s.expanded then observation.links
    else []

/-- Every link that the answer makes the step look at leaves a path. -/
def HasRoom (ctx : TraversalContext) (readings : ClockReadings) (s : SemanticTraversal) :
    ProviderOutcome → Prop
  | .observed observation _ => ∀ entry ∈ s.queue.head?,
      s.paths.length + (expandedLinks ctx readings s entry observation).length ≤
        maxPreviewProvenanceEdges
  | .robotsExcluded _ | .pageFailed _ | .interrupted _ | .unavailable => True

instance (ctx : TraversalContext) (readings : ClockReadings) (s : SemanticTraversal)
    (outcome : ProviderOutcome) : Decidable (HasRoom ctx readings s outcome) :=
  match outcome with
  | .observed observation _ => inferInstanceAs (Decidable (∀ entry ∈ s.queue.head?,
      s.paths.length + (expandedLinks ctx readings s entry observation).length ≤
        maxPreviewProvenanceEdges))
  | .robotsExcluded _ | .pageFailed _ | .interrupted _ | .unavailable => isTrue trivial

/-! ## Redirects -/

/-- A scheduled page type is released alike. -/
theorem releaseScheduled_coupled {target : Option PageTypeId} (h : Alike pages paths s t) :
    Coupled (Alike pages paths) (releaseScheduled target s) (releaseScheduled target t) := by
  cases target with
  | none => exact .returned () h
  | some pageType =>
    unfold releaseScheduled
    simp only [read_bind]
    rw [h.pageTypeScheduled]
    refine .orFail_bind fun scheduled _ => .require_bind Iff.rfl fun _ => .returned () ?_
    exact { h with
      bare := h.change
        (fun s => { s with
          pageTypeScheduled := Function.update s.pageTypeScheduled pageType
            (some (scheduled - 1)) }) fun _ => rfl }

/-- An admission is moved alike. -/
theorem moveAdmission_coupled {final : Url} (h : Alike pages paths s t) :
    Coupled (Alike pages paths) (moveAdmission entry final s) (moveAdmission entry final t) := by
  unfold moveAdmission
  rw [read_bind, read_bind]
  simp only [h.admitted entry.canonicalUrl, h.admitted final]
  have hmoved : Alike pages paths
      { s with admitted := (s.admitted.remove entry.canonicalUrl).insert final }
      { t with admitted := (t.admitted.remove entry.canonicalUrl).insert final } :=
    { h with bare := h.bare, admitted := (h.admitted.remove _).insert _ }
  split
  · rw [write_bind, write_bind]
    split
    · rw [write_bind, write_bind]
      refine releaseScheduled_coupled ?_
      exact { hmoved with
        bare := hmoved.change
          (fun s => { s with newlyEnqueuedUrls := s.newlyEnqueuedUrls - 1 }) fun _ => rfl }
    · exact .returned () hmoved
  · exact .returned () h

/-- A final URL is reconciled alike. -/
theorem reconcileFinal_coupled {final : Url} (h : Alike pages paths s t) :
    Coupled (Alike pages paths) (reconcileFinal entry final s) (reconcileFinal entry final t) := by
  unfold reconcileFinal
  rw [write_bind, write_bind]
  split
  · exact (moveAdmission_coupled (h.arrive _ _)).bind fun _ _ _ h₁ =>
      .returned () (h₁.dropAlias _ _)
  · exact .returned () (h.arrive _ _)

/-- What a redirect leaves of what the expansion of the page depends on. -/
structure Undecided (entry : QueueEntry) (s s' : SemanticTraversal) : Prop where
  paths : s'.paths = s.paths
  sampled : s'.sampled = s.sampled
  expanded : s'.expanded = s.expanded
  scheduled : ∀ pageType, entry.targetPageTypeId ≠ some pageType →
    s'.pageTypeScheduled pageType = s.pageTypeScheduled pageType

theorem Undecided.of_eq {s' : SemanticTraversal} (hpaths : s'.paths = s.paths)
    (hsampled : s'.sampled = s.sampled) (hexpanded : s'.expanded = s.expanded)
    (hscheduled : s'.pageTypeScheduled = s.pageTypeScheduled) : Undecided entry s s' :=
  ⟨hpaths, hsampled, hexpanded, fun _ _ => by rw [hscheduled]⟩

theorem Undecided.trans {s₁ s₂ s₃ : SemanticTraversal} (h₁ : Undecided entry s₁ s₂)
    (h₂ : Undecided entry s₂ s₃) : Undecided entry s₁ s₃ where
  paths := h₂.paths.trans h₁.paths
  sampled := h₂.sampled.trans h₁.sampled
  expanded := h₂.expanded.trans h₁.expanded
  scheduled pageType hne := (h₂.scheduled pageType hne).trans (h₁.scheduled pageType hne)

/-- Releasing a page type is such a step. -/
theorem releaseScheduled_undecided {s' : SemanticTraversal} {u : Unit}
    (h : releaseScheduled entry.targetPageTypeId s = .ok (u, s')) : Undecided entry s s' := by
  rcases htarget : entry.targetPageTypeId with _ | target
  · rw [htarget] at h
    cases h
    exact .of_eq rfl rfl rfl rfl
  · rw [htarget, releaseScheduled] at h
    simp only [read_bind] at h
    obtain ⟨scheduled, _, h⟩ := orFail_bind_eq_ok.mp h
    obtain ⟨_, h⟩ := require_bind_eq_ok.mp h
    cases h
    refine ⟨rfl, rfl, rfl, fun pageType hne => ?_⟩
    have hother : pageType ≠ target := by
      rintro rfl
      exact hne htarget
    exact Function.update_of_ne hother _ _

/-- Moving an admission is such a step. -/
theorem moveAdmission_undecided {final : Url} {s' : SemanticTraversal} {u : Unit}
    (h : moveAdmission entry final s = .ok (u, s')) : Undecided entry s s' := by
  rw [moveAdmission, read_bind] at h
  split at h
  · rw [write_bind] at h
    split at h
    · rw [write_bind] at h
      have hreleased := releaseScheduled_undecided h
      exact ⟨hreleased.paths, hreleased.sampled, hreleased.expanded, hreleased.scheduled⟩
    · cases h
      exact .of_eq rfl rfl rfl rfl
  · cases h
    exact .of_eq rfl rfl rfl rfl

/-- Reconciling a final URL is such a step. -/
theorem reconcileFinal_undecided {final : Url} {s' : SemanticTraversal} {u : Unit}
    (h : reconcileFinal entry final s = .ok (u, s')) : Undecided entry s s' := by
  have harrive : Undecided entry s (s.arrive entry.canonicalUrl final) := .of_eq rfl rfl rfl rfl
  rw [reconcileFinal, write_bind] at h
  split at h
  · obtain ⟨_, s₁, hmoved, h⟩ := bind_eq_ok.mp h
    cases h
    exact (harrive.trans (moveAdmission_undecided hmoved)).trans (.of_eq rfl rfl rfl rfl)
  · cases h
    exact harrive

/-- The budget hits of a final URL are known before the redirect. -/
theorem Undecided.pageBudgetHits {s' : SemanticTraversal} (h : Undecided entry s s') (final : Url)
    (pageMatch : Option PageTypeMatch) :
    pageBudgetHits ctx s' entry final pageMatch = pageBudgetHits ctx s entry final pageMatch := by
  have hhit : actualFinalPageTypeBudgetHit ctx s' entry =
      actualFinalPageTypeBudgetHit ctx s entry := by
    funext pageType
    unfold actualFinalPageTypeBudgetHit
    split
    · rfl
    · rename_i hne
      rw [h.scheduled pageType hne]
  unfold Crawl.pageBudgetHits
  rw [h.sampled, hhit]

/-! ## Pages -/

/-- The links of a page are expanded alike while paths fit. -/
theorem expandPage_coupled {observation : PageObservation} {source : ObservedSource}
    {sourceMatch : PageTypeMatch} (h : Abreast pages paths observation.links.length s t) :
    Coupled (Alike pages paths) (expandPage ctx readings entry observation source sourceMatch s)
      (expandPage ctx readings entry observation source sourceMatch t) := by
  unfold expandPage
  rw [read_bind, read_bind]
  simp only [h.alike.expanded source.canonical]
  have hexpanded : Abreast pages paths observation.links.length
      { s with expanded := s.expanded.insert source.canonical }
      { t with expanded := t.expanded.insert source.canonical } :=
    ⟨{ h.alike with bare := h.alike.bare, expanded := h.alike.expanded.insert _ }, h.room⟩
  split
  · exact .returned () h.alike
  rw [write_bind, write_bind]
  cases sourceMatch.winner with
  | none => exact .returned () hexpanded.alike
  | some sourcePageType =>
    refine .require_bind Iff.rfl fun _ => (expandLinks_coupled hexpanded).bind fun n s₁ t₁ h₁ =>
      .returned () ?_
    exact { h₁.alike with
      bare := h₁.alike.change
        (fun s => { s with peakNewFromPage := max s.peakNewFromPage n }) fun _ => rfl }

theorem expandObservation_coupled {observation : PageObservation} {final : Url}
    {scope : DomainScopeStatus} {pageMatch : Option PageTypeMatch}
    {hits : List PreviewBudgetHit} (h : Alike pages paths s t)
    (hroom : readings.beforeExpansion < ctx.limits.maxDurationMs →
      sourceCanExpand scope pageMatch = true → hits = [] → final ∉ s.expanded →
      paths = [] ∨ s.paths.length + observation.links.length ≤ maxPreviewProvenanceEdges) :
    Coupled (Alike pages paths)
      (expandObservation ctx readings entry observation final scope pageMatch hits s)
      (expandObservation ctx readings entry observation final scope pageMatch hits t) := by
  unfold expandObservation
  rw [write_bind, write_bind, read_bind, read_bind]
  generalize (if sourceCanExpand scope pageMatch then observation.targetlessPaginationCount
    else 0) = count
  have hcounted := h.recordPaginationTruncation count
  split
  · exact .returned () (hcounted.leaveUnexpanded observation _)
  rename_i htime
  split
  · exact .returned () (hcounted.recordPaginationTruncation _)
  simp only [hcounted.expanded final]
  split
  · rename_i hexpand
    rcases pageMatch with _ | sourceMatch
    · exact .returned () hcounted
    · refine expandPage_coupled ⟨hcounted, ?_⟩
      exact hroom (not_le.mp htime) hexpand.2.1 hexpand.1
        fun hmem => hexpand.2.2 ((hcounted.expanded final).mp hmem)
  · exact .returned () hcounted

/-- An observation is accepted alike. -/
theorem acceptObservation_coupled {observation : PageObservation} {downloadedBytes : ℕ}
    (h : Alike pages paths s t) :
    Coupled (Alike pages paths) (acceptObservation ctx entry observation downloadedBytes s)
      (acceptObservation ctx entry observation downloadedBytes t) := by
  unfold acceptObservation
  refine .require_bind Iff.rfl fun _ => ?_
  rw [read_bind, read_bind, h.consumedBytes]
  exact .require_bind Iff.rfl fun _ => .require_bind Iff.rfl fun _ =>
    .require_bind Iff.rfl fun _ => .returned () (h.consume downloadedBytes)

theorem Alike.registerObserved (h : Alike pages paths s t) (final : Url)
    (pageMatch : Option PageTypeMatch) :
    Alike pages paths (s.registerObserved final pageMatch)
      (t.registerObserved final pageMatch) := by
  cases pageMatch with
  | none => exact h
  | some evidence => exact h.registerMatch final evidence false

theorem Alike.recordPage (h : Alike pages paths s t) (final : Url) (observation : PageObservation)
    (downloadedBytes : ℕ) (scope : DomainScopeStatus) (pageMatch : Option PageTypeMatch)
    (hits : List PreviewBudgetHit) :
    Alike pages paths
      (s.recordPage entry final observation downloadedBytes scope pageMatch hits)
      (t.recordPage entry final observation downloadedBytes scope pageMatch hits) :=
  h.report _ _ _

/-- Registering a match is such a step. -/
theorem registerObserved_undecided (s : SemanticTraversal) (final : Url)
    (pageMatch : Option PageTypeMatch) :
    Undecided entry s (s.registerObserved final pageMatch) := by
  cases pageMatch with
  | none => exact .of_eq rfl rfl rfl rfl
  | some evidence => exact .of_eq rfl rfl rfl rfl

/-- Sampling leaves the paths and the expanded pages. -/
theorem sample_report (s : SemanticTraversal) (final : Url) (pageMatch : Option PageTypeMatch)
    (state : PreviewUrlState) : (s.sample final pageMatch state).paths = s.paths ∧
      (s.sample final pageMatch state).expanded = s.expanded := by
  unfold SemanticTraversal.sample
  split
  · exact ⟨rfl, rfl⟩
  · exact ⟨rfl, rfl⟩

/-- A page is observed alike. -/
theorem Alike.observe (h : Alike pages paths s t) (final : Url) (observation : PageObservation)
    (downloadedBytes : ℕ) (scope : DomainScopeStatus) :
    Alike pages paths (s.observe ctx entry final observation downloadedBytes scope)
      (t.observe ctx entry final observation downloadedBytes scope) := by
  have hregistered := h.registerObserved final (observedMatch ctx final scope)
  unfold SemanticTraversal.observe
  dsimp only
  rw [hregistered.pageBudgetHits]
  exact (hregistered.sample _ _ _).recordPage _ _ _ _ _ _

/-- The page that the redirect leads to is expanded with all its links when it is
expanded at all. -/
theorem expandedLinks_of_expanded {observation : PageObservation} {final : Url}
    {scope : DomainScopeStatus} {s' : SemanticTraversal} (h : Undecided entry s s')
    (hfinal : ctx.canonicalize observation.finalOriginal = some final)
    (hscope : ctx.classify final = some scope)
    (htime : readings.beforeExpansion < ctx.limits.maxDurationMs)
    (hcan : sourceCanExpand scope (observedMatch ctx final scope) = true)
    (hits : Crawl.pageBudgetHits ctx s' entry final (observedMatch ctx final scope) = [])
    (hnew : final ∉ s'.expanded) :
    expandedLinks ctx readings s entry observation = observation.links := by
  have hin : scope = .inScope := by
    rw [sourceCanExpand, Bool.and_eq_true, decide_eq_true_eq] at hcan
    exact hcan.1
  subst hin
  rw [observedMatch, if_pos rfl] at hcan hits
  rw [h.pageBudgetHits] at hits
  rw [h.expanded] at hnew
  simp only [expandedLinks, hfinal, Option.elim_some, hscope, Option.getD_some]
  rw [if_pos ⟨htime, hcan, hits, hnew⟩]

/-- An observation is processed alike while paths fit. -/
theorem processObservation_coupled {observation : PageObservation} {downloadedBytes : ℕ}
    (h : Alike pages paths s t)
    (hroom : paths = [] ∨ s.paths.length +
      (expandedLinks ctx readings s entry observation).length ≤ maxPreviewProvenanceEdges) :
    Coupled (Alike pages paths) (processObservation ctx readings entry observation downloadedBytes s)
      (processObservation ctx readings entry observation downloadedBytes t) := by
  unfold processObservation
  have haccepted : Coupled (fun s₁ t₁ => Alike pages paths s₁ t₁ ∧ Undecided entry s s₁)
      (acceptObservation ctx entry observation downloadedBytes s)
      (acceptObservation ctx entry observation downloadedBytes t) :=
    (acceptObservation_coupled h).and fun _ s₁ hs₁ => by
      obtain ⟨_, rfl⟩ := acceptObservation_eq_ok hs₁
      exact .of_eq rfl rfl rfl rfl
  refine haccepted.bind fun _ s₁ t₁ h₁ => .orFail_bind fun final hfinal => ?_
  have hreconciled : Coupled (fun s₂ t₂ => Alike pages paths s₂ t₂ ∧ Undecided entry s s₂)
      (reconcileFinal entry final s₁) (reconcileFinal entry final t₁) :=
    (reconcileFinal_coupled h₁.1).and fun _ _ hs₂ => h₁.2.trans (reconcileFinal_undecided hs₂)
  refine hreconciled.bind fun _ s₂ t₂ h₂ => .orFail_bind fun scope hscope => ?_
  have hknown := h₂.2.trans
    (registerObserved_undecided s₂ final (observedMatch ctx final scope))
  have hregistered := h₂.1.registerObserved final (observedMatch ctx final scope)
  show Coupled _
    (expandObservation ctx readings entry observation final scope (observedMatch ctx final scope)
      (pageBudgetHits ctx (s₂.registerObserved final (observedMatch ctx final scope)) entry final
        (observedMatch ctx final scope))
      (s₂.observe ctx entry final observation downloadedBytes scope))
    (expandObservation ctx readings entry observation final scope (observedMatch ctx final scope)
      (pageBudgetHits ctx (t₂.registerObserved final (observedMatch ctx final scope)) entry final
        (observedMatch ctx final scope))
      (t₂.observe ctx entry final observation downloadedBytes scope))
  rw [← hregistered.pageBudgetHits]
  refine expandObservation_coupled (h₂.1.observe _ _ _ _) fun htime hcan hits hnew => ?_
  obtain ⟨hpaths, hexpanded⟩ := sample_report
    (s₂.registerObserved final (observedMatch ctx final scope)) final
    (observedMatch ctx final scope) (pageState scope (observedMatch ctx final scope))
  rw [← expandedLinks_of_expanded hknown hfinal hscope htime hcan hits
    (fun hmem => hnew (hexpanded.symm ▸ hmem))]
  rw [← hknown.paths, ← hpaths] at hroom
  exact hroom

/-! ## Steps -/

theorem recordUnobserved_coupled {state : PreviewUrlState} {reason : Option Text}
    {diagnostic : Option TestDiagnostic} (h : Alike pages paths s t) :
    Coupled (Alike pages paths) (recordUnobserved ctx entry state reason diagnostic s)
      (recordUnobserved ctx entry state reason diagnostic t) := by
  unfold recordUnobserved
  exact .lift_bind fun scope _ => .returned () (h.report _ _ _)

theorem processOutcome_coupled {outcome : ProviderOutcome} (h : Alike pages paths s t)
    (hroom : ∀ observation downloadedBytes, outcome = .observed observation downloadedBytes →
      paths = [] ∨ s.paths.length +
        (expandedLinks ctx readings s entry observation).length ≤ maxPreviewProvenanceEdges) :
    Coupled (Alike pages paths) (processOutcome ctx readings entry outcome s)
      (processOutcome ctx readings entry outcome t) := by
  cases outcome with
  | observed observation downloadedBytes =>
    exact processObservation_coupled h (hroom _ _ rfl)
  | robotsExcluded reason =>
    refine .require_bind Iff.rfl fun _ => ?_
    rw [write_bind, write_bind]
    exact recordUnobserved_coupled { h with
      bare := h.change (fun s => { s with robotsExcluded := s.robotsExcluded + 1 }) fun _ => rfl }
  | pageFailed diagnostic =>
    refine .require_bind Iff.rfl fun _ => ?_
    rw [write_bind, write_bind]
    exact recordUnobserved_coupled { h with
      bare := h.change (fun s => { s with providerErrors := s.providerErrors + 1 }) fun _ => rfl }
  | interrupted reason => exact .failed _
  | unavailable => exact .failed _

/-- What is added for one answer is the same for both. -/
theorem answer_coupled {outcome : ProviderOutcome} {rest : List QueueEntry}
    (hqueue : s.queue = entry :: rest) (h : Alike pages paths s t)
    (hroom : paths = [] ∨ HasRoom ctx readings s outcome) :
    Coupled (Alike pages paths) (answer ctx readings entry outcome s)
      (answer ctx readings entry outcome t) := by
  unfold answer
  rw [read_bind, read_bind, write_bind, write_bind]
  have hread : Alike pages paths ((s.pop entry).readClock ctx readings.afterProvider)
      ((t.pop entry).readClock ctx readings.afterProvider) := (h.pop entry).readClock _
  refine (processOutcome_coupled hread fun observation downloadedBytes houtcome => ?_).bind
    fun _ s₁ t₁ h₁ => ?_
  · refine hroom.imp_right fun hroom => ?_
    subst houtcome
    have hlinks := hroom entry (by rw [hqueue]; rfl)
    have hpaths : ((s.pop entry).readClock ctx readings.afterProvider).paths = s.paths := by
      unfold SemanticTraversal.readClock
      split <;> rfl
    have hsame : expandedLinks ctx readings ((s.pop entry).readClock ctx readings.afterProvider)
        entry observation = expandedLinks ctx readings s entry observation := by
      unfold SemanticTraversal.readClock
      split <;> rfl
    rw [hpaths, hsame]
    exact hlinks
  · have hpages : s₁.pages.drop s.pages.length = t₁.pages.drop t.pages.length := by
      rw [h₁.pages, h.pages, List.length_append, List.drop_append]
      simp
    have hpaths : s₁.paths.drop s.paths.length = t₁.paths.drop t.paths.length := by
      rw [h₁.paths, h.paths, List.length_append, List.drop_append]
      simp
    rw [read_bind, read_bind, hpages, hpaths]
    exact .returned _ h₁

/-- Steps on alike states are alike while paths fit. -/
theorem step_coupled {outcome : ProviderOutcome} (h : Alike pages paths s t)
    (hroom : paths = [] ∨ HasRoom ctx readings s outcome) :
    Coupled (Alike pages paths) (step ctx readings outcome s) (step ctx readings outcome t) := by
  unfold step
  rw [read_bind, read_bind, ← h.queue, h.consumedBytes]
  rcases hqueue : s.queue with _ | ⟨first, rest⟩
  · exact .returned _ h
  dsimp only
  split
  · exact .returned _ h.hitTimeBudget
  split
  · exact .returned _ h
  cases outcome with
  | unavailable => exact .failed _
  | interrupted reason => exact .returned _ h
  | observed observation downloadedBytes => exact answer_coupled hqueue h hroom
  | robotsExcluded reason => exact answer_coupled hqueue h hroom
  | pageFailed diagnostic => exact answer_coupled hqueue h hroom

/-! ## Checkpoints of alike traversals -/

/-- Page counts are ordered by transition and page. -/
theorem TransitionPageCount.before_iff {a b : TransitionPageCount} : a.before b = true ↔
    toLex (a.transitionId, a.source) ≤ toLex (b.transitionId, b.source) := by
  simp [before, Prod.Lex.toLex_le_toLex]

instance : Std.Total fun a b : TransitionPageCount => a.before b = true where
  total a b := by
    rw [TransitionPageCount.before_iff, TransitionPageCount.before_iff]
    exact le_total _ _

instance : IsTrans TransitionPageCount fun a b => a.before b = true where
  trans _ _ _ hab hbc := TransitionPageCount.before_iff.mpr
    ((TransitionPageCount.before_iff.mp hab).trans (TransitionPageCount.before_iff.mp hbc))

/-- The exported counts of the transitions, each under its transition. -/
def SemanticTraversal.transitionStates (s : SemanticTraversal) :
    Table SemanticTraversalTransitionState TransitionId
      SemanticTraversalTransitionState.transitionId :=
  s.transitionCounts.map TransitionRuntimeCount.state fun _ => rfl

/-- The state of a transition among those exported. -/
theorem find?_transitionStates (s : SemanticTraversal) (id : TransitionId) :
    s.transitionStates.find? id =
      (s.transitionCounts.find? id).map TransitionRuntimeCount.state :=
  Table.find?_map _ _ _ _

/-- Sorting before or after export is the same. -/
theorem sortedStates_eq (s : SemanticTraversal) :
    (s.transitionCounts.rows.insertionSort fun a b => a.transitionId ≤ b.transitionId).map
        TransitionRuntimeCount.state =
      s.transitionStates.rows.insertionSort fun a b => a.transitionId ≤ b.transitionId :=
  List.map_insertionSort _ _ _ _ fun _ _ _ _ => Iff.rfl

instance : Std.Total fun a b : SemanticTraversalTransitionState =>
    a.transitionId ≤ b.transitionId where
  total a b := le_total a.transitionId b.transitionId

instance : IsTrans SemanticTraversalTransitionState fun a b =>
    a.transitionId ≤ b.transitionId where
  trans _ _ _ hab hbc := le_trans hab hbc

/-- Alike states export the same transition states. -/
theorem Alike.transitionStates (h : Alike pages paths s t) :
    s.transitionStates.Same t.transitionStates := by
  intro id
  rw [find?_transitionStates, find?_transitionStates, h.transitionCounts]

/-- Alike traversals export the same checkpoint. -/
theorem Alike.checkpointState (h : Alike pages paths s t) (elapsed : ℕ) :
    checkpointState ctx s elapsed = checkpointState ctx t elapsed := by
  have hstates := h.transitionStates.sort (fun a b => a.transitionId ≤ b.transitionId)
    fun a b hab hba => le_antisymm hab hba
  have hcounts := h.transitionPageCounts.sort (fun a b => a.before b = true) fun a b hab hba =>
    toLex.injective (le_antisymm (TransitionPageCount.before_iff.mp hab)
      (TransitionPageCount.before_iff.mp hba))
  have hbare : Crawl.checkpointState ctx s.bare elapsed = Crawl.checkpointState ctx t.bare elapsed := by
    rw [h.bare]
  have hexport : ∀ s : SemanticTraversal, Crawl.checkpointState ctx s elapsed =
      { Crawl.checkpointState ctx s.bare elapsed with
        pending := s.queue
        admittedCanonicalUrls := s.admitted.sorted
        seenCanonicalUrls := s.seen.sorted
        sampledCanonicalUrls := s.sampled.sorted
        expandedCanonicalUrls := s.expanded.sorted
        matchingCanonicalUrls := s.matchingUrls.sorted
        unmatchedCanonicalUrls := s.unmatchedUrls.sorted
        ambiguousCanonicalUrls := s.ambiguousUrls.sorted
        inScopeCanonicalUrls := s.inScopeUrls.sorted
        transitionCounts := (s.transitionCounts.rows.insertionSort fun a b =>
          a.transitionId ≤ b.transitionId).map TransitionRuntimeCount.state
        transitionPageCounts :=
          (s.transitionPageCounts.rows.insertionSort fun a b => a.before b = true).filter fun c =>
            ctx.transitions.any fun t => t.id = c.transitionId } := fun _ => rfl
  rw [hexport s, hexport t, hbare, h.queue, h.admitted.sorted, h.seen.sorted, h.sampled.sorted,
    h.expanded.sorted, h.matching.sorted, h.unmatched.sorted, h.ambiguous.sorted,
    h.inScope.sorted, sortedStates_eq, sortedStates_eq, hstates, hcounts]

/-! ## Driving a traversal -/

/-- The results of the steps, and the traversal after them. -/
structure Driven where
  results : List (Except DiscoveryPreviewError SemanticTraversalStep)
  traversal : SemanticTraversal

/-- The steps that the answers of the provider lead to.  A failure is the last. -/
def drive (ctx : TraversalContext) :
    List (ClockReadings × ProviderOutcome) → SemanticTraversal → Driven
  | [], s => ⟨[], s⟩
  | (readings, outcome) :: answers, s =>
    match step ctx readings outcome s with
    | .error e => ⟨[.error e], s⟩
    | .ok (result, s') =>
      let rest := drive ctx answers s'
      ⟨.ok result :: rest.results, rest.traversal⟩

/-- Every link that the answers make the steps look at leaves a path. -/
def KeepsPaths (ctx : TraversalContext) :
    List (ClockReadings × ProviderOutcome) → SemanticTraversal → Prop
  | [], _ => True
  | (readings, outcome) :: answers, s =>
    HasRoom ctx readings s outcome ∧
      match step ctx readings outcome s with
      | .error _ => True
      | .ok (_, s') => KeepsPaths ctx answers s'

/-- Runs from alike states return the same results. -/
theorem drive_alike {answers : List (ClockReadings × ProviderOutcome)} :
    ∀ {s t : SemanticTraversal}, Alike pages paths s t → paths = [] ∨ KeepsPaths ctx answers s →
      (drive ctx answers s).results = (drive ctx answers t).results ∧
        Alike pages paths (drive ctx answers s).traversal (drive ctx answers t).traversal := by
  induction answers with
  | nil => exact fun h _ => ⟨rfl, h⟩
  | cons answer answers ih =>
    intro s t h hroom
    obtain ⟨readings, outcome⟩ := answer
    have hstep : Coupled (Alike pages paths) (step ctx readings outcome s)
        (step ctx readings outcome t) := step_coupled h (hroom.imp_right And.left)
    rw [drive, drive]
    rcases hs : step ctx readings outcome s with e | ⟨result, s'⟩
    · rw [hstep.of_error hs]
      exact ⟨rfl, h⟩
    · obtain ⟨t', ht, h'⟩ := hstep.of_ok hs
      rw [ht]
      have hrest : paths = [] ∨ KeepsPaths ctx answers s' := by
        refine hroom.imp_right fun hroom => ?_
        have hnext := hroom.2
        rw [hs] at hnext
        exact hnext
      obtain ⟨hresults, halike⟩ := ih h' hrest
      exact ⟨congrArg (List.cons _) hresults, halike⟩

end Erabi.Crawl

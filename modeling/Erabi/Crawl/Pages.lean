/-
# What a step reports

A step that processes a unit reports one page, which carries the provenance and
the depth of the unit, and gives the state of the page to the roots that the
unit represents.  Expanding the page changes neither.
-/
import Erabi.Crawl.Effects

namespace Erabi.Crawl

open Relational Transaction

variable {ctx : TraversalContext} {readings : ClockReadings} {entry : QueueEntry}

/-! ## The report -/

/-- The report of the second traversal is that of the first. -/
structure SameReport (s s' : SemanticTraversal) : Prop where
  pages : s'.pages = s.pages
  seeds : s'.seeds = s.seeds

theorem SameReport.refl (s : SemanticTraversal) : SameReport s s := ⟨rfl, rfl⟩

theorem SameReport.trans {s₁ s₂ s₃ : SemanticTraversal} (h₁ : SameReport s₁ s₂)
    (h₂ : SameReport s₂ s₃) : SameReport s₁ s₃ :=
  ⟨h₂.pages.trans h₁.pages, h₂.seeds.trans h₁.seeds⟩

/-- Counting reports nothing. -/
theorem CountersOnly.sameReport {s s' : SemanticTraversal} (h : CountersOnly s s') :
    SameReport s s' := by
  rw [h.eq]
  exact ⟨rfl, rfl⟩

/-- The state that an outcome gives to the page of a unit. -/
def ProviderOutcome.verdict (ctx : TraversalContext) : ProviderOutcome → Option PreviewUrlState
  | .observed observation _ => do
    let final ← ctx.canonicalize observation.finalOriginal
    let scope ← ctx.classify final
    return pageState scope (observedMatch ctx final scope)
  | .robotsExcluded _ => some .robotsExcluded
  | .pageFailed _ => some .providerError
  | .interrupted _ | .unavailable => none

/-- The page of a processed unit and what it makes of the roots. -/
structure Report (ctx : TraversalContext) (entry : QueueEntry) (outcome : ProviderOutcome)
    (page : DiscoveryPreviewPage) (s s' : SemanticTraversal) : Prop where
  pages : s'.pages = s.pages ++ [page]
  requested : page.requestedCanonicalUrl = entry.canonicalUrl
  depth : page.depth = entry.depth
  seedIds : page.seedIds = entry.seedIds
  verdict : outcome.verdict ctx = some page.state
  seeds : ∀ seed' ∈ s'.seeds, ∃ seed ∈ s.seeds, seed'.seedId = seed.seedId ∧
    seed'.state = if seed.seedId ∈ entry.seedIds then page.state else seed.state

/-- A report between two steps that report nothing. -/
theorem Report.of_sameReport {outcome : ProviderOutcome} {page : DiscoveryPreviewPage}
    {s₀ s s' s₁ : SemanticTraversal} (hbefore : SameReport s₀ s)
    (h : Report ctx entry outcome page s s') (hafter : SameReport s' s₁) :
    Report ctx entry outcome page s₀ s₁ where
  pages := by rw [hafter.pages, h.pages, hbefore.pages]
  requested := h.requested
  depth := h.depth
  seedIds := h.seedIds
  verdict := h.verdict
  seeds seed' hseed' := by
    rw [hafter.seeds] at hseed'
    rw [← hbefore.seeds]
    exact h.seeds seed' hseed'

/-! ## Expansion -/

section Expansion

variable {source : ObservedSource} {sourceMatch : PageTypeMatch} {sourcePageType : PageTypeId}

/-- A link reports nothing. -/
theorem LinkOutcome.sameReport {link : TraversalObservedLink} {s s' : SemanticTraversal}
    (h : LinkOutcome ctx readings entry source sourceMatch sourcePageType link s s') :
    SameReport s s' := by
  cases h with
  | dropped full => exact ⟨rfl, rfl⟩
  | invalid path => exact ⟨rfl, rfl⟩
  | outOfScope path resolved canonical scope =>
    rw [SemanticTraversal.leaveScope]
    split <;> exact ⟨rfl, rfl⟩
  | duplicate path resolved canonical depth =>
    rw [SemanticTraversal.repeatLink]
    split <;> exact ⟨rfl, rfl⟩
  | new path resolved canonical evaluated s₁ room resolve classify unseen evaluation =>
    have hmet : SameReport s (s.meet ctx canonical) := ⟨rfl, rfl⟩
    have hevaluated := (evaluateTransitions_countersOnly evaluation).sameReport
    refine (hmet.trans hevaluated).trans ?_
    rw [SemanticTraversal.settleNew]
    cases (decideAdmission ctx s₁ (ctx.resolvePageType canonical) evaluated).admission with
    | none => exact ⟨rfl, rfl⟩
    | some admission => exact ⟨rfl, rfl⟩

theorem expandLinks_sameReport {links : List TraversalObservedLink} :
    ∀ {n m : ℕ} {s s' : SemanticTraversal},
      foldEach (expandLink ctx readings entry source sourceMatch sourcePageType) n links s =
        .ok (m, s') → SameReport s s' := by
  induction links with
  | nil =>
    intro n m s s' h
    cases h
    exact .refl s
  | cons link links ih =>
    intro n m s s' h
    obtain ⟨n₁, s₁, hlink, hrest⟩ := bind_eq_ok.mp h
    exact (expandLink_outcome hlink).sameReport.trans (ih hrest)

theorem expandObservation_sameReport {observation : PageObservation} {final : Url}
    {scope : DomainScopeStatus} {pageMatch : Option PageTypeMatch}
    {hits : List PreviewBudgetHit} {s s' : SemanticTraversal} {u : Unit}
    (h : expandObservation ctx readings entry observation final scope pageMatch hits s =
      .ok (u, s')) : SameReport s s' := by
  rcases expandObservation_eq_ok h with
    ⟨_, rfl⟩ | ⟨_, ⟨_, _, rfl⟩ | ⟨_, rfl⟩ | ⟨sourceMatch, _, _, _, _, hpage⟩⟩
  · exact ⟨rfl, rfl⟩
  · exact ⟨rfl, rfl⟩
  · exact ⟨rfl, rfl⟩
  rcases expandPage_eq_ok hpage with ⟨_, rfl⟩ | ⟨_, rfl⟩ | ⟨_, n, s₁, _, _, hlinks, rfl⟩
  · exact ⟨rfl, rfl⟩
  · exact ⟨rfl, rfl⟩
  · have hexpanded := expandLinks_sameReport hlinks
    exact ⟨hexpanded.pages, hexpanded.seeds⟩

end Expansion

/-! ## Processing -/

theorem SemanticTraversal.sample_sameReport (s : SemanticTraversal) (final : Url)
    (pageMatch : Option PageTypeMatch) (state : PreviewUrlState) :
    SameReport s (s.sample final pageMatch state) := by
  rw [SemanticTraversal.sample]
  split <;> exact ⟨rfl, rfl⟩

theorem SemanticTraversal.registerObserved_sameReport (s : SemanticTraversal) (final : Url)
    (pageMatch : Option PageTypeMatch) : SameReport s (s.registerObserved final pageMatch) := by
  cases pageMatch with
  | none => exact .refl s
  | some evidence => exact ⟨rfl, rfl⟩

theorem reconcileFinal_sameReport {final : Url} {s s' : SemanticTraversal} {u : Unit}
    (hadmitted : entry.canonicalUrl ∈ s.admitted)
    (h : reconcileFinal entry final s = .ok (u, s')) : SameReport s s' := by
  rcases reconcileFinal_eq_ok hadmitted h with ⟨_, rfl⟩ | ⟨_, hs', _⟩
  · exact ⟨rfl, rfl⟩
  · rw [hs']
    exact ⟨rfl, rfl⟩

/-- An observation reports one page. -/
theorem processObservation_report {observation : PageObservation} {downloadedBytes : ℕ}
    {s s' : SemanticTraversal} {u : Unit} (hadmitted : entry.canonicalUrl ∈ s.admitted)
    (h : processObservation ctx readings entry observation downloadedBytes s = .ok (u, s')) :
    ∃ page, Report ctx entry (.observed observation downloadedBytes) page s s' := by
  obtain ⟨_, final, scope, s₁, hcanonical, hclassify, hreconcile, hexpand⟩ :=
    processObservation_eq_ok h
  have hconsumed : SameReport s (s.consume downloadedBytes) := ⟨rfl, rfl⟩
  have hreconciled : SameReport s s₁ :=
    hconsumed.trans (reconcileFinal_sameReport (s := s.consume _) hadmitted hreconcile)
  set pageMatch := observedMatch ctx final scope with hpageMatch
  set registered := s₁.registerObserved final pageMatch
  set sampled := registered.sample final pageMatch (pageState scope pageMatch)
  set page : DiscoveryPreviewPage :=
    { requestedCanonicalUrl := entry.canonicalUrl
      requestedUrl := entry.requestedUrl
      finalUrl := observation.finalUrl
      canonicalUrl := some final
      depth := entry.depth
      state := pageState scope pageMatch
      seedIds := entry.seedIds
      scope := some scope
      pageTypeMatch := pageMatch
      downloadedBytes := some downloadedBytes
      robotsReason := none
      diagnostic := none
      budgetHits := pageBudgetHits ctx registered entry final pageMatch } with hpage
  have hbefore : SameReport s sampled :=
    (hreconciled.trans (s₁.registerObserved_sameReport final pageMatch)).trans
      (registered.sample_sameReport final pageMatch _)
  have hverdict : (ProviderOutcome.observed observation downloadedBytes).verdict ctx =
      some page.state := by
    show (ctx.canonicalize observation.finalOriginal).bind _ = _
    rw [hcanonical, Option.bind_some]
    show (ctx.classify final).bind _ = _
    rw [hclassify]
    rfl
  refine ⟨page, .of_sameReport hbefore ?_ (expandObservation_sameReport hexpand)⟩
  refine ⟨rfl, rfl, rfl, rfl, hverdict, fun seed' hseed' => ?_⟩
  obtain ⟨seed, hseed, rfl⟩ := List.mem_map.mp hseed'
  refine ⟨seed, hseed, ?_⟩
  split
  · exact ⟨rfl, rfl⟩
  · exact ⟨rfl, rfl⟩

/-- A processed unit leaves one page. -/
theorem processOutcome_report {outcome : ProviderOutcome} {s s' : SemanticTraversal} {u : Unit}
    (hadmitted : entry.canonicalUrl ∈ s.admitted)
    (h : processOutcome ctx readings entry outcome s = .ok (u, s')) :
    ∃ page, Report ctx entry outcome page s s' := by
  have hunobserved : ∀ (s₁ : SemanticTraversal) {state : PreviewUrlState} {scope page},
      outcome.verdict ctx = some state → SameReport s s₁ →
      s' = { s₁ with
        seeds := s₁.seeds.map fun seed =>
          if seed.seedId ∈ entry.seedIds then { seed with state, scope, budgetHits := [] } else seed
        pages := s₁.pages ++ [page] } →
      page.requestedCanonicalUrl = entry.canonicalUrl → page.depth = entry.depth →
      page.seedIds = entry.seedIds → page.state = state → Report ctx entry outcome page s s' := by
    intro s₁ state scope page hverdict hsame hs' hrequested hdepth hids hstate
    rw [hs']
    refine .of_sameReport hsame (s := s₁) ?_ (.refl _)
    refine ⟨rfl, hrequested, hdepth, hids, hstate.symm ▸ hverdict, fun seed' hseed' => ?_⟩
    obtain ⟨seed, hseed, rfl⟩ := List.mem_map.mp hseed'
    refine ⟨seed, hseed, ?_⟩
    rw [hstate]
    split
    · exact ⟨rfl, rfl⟩
    · exact ⟨rfl, rfl⟩
  cases outcome with
  | observed observation downloadedBytes => exact processObservation_report hadmitted h
  | robotsExcluded reason =>
    obtain ⟨_, h⟩ := require_bind_eq_ok.mp h
    rw [write_bind] at h
    obtain ⟨scope, page, hs', hrequested, hdepth, hids, hstate⟩ := recordUnobserved_eq_ok h
    exact ⟨page, hunobserved { s with robotsExcluded := s.robotsExcluded + 1 } rfl ⟨rfl, rfl⟩ hs'
      hrequested hdepth hids hstate⟩
  | pageFailed diagnostic =>
    obtain ⟨_, h⟩ := require_bind_eq_ok.mp h
    rw [write_bind] at h
    obtain ⟨scope, page, hs', hrequested, hdepth, hids, hstate⟩ := recordUnobserved_eq_ok h
    exact ⟨page, hunobserved { s with providerErrors := s.providerErrors + 1 } rfl ⟨rfl, rfl⟩ hs'
      hrequested hdepth hids hstate⟩
  | interrupted reason => cases h
  | unavailable => cases h

end Erabi.Crawl

/-
# Discovery budgets

The evaluator checks one prospective page or link against the caps of the version, of
its page type and of its transition.  What it allows it also allows with smaller
counters and with larger or absent limits.
-/
import Mathlib
import Erabi.Authoring.Contract

namespace Erabi.Authoring

open Erabi.Crawl (TransitionBudget DiscoveryBudgetCandidate DiscoveryBudgetDecision
  DiscoveryBudgetExclusion DiscoveryBudgetError checkedAddU32 checkedAddU64)

/-! ## The evaluator -/

/-- The budgets that bear on one candidate. -/
structure DiscoveryBudgetEvaluator where
  guardrails : CrawlerVersionGuardrails
  pageType : Option PageTypeDiscoveryGuardrails
  transition : Option TransitionBudget

namespace DiscoveryBudgetEvaluator

variable (evaluator : DiscoveryBudgetEvaluator) (candidate : DiscoveryBudgetCandidate)

/-- The checks of the transition, where there is one: its two budgets, and that its
counters can grow. -/
def checkTransition : Except DiscoveryBudgetError (Option DiscoveryBudgetExclusion) :=
  match evaluator.transition with
  | none => .ok none
  | some transition =>
      if candidate.transitionLinksOnSourcePage ≥ transition.maxLinksPerSourcePage then
        .ok (some .transitionPerPageLinkLimit)
      else if ∃ totalBudget ∈ transition.totalBudget,
          candidate.transitionTotalLinks ≥ totalBudget then
        .ok (some .transitionTotalBudget)
      else if checkedAddU32 candidate.transitionLinksOnSourcePage 1 = none then .error .overflow
      else if checkedAddU64 candidate.transitionTotalLinks 1 = none then .error .overflow
      else .ok none

/-- Allowed, or the first exclusion in this order. -/
def evaluate : Except DiscoveryBudgetError DiscoveryBudgetDecision :=
  if evaluator.guardrails.validate ≠ .ok () then .error .invalidGuardrails
  else if ∃ pageType ∈ evaluator.pageType, pageType.pageBudget = some 0 then
    .error .invalidGuardrails
  else if ∃ transition ∈ evaluator.transition,
      transition.maxLinksPerSourcePage = 0 ∨ transition.totalBudget = some 0 then
    .error .invalidTransitionBudget
  else if candidate.pagesAlreadyScheduled ≥ evaluator.guardrails.maxPages then
    .ok (.excluded .maxPages)
  else if candidate.elapsedDurationSeconds ≥ evaluator.guardrails.maxDurationSeconds then
    .ok (.excluded .maxDuration)
  else
    match checkedAddU32 candidate.currentDepth
        ((evaluator.transition.map TransitionBudget.depthContribution).getD 0) with
    | none => .error .overflow
    | some prospectiveDepth =>
        if prospectiveDepth > evaluator.guardrails.maxDepth then .ok (.excluded .maxDepth)
        else
          match checkedAddU64 candidate.downloadedBytes candidate.prospectiveDownloadBytes with
          | none => .error .overflow
          | some prospectiveBytes =>
              if prospectiveBytes > evaluator.guardrails.maxDownloadedBytes then
                .ok (.excluded .maxDownloadedBytes)
              else if ∃ pageBudget ∈ evaluator.pageType.bind PageTypeDiscoveryGuardrails.pageBudget,
                  candidate.pageTypePages ≥ pageBudget then
                .ok (.excluded .pageTypePageBudget)
              else
                match evaluator.checkTransition candidate with
                | .error error => .error error
                | .ok (some exclusion) => .ok (.excluded exclusion)
                | .ok none =>
                    if checkedAddU64 candidate.pagesAlreadyScheduled 1 = none then
                      .error .overflow
                    else .ok .allowed

/-! ## What is allowed -/

/-- The candidate is within all the limits, and its counters can grow by one. -/
structure Within : Prop where
  guardrails : evaluator.guardrails.validate = .ok ()
  pageType : ∀ pageType ∈ evaluator.pageType, pageType.pageBudget ≠ some 0
  transition : ∀ transition ∈ evaluator.transition,
    transition.maxLinksPerSourcePage ≠ 0 ∧ transition.totalBudget ≠ some 0
  pages : candidate.pagesAlreadyScheduled < evaluator.guardrails.maxPages
  duration : candidate.elapsedDurationSeconds < evaluator.guardrails.maxDurationSeconds
  depth : candidate.currentDepth +
    (evaluator.transition.map TransitionBudget.depthContribution).getD 0 ≤
      evaluator.guardrails.maxDepth
  depth_lt : candidate.currentDepth +
    (evaluator.transition.map TransitionBudget.depthContribution).getD 0 < 2 ^ 32
  bytes : candidate.downloadedBytes + candidate.prospectiveDownloadBytes ≤
    evaluator.guardrails.maxDownloadedBytes
  bytes_lt : candidate.downloadedBytes + candidate.prospectiveDownloadBytes < 2 ^ 64
  pageTypePages : ∀ pageBudget ∈ evaluator.pageType.bind PageTypeDiscoveryGuardrails.pageBudget,
    candidate.pageTypePages < pageBudget
  links : ∀ transition ∈ evaluator.transition,
    candidate.transitionLinksOnSourcePage < transition.maxLinksPerSourcePage
  totalLinks : ∀ transition ∈ evaluator.transition, ∀ totalBudget ∈ transition.totalBudget,
    candidate.transitionTotalLinks < totalBudget
  links_lt : ∀ transition ∈ evaluator.transition,
    candidate.transitionLinksOnSourcePage + 1 < 2 ^ 32 ∧
      candidate.transitionTotalLinks + 1 < 2 ^ 64
  pages_lt : candidate.pagesAlreadyScheduled + 1 < 2 ^ 64

variable {evaluator candidate}

/-- A sum overflows thirty-two bits from there on. -/
theorem checkedAddU32_eq_none {a b : ℕ} : checkedAddU32 a b = none ↔ 2 ^ 32 ≤ a + b := by
  unfold checkedAddU32
  split
  · simp; omega
  · simp; omega

/-- A sum overflows sixty-four bits from there on. -/
theorem checkedAddU64_eq_none {a b : ℕ} : checkedAddU64 a b = none ↔ 2 ^ 64 ≤ a + b := by
  unfold checkedAddU64
  split
  · simp; omega
  · simp; omega

/-- A sum within thirty-two bits. -/
theorem checkedAddU32_eq_some {a b c : ℕ} :
    checkedAddU32 a b = some c ↔ a + b < 2 ^ 32 ∧ a + b = c := by
  unfold checkedAddU32
  split
  · simp; omega
  · simp; omega

/-- A sum within sixty-four bits. -/
theorem checkedAddU64_eq_some {a b c : ℕ} :
    checkedAddU64 a b = some c ↔ a + b < 2 ^ 64 ∧ a + b = c := by
  unfold checkedAddU64
  split
  · simp; omega
  · simp; omega

/-- A transition stands in no candidate's way while both of its limits have room. -/
theorem checkTransition_eq_none : evaluator.checkTransition candidate = .ok none ↔
    ∀ transition ∈ evaluator.transition,
      candidate.transitionLinksOnSourcePage < transition.maxLinksPerSourcePage ∧
        (∀ totalBudget ∈ transition.totalBudget, candidate.transitionTotalLinks < totalBudget) ∧
          candidate.transitionLinksOnSourcePage + 1 < 2 ^ 32 ∧
            candidate.transitionTotalLinks + 1 < 2 ^ 64 := by
  rw [checkTransition]
  rcases evaluator.transition with _ | transition
  · exact ⟨fun _ _ hmem => (by cases hmem), fun _ => rfl⟩
  simp only [checkedAddU32_eq_none, checkedAddU64_eq_none, Option.mem_some_iff, forall_eq']
  split
  · exact ⟨fun h => (by cases h), fun h => absurd h.1 (by omega)⟩
  split
  · rename_i htotal
    obtain ⟨totalBudget, hbudget, htotal⟩ := htotal
    exact ⟨fun h => (by cases h), fun h => absurd (h.2.1 totalBudget hbudget) (by omega)⟩
  rename_i hlinks htotal
  split
  · exact ⟨fun h => (by cases h), fun h => absurd h.2.2.1 (by omega)⟩
  split
  · exact ⟨fun h => (by cases h), fun h => absurd h.2.2.2 (by omega)⟩
  · refine ⟨fun _ => ⟨by omega, fun totalBudget hbudget => ?_, by omega, by omega⟩, fun _ => rfl⟩
    by_contra hnot
    exact htotal ⟨totalBudget, hbudget, by omega⟩

/-- Candidates within every limit are within the transition's. -/
theorem Within.checkTransition (h : evaluator.Within candidate) :
    evaluator.checkTransition candidate = .ok none :=
  checkTransition_eq_none.mpr fun transition hmem =>
    ⟨h.links transition hmem, h.totalLinks transition hmem, h.links_lt transition hmem⟩

/-- A candidate is allowed exactly when it is within all the limits. -/
theorem evaluate_eq_allowed : evaluator.evaluate candidate = .ok .allowed ↔
    evaluator.Within candidate := by
  -- one return of the source after the other: each refuses what one bound excludes
  rw [evaluate]
  split
  · rename_i hguardrails
    exact ⟨fun h => (by cases h), fun h => absurd h.guardrails hguardrails⟩
  rename_i hguardrails
  split
  · rename_i hpageType
    obtain ⟨pageType, hpageType, hzero⟩ := hpageType
    exact ⟨fun h => (by cases h), fun h => absurd hzero (h.pageType pageType hpageType)⟩
  rename_i hpageType
  split
  · rename_i htransition
    obtain ⟨transition, htransition, hzero⟩ := htransition
    refine ⟨fun h => (by cases h), fun h => ?_⟩
    obtain ⟨hlinks, htotal⟩ := h.transition transition htransition
    rcases hzero with hzero | hzero
    · exact absurd hzero hlinks
    · exact absurd hzero htotal
  rename_i htransition
  split
  · exact ⟨fun h => (by cases h), fun h => absurd h.pages (by omega)⟩
  rename_i hpages
  split
  · exact ⟨fun h => (by cases h), fun h => absurd h.duration (by omega)⟩
  rename_i hduration
  split
  · rename_i hdepth
    rw [checkedAddU32_eq_none] at hdepth
    exact ⟨fun h => (by cases h), fun h => absurd h.depth_lt (by omega)⟩
  rename_i hdepth
  obtain ⟨hdepthFits, rfl⟩ := checkedAddU32_eq_some.mp hdepth
  split
  · exact ⟨fun h => (by cases h), fun h => absurd h.depth (by omega)⟩
  rename_i hdepthWithin
  split
  · rename_i hbytes
    rw [checkedAddU64_eq_none] at hbytes
    exact ⟨fun h => (by cases h), fun h => absurd h.bytes_lt (by omega)⟩
  rename_i hbytes
  obtain ⟨hbytesFit, rfl⟩ := checkedAddU64_eq_some.mp hbytes
  split
  · exact ⟨fun h => (by cases h), fun h => absurd h.bytes (by omega)⟩
  rename_i hbytesWithin
  split
  · rename_i hpageTypePages
    obtain ⟨pageBudget, hbudget, hpages⟩ := hpageTypePages
    exact ⟨fun h => (by cases h), fun h => absurd (h.pageTypePages pageBudget hbudget) (by omega)⟩
  rename_i hpageTypePages
  split
  · rename_i hcheck
    refine ⟨fun h => (by cases h), fun h => ?_⟩
    rw [h.checkTransition] at hcheck
    cases hcheck
  · rename_i hcheck
    refine ⟨fun h => (by cases h), fun h => ?_⟩
    rw [h.checkTransition] at hcheck
    cases hcheck
  rename_i hcheck
  rw [checkTransition_eq_none] at hcheck
  simp only [checkedAddU64_eq_none]
  split
  · exact ⟨fun h => (by cases h), fun h => absurd h.pages_lt (by omega)⟩
  rename_i hpagesFit
  refine ⟨fun _ => ?_, fun _ => rfl⟩
  exact {
    guardrails := not_not.mp hguardrails
    pageType := fun pageType hmem hzero => hpageType ⟨pageType, hmem, hzero⟩
    transition := fun transition hmem =>
      not_or.mp fun hzero => htransition ⟨transition, hmem, hzero⟩
    pages := by omega
    duration := by omega
    depth := by omega
    depth_lt := hdepthFits
    bytes := by omega
    bytes_lt := hbytesFit
    pageTypePages := fun pageBudget hbudget => by
      by_contra hnot
      exact hpageTypePages ⟨pageBudget, hbudget, by omega⟩
    links := fun transition hmem => (hcheck transition hmem).1
    totalLinks := fun transition hmem => (hcheck transition hmem).2.1
    links_lt := fun transition hmem => (hcheck transition hmem).2.2
    pages_lt := by omega }

end DiscoveryBudgetEvaluator

/-! ## Smaller counters and larger limits -/

/-- Every counter of one candidate is at most that of another. -/
structure Smaller (small large : DiscoveryBudgetCandidate) : Prop where
  pages : small.pagesAlreadyScheduled ≤ large.pagesAlreadyScheduled
  depth : small.currentDepth ≤ large.currentDepth
  duration : small.elapsedDurationSeconds ≤ large.elapsedDurationSeconds
  bytes : small.downloadedBytes ≤ large.downloadedBytes
  pageTypePages : small.pageTypePages ≤ large.pageTypePages
  links : small.transitionLinksOnSourcePage ≤ large.transitionLinksOnSourcePage
  totalLinks : small.transitionTotalLinks ≤ large.transitionTotalLinks
  prospectiveBytes : small.prospectiveDownloadBytes ≤ large.prospectiveDownloadBytes

/-- The second limit is larger than the first, or absent. -/
def LimitLooser (limit looser : Option ℕ) : Prop := ∀ cap' ∈ looser, ∃ cap ∈ limit, cap ≤ cap'

/-- A looser limit is not zero where the limit was not. -/
theorem LimitLooser.ne_zero {limit looser : Option ℕ} (h : LimitLooser limit looser)
    (hlimit : limit ≠ some 0) : looser ≠ some 0 := by
  intro hzero
  obtain ⟨cap, hcap, hle⟩ := h 0 hzero
  exact hlimit (by rw [hcap, Nat.le_zero.mp hle])

/-- A count below a limit is below a looser one. -/
theorem LimitLooser.lt {limit looser : Option ℕ} (h : LimitLooser limit looser) {n m : ℕ}
    (hlimit : ∀ cap ∈ limit, n < cap) (hm : m ≤ n) : ∀ cap ∈ looser, m < cap := by
  intro cap' hcap'
  obtain ⟨cap, hcap, hle⟩ := h cap' hcap'
  have hn := hlimit cap hcap
  omega

/-- The same page type with a larger budget, or without one. -/
structure PageTypeLooser (looser pageType : PageTypeDiscoveryGuardrails) : Prop where
  pageTypeId : looser.pageTypeId = pageType.pageTypeId
  healthThreshold : looser.healthThreshold = pageType.healthThreshold
  pageBudget : LimitLooser pageType.pageBudget looser.pageBudget

/-- Caps that are at least those of other guardrails, with a budget only for page types
that have one there. -/
structure GuardrailsLooser (guardrails looser : CrawlerVersionGuardrails) : Prop where
  version : looser.version = guardrails.version
  maxPages : guardrails.maxPages ≤ looser.maxPages
  maxDepth : guardrails.maxDepth ≤ looser.maxDepth
  maxDurationSeconds : guardrails.maxDurationSeconds ≤ looser.maxDurationSeconds
  maxDownloadedBytes : guardrails.maxDownloadedBytes ≤ looser.maxDownloadedBytes
  maxConcurrentRequestsPerDomain :
    guardrails.maxConcurrentRequestsPerDomain ≤ looser.maxConcurrentRequestsPerDomain
  pageTypes : List.SublistForall₂ PageTypeLooser looser.pageTypes guardrails.pageTypes

/-- A transition budget that allows no less. -/
structure TransitionLooser (transition looser : TransitionBudget) : Prop where
  maxLinksPerSourcePage : transition.maxLinksPerSourcePage ≤ looser.maxLinksPerSourcePage
  totalBudget : LimitLooser transition.totalBudget looser.totalBudget
  depthContribution : looser.depthContribution ≤ transition.depthContribution

/-- Every limit of the second evaluator is larger than that of the first, or absent. -/
structure Looser (evaluator looser : DiscoveryBudgetEvaluator) : Prop where
  guardrails : GuardrailsLooser evaluator.guardrails looser.guardrails
  pageType : LimitLooser (evaluator.pageType.bind PageTypeDiscoveryGuardrails.pageBudget)
    (looser.pageType.bind PageTypeDiscoveryGuardrails.pageBudget)
  transition : ∀ transition' ∈ looser.transition,
    ∃ transition ∈ evaluator.transition, TransitionLooser transition transition'

/-- Page types that pass stay so where some are left out, where their budgets grow or go,
and where fewer have been seen. -/
theorem validatePageTypes_looser {pageTypes looser : List PageTypeDiscoveryGuardrails}
    (h : List.SublistForall₂ PageTypeLooser looser pageTypes) {seen seen' : List Id}
    (hseen : seen' ⊆ seen) (hvalid : validatePageTypes seen pageTypes = .ok ()) :
    validatePageTypes seen' looser = .ok () := by
  induction h generalizing seen seen' with
  | nil => rfl
  | cons hhead htail ih =>
      simp only [validatePageTypes, check_bind_eq_ok, ensure_eq_ok] at hvalid ⊢
      obtain ⟨⟨hnew, hbudget⟩, hhealth, hrest⟩ := hvalid
      refine ⟨⟨?_, hhead.pageBudget.ne_zero hbudget⟩, ?_, ih ?_ hrest⟩
      · rw [hhead.pageTypeId]
        exact fun hmem => hnew (hseen hmem)
      · rw [hhead.healthThreshold]
        exact hhealth
      · rw [hhead.pageTypeId]
        exact List.cons_subset_cons _ hseen
  | cons_right htail ih =>
      simp only [validatePageTypes, check_bind_eq_ok] at hvalid
      exact ih (fun _ hmem => List.mem_cons_of_mem _ (hseen hmem)) hvalid.2.2

/-- Looser guardrails are valid where the guardrails are. -/
theorem GuardrailsLooser.validate {guardrails looser : CrawlerVersionGuardrails}
    (h : GuardrailsLooser guardrails looser) (hvalid : guardrails.validate = .ok ()) :
    looser.validate = .ok () := by
  simp only [CrawlerVersionGuardrails.validate, check_bind_eq_ok, ensure_eq_ok] at hvalid ⊢
  obtain ⟨⟨hversion, hpages, hdepth, hduration, hbytes, hconcurrent⟩, hpageTypes⟩ := hvalid
  have hmaxPages := h.maxPages
  have hmaxDepth := h.maxDepth
  have hmaxDuration := h.maxDurationSeconds
  have hmaxBytes := h.maxDownloadedBytes
  have hmaxConcurrent := h.maxConcurrentRequestsPerDomain
  refine ⟨⟨h.version.trans hversion, ?_⟩,
    validatePageTypes_looser h.pageTypes (List.Subset.refl _) hpageTypes⟩
  omega

/-- A looser evaluator adds no more depth. -/
theorem Looser.depthContribution {evaluator looser : DiscoveryBudgetEvaluator}
    (h : Looser evaluator looser) :
    (looser.transition.map TransitionBudget.depthContribution).getD 0 ≤
      (evaluator.transition.map TransitionBudget.depthContribution).getD 0 := by
  rcases hlooser : looser.transition with _ | transition'
  · exact Nat.zero_le _
  obtain ⟨transition, htransition, hle⟩ := h.transition transition' hlooser
  rw [show evaluator.transition = some transition from htransition]
  exact hle.depthContribution

namespace DiscoveryBudgetEvaluator

variable {evaluator looser : DiscoveryBudgetEvaluator} {small large : DiscoveryBudgetCandidate}

/-- Being within the limits survives smaller counters and looser limits. -/
theorem Within.mono (h : evaluator.Within large) (hsmaller : Smaller small large)
    (hlooser : Looser evaluator looser) : looser.Within small := by
  have hdepth := hlooser.depthContribution
  have hpages := h.pages
  have hduration := h.duration
  have hbytes := h.bytes
  have hbytesFit := h.bytes_lt
  have hpagesFit := h.pages_lt
  have hmaxDepth := h.depth
  have hdepthFits := h.depth_lt
  obtain ⟨spages, sdepth, sduration, sbytes, spageTypePages, slinks, stotal, sprospective⟩ := hsmaller
  obtain ⟨-, gpages, gdepth, gduration, gbytes, -, -⟩ := hlooser.guardrails
  constructor
  case guardrails => exact hlooser.guardrails.validate h.guardrails
  -- a limit of zero stays excluded when the budget grows
  case pageType =>
    intro pageType' hpageType' hzero
    have hbind : looser.pageType.bind PageTypeDiscoveryGuardrails.pageBudget = some 0 := by
      rw [show looser.pageType = some pageType' from hpageType']
      exact hzero
    refine hlooser.pageType.ne_zero (fun hbound => ?_) hbind
    obtain ⟨pageType, hpageType, hbudget⟩ := Option.bind_eq_some_iff.mp hbound
    exact h.pageType pageType hpageType hbudget
  case transition =>
    intro transition' htransition'
    obtain ⟨transition, htransition, hle⟩ := hlooser.transition transition' htransition'
    have hlinks := hle.maxLinksPerSourcePage
    obtain ⟨hpositive, htotal⟩ := h.transition transition htransition
    exact ⟨by omega, hle.totalBudget.ne_zero htotal⟩
  case pages => omega
  case duration => omega
  case depth => omega
  case depth_lt => omega
  case bytes => omega
  case bytes_lt => omega
  case pageTypePages => exact hlooser.pageType.lt h.pageTypePages spageTypePages
  case links =>
    intro transition' htransition'
    obtain ⟨transition, htransition, hle⟩ := hlooser.transition transition' htransition'
    have hmax := hle.maxLinksPerSourcePage
    have hlinks := h.links transition htransition
    omega
  case totalLinks =>
    intro transition' htransition'
    obtain ⟨transition, htransition, hle⟩ := hlooser.transition transition' htransition'
    exact hle.totalBudget.lt (h.totalLinks transition htransition) stotal
  case links_lt =>
    intro transition' htransition'
    obtain ⟨transition, htransition, -⟩ := hlooser.transition transition' htransition'
    obtain ⟨hlinksFit, htotalFits⟩ := h.links_lt transition htransition
    exact ⟨by omega, by omega⟩
  case pages_lt => omega

theorem Looser.refl (evaluator : DiscoveryBudgetEvaluator) : Looser evaluator evaluator where
  guardrails := ⟨rfl, le_rfl, le_rfl, le_rfl, le_rfl, le_rfl,
    List.sublistForall₂_iff.mpr ⟨_, List.forall₂_same.mpr fun _ _ =>
      ⟨rfl, rfl, fun cap hcap => ⟨cap, hcap, le_rfl⟩⟩, List.Sublist.refl _⟩⟩
  pageType := fun cap hcap => ⟨cap, hcap, le_rfl⟩
  transition := fun transition htransition =>
    ⟨transition, htransition, le_rfl, fun cap hcap => ⟨cap, hcap, le_rfl⟩, le_rfl⟩

/-- What is allowed is allowed with smaller counters and looser limits, and what is
denied is denied as the counters grow. -/
theorem evaluate_monotone (hsmaller : Smaller small large) (hlooser : Looser evaluator looser) :
    (evaluator.evaluate large = .ok .allowed → looser.evaluate small = .ok .allowed) ∧
      (evaluator.evaluate small ≠ .ok .allowed → evaluator.evaluate large ≠ .ok .allowed) := by
  constructor
  · intro hallowed
    have hwithin := evaluate_eq_allowed.mp hallowed
    exact evaluate_eq_allowed.mpr (hwithin.mono hsmaller hlooser)
  · intro hdenied hallowed
    have hwithin := evaluate_eq_allowed.mp hallowed
    exact hdenied (evaluate_eq_allowed.mpr (hwithin.mono hsmaller (Looser.refl evaluator)))

/-- Guardrails with a page type and a transition. -/
def sampleEvaluator : DiscoveryBudgetEvaluator where
  guardrails := .default
  pageType := some ⟨numberedId 1, some 5, none⟩
  transition := some ⟨3, some 7, 1⟩

/-- A looser evaluator than the sample one. -/
def sampleLooser : DiscoveryBudgetEvaluator where
  guardrails := { CrawlerVersionGuardrails.default with maxPages := 2000 }
  pageType := some ⟨numberedId 1, none, none⟩
  transition := some ⟨4, none, 1⟩

/-- The two sample evaluators are comparable. -/
theorem sampleEvaluator_looser : Looser sampleEvaluator sampleLooser where
  guardrails := ⟨rfl, by decide, by decide, by decide, by decide, by decide, .nil⟩
  pageType := fun _ hcap => by cases hcap
  transition := fun _ htransition =>
    ⟨_, rfl, by cases htransition; exact ⟨by decide, fun _ hcap => (by cases hcap), le_rfl⟩⟩

theorem evaluate_monotone_sample :
    (sampleEvaluator.evaluate ⟨10, 2, 60, 100, 4, 2, 6, 50⟩ = .ok .allowed →
        sampleLooser.evaluate ⟨9, 2, 30, 0, 4, 0, 6, 50⟩ = .ok .allowed) ∧
      (sampleEvaluator.evaluate ⟨9, 2, 30, 0, 4, 0, 6, 50⟩ ≠ .ok .allowed →
        sampleEvaluator.evaluate ⟨10, 2, 60, 100, 4, 2, 6, 50⟩ ≠ .ok .allowed) :=
  evaluate_monotone ⟨by decide, by decide, by decide, by decide, by decide, by decide,
    by decide, by decide⟩ sampleEvaluator_looser

example : sampleEvaluator.evaluate ⟨10, 2, 60, 100, 4, 2, 6, 50⟩ = .ok .allowed := by decide

end DiscoveryBudgetEvaluator

end Erabi.Authoring

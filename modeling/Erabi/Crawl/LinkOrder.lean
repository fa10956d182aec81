/-
# Links in any order

A page is expanded by its distinct links in their own order, so neither the order
in which an observation lists its links and paginations nor their repetition
reaches the frontier.  What is counted before the links are made distinct, the
targetless pagination and all that stays unexpanded, is counted as observed.
-/
import Erabi.Crawl.Runs
import Erabi.Relational.Coupling
import Erabi.Sorting.Distinct

namespace Erabi.Crawl

open Relational Transaction

/-! ## The order of links -/

/-- Links are ordered by reference and selector. -/
theorem ObservedLink.before_iff {a b : ObservedLink} : a.before b = true ↔
    toLex (a.rawHref, a.selector.elim ⊥ WithBot.some) ≤
      toLex (b.rawHref, b.selector.elim ⊥ WithBot.some) := by
  rcases a with ⟨href, _ | selector⟩ <;> rcases b with ⟨href', _ | selector'⟩ <;>
    simp [before, Prod.Lex.toLex_le_toLex]

instance : Std.Total fun a b : ObservedLink => a.before b = true where
  total a b := by
    rw [ObservedLink.before_iff, ObservedLink.before_iff]
    exact le_total _ _

instance : IsTrans ObservedLink fun a b => a.before b = true where
  trans _ _ _ hab hbc := ObservedLink.before_iff.mpr
    ((ObservedLink.before_iff.mp hab).trans (ObservedLink.before_iff.mp hbc))

instance : Std.Antisymm fun a b : ObservedLink => a.before b = true where
  antisymm a b hab hba := by
    have hkeys := toLex.injective (le_antisymm (ObservedLink.before_iff.mp hab)
      (ObservedLink.before_iff.mp hba))
    rcases a with ⟨href, _ | selector⟩ <;> rcases b with ⟨href', _ | selector'⟩ <;>
      simp_all

/-! ## Observations of the same links -/

/-- The only member with a property is the one found. -/
theorem find?_eq_some_of_unique {α : Type*} {p : α → Bool} {l : List α} {a : α} (ha : a ∈ l)
    (hp : p a = true) (hunique : ∀ b ∈ l, p b = true → b = a) : l.find? p = some a := by
  rcases hfind : l.find? p with _ | b
  · exact absurd hp (List.find?_eq_none.mp hfind a ha)
  · rw [hunique b (List.mem_of_find?_eq_some hfind) (List.find?_some hfind)]

namespace PageObservation

/-- The second observation lists the links and paginations of the first in another
order. -/
structure Reordered (observation observation' : PageObservation) : Prop where
  requestedUrl : observation.requestedUrl = observation'.requestedUrl
  finalUrl : observation.finalUrl = observation'.finalUrl
  discoveredLinks : observation.discoveredLinks.Perm observation'.discoveredLinks
  paginationObservations :
    observation.paginationObservations.Perm observation'.paginationObservations

/-- The two observations list the same links and paginations, in any order and any
number of times. -/
structure SameLinks (observation observation' : PageObservation) : Prop where
  requestedUrl : observation.requestedUrl = observation'.requestedUrl
  finalUrl : observation.finalUrl = observation'.finalUrl
  discoveredLinks : ∀ link,
    link ∈ observation.discoveredLinks ↔ link ∈ observation'.discoveredLinks
  paginationObservations : ∀ pagination, pagination ∈ observation.paginationObservations ↔
    pagination ∈ observation'.paginationObservations

variable {observation observation' : PageObservation}

/-- Reordered observations have the same links. -/
theorem Reordered.sameLinks (h : observation.Reordered observation') :
    observation.SameLinks observation' where
  requestedUrl := h.requestedUrl
  finalUrl := h.finalUrl
  discoveredLinks _ := h.discoveredLinks.mem_iff
  paginationObservations _ := h.paginationObservations.mem_iff

/-- A link among the regular ones. -/
theorem find?_regular (observation : PageObservation) (link : ObservedLink) :
    (observation.discoveredLinks.map fun l => (⟨l, false⟩ : TraversalObservedLink)).find?
      (fun l => l.link = link) =
        if link ∈ observation.discoveredLinks then some ⟨link, false⟩ else none := by
  split
  · rename_i hlink
    refine find?_eq_some_of_unique (List.mem_map_of_mem hlink) (by simp) fun l hl hkey => ?_
    obtain ⟨l', _, rfl⟩ := List.mem_map.mp hl
    rw [← of_decide_eq_true hkey]
  · rename_i hlink
    rw [List.find?_eq_none]
    intro l hl hkey
    obtain ⟨l', hl', rfl⟩ := List.mem_map.mp hl
    exact hlink (of_decide_eq_true hkey ▸ hl')

/-- A link among the pagination's. -/
theorem find?_pagination (observation : PageObservation) (link : ObservedLink) :
    (observation.paginationObservations.filterMap PaginationObservation.target).find?
      (fun l => l.link = link) =
        if ∃ p ∈ observation.paginationObservations, p.target = some ⟨link, true⟩ then
          some ⟨link, true⟩
        else none := by
  have htarget : ∀ (p : PaginationObservation) l, p.target = some l → l.isPagination = true := by
    intro p l hl
    obtain ⟨url, _, rfl⟩ := Option.map_eq_some_iff.mp hl
    rfl
  split
  · rename_i hlink
    obtain ⟨p, hp, hlink⟩ := hlink
    refine find?_eq_some_of_unique (List.mem_filterMap.mpr ⟨p, hp, hlink⟩) (by simp)
      fun l hl hkey => ?_
    obtain ⟨p', _, hl⟩ := List.mem_filterMap.mp hl
    rw [← of_decide_eq_true hkey, ← htarget p' l hl]
  · rename_i hlink
    rw [List.find?_eq_none]
    intro l hl hkey
    obtain ⟨p, hp, hl⟩ := List.mem_filterMap.mp hl
    refine hlink ⟨p, hp, ?_⟩
    rw [hl, ← of_decide_eq_true hkey, ← htarget p l hl]

/-- The regular links come first, so a link of both kinds is regular. -/
theorem find?_observedLinks (observation : PageObservation) (link : ObservedLink) :
    observation.observedLinks.find? (fun l => l.link = link) =
      if link ∈ observation.discoveredLinks then some ⟨link, false⟩
      else if ∃ p ∈ observation.paginationObservations, p.target = some ⟨link, true⟩ then
        some ⟨link, true⟩
      else none := by
  rw [observedLinks, List.find?_append, find?_regular, find?_pagination]
  split
  · rfl
  · exact Option.none_or

/-- The distinct links of a page are those of every observation of the same links. -/
theorem SameLinks.links_eq (h : observation.SameLinks observation') :
    observation.links = observation'.links := by
  refine Sorting.destutter_insertionSort_eq TraversalObservedLink.link
    (fun a b : ObservedLink => a.before b = true) fun link => ?_
  rw [find?_observedLinks, find?_observedLinks]
  simp only [h.discoveredLinks, h.paginationObservations]

end PageObservation

/-! ## Traversals that counted differently -/

/-- The second traversal is the first with other counts of discovered URLs and of
truncated pagination. -/
def Recounted (s t : SemanticTraversal) : Prop :=
  ∃ discovered truncated,
    t = { s with urlsDiscovered := discovered, paginationTruncationCount := truncated }

theorem Recounted.refl (s : SemanticTraversal) : Recounted s s := ⟨_, _, rfl⟩

variable {ctx : TraversalContext} {readings : ClockReadings} {entry : QueueEntry}
  {s t : SemanticTraversal}

section Links

variable {source : ObservedSource} {sourceMatch : PageTypeMatch} {sourcePageType : PageTypeId}
  {canonical : Url}

theorem evaluateTransition_recounted {src : Url} {link : ObservedLink}
    {targetMatch : PageTypeMatch} {acc : EvaluatedTransitions} {transition : DiscoveryTransition}
    (h : Recounted s t) :
    Coupled Recounted
      (evaluateTransition ctx readings entry src link canonical targetMatch acc transition s)
      (evaluateTransition ctx readings entry src link canonical targetMatch acc transition t) := by
  obtain ⟨discovered, truncated, rfl⟩ := h
  unfold evaluateTransition
  rw [read_bind, read_bind]
  refine .lift_bind fun judgement _ => ?_
  cases judgement.isEligible with
  | true => exact .returned _ ⟨discovered, truncated, rfl⟩
  | false => exact .returned _ ⟨discovered, truncated, rfl⟩

theorem evaluateTransitions_recounted {src : Url} {link : ObservedLink}
    {targetMatch : PageTypeMatch} {acc : EvaluatedTransitions}
    {transitions : List DiscoveryTransition} (h : Recounted s t) :
    Coupled Recounted
      (foldEach (evaluateTransition ctx readings entry src link canonical targetMatch) acc
        transitions s)
      (foldEach (evaluateTransition ctx readings entry src link canonical targetMatch) acc
        transitions t) :=
  Coupled.foldEach (R := fun _ => Recounted)
    (f := evaluateTransition ctx readings entry src link canonical targetMatch)
    (fun _ _ _ _ _ hround => evaluateTransition_recounted hround) h

theorem expandDuplicate_recounted {link : ObservedLink} {resolved : Url}
    {scope : DomainScopeStatus} (h : Recounted s t) :
    Coupled Recounted
      (expandDuplicate ctx entry source sourceMatch sourcePageType link resolved canonical scope s)
      (expandDuplicate ctx entry source sourceMatch sourcePageType link resolved canonical scope
        t) := by
  obtain ⟨discovered, truncated, rfl⟩ := h
  unfold expandDuplicate
  rw [write_bind, write_bind, read_bind, read_bind]
  refine .lift_bind fun depth _ => ?_
  rw [write_bind, write_bind]
  refine .lift_bind fun path _ => .returned () ⟨discovered, truncated, ?_⟩
  by_cases hsampled : canonical ∈ s.sampled
  · simp only [hsampled, if_true]
    rfl
  · simp only [hsampled, if_false]
    rfl

theorem expandNew_recounted {link : TraversalObservedLink} {resolved : Url}
    {scope : DomainScopeStatus} {newFromPage : ℕ} (h : Recounted s t) :
    Coupled Recounted
      (expandNew ctx readings entry source sourceMatch sourcePageType link resolved canonical
        scope newFromPage s)
      (expandNew ctx readings entry source sourceMatch sourcePageType link resolved canonical
        scope newFromPage t) := by
  unfold expandNew
  rw [write_bind, write_bind]
  have hmet : Recounted (s.registerMatch canonical (ctx.resolvePageType canonical) true)
      (t.registerMatch canonical (ctx.resolvePageType canonical) true) := by
    obtain ⟨discovered, truncated, rfl⟩ := h
    exact ⟨discovered, truncated, rfl⟩
  refine Coupled.bind (evaluateTransitions_recounted hmet) fun evaluated s₁ t₁ h₁ => ?_
  obtain ⟨discovered, truncated, rfl⟩ := h₁
  rw [read_bind, read_bind, write_bind, write_bind]
  refine .lift_bind fun path _ => ?_
  rw [write_bind, write_bind]
  have hdecision : decideAdmission ctx { s₁ with
      urlsDiscovered := discovered, paginationTruncationCount := truncated }
      (ctx.resolvePageType canonical) evaluated =
        decideAdmission ctx s₁ (ctx.resolvePageType canonical) evaluated := rfl
  rw [hdecision]
  cases (decideAdmission ctx s₁ (ctx.resolvePageType canonical) evaluated).admission with
  | none => exact .returned _ ⟨_, _, rfl⟩
  | some admission => exact .returned _ ⟨_, _, rfl⟩

theorem expandInvalid_recounted {link : ObservedLink} (h : Recounted s t) :
    Coupled Recounted (expandInvalid entry source sourceMatch link s)
      (expandInvalid entry source sourceMatch link t) := by
  obtain ⟨discovered, truncated, rfl⟩ := h
  unfold expandInvalid
  exact .lift_bind fun path _ => .returned () ⟨discovered, truncated, rfl⟩

theorem expandOutOfScope_recounted {link : ObservedLink} {resolved : Url}
    {scope : DomainScopeStatus} {unique : Bool} (h : Recounted s t) :
    Coupled Recounted
      (expandOutOfScope entry source sourceMatch link resolved canonical scope unique s)
      (expandOutOfScope entry source sourceMatch link resolved canonical scope unique t) := by
  obtain ⟨discovered, truncated, rfl⟩ := h
  unfold expandOutOfScope
  rw [write_bind, write_bind]
  cases unique with
  | true => exact .lift_bind fun path _ => .returned () ⟨discovered, truncated, rfl⟩
  | false => exact .lift_bind fun path _ => .returned () ⟨discovered, truncated, rfl⟩

theorem expandLink_recounted {link : TraversalObservedLink} {newFromPage : ℕ}
    (h : Recounted s t) :
    Coupled Recounted
      (expandLink ctx readings entry source sourceMatch sourcePageType newFromPage link s)
      (expandLink ctx readings entry source sourceMatch sourcePageType newFromPage link t) := by
  obtain ⟨discovered, truncated, rfl⟩ := h
  unfold expandLink
  rw [write_bind, write_bind, read_bind, read_bind]
  by_cases hfull : maxPreviewProvenanceEdges ≤ s.paths.length
  · simp only [ge_iff_le, hfull, if_true, write_bind, pure_apply]
    exact .returned _ ⟨_, _, rfl⟩
  simp only [ge_iff_le, hfull, if_false]
  rcases resolveHref ctx source.base link.link.rawHref with _ | ⟨resolved, canonical⟩
  · exact (expandInvalid_recounted ⟨_, _, rfl⟩).bind fun _ _ _ h₁ => .returned _ h₁
  refine .lift_bind fun scope _ => ?_
  rw [write_bind, write_bind]
  have hsee : Recounted { s.countLink with seen := s.seen.insert canonical }
      { s.countLink with
        seen := s.seen.insert canonical
        urlsDiscovered := discovered + 1
        paginationTruncationCount := truncated } := ⟨_, _, rfl⟩
  dsimp only
  split
  · exact (expandOutOfScope_recounted hsee).bind fun _ _ _ h₁ => .returned _ h₁
  · split
    · exact (expandDuplicate_recounted hsee).bind fun _ _ _ h₁ => .returned _ h₁
    · exact expandNew_recounted hsee

end Links

theorem expandPage_recounted {observation observation' : PageObservation}
    {source : ObservedSource} {sourceMatch : PageTypeMatch}
    (hlinks : observation.SameLinks observation') (h : Recounted s t) :
    Coupled Recounted (expandPage ctx readings entry observation source sourceMatch s)
      (expandPage ctx readings entry observation' source sourceMatch t) := by
  obtain ⟨discovered, truncated, rfl⟩ := h
  unfold expandPage
  rw [read_bind, read_bind, hlinks.links_eq]
  dsimp only
  by_cases hexpanded : source.canonical ∈ s.expanded
  · simp only [hexpanded, if_true]
    exact .returned _ ⟨_, _, rfl⟩
  simp only [hexpanded, if_false]
  rw [write_bind, write_bind]
  cases sourceMatch.winner with
  | none => exact .returned _ ⟨_, _, rfl⟩
  | some sourcePageType =>
    refine .require_bind Iff.rfl fun _ => ?_
    refine Coupled.bind (R := Recounted) (Coupled.foldEach (R := fun _ => Recounted)
      (f := expandLink ctx readings entry source sourceMatch sourcePageType)
      (fun _ _ _ _ _ hround => expandLink_recounted hround) ⟨_, _, rfl⟩)
      fun newFromPage s₁ t₁ h₁ => ?_
    obtain ⟨discovered₁, truncated₁, rfl⟩ := h₁
    exact .returned _ ⟨_, _, rfl⟩

/-! ## Steps -/

section Steps

variable {observation observation' : PageObservation} {downloadedBytes : ℕ}

namespace PageObservation

/-- They have the same final URL. -/
theorem SameLinks.finalOriginal_eq (h : observation.SameLinks observation') :
    observation.finalOriginal = observation'.finalOriginal := by
  rw [finalOriginal, finalOriginal, h.finalUrl, h.requestedUrl]

/-- They are valid together. -/
theorem SameLinks.validateObservation_eq (h : observation.SameLinks observation') :
    validateObservation ctx observation = validateObservation ctx observation' := by
  have hall : ∀ p : ObservedLink → Bool,
      observation.discoveredLinks.all p = observation'.discoveredLinks.all p := by
    intro p
    rw [Bool.eq_iff_iff, List.all_eq_true, List.all_eq_true]
    simp only [h.discoveredLinks]
  rw [validateObservation, validateObservation, h.requestedUrl, h.finalUrl, hall]

/-- They are without links together. -/
theorem SameLinks.noLinks_iff (h : observation.SameLinks observation') :
    observation.discoveredLinks = [] ↔ observation'.discoveredLinks = [] := by
  rw [List.eq_nil_iff_forall_not_mem, List.eq_nil_iff_forall_not_mem]
  simp only [h.discoveredLinks]

/-- They have pagination targets together. -/
theorem SameLinks.targetful_iff (h : observation.SameLinks observation') :
    0 < observation.targetfulPaginationCount ↔ 0 < observation'.targetfulPaginationCount := by
  rw [targetfulPaginationCount, targetfulPaginationCount, List.countP_pos_iff,
    List.countP_pos_iff]
  simp only [h.paginationObservations]

end PageObservation

/-- They are accepted together. -/
theorem acceptObservation_eq (h : observation.SameLinks observation')
    (hbound : observation.discoveredLinks.length ≤ maxPreviewLinksPerObservation ↔
      observation'.discoveredLinks.length ≤ maxPreviewLinksPerObservation) :
    acceptObservation ctx entry observation downloadedBytes =
      acceptObservation ctx entry observation' downloadedBytes := by
  have hlinks : ∀ (p : Prop) [Decidable p] (e : DiscoveryPreviewError),
      (require (p ∧ observation.discoveredLinks.length ≤ maxPreviewLinksPerObservation) e :
        Traverse Unit) =
      require (p ∧ observation'.discoveredLinks.length ≤ maxPreviewLinksPerObservation) e := by
    intro p _ e
    funext s
    simp only [require, hbound]
  unfold acceptObservation
  rw [h.requestedUrl, h.validateObservation_eq]
  simp only [hlinks]

/-- The page recorded last carries the hits. -/
def SemanticTraversal.Recorded (s : SemanticTraversal) (hits : List PreviewBudgetHit) : Prop :=
  ∃ page, s.pages.getLast? = some page ∧ page.budgetHits = hits

/-- Observations of the same links differ in a step by their expansion only. -/
theorem step_recounted {R : SemanticTraversal → SemanticTraversal → Prop}
    (h : observation.SameLinks observation')
    (hbound : observation.discoveredLinks.length ≤ maxPreviewLinksPerObservation ↔
      observation'.discoveredLinks.length ≤ maxPreviewLinksPerObservation)
    (hrefl : ∀ s, R s s) (hreport : ∀ s t, R s t → s.pages = t.pages ∧ s.paths = t.paths)
    (hexpand : ∀ entry final scope pageMatch hits s, s.Recorded hits →
      Coupled R (expandObservation ctx readings entry observation final scope pageMatch hits s)
        (expandObservation ctx readings entry observation' final scope pageMatch hits s))
    (s : SemanticTraversal) :
    Coupled R (step ctx readings (.observed observation downloadedBytes) s)
      (step ctx readings (.observed observation' downloadedBytes) s) := by
  have hprocess : ∀ entry s, Coupled R
      (processObservation ctx readings entry observation downloadedBytes s)
      (processObservation ctx readings entry observation' downloadedBytes s) := by
    intro entry s
    unfold processObservation
    rw [acceptObservation_eq h hbound, h.finalOriginal_eq]
    refine (Coupled.self (fun _ => rfl) _).bind fun _ s₁ _ hs₁ => ?_
    refine hs₁ ▸ .orFail_bind fun final _ => ?_
    refine (Coupled.self (fun _ => rfl) _).bind fun _ s₂ _ hs₂ => ?_
    refine hs₂ ▸ .orFail_bind fun scope _ => ?_
    rw [write_bind, write_bind, read_bind, read_bind, write_bind, write_bind, write_bind,
      write_bind]
    -- the page recorded does not mention the links, which is why only the expansion is
    -- compared
    have hpage : ∀ (s : SemanticTraversal) pageMatch hits,
        s.recordPage entry final observation' downloadedBytes scope pageMatch hits =
          s.recordPage entry final observation downloadedBytes scope pageMatch hits := by
      intro s pageMatch hits
      rw [SemanticTraversal.recordPage, SemanticTraversal.recordPage, h.finalUrl]
    rw [hpage]
    apply hexpand
    exact ⟨_, List.getLast?_concat, rfl⟩
  unfold step
  rw [read_bind, read_bind]
  rcases s.queue with _ | ⟨entry, _⟩
  · exact .self hrefl _
  dsimp only
  split
  · exact .self hrefl _
  · split
    · exact .self hrefl _
    · unfold answer
      rw [read_bind, read_bind, write_bind, write_bind]
      refine (hprocess entry _).bind fun _ s' t' hst => ?_
      rw [read_bind, read_bind, (hreport s' t' hst).1, (hreport s' t' hst).2]
      exact .returned _ hst

/-! ## Expansions -/

variable {source : ObservedSource} {sourceMatch : PageTypeMatch} {final : Url}
  {scope : DomainScopeStatus} {pageMatch : Option PageTypeMatch} {hits : List PreviewBudgetHit}

/-- They are expanded to the same state. -/
theorem expandPage_eq (h : observation.SameLinks observation') :
    expandPage ctx readings entry observation source sourceMatch =
      expandPage ctx readings entry observation' source sourceMatch := by
  unfold expandPage
  rw [h.links_eq]

/-- Reordered observations are expanded to the same state. -/
theorem expandObservation_eq (h : observation.Reordered observation') :
    expandObservation ctx readings entry observation final scope pageMatch hits =
      expandObservation ctx readings entry observation' final scope pageMatch hits := by
  have htargetless : observation.targetlessPaginationCount =
      observation'.targetlessPaginationCount := h.paginationObservations.countP_eq _
  have htargetful : observation.targetfulPaginationCount =
      observation'.targetfulPaginationCount := h.paginationObservations.countP_eq _
  have hleave : ∀ (s : SemanticTraversal) canExpand,
      s.leaveUnexpanded observation canExpand = s.leaveUnexpanded observation' canExpand := by
    intro s canExpand
    unfold SemanticTraversal.leaveUnexpanded
    simp only [htargetful, h.discoveredLinks.length_eq, ne_eq, h.sameLinks.noLinks_iff]
  unfold expandObservation
  simp only [htargetless, htargetful, hleave, h.finalUrl, expandPage_eq h.sameLinks]

theorem expandObservation_recounted (h : observation.SameLinks observation')
    (s : SemanticTraversal) :
    Coupled Recounted
      (expandObservation ctx readings entry observation final scope pageMatch hits s)
      (expandObservation ctx readings entry observation' final scope pageMatch hits s) := by
  have hexpanded : ∀ count, (s.recordPaginationTruncation count).expanded = s.expanded :=
    fun _ => rfl
  unfold expandObservation
  rw [write_bind, write_bind, read_bind, read_bind]
  simp only [hexpanded, h.targetful_iff]
  by_cases hclock : readings.beforeExpansion ≥ ctx.limits.maxDurationMs
  · rw [if_pos hclock, if_pos hclock, write_apply, write_apply]
    refine .returned _ ?_
    unfold SemanticTraversal.leaveUnexpanded
    simp only [ne_eq, h.noLinks_iff]
    exact ⟨_, _, rfl⟩
  rw [if_neg hclock, if_neg hclock]
  by_cases hlimit : sourceCanExpand scope pageMatch = true ∧
      0 < observation'.targetfulPaginationCount ∧ hits ≠ []
  · rw [if_pos hlimit, if_pos hlimit]
    exact .returned _ ⟨_, _, rfl⟩
  rw [if_neg hlimit, if_neg hlimit]
  by_cases hexpand : hits = [] ∧ sourceCanExpand scope pageMatch = true ∧ final ∉ s.expanded
  · rw [if_pos hexpand, if_pos hexpand]
    rcases pageMatch with _ | sourceMatch
    · exact .returned _ ⟨_, _, rfl⟩
    · rw [h.finalUrl]
      exact expandPage_recounted h ⟨_, _, rfl⟩
  · rw [if_neg hexpand, if_neg hexpand]
    exact .returned _ ⟨_, _, rfl⟩

/-- The second traversal is the first, up to the counts when the page recorded last
reached a limit of its page type. -/
def RecountedAtLimit (s t : SemanticTraversal) : Prop :=
  s = t ∨ (∃ hits, hits ≠ [] ∧ s.Recorded hits) ∧ Recounted s t

theorem RecountedAtLimit.refl (s : SemanticTraversal) : RecountedAtLimit s s := Or.inl rfl

/-- Before the duration boundary only the targets on a page at a limit are counted
as observed. -/
theorem expandObservation_atLimit (h : observation.SameLinks observation')
    (htargetless : observation.targetlessPaginationCount = observation'.targetlessPaginationCount)
    (hclock : readings.beforeExpansion < ctx.limits.maxDurationMs) {s : SemanticTraversal}
    (hs : s.Recorded hits) :
    Coupled RecountedAtLimit
      (expandObservation ctx readings entry observation final scope pageMatch hits s)
      (expandObservation ctx readings entry observation' final scope pageMatch hits s) := by
  unfold expandObservation
  rw [write_bind, write_bind, read_bind, read_bind, htargetless, if_neg (not_le.mpr hclock),
    if_neg (not_le.mpr hclock)]
  simp only [h.targetful_iff]
  by_cases hlimit : sourceCanExpand scope pageMatch = true ∧
      0 < observation'.targetfulPaginationCount ∧ hits ≠ []
  · rw [if_pos hlimit, if_pos hlimit]
    exact .returned _ (Or.inr ⟨⟨hits, hlimit.2.2, hs⟩, _, _, rfl⟩)
  rw [if_neg hlimit, if_neg hlimit]
  simp only [h.finalUrl, expandPage_eq h]
  exact .self RecountedAtLimit.refl _

/-- The order in which an observation lists links and paginations changes nothing of
a step.  Their repetition changes two counts only, and before the duration boundary,
as long as no targetless pagination is repeated, nothing but at a page-type limit. -/
theorem step_reobserved (ctx : TraversalContext) (readings : ClockReadings) (downloadedBytes : ℕ)
    (s : SemanticTraversal) (observation observation' : PageObservation) :
    (observation.Reordered observation' →
      step ctx readings (.observed observation downloadedBytes) s =
        step ctx readings (.observed observation' downloadedBytes) s) ∧
    (observation.SameLinks observation' →
      (observation.discoveredLinks.length ≤ maxPreviewLinksPerObservation ↔
        observation'.discoveredLinks.length ≤ maxPreviewLinksPerObservation) →
      Coupled Recounted (step ctx readings (.observed observation downloadedBytes) s)
        (step ctx readings (.observed observation' downloadedBytes) s) ∧
      (readings.beforeExpansion < ctx.limits.maxDurationMs →
        observation.targetlessPaginationCount = observation'.targetlessPaginationCount →
        Coupled RecountedAtLimit (step ctx readings (.observed observation downloadedBytes) s)
          (step ctx readings (.observed observation' downloadedBytes) s))) := by
  have hrecounted : ∀ s t, Recounted s t → s.pages = t.pages ∧ s.paths = t.paths := by
    rintro s t ⟨_, _, rfl⟩
    exact ⟨rfl, rfl⟩
  refine ⟨fun h => ?_, fun h hbound => ⟨?_, fun hclock htargetless => ?_⟩⟩
  · refine (step_recounted h.sameLinks (by rw [h.discoveredLinks.length_eq]) (fun _ => rfl)
      (fun s t hst => ?_) (fun _ _ _ _ _ _ _ => ?_) s).eq
    · exact ⟨congrArg _ hst, congrArg _ hst⟩
    · rw [expandObservation_eq h]
      exact .self (fun _ => rfl) _
  · exact step_recounted h hbound .refl hrecounted
      (fun _ _ _ _ _ s _ => expandObservation_recounted h s) s
  · refine step_recounted h hbound .refl (fun s t hst => ?_)
      (fun _ _ _ _ _ _ hs => expandObservation_atLimit h htargetless hclock hs) s
    rcases hst with rfl | ⟨_, hst⟩
    · exact ⟨rfl, rfl⟩
    · exact hrecounted s t hst

/-- A page with one link twice and one pagination target, and the same page told anew. -/
theorem step_reobserved_twice : Coupled RecountedAtLimit
    (step roomyContext .zero
      (.observed ⟨1, none, [⟨2, some 7⟩, ⟨2, some 7⟩], [⟨some 7, some 3⟩]⟩ 0)
      (rootTraversal roomyContext))
    (step roomyContext .zero (.observed ⟨1, none, [⟨2, some 7⟩], [⟨some 7, some 3⟩]⟩ 0)
      (rootTraversal roomyContext)) :=
  ((step_reobserved roomyContext .zero 0 (rootTraversal roomyContext) _ _).2
    ⟨rfl, rfl, by simp, by simp⟩ (by decide)).2 (by decide) (by decide)

/-- Without a target a pagination is counted whenever it is observed. -/
theorem targetless_pagination_counted_twice :
    forFrozenSnapshot roomyContext = .ok (rootTraversal roomyContext) ∧
    (⟨1, none, [], [⟨none, none⟩]⟩ : PageObservation).SameLinks
      ⟨1, none, [], [⟨none, none⟩, ⟨none, none⟩]⟩ ∧
    (step roomyContext .zero (.observed ⟨1, none, [], [⟨none, none⟩]⟩ 0)
      (rootTraversal roomyContext)).toOption.map (·.2.paginationTruncationCount) = some 1 ∧
    (step roomyContext .zero (.observed ⟨1, none, [], [⟨none, none⟩, ⟨none, none⟩]⟩ 0)
      (rootTraversal roomyContext)).toOption.map (·.2.paginationTruncationCount) = some 2 :=
  ⟨rfl, ⟨rfl, rfl, by simp, by simp⟩, by decide +kernel, by decide +kernel⟩

end Steps

end Erabi.Crawl

/-
# The order of page types

Page-type resolution depends neither on the order of the page types nor on that of
their matchers, unless two different page types tie that have the same name and the
same matched patterns.
-/
import Mathlib
import Erabi.Authoring.Ranking
import Erabi.Authoring.UrlLaws

namespace Erabi.Authoring

open Sorting

variable {lib : Libraries} {url : Url} {pageTypes pageTypes' : List PageType}

/-! ## Rearranged page types -/

/-- A page type with its matchers in another order. -/
structure PageType.Reordered (pageType pageType' : PageType) : Prop where
  id : pageType.id = pageType'.id
  name : pageType.name = pageType'.name
  priority : pageType.priority = pageType'.priority
  matchers : pageType.matchers.Perm pageType'.matchers

/-- The page types in another order, each with its matchers in another order. -/
def Rearranged (pageTypes pageTypes' : List PageType) : Prop :=
  ∃ order, pageTypes.Perm order ∧ List.Forall₂ PageType.Reordered order pageTypes'

theorem PageType.Reordered.refl (pageType : PageType) : pageType.Reordered pageType :=
  ⟨rfl, rfl, rfl, List.Perm.refl _⟩

/-- A permutation is a rearrangement. -/
theorem rearranged_of_perm (h : pageTypes.Perm pageTypes') : Rearranged pageTypes pageTypes' :=
  ⟨pageTypes', h, List.forall₂_same.mpr fun pageType _ => PageType.Reordered.refl pageType⟩

/-- The best matchers do not depend on their order. -/
theorem PageType.Reordered.best_iff {pageType pageType' : PageType}
    (h : pageType.Reordered pageType') {matcher : UrlMatcher} :
    pageType.Best lib url matcher ↔ pageType'.Best lib url matcher := by
  constructor
  · rintro ⟨hmem, hmatches, hgreatest⟩
    exact ⟨h.matchers.mem_iff.mp hmem, hmatches, fun other hother =>
      hgreatest other (h.matchers.mem_iff.mpr hother)⟩
  · rintro ⟨hmem, hmatches, hgreatest⟩
    exact ⟨h.matchers.mem_iff.mpr hmem, hmatches, fun other hother =>
      hgreatest other (h.matchers.mem_iff.mp hother)⟩

/-- The order of the matchers does not matter. -/
theorem PageType.Reordered.candidate_eq {pageType pageType' : PageType}
    (h : pageType.Reordered pageType') :
    pageType.candidate lib url = pageType'.candidate lib url := by
  rcases hcandidate : pageType.candidate lib url with _ | c
  · symm
    rw [PageType.candidate_eq_none] at hcandidate ⊢
    intro matcher hmatcher
    exact hcandidate matcher (h.matchers.mem_iff.mpr hmatcher)
  · have hdescribes := PageType.candidate_describes hcandidate
    obtain ⟨best, hbest⟩ := hdescribes.best
    obtain ⟨c', hc'⟩ := PageType.exists_candidate (h.matchers.mem_iff.mp hbest.mem)
      hbest.matches_url
    have hdescribes' := PageType.candidate_describes hc'
    rw [hc', hdescribes.eq hdescribes' h.id h.name _ _]
    · rw [hdescribes.rank_eq hbest, hdescribes'.rank_eq (h.best_iff.mp hbest), h.priority]
    · intro pattern
      simp only [hdescribes.patterns, hdescribes'.patterns, h.best_iff]

/-- The order of matchers does not change the candidates. -/
theorem candidates_reordered (h : List.Forall₂ PageType.Reordered pageTypes pageTypes') :
    candidates lib url pageTypes = candidates lib url pageTypes' := by
  induction h with
  | nil => rfl
  | cons hhead htail ih =>
    rw [candidates] at ih ⊢
    rw [List.filterMap_cons, ih, hhead.candidate_eq]
    rfl

/-- A rearrangement permutes the candidates. -/
theorem candidates_perm (h : Rearranged pageTypes pageTypes') :
    (candidates lib url pageTypes).Perm (candidates lib url pageTypes') := by
  obtain ⟨order, hperm, hreordered⟩ := h
  rw [← candidates_reordered hreordered]
  exact hperm.filterMap _

/-- Which candidates tie does not depend on their order. -/
theorem all_isLE_congr {l l' : List PageTypeCandidate} (h : l.Perm l') :
    (fun c => l.all fun d => (d.compareRank c).isLE) =
      fun c : PageTypeCandidate => l'.all fun d => (d.compareRank c).isLE := by
  funext c
  exact h.all_eq

/-- A rearrangement permutes the best candidates. -/
theorem tiedCandidates_perm (h : Rearranged pageTypes pageTypes') :
    (tiedCandidates lib url pageTypes).Perm (tiedCandidates lib url pageTypes') := by
  have hcandidates : (candidates lib url pageTypes).Perm (candidates lib url pageTypes') :=
    candidates_perm h
  rw [tiedCandidates, tiedCandidates, all_isLE_congr hcandidates]
  exact hcandidates.filter _

/-! ## The order of what ties -/

/-- Ties are ordered by name, then by patterns. -/
theorem PageTypeCandidate.le_eq_leBy : PageTypeCandidate.le =
    leBy PageTypeCandidate.pageTypeName PageTypeCandidate.matchedPatterns := by
  funext a b
  rw [PageTypeCandidate.le, leBy]

/-- The order of ties is transitive. -/
theorem PageTypeCandidate.le_trans (a b c : PageTypeCandidate) (hab : a.le b = true)
    (hbc : b.le c = true) : a.le c = true := by
  rw [PageTypeCandidate.le_eq_leBy] at *
  exact leBy_trans a b c hab hbc

/-- The order of ties is total. -/
theorem PageTypeCandidate.le_total (a b : PageTypeCandidate) : (a.le b || b.le a) = true := by
  rw [PageTypeCandidate.le_eq_leBy]
  exact leBy_total a b

/-- Two leading page types with the same name and the same leading patterns. -/
structure Indistinct (lib : Libraries) (url : Url) (pageTypes : List PageType)
    (pageType other : PageType) : Prop where
  leads : ∃ matcher, Leads lib url pageTypes pageType matcher
  other_leads : ∃ matcher, Leads lib url pageTypes other matcher
  name : pageType.name = other.name
  patterns : ∀ pattern, LeadingPattern lib url pageTypes pageType pattern ↔
    LeadingPattern lib url pageTypes other pattern

/-- The best candidates share their rank. -/
theorem rank_eq_of_tied {c d : PageTypeCandidate} (hc : c ∈ tiedCandidates lib url pageTypes)
    (hd : d ∈ tiedCandidates lib url pageTypes) : c.rank = d.rank := by
  rw [tiedCandidates, List.mem_filter, List.all_eq_true] at hc hd
  have heq : rankCompare c.rank d.rank = .eq :=
    Std.OrientedCmp.isLE_antisymm (hd.2 c hc.1) (hc.2 d hd.1)
  exact Std.LawfulEqCmp.eq_of_compare heq

/-- Candidates that tie and are sorted alike come from page types that are indistinct. -/
theorem eq_of_indistinct
    (hdistinct : ∀ pageType other, Indistinct lib url pageTypes pageType other →
      pageType.id = other.id) {c d : PageTypeCandidate}
    (hc : c ∈ tiedCandidates lib url pageTypes) (hd : d ∈ tiedCandidates lib url pageTypes)
    (hcd : c.le d = true) (hdc : d.le c = true) : c = d := by
  rw [PageTypeCandidate.le_eq_leBy] at hcd hdc
  obtain ⟨hname, hpatterns⟩ := leBy_antisymm hcd hdc
  have hrank := rank_eq_of_tied hc hd
  obtain ⟨p, _, hp, hpLeads⟩ := mem_tiedCandidates.mp hc
  obtain ⟨q, _, hq, hqLeads⟩ := mem_tiedCandidates.mp hd
  have hpDescribes := PageType.candidate_describes hp
  have hqDescribes := PageType.candidate_describes hq
  obtain ⟨m, hm⟩ := hpDescribes.best
  obtain ⟨n, hn⟩ := hqDescribes.best
  obtain ⟨c', hc', _, hcPatterns⟩ := (hpLeads m hm).candidate
  obtain ⟨d', hd', _, hdPatterns⟩ := (hqLeads n hn).candidate
  rw [hp] at hc'
  rw [hq] at hd'
  cases hc'
  cases hd'
  have hnames : p.name = q.name := by rw [← hpDescribes.name, ← hqDescribes.name, hname]
  have hid : p.id = q.id := by
    apply hdistinct p q
    refine ⟨⟨m, hpLeads m hm⟩, ⟨n, hqLeads n hn⟩, hnames, fun pattern => ?_⟩
    rw [← hcPatterns, ← hdPatterns, hpatterns]
  exact hpDescribes.eq hqDescribes hid hnames hrank fun pattern => by rw [hpatterns]

/-- A matching page type gives the first candidate. -/
theorem candidates_cons {pageType : PageType} {c : PageTypeCandidate}
    (h : pageType.candidate lib url = some c) :
    candidates lib url (pageType :: pageTypes) = c :: candidates lib url pageTypes := by
  rw [candidates, List.filterMap_cons, h]
  rfl

/-- The first two candidates tie in the order of their page types. -/
theorem tiedCandidates_swap {p q : PageType} {rest : List PageType} {c d : PageTypeCandidate}
    (hp : p.candidate lib url = some c) (hq : q.candidate lib url = some d)
    (hc : c ∈ tiedCandidates lib url (p :: q :: rest))
    (hd : d ∈ tiedCandidates lib url (p :: q :: rest)) :
    ∃ tail, tiedCandidates lib url (p :: q :: rest) = c :: d :: tail ∧
      tiedCandidates lib url (q :: p :: rest) = d :: c :: tail := by
  have hswap : (c :: d :: candidates lib url rest).Perm (d :: c :: candidates lib url rest) :=
    List.Perm.swap d c _
  rw [tiedCandidates, candidates_cons hp, candidates_cons hq] at hc hd ⊢
  rw [tiedCandidates, candidates_cons hq, candidates_cons hp, ← all_isLE_congr hswap]
  have hc' := (List.mem_filter.mp hc).2
  have hd' := (List.mem_filter.mp hd).2
  simp only [List.filter_cons, hc', hd', if_true]
  exact ⟨_, rfl, rfl⟩

/-- The order of two candidates that are sorted alike shows in the decision. -/
theorem resolvePageType_swap_ne {p q : PageType} {rest : List PageType} {c d : PageTypeCandidate}
    (hp : p.candidate lib url = some c) (hq : q.candidate lib url = some d)
    (hc : c ∈ tiedCandidates lib url (p :: q :: rest))
    (hd : d ∈ tiedCandidates lib url (p :: q :: rest))
    (hcd : c.le d = true) (hdc : d.le c = true) (hne : c ≠ d) :
    resolvePageType lib url (q :: p :: rest) ≠ resolvePageType lib url (p :: q :: rest) := by
  intro heq
  rw [resolvePageType_eq, resolvePageType_eq] at heq
  have hsorted := congrArg (List.filter fun a => a.le c && c.le a) (decisionOf_injective heq)
  have hrefl : c.le c = true := by
    rw [PageTypeCandidate.le_eq_leBy]
    exact leBy_of_eq rfl rfl
  have halike : ∀ a b : PageTypeCandidate, (a.le c && c.le a) = true →
      (b.le c && c.le b) = true → a.le b = true := by
    intro a b ha hb
    rw [Bool.and_eq_true] at ha hb
    exact PageTypeCandidate.le_trans a c b ha.1 hb.2
  obtain ⟨tail, htied, htied'⟩ := tiedCandidates_swap hp hq hc hd
  rw [filter_mergeSort_alike PageTypeCandidate.le_trans PageTypeCandidate.le_total halike,
    filter_mergeSort_alike PageTypeCandidate.le_trans PageTypeCandidate.le_total halike,
    htied, htied'] at hsorted
  simp only [List.filter_cons, hcd, hdc, hrefl, Bool.and_self, if_true] at hsorted
  exact hne (List.cons.inj hsorted).1.symm

theorem exists_perm_cons_cons {p q : PageType} (hp : p ∈ pageTypes) (hq : q ∈ pageTypes)
    (hne : p ≠ q) : ∃ rest, pageTypes.Perm (p :: q :: rest) := by
  obtain ⟨before, behind, rfl⟩ := List.append_of_mem hp
  have hfirst : (before ++ p :: behind).Perm (p :: (before ++ behind)) := List.perm_middle
  have hq' : q ∈ before ++ behind := by
    rcases List.mem_cons.mp (hfirst.mem_iff.mp hq) with h | h
    · exact absurd h.symm hne
    · exact h
  obtain ⟨before', behind', hrest⟩ := List.append_of_mem hq'
  refine ⟨before' ++ behind', hfirst.trans ?_⟩
  rw [hrest]
  exact List.perm_middle.cons p

/-- The candidates of indistinct page types are sorted alike. -/
theorem Indistinct.candidates {p q : PageType} (h : Indistinct lib url pageTypes p q) :
    ∃ c d, p.candidate lib url = some c ∧ q.candidate lib url = some d ∧
      c ∈ tiedCandidates lib url pageTypes ∧ d ∈ tiedCandidates lib url pageTypes ∧
      c.le d = true ∧ d.le c = true ∧ (p.id ≠ q.id → c ≠ d) := by
  obtain ⟨m, hm⟩ := h.leads
  obtain ⟨n, hn⟩ := h.other_leads
  obtain ⟨c, hp, hc, hcPatterns⟩ := hm.candidate
  obtain ⟨d, hq, hd, hdPatterns⟩ := hn.candidate
  have hpDescribes := PageType.candidate_describes hp
  have hqDescribes := PageType.candidate_describes hq
  have hpatterns : c.matchedPatterns = d.matchedPatterns := by
    apply hpDescribes.sorted.eq_of_mem_iff hqDescribes.sorted
    intro pattern
    rw [hcPatterns, hdPatterns, h.patterns]
  have hname : c.pageTypeName = d.pageTypeName := by
    rw [hpDescribes.name, hqDescribes.name, h.name]
  refine ⟨c, d, hp, hq, hc, hd, ?_, ?_, ?_⟩
  · rw [PageTypeCandidate.le_eq_leBy]
    exact leBy_of_eq hname hpatterns
  · rw [PageTypeCandidate.le_eq_leBy]
    exact leBy_of_eq hname.symm hpatterns.symm
  · rintro hid rfl
    exact hid (hpDescribes.id.symm.trans hqDescribes.id)

/-- The decision depends on the order of the page types exactly where two page types
that lead are indistinct. -/
theorem resolvePageType_rearranged_iff :
    (∀ pageTypes', Rearranged pageTypes pageTypes' →
      resolvePageType lib url pageTypes' = resolvePageType lib url pageTypes) ↔
    ∀ pageType other, Indistinct lib url pageTypes pageType other → pageType.id = other.id := by
  constructor
  · intro h p q hpq
    by_contra hid
    obtain ⟨c, d, hp, hq, hc, hd, hcd, hdc, hne⟩ := hpq.candidates
    obtain ⟨m, hm⟩ := hpq.leads
    obtain ⟨n, hn⟩ := hpq.other_leads
    obtain ⟨rest, hrest⟩ := exists_perm_cons_cons hm.listed hn.listed fun heq => hid (by rw [heq])
    have hswap : pageTypes.Perm (q :: p :: rest) := hrest.trans (List.Perm.swap q p rest)
    have htied : (tiedCandidates lib url pageTypes).Perm
        (tiedCandidates lib url (p :: q :: rest)) := tiedCandidates_perm (rearranged_of_perm hrest)
    apply resolvePageType_swap_ne hp hq (htied.mem_iff.mp hc) (htied.mem_iff.mp hd) hcd hdc
      (hne hid)
    rw [h _ (rearranged_of_perm hswap), h _ (rearranged_of_perm hrest)]
  · intro h pageTypes' hrearranged
    rw [resolvePageType_eq, resolvePageType_eq]
    congr 1
    symm
    apply mergeSort_eq_of_perm PageTypeCandidate.le_trans PageTypeCandidate.le_total _
      (tiedCandidates_perm hrearranged)
    intro c hc d hd
    exact eq_of_indistinct h hc hd

/-! ## Twins -/

/-- Page types with one name and one matcher. -/
def twin (n : ℕ) : PageType := ⟨numberedId n, "Product", 0, [.pathPrefix none "/"]⟩

/-- The URL of the sample site's root. -/
def twinUrl : Url := SitePage.url ⟨false, none, SitePage.written_none⟩

/-- Each twin leads at that URL. -/
theorem twin_leads {n : ℕ} (h : twin n ∈ [twin 1, twin 2]) :
    Leads siteLibraries twinUrl [twin 1, twin 2] (twin n) (.pathPrefix none "/") where
  listed := h
  mem := List.mem_singleton.mpr rfl
  matches_url := by
    show (true && "/".toList.isPrefixOf "/".toList) = true
    simp
  greatest other hother rival hrival _ := by
    have htwin : ∃ k, other = twin k := by
      rcases List.mem_cons.mp hother with rfl | hother
      · exact ⟨1, rfl⟩
      · exact ⟨2, List.mem_singleton.mp hother⟩
    obtain ⟨k, rfl⟩ := htwin
    rw [List.mem_singleton.mp hrival]
    exact Std.ReflCmp.isLE_rfl

/-- The twins share their only leading pattern. -/
theorem leadingPattern_twin {n : ℕ} (h : twin n ∈ [twin 1, twin 2]) {pattern : String} :
    LeadingPattern siteLibraries twinUrl [twin 1, twin 2] (twin n) pattern ↔ pattern = "/" := by
  constructor
  · rintro ⟨matcher, hleads, rfl⟩
    rw [List.mem_singleton.mp hleads.mem]
    rfl
  · rintro rfl
    exact ⟨_, twin_leads h, rfl⟩

/-- The order of twins shows in the decision. -/
theorem twins_ordered : Rearranged [twin 1, twin 2] [twin 2, twin 1] ∧
    resolvePageType siteLibraries twinUrl [twin 2, twin 1] ≠
      resolvePageType siteLibraries twinUrl [twin 1, twin 2] := by
  have htwins : Indistinct siteLibraries twinUrl [twin 1, twin 2] (twin 1) (twin 2) := by
    refine ⟨⟨_, twin_leads (by simp)⟩, ⟨_, twin_leads (by simp)⟩, rfl, fun pattern => ?_⟩
    rw [leadingPattern_twin (by simp), leadingPattern_twin (by simp)]
  obtain ⟨c, d, hp, hq, hc, hd, hcd, hdc, hne⟩ := htwins.candidates
  refine ⟨rearranged_of_perm (List.Perm.swap _ _ _), ?_⟩
  apply resolvePageType_swap_ne hp hq hc hd hcd hdc
  apply hne
  intro hid
  exact absurd (numberedId_injOn (by omega) (by omega) hid) (by omega)

end Erabi.Authoring

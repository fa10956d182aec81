/-
# The ranking of page types

What page-type resolution computes, read off the page types: the candidates with the
greatest rank, sorted by name and matched patterns.  The rank of a match is the
priority of the page type and then the specificity of the matcher.
-/
import Mathlib
import Erabi.Authoring.Matching
import Erabi.Sorting.ByKeys

namespace Erabi.Authoring

open Sorting

/-! ## Greatest members -/

section Greatest

variable {α : Type} {compare : α → α → Ordering}

/-- Only the empty list has no greatest element. -/
theorem greatest_eq_none {l : List α} : greatest compare l = none ↔ l = [] := by
  rcases l with _ | ⟨c, l⟩
  · simp [greatest]
  · simp [greatest]

variable [Std.TransCmp compare]

/-- The fold returns an element of the list that none exceeds. -/
theorem foldl_greatest (l : List α) (a : α) :
    (l.foldl (fun best b => if compare best b = .gt then best else b) a ∈ a :: l) ∧
      ∀ b ∈ a :: l, (compare b
        (l.foldl (fun best b => if compare best b = .gt then best else b) a)).isLE = true := by
  induction l generalizing a with
  | nil =>
    have hself : compare a a = .eq := Std.ReflCmp.compare_self
    simp [hself]
  | cons c l ih =>
    rw [List.foldl_cons]
    by_cases hgt : compare a c = .gt
    · rw [if_pos hgt]
      obtain ⟨hmem, hle⟩ := ih a
      refine ⟨?_, fun b hb => ?_⟩
      · rcases List.mem_cons.mp hmem with h | h
        · exact List.mem_cons.mpr (Or.inl h)
        · exact List.mem_cons_of_mem a (List.mem_cons_of_mem c h)
      · rcases List.mem_cons.mp hb with rfl | hb
        · exact hle b List.mem_cons_self
        · rcases List.mem_cons.mp hb with rfl | hb
          · have hlt : compare b a = .lt := Std.OrientedCmp.lt_of_gt hgt
            exact Std.TransCmp.isLE_trans (by rw [hlt]; rfl) (hle a List.mem_cons_self)
          · exact hle b (List.mem_cons_of_mem a hb)
    · rw [if_neg hgt]
      obtain ⟨hmem, hle⟩ := ih c
      refine ⟨List.mem_cons_of_mem a hmem, fun b hb => ?_⟩
      rcases List.mem_cons.mp hb with rfl | hb
      · have hac : (compare b c).isLE = true := by
          rcases h : compare b c
          · rfl
          · rfl
          · exact absurd h hgt
        exact Std.TransCmp.isLE_trans hac (hle c List.mem_cons_self)
      · exact hle b hb

/-- The greatest element is in the list and none exceeds it. -/
theorem greatest_eq_some {l : List α} {a : α} (h : greatest compare l = some a) :
    a ∈ l ∧ ∀ b ∈ l, (compare b a).isLE = true := by
  rcases l with _ | ⟨c, l⟩
  · cases h
  · cases h
    exact foldl_greatest l c

end Greatest

/-! ## Specificity and rank -/

namespace SpecificityKey

instance : Std.TransCmp SpecificityKey.compare :=
  inferInstanceAs (Std.TransCmp (compareLex (compareOn matcherKindRank)
    (compareLex (compareOn literalPathSegments) (compareLex (compareOn explicitQueryConstraints)
      (compareLex (compareOn literalCharacters) fun a b => compareOn wildcards b a)))))

instance : Std.LawfulEqCmp SpecificityKey.compare where
  eq_of_compare {a b} h := by
    simp only [SpecificityKey.compare, Ordering.then_eq_eq, Nat.compare_eq_eq] at h
    obtain ⟨hrank, hsegments, hquery, hcharacters, hwildcards⟩ := h
    obtain ⟨rank, segments, query, characters, wildcards⟩ := a
    cases hrank
    cases hsegments
    cases hquery
    cases hcharacters
    cases hwildcards
    rfl

end SpecificityKey

/-- Ranks are compared by priority and then by specificity. -/
def rankCompare (a b : ℤ × SpecificityKey) : Ordering :=
  (compare a.1 b.1).then (a.2.compare b.2)

/-- An order of values orders what has them. -/
theorem transCmp_on {α β : Type} {cmp : β → β → Ordering} [Std.TransCmp cmp] (f : α → β) :
    Std.TransCmp fun a b => cmp (f a) (f b) where
  eq_swap := Std.OrientedCmp.eq_swap
  isLE_trans := Std.TransCmp.isLE_trans

instance : Std.TransCmp rankCompare :=
  have : Std.TransCmp fun a b : ℤ × SpecificityKey => a.2.compare b.2 := transCmp_on Prod.snd
  inferInstanceAs (Std.TransCmp (compareLex (compareOn Prod.fst)
    fun a b => SpecificityKey.compare a.2 b.2))

instance : Std.LawfulEqCmp rankCompare where
  eq_of_compare {a b} h := by
    rw [rankCompare, Ordering.then_eq_eq] at h
    exact Prod.ext (Std.LawfulEqCmp.eq_of_compare h.1) (Std.LawfulEqCmp.eq_of_compare h.2)

/-- What candidates are compared by. -/
def PageTypeCandidate.rank (c : PageTypeCandidate) : ℤ × SpecificityKey := (c.priority, c.specificity)

/-- Candidates are compared by their ranks. -/
theorem PageTypeCandidate.compareRank_eq (a b : PageTypeCandidate) :
    a.compareRank b = rankCompare a.rank b.rank := rfl

instance : Std.TransCmp PageTypeCandidate.compareRank :=
  have : Std.TransCmp fun a b : PageTypeCandidate => rankCompare a.rank b.rank := transCmp_on _
  this

/-! ## Candidates -/

section Candidates

variable (lib : Libraries) (url : Url)

/-- A matcher of a page type that matches the URL and is not less specific than any other
such matcher. -/
structure PageType.Best (pageType : PageType) (matcher : UrlMatcher) : Prop where
  mem : matcher ∈ pageType.matchers
  matches_url : matcher.matches lib url = true
  greatest : ∀ other ∈ pageType.matchers, other.matches lib url = true →
    ((other.specificity lib).compare (matcher.specificity lib)).isLE = true

/-- What the candidate of a page type says. -/
structure PageType.Describes (pageType : PageType) (c : PageTypeCandidate) : Prop where
  id : c.pageTypeId = pageType.id
  name : c.pageTypeName = pageType.name
  priority : c.priority = pageType.priority
  kind : c.matcherKind.rank = c.specificity.matcherKindRank
  best : ∃ matcher, pageType.Best lib url matcher
  specificity : ∀ matcher, pageType.Best lib url matcher → matcher.specificity lib = c.specificity
  patterns : ∀ pattern, pattern ∈ c.matchedPatterns ↔
    ∃ matcher, pageType.Best lib url matcher ∧ matcher.pattern = pattern
  sorted : c.matchedPatterns.Pairwise (· < ·)

/-- A sorted list without its repetitions increases strictly. -/
theorem pairwise_dedup {α : Type} [LinearOrder α] : ∀ {l : List α}, l.Pairwise (· ≤ ·) →
    (dedup l).Pairwise (· < ·)
  | [], _ => List.Pairwise.nil
  | [a], _ => List.pairwise_singleton _ a
  | a :: b :: l, h => by
    obtain ⟨hle, htail⟩ := List.pairwise_cons.mp h
    have ih := pairwise_dedup htail
    rw [dedup]
    by_cases hab : a = b
    · rw [if_pos hab]
      exact ih
    · rw [if_neg hab]
      refine List.pairwise_cons.mpr ⟨fun c hc => ?_, ih⟩
      rw [mem_dedup] at hc
      have hlt : a < b := lt_of_le_of_ne (hle b List.mem_cons_self) hab
      rcases List.mem_cons.mp hc with rfl | hc
      · exact hlt
      · exact hlt.trans_le ((List.pairwise_cons.mp htail).1 c hc)

variable {lib} {url}

/-- A page type is no candidate when no matcher accepts the URL. -/
theorem PageType.candidate_eq_none {pageType : PageType} :
    pageType.candidate lib url = none ↔
      ∀ matcher ∈ pageType.matchers, matcher.matches lib url = false := by
  rw [PageType.candidate]
  dsimp only
  rw [Option.map_eq_none_iff, greatest_eq_none, List.map_eq_nil_iff, List.filter_eq_nil_iff]
  simp only [Bool.not_eq_true]

/-- The best matchers are those with the greatest specificity. -/
theorem PageType.best_iff {pageType : PageType} {specificity : SpecificityKey}
    (h : greatest SpecificityKey.compare ((pageType.matchers.filter fun matcher =>
      matcher.matches lib url).map (UrlMatcher.specificity lib)) = some specificity)
    {matcher : UrlMatcher} : pageType.Best lib url matcher ↔
      matcher ∈ (pageType.matchers.filter fun matcher => matcher.matches lib url).filter
        fun matcher => matcher.specificity lib = specificity := by
  obtain ⟨hmem, hgreatest⟩ := greatest_eq_some h
  have hle : ∀ other ∈ pageType.matchers, other.matches lib url = true →
      ((other.specificity lib).compare specificity).isLE = true := fun other hother hmatches =>
    hgreatest _ (List.mem_map_of_mem (List.mem_filter.mpr ⟨hother, hmatches⟩))
  simp only [List.mem_map, List.mem_filter] at hmem
  simp only [List.mem_filter, decide_eq_true_eq]
  constructor
  · rintro ⟨hmatcher, hmatches, hgreatest⟩
    obtain ⟨best, ⟨hbest, hbestMatches⟩, hspecificity⟩ := hmem
    have hge := hgreatest best hbest hbestMatches
    rw [hspecificity] at hge
    have heq := Std.OrientedCmp.isLE_antisymm (hle matcher hmatcher hmatches) hge
    exact ⟨⟨hmatcher, hmatches⟩, Std.LawfulEqCmp.eq_of_compare heq⟩
  · rintro ⟨⟨hmatcher, hmatches⟩, hspecificity⟩
    refine ⟨hmatcher, hmatches, fun other hother hotherMatches => ?_⟩
    rw [hspecificity]
    exact hle other hother hotherMatches

/-- A candidate describes the best matchers of its page type. -/
theorem PageType.candidate_describes {pageType : PageType} {c : PageTypeCandidate}
    (h : pageType.candidate lib url = some c) : pageType.Describes lib url c := by
  rw [PageType.candidate] at h
  obtain ⟨specificity, hgreatest, rfl⟩ := Option.map_eq_some_iff.mp h
  have hbest : ∀ matcher, pageType.Best lib url matcher ↔
      matcher ∈ (pageType.matchers.filter fun matcher => matcher.matches lib url).filter
        fun matcher => matcher.specificity lib = specificity :=
    fun _ => PageType.best_iff hgreatest
  obtain ⟨best, hmem⟩ : ∃ best, best ∈ (pageType.matchers.filter fun matcher =>
      matcher.matches lib url).filter fun matcher => matcher.specificity lib = specificity := by
    obtain ⟨best, hmem, hspecificity⟩ := List.mem_map.mp (greatest_eq_some hgreatest).1
    exact ⟨best, List.mem_filter.mpr ⟨hmem, by simpa using hspecificity⟩⟩
  refine ⟨rfl, rfl, rfl, ?_, ⟨best, (hbest best).mpr hmem⟩, ?_, ?_, ?_⟩
  · obtain ⟨head, tail, hlist⟩ := List.exists_cons_of_ne_nil (List.ne_nil_of_mem hmem)
    have hhead := List.mem_filter.mp (hlist ▸ List.mem_cons_self : head ∈ _)
    rw [hlist]
    simp only [List.head?_cons, Option.map_some, Option.getD_some]
    rw [← of_decide_eq_true hhead.2]
    rfl
  · intro matcher hmatcher
    exact of_decide_eq_true (List.mem_filter.mp ((hbest matcher).mp hmatcher)).2
  · intro pattern
    simp only [mem_dedup, List.mem_mergeSort, List.mem_map, hbest]
  · apply pairwise_dedup
    exact List.pairwise_mergeSort' (· ≤ ·) _

/-- Kinds of matchers differ in rank. -/
theorem UrlMatcherKind.rank_injective : Function.Injective UrlMatcherKind.rank := by
  intro a b h
  cases a <;> cases b <;> first | rfl | cases h

/-- A candidate is determined by its page type and its best matchers. -/
theorem PageType.Describes.eq {pageType pageType' : PageType} {c c' : PageTypeCandidate}
    (h : pageType.Describes lib url c) (h' : pageType'.Describes lib url c')
    (hid : pageType.id = pageType'.id) (hname : pageType.name = pageType'.name)
    (hrank : c.rank = c'.rank)
    (hpatterns : ∀ pattern, pattern ∈ c.matchedPatterns ↔ pattern ∈ c'.matchedPatterns) :
    c = c' := by
  have hpriority : c.priority = c'.priority := congrArg Prod.fst hrank
  have hspecificity : c.specificity = c'.specificity := congrArg Prod.snd hrank
  have hkind : c.matcherKind = c'.matcherKind := by
    apply UrlMatcherKind.rank_injective
    rw [h.kind, h'.kind, hspecificity]
  have hmatched : c.matchedPatterns = c'.matchedPatterns :=
    h.sorted.eq_of_mem_iff h'.sorted hpatterns
  have hid' : c.pageTypeId = c'.pageTypeId := by rw [h.id, h'.id, hid]
  have hname' : c.pageTypeName = c'.pageTypeName := by rw [h.name, h'.name, hname]
  obtain ⟨id, name, priority, kind, specificity, patterns⟩ := c
  cases hid'
  cases hname'
  cases hpriority
  cases hkind
  cases hspecificity
  cases hmatched
  rfl

/-- A matching matcher makes its page type a candidate. -/
theorem PageType.exists_candidate {pageType : PageType} {matcher : UrlMatcher}
    (hmem : matcher ∈ pageType.matchers) (hmatches : matcher.matches lib url = true) :
    ∃ c, pageType.candidate lib url = some c := by
  rcases hcandidate : pageType.candidate lib url with _ | c
  · rw [PageType.candidate_eq_none.mp hcandidate matcher hmem] at hmatches
    cases hmatches
  · exact ⟨c, rfl⟩

end Candidates

/-! ## Ties -/

section Ties

variable (lib : Libraries) (url : Url) (pageTypes : List PageType)

/-- The candidates among page types. -/
def candidates : List PageTypeCandidate :=
  pageTypes.filterMap fun pageType => pageType.candidate lib url

/-- The candidates with the greatest rank. -/
def tiedCandidates : List PageTypeCandidate :=
  (candidates lib url pageTypes).filter fun c =>
    (candidates lib url pageTypes).all fun d => (d.compareRank c).isLE

/-- One candidate wins, several are ambiguous. -/
def decisionOf : List PageTypeCandidate → PageTypeMatchDecision
  | [] => .unmatched
  | [winner] => .matched winner
  | tied => .ambiguous tied

/-- A decision is known by the candidates it was made from. -/
theorem decisionOf_injective : Function.Injective decisionOf := by
  intro l l' h
  rcases l with _ | ⟨a, _ | ⟨b, l⟩⟩
  · rcases l' with _ | ⟨c, _ | ⟨d, l'⟩⟩
    · rfl
    · cases h
    · cases h
  · rcases l' with _ | ⟨c, _ | ⟨d, l'⟩⟩
    · cases h
    · cases h
      rfl
    · cases h
  · rcases l' with _ | ⟨c, _ | ⟨d, l'⟩⟩
    · cases h
    · cases h
    · cases h
      rfl

/-- The decision is made among the candidates with the greatest rank. -/
theorem resolvePageType_eq : resolvePageType lib url pageTypes =
    decisionOf ((tiedCandidates lib url pageTypes).mergeSort PageTypeCandidate.le) := by
  rw [resolvePageType]
  rcases hgreatest : greatest PageTypeCandidate.compareRank
    (pageTypes.filterMap fun pageType => pageType.candidate lib url) with _ | best
  · have hempty : tiedCandidates lib url pageTypes = [] := by
      rw [tiedCandidates, candidates, greatest_eq_none.mp hgreatest]
      rfl
    rw [hempty, List.mergeSort_nil]
    simp only [hgreatest]
    rfl
  · obtain ⟨hmem, hle⟩ := greatest_eq_some hgreatest
    have htied : ((pageTypes.filterMap fun pageType => pageType.candidate lib url).filter
        fun c => c.compareRank best = .eq) = tiedCandidates lib url pageTypes := by
      apply List.filter_congr
      intro c hc
      rw [Bool.eq_iff_iff, decide_eq_true_eq, List.all_eq_true]
      constructor
      · intro heq d hd
        have hcb : best.compareRank c = .eq := Std.OrientedCmp.eq_symm heq
        exact Std.TransCmp.isLE_trans (hle d hd) (by rw [hcb]; rfl)
      · intro hall
        exact Std.OrientedCmp.isLE_antisymm (hle c hc) (hall best hmem)
    have hbest : best ∈ tiedCandidates lib url pageTypes := by
      rw [← htied]
      have hself : best.compareRank best = .eq := Std.ReflCmp.compare_self
      exact List.mem_filter.mpr ⟨hmem, decide_eq_true hself⟩
    simp only [hgreatest, htied]
    rcases hsorted : (tiedCandidates lib url pageTypes).mergeSort PageTypeCandidate.le
      with _ | ⟨c, _ | ⟨d, l⟩⟩
    · have hnone : best ∈ (tiedCandidates lib url pageTypes).mergeSort PageTypeCandidate.le :=
        List.mem_mergeSort.mpr hbest
      rw [hsorted] at hnone
      cases hnone
    · rfl
    · rfl

/-- A matcher that matches the URL, and no match of a listed page type ranks higher. -/
structure Leads (pageType : PageType) (matcher : UrlMatcher) : Prop where
  listed : pageType ∈ pageTypes
  mem : matcher ∈ pageType.matchers
  matches_url : matcher.matches lib url = true
  greatest : ∀ other ∈ pageTypes, ∀ rival ∈ other.matchers, rival.matches lib url = true →
    (rankCompare (other.priority, rival.specificity lib)
      (pageType.priority, matcher.specificity lib)).isLE = true

variable {lib url pageTypes}

/-- At equal priority the specificity decides. -/
theorem rankCompare_same {priority : ℤ} {a b : SpecificityKey} :
    rankCompare (priority, a) (priority, b) = a.compare b := by
  have hself : compare priority priority = .eq := Std.ReflCmp.compare_self
  rw [rankCompare, hself]
  rfl

/-- A matcher that leads is among the best of its page type. -/
theorem Leads.best {pageType : PageType} {matcher : UrlMatcher}
    (h : Leads lib url pageTypes pageType matcher) : pageType.Best lib url matcher where
  mem := h.mem
  matches_url := h.matches_url
  greatest other hother hmatches := by
    have hle := h.greatest pageType h.listed other hother hmatches
    rw [rankCompare_same] at hle
    exact hle

/-- The rank of a candidate is its priority and its best matchers' specificity. -/
theorem PageType.Describes.rank_eq {pageType : PageType} {c : PageTypeCandidate}
    (h : pageType.Describes lib url c) {matcher : UrlMatcher}
    (hbest : pageType.Best lib url matcher) :
    c.rank = (pageType.priority, matcher.specificity lib) := by
  rw [PageTypeCandidate.rank, h.priority, h.specificity matcher hbest]

/-- Candidates with the greatest rank come from leading matchers. -/
theorem mem_tiedCandidates {c : PageTypeCandidate} : c ∈ tiedCandidates lib url pageTypes ↔
    ∃ pageType ∈ pageTypes, pageType.candidate lib url = some c ∧
      ∀ matcher, pageType.Best lib url matcher → Leads lib url pageTypes pageType matcher := by
  rw [tiedCandidates, List.mem_filter, List.all_eq_true]
  constructor
  · rintro ⟨hmem, hgreatest⟩
    obtain ⟨pageType, hlisted, hcandidate⟩ := List.mem_filterMap.mp hmem
    refine ⟨pageType, hlisted, hcandidate, fun matcher hbest =>
      ⟨hlisted, hbest.mem, hbest.matches_url, fun other hother rival hrival hmatches => ?_⟩⟩
    have hdescribes := PageType.candidate_describes hcandidate
    obtain ⟨d, hd⟩ := PageType.exists_candidate hrival hmatches
    have hother' := PageType.candidate_describes hd
    obtain ⟨best, hbest'⟩ := hother'.best
    have hle := hgreatest d (List.mem_filterMap.mpr ⟨other, hother, hd⟩)
    rw [PageTypeCandidate.compareRank_eq, hdescribes.rank_eq hbest, hother'.rank_eq hbest'] at hle
    have hrival' : (rankCompare (other.priority, rival.specificity lib)
        (other.priority, best.specificity lib)).isLE = true := by
      rw [rankCompare_same]
      exact hbest'.greatest rival hrival hmatches
    exact Std.TransCmp.isLE_trans hrival' hle
  · rintro ⟨pageType, hlisted, hcandidate, hleads⟩
    have hdescribes := PageType.candidate_describes hcandidate
    obtain ⟨best, hbest⟩ := hdescribes.best
    refine ⟨List.mem_filterMap.mpr ⟨pageType, hlisted, hcandidate⟩, fun d hd => ?_⟩
    obtain ⟨other, hother, hd⟩ := List.mem_filterMap.mp hd
    have hother' := PageType.candidate_describes hd
    obtain ⟨rival, hrival⟩ := hother'.best
    rw [PageTypeCandidate.compareRank_eq, hdescribes.rank_eq hbest, hother'.rank_eq hrival]
    exact (hleads best hbest).greatest other hother rival hrival.mem hrival.matches_url

/-- The pattern of a leading matcher of the page type. -/
def LeadingPattern (lib : Libraries) (url : Url) (pageTypes : List PageType)
    (pageType : PageType) (pattern : String) : Prop :=
  ∃ matcher, Leads lib url pageTypes pageType matcher ∧ matcher.pattern = pattern

/-- A leading page type has a candidate, whose patterns are the leading ones. -/
theorem Leads.candidate {pageType : PageType} {matcher : UrlMatcher}
    (h : Leads lib url pageTypes pageType matcher) :
    ∃ c, pageType.candidate lib url = some c ∧ c ∈ tiedCandidates lib url pageTypes ∧
      ∀ pattern, pattern ∈ c.matchedPatterns ↔
        LeadingPattern lib url pageTypes pageType pattern := by
  obtain ⟨c, hc⟩ := PageType.exists_candidate h.mem h.matches_url
  have hdescribes := PageType.candidate_describes hc
  have hleads : ∀ best, pageType.Best lib url best → Leads lib url pageTypes pageType best := by
    intro best hbest
    refine ⟨h.listed, hbest.mem, hbest.matches_url, fun other hother rival hrival hmatches => ?_⟩
    have hspecificity : best.specificity lib = matcher.specificity lib := by
      rw [hdescribes.specificity best hbest, hdescribes.specificity matcher h.best]
    rw [hspecificity]
    exact h.greatest other hother rival hrival hmatches
  refine ⟨c, hc, mem_tiedCandidates.mpr ⟨pageType, h.listed, hc, hleads⟩, fun pattern => ?_⟩
  rw [hdescribes.patterns]
  constructor
  · rintro ⟨best, hbest, hpattern⟩
    exact ⟨best, hleads best hbest, hpattern⟩
  · rintro ⟨best, hbest, hpattern⟩
    exact ⟨best, hbest.best, hpattern⟩

end Ties

end Erabi.Authoring

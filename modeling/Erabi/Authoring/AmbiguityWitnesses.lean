/-
# Ambiguity at design time and at run time

The check before publication resolves a few URLs as a run would.  What it reports is
ambiguous in a run, and of the seeds it misses nothing.  Two competing matchers are
reported where their witness is ambiguous; a more specific matcher of the same page type
may win there and hide that the other URLs of the two are ambiguous.
-/
import Mathlib
import Erabi.Authoring.ReportOrder

namespace Erabi.Authoring

variable {lib : Libraries} {context : VersionValidationContext}

/-! ## Leading page types -/

/-- A competing matcher leads where the other does and it matches. -/
theorem Leads.of_competes {url : Url} {pageTypes : List PageType} {pageType other : PageType}
    {left right : UrlMatcher} (h : Leads lib url pageTypes pageType left)
    (hother : other ∈ pageTypes) (hpriority : pageType.priority = other.priority)
    (hright : right ∈ other.matchers) (hcompetes : competes lib left right = true)
    (hmatches : right.matches lib url = true) : Leads lib url pageTypes other right where
  listed := hother
  mem := hright
  matches_url := hmatches
  greatest third hthird rival hrival hrivalMatches := by
    have hspecificity := (competes_iff.mp hcompetes).2.2.1
    rw [← hpriority, ← hspecificity]
    exact h.greatest third hthird rival hrival hrivalMatches

/-- The candidates of an ambiguous decision are those of the leading page types. -/
theorem exists_ambiguous {url : Url} {pageTypes : List PageType}
    (h : (resolvePageType lib url pageTypes).isAmbiguous = true) :
    ∃ candidates, resolvePageType lib url pageTypes = .ambiguous candidates ∧
      2 ≤ candidates.length ∧ ∀ c, c ∈ candidates ↔ c ∈ tiedCandidates lib url pageTypes := by
  have hmany := isAmbiguous_iff.mp h
  rw [resolvePageType_eq]
  have hsorted := List.mergeSort_perm (tiedCandidates lib url pageTypes) PageTypeCandidate.le
  rw [← hsorted.length_eq] at hmany
  refine ⟨_, ?_, hmany, fun c => hsorted.mem_iff⟩
  rcases hlist : (tiedCandidates lib url pageTypes).mergeSort PageTypeCandidate.le with
    _ | ⟨a, _ | ⟨b, l⟩⟩
  · rw [hlist] at hmany
    exact absurd hmany (by decide)
  · rw [hlist] at hmany
    exact absurd hmany (lt_irrefl 1)
  · rfl

namespace VersionValidationContext

/-- A witness is the canonical text of a URL that resolves ambiguously. -/
theorem ambiguousWitness_eq_some {url : Url} {witness : String} :
    context.ambiguousWitness lib url = some witness ↔
      ∃ result, context.canonicalize lib url = .ok result ∧ result.canonicalUrl.text = witness ∧
        (resolvePageType lib result.canonicalUrl context.pageTypes).isAmbiguous = true := by
  rw [ambiguousWitness]
  rcases hcanonical : context.canonicalize lib url with error | result
  · simp
  · simp only [Except.ok.injEq, exists_eq_left']
    split
    · rename_i hambiguous
      rw [Option.some.injEq]
      exact ⟨fun h => ⟨h, hambiguous⟩, fun h => h.1⟩
    · rename_i hnot
      exact ⟨fun h => (by cases h), fun h => absurd h.2 hnot⟩

/-! ## What is reported -/

/-- What is reported is ambiguous between the page types that lead. -/
theorem witness_resolves {witness : String}
    (h : witness ∈ context.designTimeAmbiguityWitnesses lib) :
    ∃ url candidates, url.text = witness ∧
      resolvePageType lib url context.pageTypes = .ambiguous candidates ∧
        2 ≤ candidates.length ∧ ∀ c, c ∈ candidates ↔
          ∃ pageType ∈ context.pageTypes, pageType.candidate lib url = some c ∧
            ∃ matcher, Leads lib url context.pageTypes pageType matcher := by
  obtain ⟨known, -, hknown⟩ := mem_designTimeAmbiguityWitnesses.mp h
  obtain ⟨result, -, htext, hambiguous⟩ := ambiguousWitness_eq_some.mp hknown
  obtain ⟨candidates, hresolve, hlength, hmem⟩ := exists_ambiguous hambiguous
  refine ⟨result.canonicalUrl, candidates, htext, hresolve, hlength, fun c => ?_⟩
  rw [hmem]
  constructor
  · intro htied
    obtain ⟨pageType, hlisted, hcandidate, -⟩ := mem_tiedCandidates.mp htied
    exact ⟨pageType, hlisted, hcandidate, exists_leads_of_tied hlisted hcandidate htied⟩
  · rintro ⟨pageType, -, hcandidate, matcher, hleads⟩
    obtain ⟨d, hd, htied, -⟩ := hleads.candidate
    rw [hcandidate] at hd
    cases hd
    exact htied

/-- Of the URLs that are tried, the ambiguous ones are reported. -/
theorem reported_of_known {url : Url} (hurl : url ∈ context.knownUrls lib)
    {result : CanonicalizationResult} (hresult : context.canonicalize lib url = .ok result)
    (hambiguous : (resolvePageType lib result.canonicalUrl context.pageTypes).isAmbiguous = true) :
    result.canonicalUrl.text ∈ context.designTimeAmbiguityWitnesses lib :=
  mem_designTimeAmbiguityWitnesses.mpr
    ⟨url, hurl, ambiguousWitness_eq_some.mpr ⟨result, hresult, rfl, hambiguous⟩⟩

theorem reported_of_competing {left right : UrlMatcher} {pageType other : PageType} {witness : Url}
    (h : CompetingWitness lib context.pageTypes left right pageType other witness)
    {result : CanonicalizationResult} (hresult : context.canonicalize lib witness = .ok result)
    (hleads : Leads lib result.canonicalUrl context.pageTypes pageType left)
    (hmatches : right.matches lib result.canonicalUrl = true) :
    result.canonicalUrl.text ∈ context.designTimeAmbiguityWitnesses lib ∧
      ∃ candidates c d,
        resolvePageType lib result.canonicalUrl context.pageTypes = .ambiguous candidates ∧
          pageType.candidate lib result.canonicalUrl = some c ∧ c ∈ candidates ∧
            other.candidate lib result.canonicalUrl = some d ∧ d ∈ candidates := by
  have hlisted := (mem_of_mem_pairs h.pair).2
  have hother : Leads lib result.canonicalUrl context.pageTypes other right :=
    hleads.of_competes hlisted h.priority h.right_mem h.competes hmatches
  have hambiguous : (resolvePageType lib result.canonicalUrl context.pageTypes).isAmbiguous = true :=
    isAmbiguous_iff_leads.mpr ⟨pageType, other, h.pair, ⟨left, hleads⟩, ⟨right, hother⟩⟩
  have hknown : witness ∈ context.knownUrls lib :=
    mem_knownUrls.mpr (Or.inr ⟨left, right, pageType, other, h⟩)
  refine ⟨reported_of_known hknown hresult hambiguous, ?_⟩
  obtain ⟨candidates, hresolve, -, hmem⟩ := exists_ambiguous hambiguous
  obtain ⟨c, hc, hcTied, -⟩ := hleads.candidate
  obtain ⟨d, hd, hdTied, -⟩ := hother.candidate
  exact ⟨candidates, c, d, hresolve, hc, (hmem c).mpr hcTied, hd, (hmem d).mpr hdTied⟩

end VersionValidationContext

open VersionValidationContext (CompetingWitness)

/-- What is reported is ambiguous in a run; every enabled seed whose canonical URL is
ambiguous is reported; and of two page types with one priority and a common matcher, the
canonical witness is reported where both match it and no matcher outranks theirs. -/
theorem design_time_agrees (lib : Libraries) (context : VersionValidationContext) :
    (∀ witness ∈ context.designTimeAmbiguityWitnesses lib, ∃ url candidates, url.text = witness ∧
      resolvePageType lib url context.pageTypes = .ambiguous candidates ∧
        2 ≤ candidates.length ∧ ∀ c, c ∈ candidates ↔
          ∃ pageType ∈ context.pageTypes, pageType.candidate lib url = some c ∧
            ∃ matcher, Leads lib url context.pageTypes pageType matcher) ∧
    (∀ seed ∈ context.version.seeds, seed.enabled = true →
      ∀ result, context.canonicalize lib seed.originalUrl = .ok result →
        (resolvePageType lib result.canonicalUrl context.pageTypes).isAmbiguous = true →
          result.canonicalUrl.text ∈ context.designTimeAmbiguityWitnesses lib) ∧
    (∀ left right pageType other witness,
      CompetingWitness lib context.pageTypes left right pageType other witness →
        ∀ result, context.canonicalize lib witness = .ok result →
          Leads lib result.canonicalUrl context.pageTypes pageType left →
            right.matches lib result.canonicalUrl = true →
              result.canonicalUrl.text ∈ context.designTimeAmbiguityWitnesses lib ∧
                ∃ candidates c d,
                  resolvePageType lib result.canonicalUrl context.pageTypes =
                    .ambiguous candidates ∧
                  pageType.candidate lib result.canonicalUrl = some c ∧ c ∈ candidates ∧
                    other.candidate lib result.canonicalUrl = some d ∧ d ∈ candidates) := by
  refine ⟨fun witness h => VersionValidationContext.witness_resolves h, ?_, ?_⟩
  · intro seed hseed henabled result hresult hambiguous
    have hknown : seed.originalUrl ∈ context.knownUrls lib :=
      VersionValidationContext.mem_knownUrls.mpr
        (Or.inl ⟨seed, List.mem_filter.mpr ⟨hseed, henabled⟩, rfl⟩)
    exact VersionValidationContext.reported_of_known hknown hresult hambiguous
  · intro left right pageType other witness h result hresult hleads hmatches
    exact VersionValidationContext.reported_of_competing h hresult hleads hmatches

/-! ### Witnesses of the shop -/

namespace Shop

/-- The URL with the path `/a`. -/
def page : Url := ⟨"https://shop.test/a", by simp [Printable, isControl]⟩

/-- The URL of the sample page. -/
theorem url_page : url "/a".toList = some page := by
  apply url_eq_some
  rw [← String.toList_inj, String.toList_ofList]
  rfl

/-- The sample page types compete at that page. -/
theorem witness_rivals : CompetingWitness libraries (draftOf rivals).pageTypes
    (.pathPrefix (some "shop.test") "/a") (.pathPrefix (some "Shop.test") "/a")
    (pageType 1 0 "shop.test" "/a") (pageType 2 0 "Shop.test" "/a") page where
  pair := by simp [draftOf, rivals, pairs]
  priority := rfl
  left_mem := List.mem_singleton.mpr rfl
  right_mem := List.mem_singleton.mpr rfl
  competes := competes_iff.mpr ⟨by decide, by decide, rfl, matcherFingerprint_pathPrefix (by decide)⟩
  witness := by
    have hshop : "shop.test" = "shop.test" ++ "" := rfl
    rw [hshop, matcherWitness_shop (by decide) (by decide)]
    exact url_page

/-- The first of them leads there. -/
theorem leads_rivals : Leads libraries page (draftOf rivals).pageTypes
    (pageType 1 0 "shop.test" "/a") (.pathPrefix (some "shop.test") "/a") where
  listed := List.mem_cons_self
  mem := List.mem_singleton.mpr rfl
  matches_url := matches_pathPrefix url_page rfl (by decide)
  greatest other hother rival hrival _ := by
    rcases List.mem_cons.mp hother with rfl | hother
    · rw [List.mem_singleton.mp hrival]
      exact Std.ReflCmp.isLE_rfl
    · rw [List.mem_singleton.mp hother] at hrival ⊢
      rw [List.mem_singleton.mp hrival]
      exact Std.ReflCmp.isLE_rfl

/-- The rivals are reported. -/
theorem design_time_agrees_rivals :
    page.text ∈ (draftOf rivals).designTimeAmbiguityWitnesses libraries := by
  have hpolicy : CanonicalizationPolicy.default.validate = .ok () := by decide
  obtain ⟨result, hresult, hcanonical⟩ := canonicalize_eq_ok hpolicy (parse_url url_page rfl)
  have hreported := (design_time_agrees libraries (draftOf rivals)).2.2 _ _ _ _ _ witness_rivals
    result hresult
  rw [hcanonical] at hreported
  exact (hreported leads_rivals (matches_pathPrefix url_page (by decide) (by decide))).1

/-! ### A page type with two matchers -/

/-- A page type that has a URL of its own beside the paths it shares. -/
def landing : PageType :=
  ⟨numberedId 1, "page", 0, [.pathPrefix (some "shop.test") "/a", .exactUrl page]⟩

/-- A page type with the paths only. -/
def below : PageType := pageType 2 0 "shop.test" "/a"

/-- The exact URL outranks the paths. -/
theorem not_leads_below (matcher : UrlMatcher) :
    ¬ Leads libraries page [landing, below] below matcher := by
  intro hleads
  have hmatches : (UrlMatcher.exactUrl page).matches libraries page = true := by
    show decide (page = page) = true
    exact decide_eq_true rfl
  have hle := hleads.greatest landing List.mem_cons_self (.exactUrl page) (by simp [landing]) hmatches
  rw [List.mem_singleton.mp hleads.mem, show landing.priority = below.priority from rfl,
    rankCompare_same] at hle
  cases hle

/-- The only witness that is tried is the URL of its own. -/
theorem landing_not_reported :
    (draftOf [landing, below]).designTimeAmbiguityWitnesses libraries = [] := by
  rw [List.eq_nil_iff_forall_not_mem]
  intro witness hwitness
  obtain ⟨u, hu, hambiguous⟩ :=
    VersionValidationContext.mem_designTimeAmbiguityWitnesses.mp hwitness
  have hpage : u = page := by
    rcases VersionValidationContext.mem_knownUrls.mp hu with ⟨seed, hseed, -⟩ |
      ⟨left, right, first, second, h⟩
    · cases hseed
    · have hpair : first = landing ∧ second = below := by simpa [draftOf, pairs] using h.pair
      obtain ⟨rfl, rfl⟩ := hpair
      have hright := List.mem_singleton.mp h.right_mem
      have hleft := h.left_mem
      have htried := h.witness
      rcases List.mem_cons.mp hleft with rfl | hleft
      · have hshop : "shop.test" = "shop.test" ++ "" := rfl
        rw [hshop, matcherWitness_shop (by decide) (by decide)] at htried
        exact (Option.some.inj (url_page.symm.trans htried)).symm
      · -- an exact URL and a prefix differ in their kinds
        have hkind := congrArg SpecificityKey.matcherKindRank
          (competes_iff.mp h.competes).2.2.1
        rw [List.mem_singleton.mp hleft, hright] at hkind
        cases hkind
  rw [hpage, ambiguousWitness_shop url_page (by decide)] at hambiguous
  split at hambiguous
  · rename_i hleads
    obtain ⟨first, second, hpair, -, matcher, hsecond⟩ := isAmbiguous_iff_leads.mp hleads
    have hlisted : first = landing ∧ second = below := by simpa [pairs] using hpair
    rw [hlisted.2] at hsecond
    exact not_leads_below matcher hsecond
  · cases hambiguous

/-- The URL with the path `/a/b`. -/
def longer : Url := ⟨"https://shop.test/a/b", by simp [Printable, isControl]⟩

/-- The URL of a page below it. -/
theorem url_longer : url "/a/b".toList = some longer := by
  apply url_eq_some
  rw [← String.toList_inj, String.toList_ofList]
  rfl

/-- On a longer path the two page types lead with the prefix. -/
theorem leads_longer {pageType : PageType} (hlisted : pageType ∈ [landing, below]) :
    Leads libraries longer [landing, below] pageType (.pathPrefix (some "shop.test") "/a") where
  listed := hlisted
  mem := by
    rcases List.mem_cons.mp hlisted with rfl | hlisted
    · exact List.mem_cons_self
    · rw [List.mem_singleton.mp hlisted]
      exact List.mem_cons_self
  matches_url := matches_pathPrefix url_longer rfl (by decide)
  greatest other hother rival hrival hmatches := by
    have hpriority : ∀ page ∈ [landing, below], page.priority = 0 := by
      intro page hpage
      rcases List.mem_cons.mp hpage with rfl | hpage
      · rfl
      · rw [List.mem_singleton.mp hpage]
        rfl
    have hrivalPath : rival = .pathPrefix (some "shop.test") "/a" := by
      rcases List.mem_cons.mp hother with rfl | hother
      · rcases List.mem_cons.mp hrival with hrival | hrival
        · exact hrival
        · rw [List.mem_singleton.mp hrival] at hmatches
          have hsame : page = longer := of_decide_eq_true hmatches
          exact absurd (congrArg Url.text hsame) (by decide)
      · rw [List.mem_singleton.mp hother] at hrival
        exact List.mem_singleton.mp hrival
    rw [hrivalPath, hpriority other hother, hpriority pageType hlisted]
    exact Std.ReflCmp.isLE_rfl

/-- Two page types with one matcher need not be reported, even where there is no other and
some URL is ambiguous. -/
theorem own_matcher_outranks : ¬ ∀ (lib : Libraries) (context : VersionValidationContext)
    (pageType other : PageType), (pageType, other) ∈ pairs context.pageTypes →
      pageType.priority = other.priority →
        (∀ third ∈ context.pageTypes, third = pageType ∨ third = other) →
          ∀ matcher ∈ pageType.matchers, matcher ∈ other.matchers → matcher.kind ≠ .regex →
            (∃ url, (resolvePageType lib url context.pageTypes).isAmbiguous = true) →
              context.designTimeAmbiguityWitnesses lib ≠ [] := by
  intro h
  have hambiguous : (resolvePageType libraries longer [landing, below]).isAmbiguous = true :=
    isAmbiguous_iff_leads.mpr ⟨landing, below, by simp [pairs],
      ⟨_, leads_longer List.mem_cons_self⟩, ⟨_, leads_longer (by simp)⟩⟩
  refine h libraries (draftOf [landing, below]) landing below (by simp [draftOf, pairs]) rfl ?_
    (.pathPrefix (some "shop.test") "/a") List.mem_cons_self List.mem_cons_self (by decide)
    ⟨longer, hambiguous⟩ landing_not_reported
  intro third hthird
  simpa [draftOf] using hthird

end Shop

end Erabi.Authoring

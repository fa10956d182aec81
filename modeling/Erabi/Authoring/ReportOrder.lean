/-
# The order of a version and its report

A validation gives the same report whatever the order of registration, of the seeds, the
page types, the transitions and the test evidence.  The core contributor compares the
page types two by two and tries a witness of the one that comes first; the definitions of
the matchers have to be valid for the other to have the same.
-/
import Mathlib
import Erabi.Authoring.Registry
import Erabi.Authoring.Witnesses

namespace Erabi.Authoring

variable {lib : Libraries} {context context' : VersionValidationContext}

namespace VersionValidationContext

/-- Every matcher has a valid definition. -/
def ValidMatchers (lib : Libraries) (context : VersionValidationContext) : Prop :=
  ∀ pageType ∈ context.pageTypes, ∀ matcher ∈ pageType.matchers,
    matcher.validateDefinition lib = .ok ()

/-- The matchers are the same. -/
theorem Reordered.validMatchers (h : context.Reordered context')
    (hvalid : context.ValidMatchers lib) : context'.ValidMatchers lib :=
  fun pageType hpageType => hvalid pageType (h.pageTypes.mem_iff.mpr hpageType)

/-! ## Ambiguity in another order -/

/-- The policy is the same. -/
theorem Reordered.canonicalize_eq (h : context.Reordered context') (url : Url) :
    context'.canonicalize lib url = context.canonicalize lib url := by
  rw [canonicalize, canonicalize, h.version]

/-- The enabled seeds are the same, in another order. -/
theorem Reordered.enabledSeeds (h : context.Reordered context') :
    context.enabledSeeds.Perm context'.enabledSeeds :=
  h.seeds.filter _

/-- Where a URL is ambiguous does not depend on the order of the page types. -/
theorem Reordered.ambiguousWitness_eq (h : context.Reordered context') :
    context'.ambiguousWitness lib = context.ambiguousWitness lib := by
  funext url
  rw [ambiguousWitness, ambiguousWitness, h.canonicalize_eq]
  rcases context.canonicalize lib url with error | canonical
  · rfl
  · dsimp only
    rw [isAmbiguous_perm h.pageTypes]

/-- Competing matchers of page types in another order have the same witness. -/
theorem Reordered.competingWitness (h : context.Reordered context') (laws : WitnessLaws lib)
    (hvalid : context.ValidMatchers lib) {left right : UrlMatcher} {pageType other : PageType}
    {url : Url}
    (hwitness : CompetingWitness lib context.pageTypes left right pageType other url) :
    CompetingWitness lib context'.pageTypes left right pageType other url ∨
      CompetingWitness lib context'.pageTypes right left other pageType url := by
  obtain ⟨hpageType, hother⟩ := mem_of_mem_pairs hwitness.pair
  rcases mem_pairs_perm h.pageTypes hwitness.pair with hpair | hpair
  · exact Or.inl { hwitness with pair := hpair }
  · -- now the other page type comes first, and its matcher gives the witness
    right
    have hfingerprint := (competes_iff.mp hwitness.competes).2.2.2
    have hleft := hvalid pageType hpageType left hwitness.left_mem
    have hright := hvalid other hother right hwitness.right_mem
    constructor
    · exact hpair
    · exact hwitness.priority.symm
    · exact hwitness.right_mem
    · exact hwitness.left_mem
    · exact competes_symm hwitness.competes
    · rw [← laws.matcherWitness_eq hleft hright hfingerprint]
      exact hwitness.witness

/-- A URL that is tried is tried in the other order too. -/
theorem Reordered.knownUrls_subset (h : context.Reordered context') (laws : WitnessLaws lib)
    (hvalid : context.ValidMatchers lib) {url : Url} (hurl : url ∈ context.knownUrls lib) :
    url ∈ context'.knownUrls lib := by
  rw [mem_knownUrls] at hurl ⊢
  rcases hurl with ⟨seed, hseed, hurl⟩ | ⟨left, right, pageType, other, hwitness⟩
  · exact Or.inl ⟨seed, h.enabledSeeds.mem_iff.mp hseed, hurl⟩
  · rcases h.competingWitness laws hvalid hwitness with hwitness | hwitness
    · exact Or.inr ⟨left, right, pageType, other, hwitness⟩
    · exact Or.inr ⟨right, left, other, pageType, hwitness⟩

/-- The witnesses are sorted, and each is there once. -/
theorem sorted_designTimeAmbiguityWitnesses (lib : Libraries) (context : VersionValidationContext) :
    (context.designTimeAmbiguityWitnesses lib).Pairwise (· < ·) := by
  apply pairwise_dedup
  exact List.pairwise_mergeSort' (· ≤ ·) _

/-- The witnesses are sorted, so they are the same list. -/
theorem Reordered.designTimeAmbiguityWitnesses_eq (h : context.Reordered context')
    (laws : WitnessLaws lib) (hvalid : context.ValidMatchers lib) :
    context.designTimeAmbiguityWitnesses lib = context'.designTimeAmbiguityWitnesses lib := by
  apply (sorted_designTimeAmbiguityWitnesses lib context).eq_of_mem_iff
    (sorted_designTimeAmbiguityWitnesses lib context')
  intro witness
  rw [mem_designTimeAmbiguityWitnesses, mem_designTimeAmbiguityWitnesses, h.ambiguousWitness_eq]
  constructor
  · rintro ⟨url, hurl, hambiguous⟩
    exact ⟨url, h.knownUrls_subset laws hvalid hurl, hambiguous⟩
  · rintro ⟨url, hurl, hambiguous⟩
    exact ⟨url, h.symm.knownUrls_subset laws (h.validMatchers hvalid) hurl, hambiguous⟩

/-! ## Issues in another order -/

/-- The page types are the same. -/
theorem Reordered.pageTypeIds_contains (h : context.Reordered context') (id : Id) :
    context'.pageTypeIds.contains id = context.pageTypeIds.contains id :=
  ((h.pageTypes.map PageType.id).contains_eq).symm

/-- The evidence is the same, in another order. -/
theorem Reordered.currentEvidence (h : context.Reordered context') :
    context.currentEvidence.Perm context'.currentEvidence := by
  rw [VersionValidationContext.currentEvidence, VersionValidationContext.currentEvidence,
    h.version, h.configHash]
  exact h.testEvidence.filter _

/-- Whether a seed is enabled is the same. -/
theorem Reordered.enabledSeedIssues_eq (h : context.Reordered context') :
    context'.enabledSeedIssues = context.enabledSeedIssues := by
  have hnil : context'.enabledSeeds = [] ↔ context.enabledSeeds = [] := by
    rw [← List.length_eq_zero_iff, ← List.length_eq_zero_iff, h.enabledSeeds.length_eq]
  rw [enabledSeedIssues, enabledSeedIssues]
  simp only [hnil]

/-- Issues of seeds come in the order of the seeds. -/
theorem Reordered.canonicalizationIssues (h : context.Reordered context') :
    (context.canonicalizationIssues lib).Perm (context'.canonicalizationIssues lib) := by
  have hissue : context'.seedCanonicalizationIssue lib = context.seedCanonicalizationIssue lib := by
    funext seed
    rw [seedCanonicalizationIssue, seedCanonicalizationIssue, h.canonicalize_eq]
  have hpolicy : context'.version.canonicalizationPolicy = context.version.canonicalizationPolicy := by
    rw [h.version]
  rw [VersionValidationContext.canonicalizationIssues,
    VersionValidationContext.canonicalizationIssues, hpolicy, hissue]
  rcases context.version.canonicalizationPolicy.validate with error | valid
  · exact List.Perm.refl _
  · exact h.enabledSeeds.filterMap _

/-- Hints are judged by the same page types. -/
theorem Reordered.seedHintIssues (h : context.Reordered context') :
    context.seedHintIssues.Perm context'.seedHintIssues := by
  have hforeign : context'.foreignHint = context.foreignHint := by
    funext seed
    rw [foreignHint, foreignHint]
    simp only [h.pageTypeIds_contains]
  rw [VersionValidationContext.seedHintIssues, VersionValidationContext.seedHintIssues, hforeign]
  exact (h.seeds.filter _).map _

/-- Issues of matchers come in the order of the page types. -/
theorem Reordered.matcherIssues (h : context.Reordered context') :
    (context.matcherIssues lib).Perm (context'.matcherIssues lib) :=
  h.pageTypes.flatMap_right _

/-- The scope is the same. -/
theorem Reordered.domainScopeIssues_eq (h : context.Reordered context') :
    context'.domainScopeIssues lib = context.domainScopeIssues lib := by
  rw [domainScopeIssues, domainScopeIssues, h.version]

/-- The guardrails are the same. -/
theorem Reordered.guardrailIssues_eq (h : context.Reordered context') :
    context'.guardrailIssues = context.guardrailIssues := by
  have hforeign : context'.foreignBudget = context.foreignBudget := by
    funext budget
    rw [foreignBudget, foreignBudget, h.pageTypeIds_contains]
  rw [guardrailIssues, guardrailIssues, hforeign, h.version]

/-- Issues of transitions come in their order. -/
theorem Reordered.transitionIssues (h : context.Reordered context') :
    context.transitionIssues.Perm context'.transitionIssues := by
  have hissue : context'.transitionIssue = context.transitionIssue := by
    funext transition
    rw [transitionIssue, transitionIssue, h.pageTypeIds_contains, h.pageTypeIds_contains]
  rw [VersionValidationContext.transitionIssues, VersionValidationContext.transitionIssues, hissue]
  exact h.transitions.flatMap_right _

/-- The witnesses are the same. -/
theorem Reordered.ambiguityIssues_eq (h : context.Reordered context') (laws : WitnessLaws lib)
    (hvalid : context.ValidMatchers lib) :
    context'.ambiguityIssues lib = context.ambiguityIssues lib := by
  have hversion : context'.version.id = context.version.id := by rw [h.version]
  rw [ambiguityIssues, ambiguityIssues, hversion, h.designTimeAmbiguityWitnesses_eq laws hvalid]

/-- A page type has the same evidence. -/
theorem Reordered.pageTypeEvidence (h : context.Reordered context') (pageType : PageType) :
    (context.pageTypeEvidence pageType).Perm (context'.pageTypeEvidence pageType) :=
  h.currentEvidence.filter _

/-- Issues of evidence come in the order of the page types. -/
theorem Reordered.pageTypeEvidenceIssues (h : context.Reordered context') :
    context.pageTypeEvidenceIssues.Perm context'.pageTypeEvidenceIssues := by
  have hissue : context'.pageTypeEvidenceIssue = context.pageTypeEvidenceIssue := by
    funext pageType
    have hevidence := h.pageTypeEvidence pageType
    have hnil : context'.pageTypeEvidence pageType = [] ↔ context.pageTypeEvidence pageType = [] := by
      rw [← List.length_eq_zero_iff, ← List.length_eq_zero_iff, hevidence.length_eq]
    have hobservations := hevidence.flatMap_right TestEvidence.selectorCoverage
    have hunusable : context'.selectorCoverageUnusable pageType =
        context.selectorCoverageUnusable pageType := by
      rw [selectorCoverageUnusable, selectorCoverageUnusable, hobservations.contains_eq,
        hobservations.contains_eq]
    rw [pageTypeEvidenceIssue, pageTypeEvidenceIssue, hunusable]
    simp only [hnil]
  rw [VersionValidationContext.pageTypeEvidenceIssues,
    VersionValidationContext.pageTypeEvidenceIssues, hissue]
  exact h.pageTypes.flatMap_right _

/-- Issues of evidence come in the order of the transitions. -/
theorem Reordered.transitionEvidenceIssues (h : context.Reordered context') :
    context.transitionEvidenceIssues.Perm context'.transitionEvidenceIssues := by
  have htested : context'.transitionTested = context.transitionTested := by
    funext transition
    rw [transitionTested, transitionTested, h.currentEvidence.any_eq]
  rw [VersionValidationContext.transitionEvidenceIssues,
    VersionValidationContext.transitionEvidenceIssues, htested]
  exact (h.transitions.filter _).map _

/-- The core issues, in some order. -/
theorem Reordered.coreIssues (h : context.Reordered context') (laws : WitnessLaws lib)
    (hvalid : context.ValidMatchers lib) :
    (context.coreIssues lib).Perm (context'.coreIssues lib) := by
  rw [VersionValidationContext.coreIssues, VersionValidationContext.coreIssues,
    h.enabledSeedIssues_eq, h.domainScopeIssues_eq, h.guardrailIssues_eq,
    h.ambiguityIssues_eq laws hvalid]
  refine List.Perm.append ?_ h.transitionEvidenceIssues
  refine List.Perm.append ?_ h.pageTypeEvidenceIssues
  refine List.Perm.append_right _ ?_
  refine List.Perm.append ?_ h.transitionIssues
  refine List.Perm.append_right _ (List.Perm.append_right _ ?_)
  refine List.Perm.append ?_ h.matcherIssues
  refine List.Perm.append ?_ h.seedHintIssues
  exact List.Perm.append_left _ h.canonicalizationIssues

/-! ## The number of issues -/

/-- Equal neighbours only go. -/
theorem length_dedup_le {α : Type} [DecidableEq α] : ∀ l : List α, (dedup l).length ≤ l.length
  | [] => le_rfl
  | [_] => le_rfl
  | a :: b :: rest => by
    have ih := length_dedup_le (b :: rest)
    rw [dedup]
    split
    · exact le_trans ih (Nat.le_succ _)
    · exact Nat.succ_le_succ ih

/-- At most one issue for each matcher. -/
theorem length_matcherIssues_le : (context.matcherIssues lib).length ≤
    (context.pageTypes.map fun pageType => pageType.matchers.length).sum := by
  rw [VersionValidationContext.matcherIssues, List.length_flatMap]
  apply List.sum_le_sum
  intro pageType _
  rw [List.length_map]
  exact List.length_filter_le _ _

/-- There is at most one witness for two matchers. -/
theorem length_ambiguityIssues_le : (context.ambiguityIssues lib).length ≤
    context.enabledSeeds.length +
      (((pairs context.pageTypes).filter fun pair => pair.1.priority = pair.2.priority).map
        fun pair => pair.1.matchers.length * pair.2.matchers.length).sum := by
  rw [ambiguityIssues, List.length_map, designTimeAmbiguityWitnesses]
  refine le_trans (length_dedup_le _) ?_
  rw [List.length_mergeSort]
  refine le_trans (List.length_filterMap_le _ _) ?_
  rw [knownUrls, List.length_append, List.length_map, List.length_flatMap]
  refine Nat.add_le_add_left (List.sum_le_sum fun pair _ => ?_) _
  rw [List.length_flatMap]
  have hleft : ∀ n ∈ pair.1.matchers.map (fun left =>
      ((pair.2.matchers.filter (competes lib left)).filterMap
        fun _ => matcherWitness lib left).length), n ≤ pair.2.matchers.length := by
    intro n hn
    obtain ⟨left, -, rfl⟩ := List.mem_map.mp hn
    exact le_trans (List.length_filterMap_le _ _) (List.length_filter_le _ _)
  refine le_trans (List.sum_le_card_nsmul _ _ hleft) ?_
  rw [List.length_map, smul_eq_mul]

end VersionValidationContext

/-! ## Reports in another order -/

/-- A contributor for which the order of a version does not matter. -/
def VersionValidationContributor.OrderFree (lib : Libraries)
    (contributor : VersionValidationContributor) : Prop :=
  ∀ context context' : VersionValidationContext, context.ValidMatchers lib →
    context.Reordered context' → contributor.FindsIn context context'

/-- The core contributor finds the same in any order. -/
theorem coreContributor_orderFree (laws : WitnessLaws lib) : (coreContributor lib).OrderFree lib := by
  intro context context' hvalid hreordered issues hissues
  cases hissues
  exact ⟨_, rfl, hreordered.coreIssues laws hvalid⟩

section Registries

open VersionValidationRegistry (Registered)

variable {registry registry' : VersionValidationRegistry}

/-- With contributors for which the order does not matter, it matters for none. -/
theorem registered_orderFree (laws : WitnessLaws lib)
    (h : Registered lib (VersionValidationContributor.OrderFree lib) registry) :
    ∀ contributor ∈ registry.contributors, contributor.OrderFree lib := by
  intro contributor hmem
  rcases h.core_or_kind contributor hmem with rfl | hkind
  · exact coreContributor_orderFree laws
  · exact hkind

/-- A report on a version with valid matchers is the same whatever the order of
registration and of the version.  The order of registration does not show in the errors
either. -/
theorem validate_reordered (laws : WitnessLaws lib)
    (hregistered : Registered lib (VersionValidationContributor.OrderFree lib) registry)
    (hperm : registry.contributors.Perm registry'.contributors)
    (hvalid : context.ValidMatchers lib) (hreordered : context.Reordered context') :
    registry'.validate context = registry.validate context ∧
      ∀ report, registry'.validate context' = .ok report ↔ registry.validate context = .ok report := by
  have hregistration : ∀ context, registry'.validate context = registry.validate context :=
    fun context =>
      (VersionValidationRegistry.validate_perm hregistered.nodup_keys hperm context).symm
  refine ⟨hregistration context, fun report => ?_⟩
  rw [hregistration context']
  have hfree := registered_orderFree laws hregistered
  constructor
  · intro hreport
    apply VersionValidationRegistry.validate_of_findsIn hreordered.symm _ hreport
    intro contributor hmem
    exact hfree contributor hmem _ _ (hreordered.validMatchers hvalid) hreordered.symm
  · intro hreport
    apply VersionValidationRegistry.validate_of_findsIn hreordered _ hreport
    intro contributor hmem
    exact hfree contributor hmem _ _ hvalid hreordered

end Registries

/-! ### Reports of the shop -/

namespace Shop

/-- A page type with one matcher. -/
def pageType (n : ℕ) (priority : ℤ) (host path : String) : PageType :=
  ⟨numberedId n, "page", priority, [.pathPrefix (some host) path]⟩

/-- A draft with the page types. -/
def draftOf (pageTypes : List PageType) : VersionValidationContext where
  version := CrawlerVersion.draft (numberedId 10) (numberedId 11)
  pageTypes := pageTypes
  transitions := []
  testEvidence := []
  configHash := ""

/-- The draft with its page types in another order. -/
theorem reordered_draftOf {pageTypes pageTypes' : List PageType} (h : pageTypes.Perm pageTypes') :
    (draftOf pageTypes).Reordered (draftOf pageTypes') where
  seeds := List.Perm.refl _
  version := rfl
  pageTypes := h
  transitions := List.Perm.refl _
  testEvidence := List.Perm.refl _
  configHash := rfl

/-- A contributor that lists the page types. -/
def listing : VersionValidationContributor where
  key := "listing"
  validate context := .ok (context.pageTypes.map fun pageType =>
    coreWarningIssue "LISTED" "A PageType is listed." (some (subject "PAGETYPE" pageType.id)))

/-- The list of page types is found in any order. -/
theorem listing_orderFree (lib : Libraries) : listing.OrderFree lib := by
  intro context context' _ hreordered issues hissues
  cases hissues
  exact ⟨_, rfl, hreordered.pageTypes.map _⟩

/-- The contributor may be registered. -/
theorem registered_listing : VersionValidationRegistry.Registered libraries
    (VersionValidationContributor.OrderFree libraries) ⟨[coreContributor libraries, listing]⟩ := by
  refine .register .new (listing_orderFree libraries) ?_
  exact VersionValidationRegistry.register_eq_ok.mpr ⟨by decide, by decide, rfl⟩

/-- Two page types with one matcher, but for a capital letter. -/
def rivals : List PageType := [pageType 1 0 "shop.test" "/a", pageType 2 0 "Shop.test" "/a"]

/-- Both matchers are valid. -/
theorem validMatchers_rivals : (draftOf rivals).ValidMatchers libraries := by
  have hvalid : ∀ n host, validHost libraries host = true →
      ∀ matcher ∈ (pageType n 0 host "/a").matchers, matcher.validateDefinition libraries = .ok () := by
    intro n host hhost matcher hmatcher
    obtain rfl := List.mem_singleton.mp hmatcher
    exact ensure_eq_ok.mpr ⟨hhost, by decide⟩
  intro page hpage
  rcases List.mem_cons.mp hpage with rfl | hpage
  · exact hvalid 1 _ (validHost_of (by decide) (by decide) (by decide))
  · obtain rfl := List.mem_singleton.mp hpage
    exact hvalid 2 _ (validHost_of (by decide) (by decide) (by decide))

theorem validate_reordered_rivals :
    (⟨[listing, coreContributor libraries]⟩ : VersionValidationRegistry).validate (draftOf rivals) =
      (⟨[coreContributor libraries, listing]⟩ : VersionValidationRegistry).validate (draftOf rivals) ∧
    ∀ report, (⟨[listing, coreContributor libraries]⟩ : VersionValidationRegistry).validate
        (draftOf rivals.reverse) = .ok report ↔
      (⟨[coreContributor libraries, listing]⟩ : VersionValidationRegistry).validate
        (draftOf rivals) = .ok report :=
  validate_reordered witnessLaws registered_listing (List.Perm.swap _ _ _) validMatchers_rivals
    (reordered_draftOf (List.reverse_perm rivals).symm)

/-! ### Hosts that are none

The text of an invalid host may have a slash in it, and capital letters matter behind it. -/

/-- A page type whose host has a path with a capital letter. -/
def capital : PageType := pageType 1 0 "shop.test/A" "/x"

/-- The same with a small letter. -/
def small : PageType := pageType 2 0 "shop.test/a" "/x"

/-- Page types that win over the two and tie with each other. -/
def tied (n : ℕ) : PageType := pageType n 1 "shop.test" "/A"

/-- Two page types that compete for no URL, and two that tie for some. -/
def slashed (first second : PageType) : VersionValidationContext :=
  draftOf [first, second, tied 3, tied 4]

/-- The two matchers compete. -/
theorem competes_slashed : competes libraries (.pathPrefix (some "shop.test/A") "/x")
    (.pathPrefix (some "shop.test/a") "/x") = true :=
  competes_iff.mpr ⟨by decide, by decide, rfl, matcherFingerprint_pathPrefix (by decide)⟩

/-- What is behind a slash in the host belongs to the path of the witness. -/
theorem matcherWitness_shop {rest path : String} (hne : path ≠ "")
    (hpath : (rest ++ path).toList.head? = some '/') :
    matcherWitness libraries (.pathPrefix (some ("shop.test" ++ rest)) path) =
      url (rest ++ path).toList := by
  have hhost : ("shop.test" : String).toList.map Char.toLower = "shop.test".toList := by decide
  show parse ("https://" ++ ("shop.test" ++ rest) ++ if path = "" then "/" else path) = _
  rw [if_neg hne, ← parse_https hhost hpath]
  congr 1

/-- The later two page types tie wherever they match. -/
theorem leads_tied {first second : PageType} (hfirst : first.priority = 0)
    (hsecond : second.priority = 0) {u : Url} {path : List Char} (hurl : url path = some u)
    (hpath : "/A".toList.isPrefixOf path = true) {n : ℕ}
    (hlisted : tied n ∈ [first, second, tied 3, tied 4]) :
    Leads libraries u [first, second, tied 3, tied 4] (tied n)
      (.pathPrefix (some "shop.test") "/A") where
  listed := hlisted
  mem := List.mem_singleton.mpr rfl
  matches_url := matches_pathPrefix hurl rfl hpath
  greatest other hother rival hrival _ := by
    have hcases : other.priority = 0 ∨ ∃ k, other = tied k := by
      simp only [List.mem_cons, List.not_mem_nil, or_false] at hother
      rcases hother with rfl | rfl | rfl | rfl
      · exact Or.inl hfirst
      · exact Or.inl hsecond
      · exact Or.inr ⟨3, rfl⟩
      · exact Or.inr ⟨4, rfl⟩
    rcases hcases with hlow | ⟨k, rfl⟩
    · rw [hlow]
      rfl
    · rw [List.mem_singleton.mp hrival]
      exact Std.ReflCmp.isLE_rfl

/-- A URL of the shop is its own witness. -/
theorem ambiguousWitness_shop {pageTypes : List PageType} {path : List Char} {u : Url}
    (hurl : url path = some u) (hpath : path.head? = some '/') :
    (draftOf pageTypes).ambiguousWitness libraries u =
      if (resolvePageType libraries u pageTypes).isAmbiguous then some u.text else none := by
  have hpolicy : CanonicalizationPolicy.default.validate = .ok () := by decide
  obtain ⟨result, hresult, rfl⟩ := canonicalize_eq_ok hpolicy (parse_url hurl hpath)
  have hcanonicalize : (draftOf pageTypes).canonicalize libraries result.canonicalUrl =
      .ok result := hresult
  rw [VersionValidationContext.ambiguousWitness, hcanonicalize]
  rfl

/-- Where the tied page types match, the URL is ambiguous. -/
theorem isAmbiguous_tied {first second : PageType} (hfirst : first.priority = 0)
    (hsecond : second.priority = 0) {u : Url} {path : List Char} (hurl : url path = some u)
    (hpath : "/A".toList.isPrefixOf path = true) :
    (resolvePageType libraries u [first, second, tied 3, tied 4]).isAmbiguous = true := by
  refine isAmbiguous_iff_leads.mpr ⟨tied 3, tied 4, by simp [pairs],
    ⟨_, leads_tied hfirst hsecond hurl hpath (by simp)⟩,
    ⟨_, leads_tied hfirst hsecond hurl hpath (by simp)⟩⟩

/-- The witness of the first two page types, where the capital one comes first. -/
theorem capital_reported :
    "https://shop.test/A/x" ∈ (slashed capital small).designTimeAmbiguityWitnesses libraries := by
  have hprintable : ∀ c ∈ "/A/x".toList, isControl c = false := by simp [isControl]
  obtain ⟨u, hu⟩ := exists_url hprintable
  have htext : u.text = "https://shop.test/A/x" := by
    rw [text_url hu, ← String.toList_inj, String.toList_ofList]
    rfl
  have hwitness : matcherWitness libraries (.pathPrefix (some "shop.test/A") "/x") = some u := by
    rw [← hu]
    have hhost : "shop.test/A" = "shop.test" ++ "/A" := rfl
    rw [hhost]
    exact matcherWitness_shop (by decide) (by decide)
  have hpath : "/A".toList.isPrefixOf "/A/x".toList = true := by decide
  rw [VersionValidationContext.mem_designTimeAmbiguityWitnesses]
  refine ⟨u, VersionValidationContext.mem_knownUrls.mpr (Or.inr ⟨.pathPrefix (some "shop.test/A") "/x",
    .pathPrefix (some "shop.test/a") "/x", capital, small, ?_⟩), ?_⟩
  · exact ⟨by simp [slashed, draftOf, pairs], rfl, List.mem_singleton.mpr rfl,
      List.mem_singleton.mpr rfl, competes_slashed, hwitness⟩
  · rw [slashed, ambiguousWitness_shop hu (by decide), isAmbiguous_tied rfl rfl hu hpath, htext]
    rfl

/-- Where the small one comes first, its witness is tried, which no page type matches. -/
theorem capital_not_reported :
    "https://shop.test/A/x" ∉ (slashed small capital).designTimeAmbiguityWitnesses libraries := by
  rw [VersionValidationContext.mem_designTimeAmbiguityWitnesses]
  rintro ⟨u, hu, hambiguous⟩
  have hother : ∀ path : String, path.toList.head? = some '/' → path ≠ "/A/x" →
      url path.toList ≠ some u := by
    intro path hpath hne hurl
    rw [slashed, ambiguousWitness_shop hurl hpath] at hambiguous
    split at hambiguous
    · have htext : u.text = "https://shop.test/A/x" := Option.some.inj hambiguous
      rw [text_url hurl, ← String.toList_inj, String.toList_ofList] at htext
      have hsame : origin ++ path.toList = origin ++ "/A/x".toList := htext
      exact hne (String.toList_inj.mp (List.append_cancel_left hsame))
    · cases hambiguous
  rcases VersionValidationContext.mem_knownUrls.mp hu with ⟨seed, hseed, -⟩ |
    ⟨left, right, page, other, h⟩
  · cases hseed
  · have hpair := h.pair
    have hpriority := h.priority
    have hleft := h.left_mem
    have hwitness := h.witness
    simp only [slashed, draftOf, pairs, List.map_cons, List.map_nil, List.cons_append,
      List.nil_append, List.append_nil, List.mem_cons, List.not_mem_nil, or_false,
      Prod.mk.injEq] at hpair
    have hsmall : "shop.test/a" = "shop.test" ++ "/a" := rfl
    have hshop : "shop.test" = "shop.test" ++ "" := rfl
    rcases hpair with ⟨rfl, rfl⟩ | ⟨rfl, rfl⟩ | ⟨rfl, rfl⟩ | ⟨rfl, rfl⟩ | ⟨rfl, rfl⟩ | ⟨rfl, rfl⟩
    · rw [List.mem_singleton.mp hleft, hsmall, matcherWitness_shop (by decide) (by decide)] at hwitness
      exact hother ("/a" ++ "/x") (by decide) (by decide) hwitness
    · cases hpriority
    · cases hpriority
    · cases hpriority
    · cases hpriority
    · rw [List.mem_singleton.mp hleft, hshop, matcherWitness_shop (by decide) (by decide)] at hwitness
      exact hother ("" ++ "/A") (by decide) (by decide) hwitness

/-! #### Their reports -/

/-- There are few issues. -/
theorem length_slashed {first second : PageType} (hfirst : first.matchers.length = 1)
    (hsecond : second.matchers.length = 1) (hfirst' : first.priority = 0)
    (hsecond' : second.priority = 0) :
    ((slashed first second).coreIssues libraries).length ≤ maxValidationIssuesPerContributor := by
  have hseed : (slashed first second).enabledSeedIssues.length = 1 := rfl
  have hcanonicalization : (slashed first second).canonicalizationIssues libraries = [] := rfl
  have hhint : (slashed first second).seedHintIssues = [] := rfl
  have hmatcher : ((slashed first second).matcherIssues libraries).length ≤ 4 := by
    refine le_trans VersionValidationContext.length_matcherIssues_le (le_of_eq ?_)
    show first.matchers.length + (second.matchers.length + (1 + (1 + 0))) = 4
    rw [hfirst, hsecond]
  have hscope : ((slashed first second).domainScopeIssues libraries).length ≤ 1 := by
    rw [VersionValidationContext.domainScopeIssues]
    split
    · exact Nat.zero_le 1
    · exact le_rfl
  have hguardrail : (slashed first second).guardrailIssues = [] := rfl
  have htransition : (slashed first second).transitionIssues = [] := rfl
  have hambiguity : ((slashed first second).ambiguityIssues libraries).length ≤ 2 := by
    refine le_trans VersionValidationContext.length_ambiguityIssues_le (le_of_eq ?_)
    simp [slashed, draftOf, pairs, VersionValidationContext.enabledSeeds, CrawlerVersion.draft,
      hfirst, hsecond, hfirst', hsecond', tied, pageType]
  have hevidence : (slashed first second).pageTypeEvidenceIssues.length ≤ 4 := by
    rw [VersionValidationContext.length_pageTypeEvidenceIssues]
    exact List.countP_le_length
  have htest : (slashed first second).transitionEvidenceIssues = [] := rfl
  have hmax : maxValidationIssuesPerContributor = 256 := rfl
  rw [VersionValidationContext.coreIssues, hcanonicalization, hhint, hguardrail, htransition, htest]
  simp only [List.length_append, List.length_nil]
  omega

/-- An issue with details is an ambiguity. -/
theorem ambiguity_of_details {first second : PageType} {issue : VersionValidationIssue}
    (hissue : issue ∈ (slashed first second).coreIssues libraries) (hdetails : issue.details ≠ []) :
    ∃ witness ∈ (slashed first second).designTimeAmbiguityWitnesses libraries,
      issue = coreAmbiguityIssue libraries (numberedId 10) witness := by
  have hcanonicalization : (slashed first second).canonicalizationIssues libraries = [] := rfl
  have hhint : (slashed first second).seedHintIssues = [] := rfl
  have hguardrail : (slashed first second).guardrailIssues = [] := rfl
  have htransition : (slashed first second).transitionIssues = [] := rfl
  have htest : (slashed first second).transitionEvidenceIssues = [] := rfl
  rw [VersionValidationContext.coreIssues, hcanonicalization, hhint, hguardrail, htransition,
    htest] at hissue
  simp only [List.append_nil, List.mem_append] at hissue
  rcases hissue with (((hissue | hissue) | hissue) | hissue) | hissue
  · rw [List.mem_singleton.mp hissue] at hdetails
    exact absurd rfl hdetails
  · obtain ⟨page, _, hissue⟩ := List.mem_flatMap.mp hissue
    obtain ⟨matcher, _, rfl⟩ := List.mem_map.mp hissue
    exact absurd rfl hdetails
  · rw [VersionValidationContext.domainScopeIssues] at hissue
    split at hissue
    · cases hissue
    · rw [List.mem_singleton.mp hissue] at hdetails
      exact absurd rfl hdetails
  · obtain ⟨witness, hwitness, rfl⟩ := List.mem_map.mp hissue
    exact ⟨witness, hwitness, rfl⟩
  · obtain ⟨page, _, hissue⟩ := List.mem_flatMap.mp hissue
    rw [VersionValidationContext.pageTypeEvidenceIssue, List.mem_append] at hissue
    rcases hissue with hissue | hissue
    · split at hissue
      · rw [List.mem_singleton.mp hissue] at hdetails
        exact absurd rfl hdetails
      · cases hissue
    · split at hissue
      · rw [List.mem_singleton.mp hissue] at hdetails
        exact absurd rfl hdetails
      · cases hissue

/-- A short witness is named in full. -/
theorem details_of_short {lib : Libraries} {versionId : Id} {witness : String}
    (h : witness.length ≤ maxValidationDetailChars) :
    (coreAmbiguityIssue lib versionId witness).details = [("witness_url", witness)] := by
  rw [coreAmbiguityIssue, if_pos h]
  rfl

/-- The details of an ambiguity name the witness, where they are its text. -/
theorem eq_of_details {lib : Libraries} {versionId : Id} {witness witness' : String}
    (h : (coreAmbiguityIssue lib versionId witness').details = [("witness_url", witness)]) :
    witness' = witness := by
  rw [coreAmbiguityIssue] at h
  split at h
  · exact congrArg Prod.snd (List.cons.inj h).1
  · have hmem : ("witness_url_sha256", sha256Hex lib witness') ∈ [("witness_url", witness)] := by
      rw [← h]
      exact List.mem_append_right _ List.mem_cons_self
    have hkey : "witness_url_sha256" = "witness_url" :=
      congrArg Prod.fst (List.mem_singleton.mp hmem)
    exact absurd hkey (by decide)

/-- The order of two page types shows in the report, where their hosts are none. -/
theorem report_of_invalid_hosts : ¬ ∀ (lib : Libraries) (context context' : VersionValidationContext),
    context.Reordered context' → (VersionValidationRegistry.coreOnly lib).validate context' =
      (VersionValidationRegistry.coreOnly lib).validate context := by
  intro h
  have hswap := h libraries (slashed capital small) (slashed small capital)
    (reordered_draftOf (List.Perm.swap _ _ _))
  rw [coreOnly_validate_of_le (length_slashed rfl rfl rfl rfl),
    coreOnly_validate_of_le (length_slashed rfl rfl rfl rfl)] at hswap
  have hblockers := congrArg VersionValidationReport.blockers (Except.ok.inj hswap)
  have hreported : (coreAmbiguityIssue libraries (numberedId 10) "https://shop.test/A/x").attributed
      "core" ∈ (coreReport libraries (slashed capital small)).blockers := by
    refine List.mem_filter.mpr ⟨mem_normalized_core.mpr ⟨_, ?_, rfl⟩, decide_eq_true ?_⟩
    · have hmem : coreAmbiguityIssue libraries (numberedId 10) "https://shop.test/A/x" ∈
          (slashed capital small).ambiguityIssues libraries := List.mem_map_of_mem capital_reported
      simp only [VersionValidationContext.coreIssues, List.mem_append]
      exact Or.inl (Or.inl (Or.inr hmem))
    · exact VersionValidationContext.severity_coreAmbiguityIssue _ _ _
  rw [← hblockers] at hreported
  obtain ⟨issue, hissue, hsame⟩ := mem_normalized_core.mp (List.mem_filter.mp hreported).1
  have hdetails : issue.details = [("witness_url", "https://shop.test/A/x")] := by
    have hkept : (issue.attributed "core").details = _ :=
      congrArg VersionValidationIssue.details hsame
    exact hkept.trans (details_of_short (by decide))
  have hsome : issue.details ≠ [] := by
    rw [hdetails]
    exact List.cons_ne_nil _ _
  obtain ⟨witness, hwitness, rfl⟩ := ambiguity_of_details hissue hsome
  rw [eq_of_details hdetails] at hwitness
  exact capital_not_reported hwitness

end Shop

end Erabi.Authoring

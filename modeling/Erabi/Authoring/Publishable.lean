/-
# Which versions are publishable

A version that the constructors and the draft operations admit has open issues of
five kinds only.  The core registry reports on it unless there are more of them than
a contributor may return, and what makes it publishable is said by its seeds, its
policy and its page types alone.
-/
import Mathlib
import Erabi.Authoring.Report
import Erabi.Authoring.Contract

namespace Erabi.Authoring

variable {lib : Libraries} {context : VersionValidationContext}

namespace VersionValidationContext

/-- The version is made by the operations on versions, and its page types, matchers and
transitions by those on drafts: they are the declared ones, valid, and refer to page
types of the version. -/
structure Admitted (lib : Libraries) (context : VersionValidationContext) : Prop where
  version : context.version.Edited lib
  nodup : context.version.pageTypeIds.Nodup
  pageTypes : context.pageTypeIds.Perm context.version.pageTypeIds
  matchers : ∀ pageType ∈ context.pageTypes, ∀ matcher ∈ pageType.matchers,
    matcher.validateDefinition lib = .ok ()
  transitions : (context.transitions.map DiscoveryTransition.id).Perm context.version.transitionIds
  valid : ∀ transition ∈ context.transitions, transition.validate = .ok ()
  endpoints : ∀ transition ∈ context.transitions,
    transition.sourcePageTypeId ∈ context.pageTypeIds ∧
      transition.targetPageTypeId ∈ context.pageTypeIds
  hints : ∀ seed ∈ context.version.seeds, ∀ hint ∈ seed.entryPageTypeHint,
    hint ∈ context.pageTypeIds

/-! ## Open issues -/

/-- The policy gives the seed its canonical URL. -/
def canonicalized (lib : Libraries) (context : VersionValidationContext) (seed : Seed) : Bool :=
  match context.canonicalize lib seed.originalUrl with
  | .ok result => result.canonicalUrl = seed.canonicalUrl
  | .error _ => false

/-- No current evidence evaluates the page type, or its selectors matched nothing. -/
def untested (context : VersionValidationContext) (pageType : PageType) : Bool :=
  context.pageTypeEvidence pageType = [] || context.selectorCoverageUnusable pageType

/-- The number of open issues of an admitted version. -/
def openIssues (lib : Libraries) (context : VersionValidationContext) : ℕ :=
  (if context.enabledSeeds = [] then 1 else 0) +
    context.enabledSeeds.countP (fun seed => !context.canonicalized lib seed) +
      (context.designTimeAmbiguityWitnesses lib).length +
        context.pageTypes.countP context.untested +
          context.transitions.countP fun transition => !context.transitionTested transition

/-- There is an enabled seed, the policy gives every enabled seed its canonical URL, and
no known URL is ambiguous. -/
structure Publishable (lib : Libraries) (context : VersionValidationContext) : Prop where
  enabled : context.enabledSeeds ≠ []
  canonical : ∀ seed ∈ context.enabledSeeds, context.canonicalized lib seed = true
  unambiguous : ∀ url ∈ context.knownUrls lib, context.ambiguousWitness lib url = none

/-! ## Issues that an admitted version does not have -/

/-- The policy itself is valid. -/
theorem Admitted.canonicalizationIssues (h : context.Admitted lib) :
    context.canonicalizationIssues lib =
      context.enabledSeeds.filterMap (context.seedCanonicalizationIssue lib) := by
  rw [VersionValidationContext.canonicalizationIssues, h.version.contract.canonicalizationPolicy]

/-- Hints are page types of the version. -/
theorem Admitted.seedHintIssues (h : context.Admitted lib) : context.seedHintIssues = [] := by
  rw [VersionValidationContext.seedHintIssues, List.map_eq_nil_iff, List.filter_eq_nil_iff]
  intro seed hseed hforeign
  rcases hhint : seed.entryPageTypeHint with _ | hint
  · simp [foreignHint, hhint] at hforeign
  · have hown := h.hints seed hseed hint hhint
    simp [foreignHint, hhint, hown] at hforeign

/-- Matchers are valid. -/
theorem Admitted.matcherIssues (h : context.Admitted lib) : context.matcherIssues lib = [] := by
  rw [VersionValidationContext.matcherIssues, List.flatMap_eq_nil_iff]
  intro pageType hpageType
  rw [List.map_eq_nil_iff, List.filter_eq_nil_iff]
  intro matcher hmatcher hinvalid
  rw [invalidMatcher, h.matchers pageType hpageType matcher hmatcher] at hinvalid
  cases hinvalid

/-- The scope is valid. -/
theorem Admitted.domainScopeIssues (h : context.Admitted lib) :
    context.domainScopeIssues lib = [] := by
  rw [VersionValidationContext.domainScopeIssues, h.version.contract.domainScope]
  rfl

/-- The guardrails are valid, and their budgets of its page types. -/
theorem Admitted.guardrailIssues (h : context.Admitted lib) : context.guardrailIssues = [] := by
  rw [VersionValidationContext.guardrailIssues, h.version.contract.guardrails]
  show List.map _ (List.filter context.foreignBudget _) = []
  rw [List.map_eq_nil_iff, List.filter_eq_nil_iff]
  intro budget hbudget hforeign
  have hown := h.pageTypes.mem_iff.mpr (h.version.contract.budgets budget hbudget)
  simp [foreignBudget, hown] at hforeign

/-- Transitions are valid, between page types of the version. -/
theorem Admitted.transitionIssues (h : context.Admitted lib) : context.transitionIssues = [] := by
  rw [VersionValidationContext.transitionIssues, List.flatMap_eq_nil_iff]
  intro transition htransition
  obtain ⟨hsource, htarget⟩ := h.endpoints transition htransition
  rw [transitionIssue, h.valid transition htransition,
    if_pos (List.contains_iff_mem.mpr hsource), if_pos (List.contains_iff_mem.mpr htarget)]
  rfl

/-- The core issues of an admitted version. -/
theorem Admitted.coreIssues (h : context.Admitted lib) : context.coreIssues lib =
    context.enabledSeedIssues ++
      context.enabledSeeds.filterMap (context.seedCanonicalizationIssue lib) ++
        context.ambiguityIssues lib ++ context.pageTypeEvidenceIssues ++
          context.transitionEvidenceIssues := by
  rw [VersionValidationContext.coreIssues, h.canonicalizationIssues, h.seedHintIssues,
    h.matcherIssues, h.domainScopeIssues, h.guardrailIssues, h.transitionIssues]
  simp only [List.append_nil]

/-! ## Their number -/

/-- One issue where no seed is enabled. -/
theorem length_enabledSeedIssues :
    context.enabledSeedIssues.length = if context.enabledSeeds = [] then 1 else 0 := by
  rw [enabledSeedIssues]
  split
  · rfl
  · rfl

/-- A seed has an issue where the policy does not give it its canonical URL. -/
theorem isSome_seedCanonicalizationIssue (lib : Libraries) (context : VersionValidationContext)
    (seed : Seed) :
    (context.seedCanonicalizationIssue lib seed).isSome = !context.canonicalized lib seed := by
  rw [seedCanonicalizationIssue, canonicalized]
  rcases context.canonicalize lib seed.originalUrl with error | result
  · rfl
  · by_cases heq : result.canonicalUrl = seed.canonicalUrl
    · simp [heq]
    · simp [heq]

/-- One issue for each such seed. -/
theorem length_seedCanonicalizationIssues (seeds : List Seed) :
    (seeds.filterMap (context.seedCanonicalizationIssue lib)).length =
      seeds.countP fun seed => !context.canonicalized lib seed := by
  rw [List.length_filterMap_eq_countP]
  exact List.countP_congr fun seed _ => by rw [isSome_seedCanonicalizationIssue]

/-- A page type without evidence has no selector observations either. -/
theorem length_pageTypeEvidenceIssue (pageType : PageType) :
    (context.pageTypeEvidenceIssue pageType).length =
      if context.untested pageType then 1 else 0 := by
  rw [pageTypeEvidenceIssue, untested]
  by_cases hnone : context.pageTypeEvidence pageType = []
  · have husable : context.selectorCoverageUnusable pageType = false := by
      rw [selectorCoverageUnusable, hnone]
      rfl
    simp [hnone, husable]
  · by_cases hunusable : context.selectorCoverageUnusable pageType = true
    · simp [hnone, hunusable]
    · simp [hnone, hunusable]

/-- One issue for each page type without usable tests. -/
theorem length_pageTypeEvidenceIssues :
    context.pageTypeEvidenceIssues.length = context.pageTypes.countP context.untested := by
  rw [pageTypeEvidenceIssues]
  induction context.pageTypes with
  | nil => rfl
  | cons pageType rest ih =>
    rw [List.flatMap_cons, List.length_append, ih, length_pageTypeEvidenceIssue,
      List.countP_cons, add_comm]

/-- One issue for each transition without a test. -/
theorem length_transitionEvidenceIssues : context.transitionEvidenceIssues.length =
    context.transitions.countP fun transition => !context.transitionTested transition := by
  rw [transitionEvidenceIssues, List.length_map, List.countP_eq_length_filter]

/-- **The core issues are counted** by what is open. -/
theorem Admitted.length_coreIssues (h : context.Admitted lib) :
    (context.coreIssues lib).length = context.openIssues lib := by
  rw [h.coreIssues, openIssues, List.length_append, List.length_append, List.length_append,
    List.length_append, length_enabledSeedIssues, length_seedCanonicalizationIssues,
    length_pageTypeEvidenceIssues, length_transitionEvidenceIssues, ambiguityIssues,
    List.length_map]

/-! ## Their severity -/

/-- A seed with another canonical URL keeps the version back. -/
theorem severity_of_seedCanonicalizationIssue {seed : Seed} {issue : VersionValidationIssue}
    (h : context.seedCanonicalizationIssue lib seed = some issue) : issue.severity = .blocker := by
  rw [seedCanonicalizationIssue] at h
  split at h
  · rw [← Option.some.inj h]
    rfl
  · split at h
    · rw [← Option.some.inj h]
      rfl
    · cases h

theorem severity_coreAmbiguityIssue (lib : Libraries) (versionId : Id) (witness : String) :
    (coreAmbiguityIssue lib versionId witness).severity = .blocker := by
  rw [coreAmbiguityIssue]
  split
  · rfl
  · rfl

/-- A page type that was not tested does not. -/
theorem severity_of_mem_pageTypeEvidenceIssues {issue : VersionValidationIssue}
    (h : issue ∈ context.pageTypeEvidenceIssues) : issue.severity = .warning := by
  obtain ⟨pageType, _, h⟩ := List.mem_flatMap.mp h
  rw [pageTypeEvidenceIssue, List.mem_append] at h
  rcases h with h | h
  · split at h
    · rw [List.mem_singleton.mp h]
      rfl
    · cases h
  · split at h
    · rw [List.mem_singleton.mp h]
      rfl
    · cases h

theorem severity_of_mem_transitionEvidenceIssues {issue : VersionValidationIssue}
    (h : issue ∈ context.transitionEvidenceIssues) : issue.severity = .warning := by
  obtain ⟨transition, _, rfl⟩ := List.mem_map.mp h
  rfl

/-- The witnesses are the canonical URLs that are ambiguous among those tried. -/
theorem mem_designTimeAmbiguityWitnesses {witness : String} :
    witness ∈ context.designTimeAmbiguityWitnesses lib ↔
      ∃ url ∈ context.knownUrls lib, context.ambiguousWitness lib url = some witness := by
  rw [designTimeAmbiguityWitnesses, mem_dedup, List.mem_mergeSort, List.mem_filterMap]

/-- The blockers of an admitted version are those that keep it from being publishable. -/
theorem Admitted.no_blocker_iff (h : context.Admitted lib) :
    (∀ issue ∈ context.coreIssues lib, issue.severity ≠ .blocker) ↔ context.Publishable lib := by
  rw [h.coreIssues]
  constructor
  · intro hnone
    -- each of the three conditions is one that, failing, would have given a blocker
    refine ⟨fun hempty => ?_, fun seed hseed => ?_, fun url hurl => ?_⟩
    · refine hnone (coreIssue "NO_ENABLED_SEED"
        "CrawlerVersion must contain at least one enabled Seed." none) ?_ rfl
      simp [enabledSeedIssues, hempty]
    · by_contra hnot
      have hissue := isSome_seedCanonicalizationIssue lib context seed
      rw [Bool.not_eq_true] at hnot
      rw [hnot] at hissue
      obtain ⟨issue, hissue⟩ := Option.isSome_iff_exists.mp hissue
      refine hnone issue ?_ (severity_of_seedCanonicalizationIssue hissue)
      have hmem := List.mem_filterMap.mpr ⟨seed, hseed, hissue⟩
      simp only [List.mem_append]
      exact Or.inl (Or.inl (Or.inl (Or.inr hmem)))
    · rcases hwitness : context.ambiguousWitness lib url with _ | witness
      · rfl
      · have hmem : coreAmbiguityIssue lib context.version.id witness ∈ context.ambiguityIssues lib :=
          List.mem_map_of_mem (mem_designTimeAmbiguityWitnesses.mpr ⟨url, hurl, hwitness⟩)
        refine absurd (severity_coreAmbiguityIssue lib context.version.id witness) (hnone _ ?_)
        simp only [List.mem_append]
        exact Or.inl (Or.inl (Or.inr hmem))
  · intro hpublishable issue hissue hblocker
    simp only [List.mem_append] at hissue
    -- by the check that found the issue; the two about evidence never block
    rcases hissue with (((hissue | hissue) | hissue) | hissue) | hissue
    · rw [enabledSeedIssues, if_neg hpublishable.enabled] at hissue
      cases hissue
    · obtain ⟨seed, hseed, hissue⟩ := List.mem_filterMap.mp hissue
      have hsome := isSome_seedCanonicalizationIssue lib context seed
      rw [hpublishable.canonical seed hseed, hissue] at hsome
      cases hsome
    · obtain ⟨witness, hwitness, rfl⟩ := List.mem_map.mp hissue
      obtain ⟨url, hurl, hsome⟩ := mem_designTimeAmbiguityWitnesses.mp hwitness
      rw [hpublishable.unambiguous url hurl] at hsome
      cases hsome
    · rw [severity_of_mem_pageTypeEvidenceIssues hissue] at hblocker
      cases hblocker
    · rw [severity_of_mem_transitionEvidenceIssues hissue] at hblocker
      cases hblocker

/-- A seed is canonical where the policy gives it its canonical URL. -/
theorem canonicalized_of_eq_ok {seed : Seed} {result : CanonicalizationResult}
    (h : context.canonicalize lib seed.originalUrl = .ok result)
    (heq : result.canonicalUrl = seed.canonicalUrl) : context.canonicalized lib seed = true := by
  rw [canonicalized, h]
  exact decide_eq_true heq

/-- A URL is no witness where its canonical form is not ambiguous. -/
theorem ambiguousWitness_of_eq_ok {url : Url} {result : CanonicalizationResult}
    (h : context.canonicalize lib url = .ok result)
    (hunique : (resolvePageType lib result.canonicalUrl context.pageTypes).isAmbiguous = false) :
    context.ambiguousWitness lib url = none := by
  rw [ambiguousWitness, h]
  dsimp only
  rw [hunique]
  rfl

/-- A publishable version has no open issues but tests that are missing. -/
theorem Publishable.openIssues_le (h : context.Publishable lib) :
    context.openIssues lib ≤ context.pageTypes.length + context.transitions.length := by
  have hseeds : context.enabledSeeds.countP (fun seed => !context.canonicalized lib seed) = 0 := by
    rw [List.countP_eq_zero]
    intro seed hseed
    rw [h.canonical seed hseed]
    exact Bool.false_ne_true
  have hwitnesses : context.designTimeAmbiguityWitnesses lib = [] := by
    rw [List.eq_nil_iff_forall_not_mem]
    intro witness hwitness
    obtain ⟨url, hurl, hsome⟩ := mem_designTimeAmbiguityWitnesses.mp hwitness
    rw [h.unambiguous url hurl] at hsome
    cases hsome
  rw [openIssues, if_neg h.enabled, hseeds, hwitnesses, List.length_nil, zero_add, zero_add,
    zero_add]
  exact Nat.add_le_add (List.countP_le_length) (List.countP_le_length)

end VersionValidationContext

/-! ## Validation -/

/-- The core registry reports on an admitted version unless it has more open issues than
a contributor may return.  The report has no blocker exactly when the version is
publishable. -/
theorem coreOnly_validates (lib : Libraries) (context : VersionValidationContext)
    (h : context.Admitted lib) :
    (context.openIssues lib ≤ maxValidationIssuesPerContributor →
      ∃ report, (VersionValidationRegistry.coreOnly lib).validate context = .ok report ∧
        (report.publishable = true ↔ report.blockers = []) ∧
          (report.publishable = true ↔ context.Publishable lib)) ∧
    (maxValidationIssuesPerContributor < context.openIssues lib →
      (VersionValidationRegistry.coreOnly lib).validate context =
        .error (.tooManyIssues "core")) := by
  rw [← h.length_coreIssues]
  refine ⟨fun hcount => ?_, coreOnly_validate_of_lt⟩
  refine ⟨coreReport lib context, coreOnly_validate_of_le hcount, List.isEmpty_iff, ?_⟩
  rw [coreReport_publishable, h.no_blocker_iff]

/-! ### A publishable draft -/

section Draft

open VersionValidationContext

/-- The URL of the listing, and its parts. -/
def listingUrl : Url := ⟨"http://a/shop", by simp [Printable, isControl]⟩

/-- The parts of the URL. -/
def listingParts : PlainParts := ⟨"http".toList, ['a'], "/shop".toList, none, none⟩

/-- The URL has these parts. -/
theorem plain_listingUrl : listingUrl.plain = listingParts := by
  simp [Url.plain, listingUrl, plainParts, splitOnce, listingParts]

theorem plainUrl_listingParts : plainUrl listingParts = some listingUrl := by
  have htext : listingParts.text = "http://a/shop" := by decide
  have hprintable : Printable listingParts.text := htext ▸ listingUrl.printable
  rw [plainUrl, dif_pos hprintable]
  simp only [listingUrl, htext]

/-- The URL is parsed as itself. -/
theorem parse_listingUrl : plainLibraries.url.parse listingUrl.text = some listingUrl := by
  have hplain : plainParts listingUrl.text.toList = listingParts := plain_listingUrl
  simp only [plainLibraries, plainUrlCrate, hplain]
  rw [if_pos (by decide), plainUrl_listingParts]

theorem scheme_listingUrl : plainLibraries.url.scheme listingUrl = "http" := by
  show String.ofList listingUrl.plain.scheme = _
  rw [plain_listingUrl]
  rfl

theorem hostStr_listingUrl : plainLibraries.url.hostStr listingUrl = some "a" := by
  show some (String.ofList listingUrl.plain.hostPort.1) = _
  rw [plain_listingUrl]
  rfl

theorem port_listingUrl : plainLibraries.url.port listingUrl = none := by
  show listingUrl.plain.hostPort.2.bind parseU16 = _
  rw [plain_listingUrl]
  rfl

theorem path_listingUrl : plainLibraries.url.path listingUrl = "/shop" := by
  show String.ofList listingUrl.plain.path = _
  rw [plain_listingUrl]
  rfl

theorem normalizeScheme_listingUrl :
    normalizeScheme plainLibraries listingUrl.text.toList (listingUrl, []) = .ok (listingUrl, []) := by
  unfold normalizeScheme
  dsimp only
  rw [scheme_listingUrl, if_neg]
  simp [originalScheme, listingUrl, splitOnce, toAsciiLowercase]

/-- The host is in small letters. -/
theorem normalizeHost_listingUrl :
    normalizeHost plainLibraries listingUrl.text.toList (listingUrl, []) = .ok (listingUrl, []) := by
  unfold normalizeHost
  dsimp only
  rw [hostStr_listingUrl]
  dsimp only
  rw [if_neg]
  simp [originalHost, originalAuthority, withoutUserInfo, rsplitOnce, listingUrl, splitOnce,
    toAsciiLowercase, endsAuthority]

/-- There is no port. -/
theorem removeDefaultPort_listingUrl : removeDefaultPort plainLibraries listingUrl.text.toList
    (toAsciiLowercase "http") (listingUrl, []) = .ok (listingUrl, []) := by
  have hdefault : isDefaultPort plainLibraries listingUrl = false := by
    rw [isDefaultPort, scheme_listingUrl, port_listingUrl]
    rfl
  unfold removeDefaultPort
  dsimp only
  rw [if_neg]
  rw [hdefault]
  simp [originalDefaultPort, originalAuthority, withoutUserInfo, rsplitOnce, listingUrl, splitOnce,
    endsAuthority]

/-- There is no fragment. -/
theorem removeFragment_listingUrl :
    removeFragment plainLibraries (listingUrl, []) = (listingUrl, []) := by
  have hfragment : plainLibraries.url.fragment listingUrl = none := by
    show listingUrl.plain.fragment.map String.ofList = _
    rw [plain_listingUrl]
    rfl
  unfold removeFragment
  dsimp only
  rw [hfragment]
  rfl

/-- There is a path. -/
theorem normalizeRootPath_listingUrl :
    normalizeRootPath plainLibraries listingUrl.text.toList (listingUrl, []) = (listingUrl, []) := by
  unfold normalizeRootPath
  dsimp only
  rw [path_listingUrl, if_neg]
  simp [originalPathIsEmpty, listingUrl, splitOnce, endsAuthority]

/-- There is no query. -/
theorem rewriteQuery_listingUrl :
    (CanonicalizationPolicy.default.rewriteQuery plainLibraries (listingUrl, [])).1 = listingUrl := by
  have hquery : plainLibraries.url.query listingUrl = none := by
    show listingUrl.plain.query.map String.ofList = _
    rw [plain_listingUrl]
    rfl
  have hparts : { listingUrl.plain with query := none } = listingParts := by
    rw [plain_listingUrl]
    rfl
  unfold CanonicalizationPolicy.rewriteQuery
  dsimp only
  rw [hquery, if_pos (Or.inl rfl)]
  simp only [plainLibraries, plainUrlCrate, Option.map_none, hparts, plainUrl_listingParts,
    Option.getD_some]

/-- The URL is its own canonical form. -/
theorem canonicalize_listingUrl : ∃ decisions,
    CanonicalizationPolicy.default.canonicalize plainLibraries listingUrl.text =
      .ok ⟨listingUrl.text, listingUrl, decisions⟩ := by
  have hpolicy : CanonicalizationPolicy.default.validate = .ok () := by decide
  refine ⟨(CanonicalizationPolicy.default.rewriteQuery plainLibraries (listingUrl, [])).2, ?_⟩
  rw [CanonicalizationPolicy.canonicalize, hpolicy, parse_listingUrl]
  simp only [scheme_listingUrl, hostStr_listingUrl, ensure, normalizeScheme_listingUrl,
    normalizeHost_listingUrl, removeDefaultPort_listingUrl, removeFragment_listingUrl,
    normalizeRootPath_listingUrl, bind, Except.bind, pure, Except.pure]
  rw [if_pos (Or.inl trivial), if_pos (by exact ⟨rfl, rfl, rfl⟩)]
  simp only [rewriteQuery_listingUrl]

/-- A seed, a listing and its products, the transition between them, and a test of each. -/
def shopDraft : VersionValidationContext where
  version := { CrawlerVersion.draft (numberedId 10) (numberedId 11) with
    seeds := [⟨numberedId 3, listingUrl, listingUrl, true, none, some (numberedId 1)⟩]
    pageTypeIds := [numberedId 1, numberedId 2]
    transitionIds := [numberedId 4] }
  pageTypes := [⟨numberedId 1, "Listing", 0, [.exactUrl listingUrl]⟩,
    ⟨numberedId 2, "Product", 0, [.pathPrefix none "/q"]⟩]
  transitions := [⟨numberedId 4, numberedId 1, numberedId 2, "Products", true, "a", none, 0,
    ⟨10, none, 1⟩, true, none⟩]
  testEvidence := [⟨numberedId 10, "c", .pageTypeMatching, some (numberedId 1), none, [], none⟩,
    ⟨numberedId 10, "c", .selectorCoverage, some (numberedId 2), none, [.observed], none⟩,
    ⟨numberedId 10, "c", .discoveryTransition, none, some (numberedId 4), [],
      some (some (numberedId 4))⟩]
  configHash := "c"

/-- The operations admit the draft. -/
theorem admitted_shopDraft : shopDraft.Admitted plainLibraries where
  version := by
    have hdraft : ∀ {version : CrawlerVersion}, version.state = .draft →
        version.state ≠ .published := fun h => h ▸ by decide
    refine .setTransitionIds _ (.setPageTypeIds _ (.addSeed _ (.draft _ _) rfl)
      (CrawlerVersion.setPageTypeIds_eq_ok.mpr ⟨hdraft rfl, ?_, rfl⟩))
      (CrawlerVersion.setTransitionIds_eq_ok.mpr ⟨hdraft rfl, rfl⟩)
    exact fun _ hbudget => by cases hbudget
  nodup := by decide +kernel
  pageTypes := List.Perm.refl _
  matchers := by
    intro pageType hpageType matcher hmatcher
    rcases List.mem_cons.mp hpageType with rfl | hpageType
    · rw [List.mem_singleton.mp hmatcher]
      rfl
    · rw [List.mem_singleton.mp hpageType] at hmatcher
      rw [List.mem_singleton.mp hmatcher]
      exact ensure_eq_ok.mpr ⟨rfl, by decide⟩
  transitions := List.Perm.refl _
  valid := by
    intro transition htransition
    rw [List.mem_singleton.mp htransition]
    decide
  endpoints := by
    intro transition htransition
    rw [List.mem_singleton.mp htransition]
    exact ⟨List.mem_cons_self, List.mem_cons_of_mem _ List.mem_cons_self⟩
  hints := by
    intro seed hseed hint hhint
    rw [List.mem_singleton.mp hseed] at hhint
    rw [← Option.mem_some.mp hhint]
    exact List.mem_cons_self

/-- The listing is the only page type of its URL. -/
theorem resolvePageType_listingUrl :
    (resolvePageType plainLibraries listingUrl shopDraft.pageTypes).isAmbiguous = false := by
  have hlisting : (UrlMatcher.exactUrl listingUrl).matches plainLibraries listingUrl = true := by
    simp [UrlMatcher.matches]
  have hproduct : (UrlMatcher.pathPrefix none "/q").matches plainLibraries listingUrl = false := by
    rw [UrlMatcher.matches, path_listingUrl]
    decide
  obtain ⟨c, hc⟩ : ∃ c, shopDraft.pageTypes.filterMap
      (fun pageType => pageType.candidate plainLibraries listingUrl) = [c] := by
    simp [shopDraft, PageType.candidate, hlisting, hproduct, greatest]
  have hself : c.compareRank c = .eq := by
    simp [PageTypeCandidate.compareRank, SpecificityKey.compare]
  simp [resolvePageType, hc, greatest, hself, PageTypeMatchDecision.isAmbiguous]

theorem canonicalize_shopDraft : ∃ decisions, shopDraft.canonicalize plainLibraries listingUrl =
    .ok ⟨listingUrl.text, listingUrl, decisions⟩ :=
  canonicalize_listingUrl

/-- The matchers do not compete, so that only the seed is tried. -/
theorem knownUrls_shopDraft : shopDraft.knownUrls plainLibraries = [listingUrl] := by
  have hcompetes : competes plainLibraries (.exactUrl listingUrl) (.pathPrefix none "/q") = false := by
    simp [competes, UrlMatcher.specificity, UrlMatcher.kind, UrlMatcherKind.rank]
  simp [knownUrls, shopDraft, pairs, enabledSeeds, hcompetes]

theorem publishable_shopDraft : shopDraft.Publishable plainLibraries where
  enabled := by
    intro h
    cases h
  canonical := by
    intro seed hseed
    obtain ⟨decisions, hresult⟩ := canonicalize_shopDraft
    rw [List.mem_singleton.mp hseed]
    exact canonicalized_of_eq_ok hresult rfl
  unambiguous := by
    intro url hurl
    obtain ⟨decisions, hresult⟩ := canonicalize_shopDraft
    rw [knownUrls_shopDraft] at hurl
    rw [List.mem_singleton.mp hurl]
    exact ambiguousWitness_of_eq_ok hresult resolvePageType_listingUrl

/-- The core registry finds nothing that keeps the draft from being published. -/
theorem coreOnly_validates_draft :
    ∃ report, (VersionValidationRegistry.coreOnly plainLibraries).validate shopDraft =
      .ok report ∧ report.publishable = true ∧ report.blockers = [] := by
  have hfew : shopDraft.openIssues plainLibraries ≤ maxValidationIssuesPerContributor :=
    publishable_shopDraft.openIssues_le.trans (by decide)
  obtain ⟨report, hreport, hblockers, hpublishable⟩ :=
    (coreOnly_validates plainLibraries shopDraft admitted_shopDraft).1 hfew
  have hpublish := hpublishable.mpr publishable_shopDraft
  exact ⟨report, hreport, hpublish, hblockers.mp hpublish⟩

end Draft

/-! ### A draft with too many issues -/

/-- A draft with numbered page types, none of which has a matcher or was tested. -/
def manyPageTypes (n : ℕ) : VersionValidationContext where
  version := { CrawlerVersion.draft (numberedId 4095) (numberedId 4094) with
    pageTypeIds := (List.range n).map numberedId }
  pageTypes := (List.range n).map fun i => ⟨numberedId i, "page", 0, []⟩
  transitions := []
  testEvidence := []
  configHash := ""

/-- The page types are those that the draft declares. -/
theorem pageTypeIds_manyPageTypes (n : ℕ) :
    (manyPageTypes n).pageTypeIds = (List.range n).map numberedId := by
  simp [VersionValidationContext.pageTypeIds, manyPageTypes]

/-- The operations admit the draft. -/
theorem admitted_manyPageTypes (lib : Libraries) {n : ℕ} (hn : n ≤ 4096) :
    (manyPageTypes n).Admitted lib where
  version := by
    have hset : (CrawlerVersion.draft (numberedId 4095) (numberedId 4094)).setPageTypeIds
        ((List.range n).map numberedId) = .ok (manyPageTypes n).version := by
      refine CrawlerVersion.setPageTypeIds_eq_ok.mpr ⟨?_, ?_, rfl⟩
      · intro h
        cases h
      · intro budget hbudget
        cases hbudget
    exact .setPageTypeIds _ (.draft _ _) hset
  nodup := by
    refine List.Nodup.map_on (fun i hi j hj h => ?_) List.nodup_range
    exact numberedId_injOn (lt_of_lt_of_le (List.mem_range.mp hi) hn)
      (lt_of_lt_of_le (List.mem_range.mp hj) hn) h
  pageTypes := by
    rw [pageTypeIds_manyPageTypes]
    exact List.Perm.refl _
  matchers := by
    intro pageType hpageType
    obtain ⟨i, _, rfl⟩ := List.mem_map.mp hpageType
    exact fun _ hmatcher => by cases hmatcher
  transitions := List.Perm.refl _
  valid := fun _ htransition => by cases htransition
  endpoints := fun _ htransition => by cases htransition
  hints := fun _ hseed => by cases hseed

/-- Every page type that was not tested is an open issue. -/
theorem le_openIssues_manyPageTypes (lib : Libraries) (n : ℕ) :
    n ≤ (manyPageTypes n).openIssues lib := by
  have huntested : (manyPageTypes n).pageTypes.countP (manyPageTypes n).untested = n := by
    have hall : ∀ pageType ∈ (manyPageTypes n).pageTypes,
        (manyPageTypes n).untested pageType = true := fun _ _ => rfl
    rw [List.countP_eq_length.mpr hall]
    simp [manyPageTypes]
  rw [VersionValidationContext.openIssues, huntested]
  omega

/-- A draft with 257 page types that were not tested gets no report. -/
theorem manyPageTypes_no_report : ¬ ∀ (lib : Libraries) (context : VersionValidationContext),
    context.Admitted lib →
      ∃ report, (VersionValidationRegistry.coreOnly lib).validate context = .ok report := by
  intro h
  have hadmitted := admitted_manyPageTypes plainLibraries (show 257 ≤ 4096 by decide)
  obtain ⟨report, hreport⟩ := h plainLibraries (manyPageTypes 257) hadmitted
  have hmany : maxValidationIssuesPerContributor <
      ((manyPageTypes 257).coreIssues plainLibraries).length := by
    rw [hadmitted.length_coreIssues]
    exact lt_of_lt_of_le (by decide) (le_openIssues_manyPageTypes plainLibraries 257)
  rw [coreOnly_validate_of_lt hmany] at hreport
  cases hreport

end Erabi.Authoring

/-
# Evidence of page-type matches

The stored form of a page-type decision and its checks.  The checks have limits of
their own, which authoring does not have: on the number of matched patterns, on their
lengths, and on control characters.
-/
import Mathlib
import Erabi.Authoring.Ranking
import Erabi.Authoring.UrlLaws

namespace Erabi.Authoring

/-! ## Evidence -/

/-- How many patterns a candidate may carry. -/
def maxTestEvidenceInputUrls : ℕ := 8

/-- How long a pattern may be. -/
def maxTestEvidenceUrlChars : ℕ := 4096

/-- How long a name may be. -/
def maxTestEvidenceDiagnosticMessageChars : ℕ := 1024

/-- The kind of a matcher as evidence records it. -/
inductive MatcherKindEvidence where
  | exactUrl
  | exactHostPathTemplate
  | pathPrefixOrGlob
  | regex
  deriving DecidableEq

/-- The kind of a matcher, recorded. -/
def MatcherKindEvidence.fromKind : UrlMatcherKind → MatcherKindEvidence
  | .exactUrl => exactUrl
  | .exactHostPathTemplate => exactHostPathTemplate
  | .pathPrefixOrGlob => pathPrefixOrGlob
  | .regex => regex

/-- The specificity of a matcher as evidence records it. -/
structure MatcherSpecificityEvidence where
  matcherKindRank : ℕ
  literalPathSegments : ℕ
  explicitQueryConstraints : ℕ
  literalCharacters : ℕ
  wildcardCaptureCount : ℕ
  deriving DecidableEq

/-- The specificity of a matcher, recorded. -/
def MatcherSpecificityEvidence.fromKey (key : SpecificityKey) : MatcherSpecificityEvidence where
  matcherKindRank := key.matcherKindRank
  literalPathSegments := key.literalPathSegments
  explicitQueryConstraints := key.explicitQueryConstraints
  literalCharacters := key.literalCharacters
  wildcardCaptureCount := key.wildcards

/-- A candidate as evidence records it. -/
structure PageTypeCandidateEvidence where
  pageTypeId : Id
  pageTypeName : String
  priority : ℤ
  matcherKind : MatcherKindEvidence
  specificity : MatcherSpecificityEvidence
  matchedPatterns : List String
  deriving DecidableEq

/-- A candidate, recorded. -/
def PageTypeCandidateEvidence.fromCandidate (candidate : PageTypeCandidate) :
    PageTypeCandidateEvidence where
  pageTypeId := candidate.pageTypeId
  pageTypeName := candidate.pageTypeName
  priority := candidate.priority
  matcherKind := .fromKind candidate.matcherKind
  specificity := .fromKey candidate.specificity
  matchedPatterns := candidate.matchedPatterns

/-- How a recorded match ended. -/
inductive PageTypeMatchStatus where
  | matched
  | ambiguous
  | unmatched
  deriving DecidableEq

/-- A decision as evidence records it. -/
structure PageTypeMatchEvidence where
  decision : PageTypeMatchStatus
  winner : Option PageTypeCandidateEvidence
  candidates : List PageTypeCandidateEvidence

/-- A decision, recorded. -/
def PageTypeMatchEvidence.fromDecision : PageTypeMatchDecision → PageTypeMatchEvidence
  | .matched candidate =>
      let candidate := .fromCandidate candidate
      { decision := .matched, winner := some candidate, candidates := [candidate] }
  | .ambiguous candidates =>
      { decision := .ambiguous
        winner := none
        candidates := candidates.map .fromCandidate }
  | .unmatched => { decision := .unmatched, winner := none, candidates := [] }

/-! ## Checks -/

/-- The checks on one recorded candidate. -/
def validatePageTypeCandidate (candidate : PageTypeCandidateEvidence) : Except String Unit :=
  if candidate.pageTypeId.uuid.digits[12]? ≠ some 7 ∨ candidate.pageTypeName = "" ∨
      maxTestEvidenceDiagnosticMessageChars < candidate.pageTypeName.length ∨
      hasControl candidate.pageTypeName ∨
      maxTestEvidenceInputUrls < candidate.matchedPatterns.length ∨
      candidate.matchedPatterns.any fun pattern =>
        pattern = "" || maxTestEvidenceUrlChars < pattern.length || hasControl pattern then
    throw "PageType candidate evidence is invalid"
  else pure ()

/-- The checks on a recorded decision: candidates and winner fit its status. -/
def validatePageTypeMatch (evidence : PageTypeMatchEvidence) : Except String Unit := do
  evidence.candidates.forM validatePageTypeCandidate
  evidence.winner.forM validatePageTypeCandidate
  match evidence.decision with
  | .matched =>
      match evidence.winner with
      | none => throw "matched PageType evidence has no winner"
      | some winner =>
          if evidence.candidates.length ≠ 1 ∨ evidence.candidates.head? ≠ some winner then
            throw "matched PageType evidence has inconsistent candidates"
  | .ambiguous =>
      if evidence.winner.isSome ∨ evidence.candidates.length < 2 then
        throw "ambiguous PageType evidence is incomplete"
  | .unmatched =>
      if evidence.winner.isSome ∨ evidence.candidates ≠ [] then
        throw "unmatched PageType evidence has candidates"

/-- A candidate within the limits. -/
structure PageTypeCandidateEvidence.Valid (candidate : PageTypeCandidateEvidence) : Prop where
  name : candidate.pageTypeName ≠ "" ∧
    candidate.pageTypeName.length ≤ maxTestEvidenceDiagnosticMessageChars ∧
      Printable candidate.pageTypeName
  count : candidate.matchedPatterns.length ≤ maxTestEvidenceInputUrls
  patterns : ∀ pattern ∈ candidate.matchedPatterns, pattern ≠ "" ∧
    pattern.length ≤ maxTestEvidenceUrlChars ∧ Printable pattern

/-- The check of a candidate passes on valid candidates alone. -/
theorem validatePageTypeCandidate_eq_ok {candidate : PageTypeCandidateEvidence} :
    validatePageTypeCandidate candidate = .ok () ↔ candidate.Valid := by
  rw [validatePageTypeCandidate]
  have hvalid : ¬ (candidate.pageTypeId.uuid.digits[12]? ≠ some 7 ∨ candidate.pageTypeName = "" ∨
      maxTestEvidenceDiagnosticMessageChars < candidate.pageTypeName.length ∨
      hasControl candidate.pageTypeName = true ∨
      maxTestEvidenceInputUrls < candidate.matchedPatterns.length ∨
      (candidate.matchedPatterns.any fun pattern =>
        pattern = "" || maxTestEvidenceUrlChars < pattern.length || hasControl pattern) = true) ↔
      candidate.Valid := by
    simp only [not_or, List.any_eq_true, not_exists, Bool.or_eq_true, decide_eq_true_eq, not_and,
      Bool.not_eq_true, hasControl_eq_false, not_lt, ne_eq, not_not]
    constructor
    · rintro ⟨_, hne, hlength, hname, hcount, hpatterns⟩
      refine ⟨⟨hne, hlength, hname⟩, hcount, fun pattern hpattern => ?_⟩
      obtain ⟨⟨hne, hlength⟩, hprintable⟩ := hpatterns pattern hpattern
      exact ⟨hne, hlength, hprintable⟩
    · rintro ⟨⟨hne, hlength, hname⟩, hcount, hpatterns⟩
      refine ⟨candidate.pageTypeId.version, hne, hlength, hname, hcount, fun pattern hpattern => ?_⟩
      obtain ⟨hne, hlength, hprintable⟩ := hpatterns pattern hpattern
      exact ⟨⟨hne, hlength⟩, hprintable⟩
  rw [← hvalid]
  split
  · rename_i h
    exact ⟨fun h' => (by cases h'), fun h' => absurd h h'⟩
  · rename_i h
    exact ⟨fun _ => h, fun _ => rfl⟩

/-- Candidates pass together when each is valid. -/
theorem forM_eq_ok {l : List PageTypeCandidateEvidence} :
    l.forM validatePageTypeCandidate = .ok () ↔ ∀ candidate ∈ l, candidate.Valid := by
  induction l with
  | nil => exact ⟨fun _ _ h => (by cases h), fun _ => rfl⟩
  | cons candidate l ih =>
    rw [List.forall_mem_cons, ← ih, ← validatePageTypeCandidate_eq_ok]
    show (validatePageTypeCandidate candidate).bind (fun _ => l.forM validatePageTypeCandidate) =
      .ok () ↔ _
    rcases validatePageTypeCandidate candidate with error | _
    · exact ⟨fun h => (by cases h), fun h => (by cases h.1)⟩
    · exact ⟨fun h => ⟨rfl, h⟩, fun h => h.2⟩

/-- Only the candidates of a decision can be refused. -/
theorem validatePageTypeMatch_decisionOf {tied : List PageTypeCandidate} :
    validatePageTypeMatch (.fromDecision (decisionOf tied)) = .ok () ↔
      ∀ c ∈ tied, (PageTypeCandidateEvidence.fromCandidate c).Valid := by
  rcases tied with _ | ⟨a, _ | ⟨b, l⟩⟩
  · exact ⟨fun _ _ h => (by cases h), fun _ => rfl⟩
  · rw [List.forall_mem_singleton, ← validatePageTypeCandidate_eq_ok]
    have hsame : validatePageTypeMatch (.fromDecision (decisionOf [a])) =
        ((validatePageTypeCandidate (.fromCandidate a)).bind fun _ => .ok ()).bind fun _ =>
          (validatePageTypeCandidate (.fromCandidate a)).bind fun _ =>
            if ([PageTypeCandidateEvidence.fromCandidate a].length ≠ 1 ∨
              [PageTypeCandidateEvidence.fromCandidate a].head? ≠
                some (PageTypeCandidateEvidence.fromCandidate a)) then
              throw "matched PageType evidence has inconsistent candidates" else pure () := rfl
    rw [hsame, if_neg (by simp)]
    rcases validatePageTypeCandidate (.fromCandidate a) with error | _
    · exact Iff.rfl
    · exact Iff.rfl
  · rw [← List.forall_mem_map, ← forM_eq_ok]
    have hsame : validatePageTypeMatch (.fromDecision (decisionOf (a :: b :: l))) =
        (((a :: b :: l).map PageTypeCandidateEvidence.fromCandidate).forM
          validatePageTypeCandidate).bind fun _ => if (none : Option Unit).isSome ∨
            ((a :: b :: l).map PageTypeCandidateEvidence.fromCandidate).length < 2 then
              throw "ambiguous PageType evidence is incomplete" else pure () := rfl
    rw [hsame, if_neg (by simp)]
    rcases ((a :: b :: l).map PageTypeCandidateEvidence.fromCandidate).forM
      validatePageTypeCandidate with error | _
    · exact Iff.rfl
    · exact Iff.rfl

/-! ## Authoring -/

/-- The check on the name of an authored page type. -/
def validPageTypeName (name : String) : Bool := !isBlank name && name.length ≤ 256

/-- A page type that authoring admits. -/
structure PageType.Authored (lib : Libraries) (pageType : PageType) : Prop where
  name : validPageTypeName pageType.name = true
  matchers : ∀ matcher ∈ pageType.matchers, matcher.validateDefinition lib = .ok ()

variable {lib : Libraries} {url : Url} {pageTypes : List PageType}

/-- An authored name fits the bound of evidence. -/
theorem PageType.Authored.name_length {pageType : PageType} (h : pageType.Authored lib) :
    pageType.name ≠ "" ∧ pageType.name.length ≤ maxTestEvidenceDiagnosticMessageChars := by
  have hname := h.name
  rw [validPageTypeName, Bool.and_eq_true, decide_eq_true_eq] at hname
  constructor
  · rintro hempty
    rw [hempty] at hname
    exact absurd hname.1 (by decide)
  · exact hname.2.trans (by decide)

/-- The leading patterns, listed once each, are counted by the list. -/
theorem ncard_leadingPattern {pageType : PageType} {patterns : List String}
    (hnodup : patterns.Nodup)
    (hpatterns : ∀ pattern, pattern ∈ patterns ↔ LeadingPattern lib url pageTypes pageType pattern) :
    {pattern | LeadingPattern lib url pageTypes pageType pattern}.ncard = patterns.length := by
  have hset : {pattern | LeadingPattern lib url pageTypes pageType pattern} =
      (patterns.toFinset : Set String) := by
    ext pattern
    simp [hpatterns]
  rw [hset, Set.ncard_coe_finset, List.toFinset_card_of_nodup hnodup]

/-- The evidence of a decision can be stored exactly where the leading page types have
names and patterns within the limits of evidence. -/
theorem validatePageTypeMatch_iff (h : ∀ pageType ∈ pageTypes, pageType.Authored lib) :
    validatePageTypeMatch (.fromDecision (resolvePageType lib url pageTypes)) = .ok () ↔
      ∀ pageType matcher, Leads lib url pageTypes pageType matcher →
        Printable pageType.name ∧
        {pattern | LeadingPattern lib url pageTypes pageType pattern}.ncard ≤
          maxTestEvidenceInputUrls ∧
        matcher.pattern ≠ "" ∧ matcher.pattern.length ≤ maxTestEvidenceUrlChars ∧
          Printable matcher.pattern := by
  rw [resolvePageType_eq, validatePageTypeMatch_decisionOf]
  simp only [List.mem_mergeSort]
  constructor
  · intro hvalid pageType matcher hleads
    obtain ⟨c, hc, htied, hpatterns⟩ := hleads.candidate
    have hdescribes := PageType.candidate_describes hc
    obtain ⟨⟨_, _, hname⟩, hcount, hmatched⟩ := hvalid c htied
    have hpattern := hmatched matcher.pattern ((hpatterns _).mpr ⟨matcher, hleads, rfl⟩)
    refine ⟨hdescribes.name ▸ hname, ?_, hpattern⟩
    rw [ncard_leadingPattern hdescribes.sorted.nodup hpatterns]
    exact hcount
  · intro hleading c htied
    obtain ⟨pageType, hlisted, hc, hleads⟩ := mem_tiedCandidates.mp htied
    have hdescribes := PageType.candidate_describes hc
    obtain ⟨best, hbest⟩ := hdescribes.best
    obtain ⟨c', hc', _, hpatterns⟩ := (hleads best hbest).candidate
    rw [hc] at hc'
    cases hc'
    obtain ⟨hne, hlength⟩ := (h pageType hlisted).name_length
    obtain ⟨hname, hcount, _⟩ := hleading pageType best (hleads best hbest)
    rw [← hdescribes.name] at hne hlength hname
    rw [ncard_leadingPattern hdescribes.sorted.nodup hpatterns] at hcount
    refine ⟨⟨hne, hlength, hname⟩, hcount, fun pattern hpattern => ?_⟩
    · obtain ⟨matcher, hmatcher, rfl⟩ := (hpatterns pattern).mp hpattern
      exact (hleading pageType matcher hmatcher).2.2

/-! ## A crowd of matchers -/

/-- "/p" with slashes behind it. -/
def slashes (n : ℕ) : String := String.ofList ('/' :: 'p' :: List.replicate n '/')

/-- A page type with a matcher for each number of slashes. -/
def crowd (size : ℕ) : PageType :=
  ⟨numberedId 1, "Product", 0, (List.range size).map fun n => .pathPrefix none (slashes n)⟩

/-- A URL with many slashes, which many prefixes match. -/
def crowdUrl : Url := ⟨"http://a/p////////", by simp [Printable, isControl]⟩

/-- The path of that URL. -/
theorem path_crowdUrl : plainLibraries.url.path crowdUrl = slashes 8 := by
  simp [plainLibraries, plainUrlCrate, Url.plain, crowdUrl, plainParts, splitOnce, slashes,
    List.replicate]

/-- The page type with many prefixes can be authored. -/
theorem crowd_authored (size : ℕ) : (crowd size).Authored plainLibraries where
  name := (by decide : validPageTypeName "Product" = true)
  matchers := by
    intro matcher hmatcher
    obtain ⟨n, _, rfl⟩ := List.mem_map.mp hmatcher
    have hvalid : validPathPrefix (slashes n) = true := by
      simp [validPathPrefix, slashes]
    exact if_pos ⟨rfl, hvalid⟩

/-- Slashes alone split into empty segments. -/
theorem splitOn_replicate (n : ℕ) :
    (List.replicate n '/').splitOn '/' = List.replicate (n + 1) [] := by
  induction n with
  | zero => rfl
  | succ n ih =>
    rw [List.replicate_succ, List.splitOn_cons_eq_if_modifyHead, ih]
    rfl

/-- The slashes do not count. -/
theorem specificity_slashes (n : ℕ) :
    (UrlMatcher.pathPrefix none (slashes n)).specificity plainLibraries = ⟨2, 1, 0, 1, 0⟩ := by
  have hsplit : split '/' (slashes n) = [] :: ['p'] :: List.replicate n [] := by
    rw [split, slashes, String.toList_ofList, List.splitOn_cons_eq_if_modifyHead,
      List.splitOn_cons_eq_if_modifyHead, splitOn_replicate]
    rfl
  rw [UrlMatcher.specificity, UrlMatcher.specificityPath, hsplit, slashes, String.toList_ofList]
  simp [UrlMatcher.kind, UrlMatcherKind.rank, UrlMatcher.queryConstraints, count, isWildcard,
    List.countP_replicate]

/-- The evidence of one matcher is stored. -/
theorem validatePageTypeMatch_iff_crowd :
    validatePageTypeMatch (.fromDecision (resolvePageType plainLibraries crowdUrl [crowd 1])) =
      .ok () := by
  have hauthored : ∀ pageType ∈ [crowd 1], pageType.Authored plainLibraries := by
    intro pageType hpageType
    rw [List.mem_singleton.mp hpageType]
    exact crowd_authored 1
  have honly : ∀ pageType matcher, Leads plainLibraries crowdUrl [crowd 1] pageType matcher →
      pageType.name = "Product" ∧ matcher.pattern = "/p" := by
    intro pageType matcher hleads
    have hmem := hleads.mem
    rw [List.mem_singleton.mp hleads.listed] at hmem ⊢
    obtain ⟨n, hn, rfl⟩ := List.mem_map.mp hmem
    obtain rfl : n = 0 := by simpa using hn
    exact ⟨rfl, rfl⟩
  refine (validatePageTypeMatch_iff hauthored).mpr fun pageType matcher hleads => ?_
  obtain ⟨hname, hpattern⟩ := honly pageType matcher hleads
  rw [hname, hpattern]
  refine ⟨by simp [Printable, isControl], ?_, by decide, by decide, by simp [Printable, isControl]⟩
  have hsubset : {pattern | LeadingPattern plainLibraries crowdUrl [crowd 1] pageType pattern} ⊆
      {"/p"} := by
    rintro pattern ⟨other, hother, rfl⟩
    exact (honly pageType other hother).2
  have hcard := Set.ncard_le_ncard hsubset (Set.finite_singleton "/p")
  rw [Set.ncard_singleton] at hcard
  exact hcard.trans (by decide)

/-- Runs of slashes differ by their lengths. -/
theorem slashes_injective : Function.Injective slashes := by
  intro m n h
  have hlength := congrArg (fun s => s.toList.length) h
  simpa [slashes] using hlength

/-- Each of nine matchers leads. -/
theorem crowd_leads {n : ℕ} (h : n < 9) :
    Leads plainLibraries crowdUrl [crowd 9] (crowd 9) (.pathPrefix none (slashes n)) where
  listed := List.mem_singleton.mpr rfl
  mem := List.mem_map.mpr ⟨n, List.mem_range.mpr h, rfl⟩
  matches_url := by
    show (true && (slashes n).toList.isPrefixOf (plainLibraries.url.path crowdUrl).toList) = true
    rw [path_crowdUrl, slashes, slashes, String.toList_ofList, String.toList_ofList,
      Bool.true_and, List.isPrefixOf_iff_prefix, List.cons_prefix_cons, List.cons_prefix_cons]
    refine ⟨rfl, rfl, List.replicate (8 - n) '/', ?_⟩
    rw [List.replicate_append_replicate]
    congr 1
    omega
  greatest other hother rival hrival _ := by
    rw [List.mem_singleton.mp hother] at hrival ⊢
    obtain ⟨m, _, rfl⟩ := List.mem_map.mp hrival
    rw [specificity_slashes, specificity_slashes]
    exact Std.ReflCmp.isLE_rfl

/-- The evidence of a page type that authoring admits is refused for its patterns. -/
theorem crowd_refused : (crowd 9).Authored plainLibraries ∧
    validatePageTypeMatch (.fromDecision (resolvePageType plainLibraries crowdUrl [crowd 9])) ≠
      .ok () := by
  refine ⟨crowd_authored 9, ?_⟩
  rw [resolvePageType_eq, Ne, validatePageTypeMatch_decisionOf]
  intro hvalid
  obtain ⟨c, _, htied, hpatterns⟩ := (crowd_leads (n := 0) (by omega)).candidate
  have hcount : c.matchedPatterns.length ≤ 8 :=
    (hvalid c (List.mem_mergeSort.mpr htied)).count
  have hsubset : (List.range 9).map slashes ⊆ c.matchedPatterns := by
    intro pattern hpattern
    obtain ⟨n, hn, rfl⟩ := List.mem_map.mp hpattern
    exact (hpatterns _).mpr ⟨_, crowd_leads (List.mem_range.mp hn), rfl⟩
  have hnodup : ((List.range 9).map slashes).Nodup :=
    List.Nodup.map slashes_injective List.nodup_range
  have hlength := (List.subperm_of_subset hnodup hsubset).length_le
  rw [List.length_map, List.length_range] at hlength
  omega

end Erabi.Authoring

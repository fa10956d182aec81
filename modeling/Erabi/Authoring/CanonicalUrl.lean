/-
# The canonical form of a URL

Canonicalization of an accepted URL depends on its parts only, and on whether the
original text names the default port.  The canonical form is a fixed point.  Of the
query, the pairs that are retained matter, as a multiset; the port may get lost where
the text behind the first "://" is not the authority.
-/
import Mathlib
import Erabi.Authoring.UrlLaws
import Erabi.Sorting.ByKeys

namespace Erabi.Authoring

open Relational Sorting

/-! ## Sorted pairs -/

namespace RawQueryPair

/-- Pairs are compared by two keys. -/
theorem le_eq_leBy : RawQueryPair.le = leBy RawQueryPair.parameter RawQueryPair.raw := by
  funext a b
  rw [RawQueryPair.le, leBy]

/-- Pairs that are less than each other are one pair. -/
theorem le_antisymm {a b : RawQueryPair} (hab : a.le b = true) (hba : b.le a = true) : a = b := by
  rw [le_eq_leBy] at hab hba
  obtain ⟨hparameter, hraw⟩ := leBy_antisymm hab hba
  obtain ⟨raw, parameter⟩ := a
  obtain ⟨raw', parameter'⟩ := b
  cases hparameter
  cases hraw
  rfl

/-- The pairs in their order. -/
def sorted (pairs : List RawQueryPair) : List RawQueryPair := pairs.mergeSort le

theorem sorted_nil : sorted [] = [] := List.mergeSort_nil

/-- Sorting keeps the pairs. -/
theorem sorted_perm (pairs : List RawQueryPair) : (sorted pairs).Perm pairs :=
  List.mergeSort_perm pairs le

/-- Sorted pairs are in order. -/
theorem pairwise_sorted (pairs : List RawQueryPair) :
    (sorted pairs).Pairwise fun a b => a.le b = true := by
  rw [sorted, le_eq_leBy]
  exact List.pairwise_mergeSort leBy_trans leBy_total pairs

/-- The order of the pairs does not matter once they are sorted. -/
theorem sorted_eq_of_perm {pairs pairs' : List RawQueryPair} (h : pairs.Perm pairs') :
    sorted pairs = sorted pairs' := by
  rw [sorted, sorted]
  apply mergeSort_eq_of_perm _ _ (fun _ _ _ _ hab hba => le_antisymm hab hba) h
  · rw [le_eq_leBy]
    exact leBy_trans
  · rw [le_eq_leBy]
    exact leBy_total

/-- Sorting and filtering commute. -/
theorem filter_sorted (p : RawQueryPair → Bool) (pairs : List RawQueryPair) :
    (sorted pairs).filter p = sorted (pairs.filter p) := by
  apply List.Perm.eq_of_pairwise (fun _ _ _ _ hab hba => le_antisymm hab hba)
    ((pairwise_sorted pairs).filter p) (pairwise_sorted _)
  exact ((sorted_perm pairs).filter p).trans (sorted_perm _).symm

end RawQueryPair

/-! ## Retained pairs -/

section Retained

variable (lib : Libraries) (policy : CanonicalizationPolicy)

/-- What the policy says of a parameter: an explicit KEEP wins over an explicit DROP
and over the tracking parameters. -/
def CanonicalizationPolicy.Retains (parameter : String) : Prop :=
  parameter ∈ policy.explicitKeepParameters ∨
    parameter ∉ policy.explicitDropParameters ∧ isDefaultTrackingParameter parameter = false

instance (parameter : String) : Decidable (policy.Retains parameter) :=
  inferInstanceAs (Decidable (_ ∨ _ ∧ _))

/-- The decision keeps what the policy retains. -/
theorem CanonicalizationPolicy.decide_fst (parameter : String) :
    (policy.decide parameter).1 = true ↔ policy.Retains parameter := by
  unfold CanonicalizationPolicy.decide CanonicalizationPolicy.Retains
  by_cases hkeep : parameter ∈ policy.explicitKeepParameters
  · simp [hkeep]
  · by_cases hdrop : parameter ∈ policy.explicitDropParameters
    · simp [hkeep, hdrop]
    · by_cases htracking : isDefaultTrackingParameter parameter = true
      · simp [hkeep, hdrop, htracking]
      · simp [hkeep, hdrop, htracking]

/-- The pairs of a query; a missing query has none. -/
def queryPairs (query : Option String) : List RawQueryPair :=
  (query.map fun query => (split '&' query).map (RawQueryPair.new lib)).getD []

/-- The pairs that the policy retains. -/
def CanonicalizationPolicy.retained (query : Option String) : List RawQueryPair :=
  (queryPairs lib query).filter fun pair => policy.Retains pair.parameter

/-- The retained pairs in order, or no query. -/
def CanonicalizationPolicy.canonicalQuery (query : Option String) : Option String :=
  let pairs := RawQueryPair.sorted (policy.retained lib query)
  if pairs = [] then none else some ("&".intercalate (pairs.map RawQueryPair.raw))

/-- The parts of the canonical form. -/
def CanonicalizationPolicy.canonicalParts (originalUrl : List Char) (parts : UrlParts) :
    UrlParts :=
  { parts with
    port := if originalDefaultPort originalUrl parts.scheme then none else parts.port
    query := policy.canonicalQuery lib parts.query
    fragment := none }

variable {lib} {policy}

/-- A pair is read from its own text, which has no ampersand. -/
theorem mem_queryPairs {query : Option String} {pair : RawQueryPair}
    (h : pair ∈ queryPairs lib query) :
    pair = RawQueryPair.new lib pair.raw.toList ∧ '&' ∉ pair.raw.toList := by
  rcases query with _ | query
  · cases h
  · obtain ⟨piece, hpiece, rfl⟩ := List.mem_map.mp h
    have hraw : (RawQueryPair.new lib piece).raw.toList = piece := String.toList_ofList
    rw [hraw]
    exact ⟨rfl, not_mem_of_mem_splitOn hpiece⟩

/-- The texts of the pairs are the pieces of the query. -/
theorem map_raw_queryPairs (query : String) :
    (queryPairs lib (some query)).map (fun pair => pair.raw.toList) = split '&' query := by
  rw [queryPairs, Option.map_some, Option.getD_some, List.map_map]
  exact (List.map_congr_left fun _ _ => String.toList_ofList).trans (List.map_id _)

/-- The pairs are joined as the query was split. -/
theorem intercalate_eq_joinPairs (pairs : List RawQueryPair) :
    "&".intercalate (pairs.map RawQueryPair.raw) =
      joinPairs (pairs.map fun pair => pair.raw.toList) := by
  rw [joinPairs, List.map_map]
  congr 1
  apply List.map_congr_left
  intro pair _
  exact (String.ofList_toList (s := pair.raw)).symm

/-- Pairs written into a query are its pairs. -/
theorem queryPairs_intercalate {pairs : List RawQueryPair} (hne : pairs ≠ [])
    (h : ∀ pair ∈ pairs, pair = RawQueryPair.new lib pair.raw.toList ∧ '&' ∉ pair.raw.toList) :
    queryPairs lib (some ("&".intercalate (pairs.map RawQueryPair.raw))) = pairs := by
  rw [intercalate_eq_joinPairs, queryPairs, Option.map_some, Option.getD_some,
    split_joinPairs (by simpa using hne) (by simpa using fun pair hpair => (h pair hpair).2),
    List.map_map]
  conv_rhs => rw [← List.map_id pairs]
  apply List.map_congr_left
  intro pair hpair
  exact (h pair hpair).1.symm

/-- What is retained was there before. -/
theorem mem_sorted_retained {query : Option String} {pair : RawQueryPair}
    (h : pair ∈ RawQueryPair.sorted (policy.retained lib query)) :
    pair ∈ queryPairs lib query :=
  List.mem_of_mem_filter ((RawQueryPair.sorted_perm _).mem_iff.mp h)

/-- The pairs of the canonical query are the retained ones, sorted. -/
theorem queryPairs_canonicalQuery (query : Option String) :
    queryPairs lib (policy.canonicalQuery lib query) =
      RawQueryPair.sorted (policy.retained lib query) := by
  rw [CanonicalizationPolicy.canonicalQuery]
  by_cases hpairs : RawQueryPair.sorted (policy.retained lib query) = []
  · simp only [hpairs, if_true]
    rfl
  · simp only [if_neg hpairs]
    exact queryPairs_intercalate hpairs fun pair hpair =>
      mem_queryPairs (mem_sorted_retained hpair)

/-- No query stays none. -/
theorem canonicalQuery_none : policy.canonicalQuery lib none = none := by
  rw [CanonicalizationPolicy.canonicalQuery]
  exact if_pos RawQueryPair.sorted_nil

/-- The order of the pairs does not matter. -/
theorem canonicalQuery_congr {query query' : Option String}
    (h : (policy.retained lib query).Perm (policy.retained lib query')) :
    policy.canonicalQuery lib query = policy.canonicalQuery lib query' := by
  rw [CanonicalizationPolicy.canonicalQuery, CanonicalizationPolicy.canonicalQuery,
    RawQueryPair.sorted_eq_of_perm h]

/-- The canonical query is canonical. -/
theorem canonicalQuery_canonicalQuery (query : Option String) :
    policy.canonicalQuery lib (policy.canonicalQuery lib query) =
      policy.canonicalQuery lib query := by
  apply canonicalQuery_congr
  rw [CanonicalizationPolicy.retained, queryPairs_canonicalQuery, RawQueryPair.filter_sorted,
    CanonicalizationPolicy.retained, List.filter_filter]
  simp only [Bool.and_self]
  exact RawQueryPair.sorted_perm _

end Retained

/-! ## One step after another -/

section Rewriting

variable {lib : Libraries} {policy : CanonicalizationPolicy} {u : Url} (originalUrl : List Char)
  (decisions : List CanonicalizationDecision)

/-- The scheme is in small letters already. -/
theorem UrlCrate.Target.toAsciiLowercase_scheme (hu : lib.url.Target u) :
    toAsciiLowercase (lib.url.scheme u) = lib.url.scheme u := by
  rcases hu.scheme with hscheme | hscheme
  · rw [hscheme]
    decide
  · rw [hscheme]
    decide

/-- The scheme of a parsed URL stays. -/
theorem normalizeScheme_of_target (laws : UrlLaws lib.url) (hu : lib.url.Target u) :
    ∃ decisions', normalizeScheme lib originalUrl (u, decisions) = .ok (u, decisions') := by
  simp only [normalizeScheme, hu.toAsciiLowercase_scheme, laws.setScheme hu]
  split
  · exact ⟨_, rfl⟩
  · exact ⟨_, rfl⟩

/-- The host of a parsed URL stays. -/
theorem normalizeHost_of_target (laws : UrlLaws lib.url) (hu : lib.url.Target u) :
    ∃ decisions', normalizeHost lib originalUrl (u, decisions) = .ok (u, decisions') := by
  have hsmall : toAsciiLowercase (lib.url.parts u).host = (lib.url.parts u).host :=
    (laws.normal hu).small
  have hset := laws.setHost hu
  rw [hu.hostStr] at hset
  simp only [normalizeHost, hu.hostStr, hsmall, hset]
  split
  · exact ⟨_, rfl⟩
  · exact ⟨_, rfl⟩

/-- The library has left the default port out. -/
theorem isDefaultPort_of_target (laws : UrlLaws lib.url) (hu : lib.url.Target u) :
    isDefaultPort lib u = false := by
  have hport : ∀ port ∈ lib.url.port u, port ≠ UrlParts.defaultPort (lib.url.scheme u) :=
    fun port hmem => ((laws.normal hu).port port hmem).2
  rw [isDefaultPort]
  split
  · rename_i hscheme hmem
    exact absurd (by rw [hscheme]; rfl) (hport 80 hmem)
  · rename_i hscheme hmem
    exact absurd (by rw [hscheme]; rfl) (hport 443 hmem)
  · rfl

/-- The port goes when the original text names the default port. -/
theorem removeDefaultPort_of_target (laws : UrlLaws lib.url) (hu : lib.url.Target u) :
    ∃ v decisions',
      removeDefaultPort lib originalUrl (lib.url.scheme u) (u, decisions) = .ok (v, decisions') ∧
      lib.url.Target v ∧ lib.url.parts v = { lib.url.parts u with
        port := if originalDefaultPort originalUrl (lib.url.scheme u) then none
          else lib.url.port u } := by
  obtain ⟨v, hset, hv, hparts⟩ := laws.setPort hu
  simp only [removeDefaultPort, isDefaultPort_of_target laws hu, hset]
  by_cases horiginal : originalDefaultPort originalUrl (lib.url.scheme u) = true
  · simp only [horiginal, if_true, true_or]
    by_cases hport : (lib.url.port u).isSome
    · exact ⟨v, _, by rw [if_pos hport], hv, hparts⟩
    · refine ⟨u, _, by rw [if_neg hport], hu, ?_⟩
      have hnone : (lib.url.parts u).port = none := by simpa [UrlCrate.parts] using hport
      rw [← hnone]
  · simp only [horiginal]
    exact ⟨u, _, rfl, hu, rfl⟩

/-- The fragment goes and nothing else. -/
theorem removeFragment_of_target (laws : UrlLaws lib.url) (hu : lib.url.Target u) :
    lib.url.Target (removeFragment lib (u, decisions)).1 ∧
      lib.url.parts (removeFragment lib (u, decisions)).1 =
        { lib.url.parts u with fragment := none } := by
  rw [removeFragment]
  by_cases hfragment : (lib.url.fragment u).isSome
  · simp only [if_pos hfragment]
    exact laws.setFragment hu
  · simp only [if_neg hfragment]
    have hnone : (lib.url.parts u).fragment = none := by simpa [UrlCrate.parts] using hfragment
    exact ⟨hu, by rw [← hnone]⟩

/-- A parsed URL has a path. -/
theorem normalizeRootPath_of_target (laws : UrlLaws lib.url) (hu : lib.url.Target u) :
    (normalizeRootPath lib originalUrl (u, decisions)).1 = u := by
  have hpath : lib.url.path u ≠ "" := by
    intro h
    have hhead := (laws.normal hu).path
    rw [UrlCrate.parts] at hhead
    simp only [h] at hhead
    cases hhead
  simp only [normalizeRootPath, hpath, if_false]
  split
  · rfl
  · rfl

/-- The query becomes the canonical one. -/
theorem rewriteQuery_fst :
    (policy.rewriteQuery lib (u, decisions)).1 =
      lib.url.setQuery u (policy.canonicalQuery lib (lib.url.query u)) := by
  have hretains : (fun pair : RawQueryPair => (policy.decide pair.parameter).1) =
      fun pair => decide (policy.Retains pair.parameter) := by
    funext pair
    rw [Bool.eq_iff_iff, policy.decide_fst, decide_eq_true_iff]
  rw [CanonicalizationPolicy.rewriteQuery]
  dsimp only
  congr 1
  rcases hquery : lib.url.query u with _ | query
  · rw [if_pos (Or.inl rfl), canonicalQuery_none]
  · have hpairs : (((split '&' query).map (RawQueryPair.new lib)).mergeSort RawQueryPair.le).filter
        (fun pair => (policy.decide pair.parameter).1) =
          RawQueryPair.sorted (policy.retained lib (some query)) := by
      rw [hretains]
      exact RawQueryPair.filter_sorted _ _
    rw [Option.getD_some, hpairs, CanonicalizationPolicy.canonicalQuery]
    simp only [reduceCtorEq, false_or]

/-- The query becomes the canonical one and nothing else changes. -/
theorem rewriteQuery_of_target (policy : CanonicalizationPolicy) (laws : UrlLaws lib.url)
    (hu : lib.url.Target u) :
    lib.url.Target (policy.rewriteQuery lib (u, decisions)).1 ∧
      lib.url.parts (policy.rewriteQuery lib (u, decisions)).1 =
        { lib.url.parts u with query := policy.canonicalQuery lib (lib.url.query u) } := by
  rw [rewriteQuery_fst, CanonicalizationPolicy.canonicalQuery]
  by_cases hpairs : RawQueryPair.sorted (policy.retained lib (lib.url.query u)) = []
  · simp only [if_pos hpairs]
    exact laws.clearQuery hu
  · simp only [if_neg hpairs]
    rcases hquery : lib.url.query u with _ | query
    · rw [hquery] at hpairs
      exact absurd RawQueryPair.sorted_nil hpairs
    · rw [intercalate_eq_joinPairs]
      rw [hquery] at hpairs
      apply laws.setQuery hu hquery (by simpa using hpairs)
      have hpieces : (queryPairs lib (some query)).map (fun pair => pair.raw.toList) =
          split '&' query := map_raw_queryPairs query
      rw [← hpieces]
      exact ((RawQueryPair.sorted_perm _).map _).subperm.trans
        (List.filter_sublist.map _).subperm

/-- An accepted URL: the policy is valid and the library makes a target of the text. -/
structure CanonicalizationPolicy.Accepts (lib : Libraries) (policy : CanonicalizationPolicy)
    (originalUrl : String) (u : Url) : Prop where
  policy : policy.validate = .ok ()
  parsed : lib.url.parse originalUrl = some u
  target : lib.url.Target u

/-- What is accepted is rewritten to the canonical parts. -/
theorem canonicalize_of_accepts (laws : UrlLaws lib.url) {originalUrl : String}
    (h : policy.Accepts lib originalUrl u) :
    ∃ result, policy.canonicalize lib originalUrl = .ok result ∧
      lib.url.Target result.canonicalUrl ∧ lib.url.parts result.canonicalUrl =
        policy.canonicalParts lib originalUrl.toList (lib.url.parts u) := by
  obtain ⟨hvalid, hparsed, hu⟩ := h
  -- the six rewritings in the order of the source, each on the URL the one before it left
  obtain ⟨decisions, hscheme⟩ := normalizeScheme_of_target originalUrl.toList [] laws hu
  obtain ⟨decisions, hhost⟩ := normalizeHost_of_target originalUrl.toList decisions laws hu
  obtain ⟨v, decisions, hport, hv, hvparts⟩ :=
    removeDefaultPort_of_target originalUrl.toList decisions laws hu
  obtain ⟨hw, hwparts⟩ := removeFragment_of_target decisions laws hv
  have hroot := normalizeRootPath_of_target originalUrl.toList
    (removeFragment lib (v, decisions)).2 laws hw
  rw [Prod.mk.eta] at hroot
  obtain ⟨hresult, hresultParts⟩ := rewriteQuery_of_target
    (normalizeRootPath lib originalUrl.toList (removeFragment lib (v, decisions))).2 policy laws hw
  rw [← hroot, Prod.mk.eta] at hresult hresultParts
  obtain ⟨canonicalUrl, explanation, hfinal⟩ : ∃ canonicalUrl explanation,
      policy.rewriteQuery lib (normalizeRootPath lib originalUrl.toList
        (removeFragment lib (v, decisions))) = (canonicalUrl, explanation) := ⟨_, _, rfl⟩
  rw [hfinal] at hresult hresultParts
  refine ⟨⟨originalUrl, canonicalUrl, explanation⟩, ?_, hresult, ?_⟩
  · have htarget : (lib.url.hostStr u).isSome ∧ lib.url.username u = "" ∧
        lib.url.password u = none := ⟨hu.host, hu.user⟩
    rw [CanonicalizationPolicy.canonicalize, hvalid]
    simp only [hparsed, ensure, if_pos hu.scheme, if_pos htarget, hu.toAsciiLowercase_scheme]
    show (normalizeScheme lib originalUrl.toList (u, [])).bind _ = _
    rw [hscheme]
    show (normalizeHost lib originalUrl.toList (u, _)).bind _ = _
    rw [hhost]
    show (removeDefaultPort lib originalUrl.toList (lib.url.scheme u) (u, _)).bind _ = _
    rw [hport]
    show Except.ok (CanonicalizationResult.mk _ (policy.rewriteQuery lib (normalizeRootPath lib
      originalUrl.toList (removeFragment lib (v, _)))).1 (policy.rewriteQuery lib
        (normalizeRootPath lib originalUrl.toList (removeFragment lib (v, _)))).2) = _
    rw [hfinal]
  · show lib.url.parts canonicalUrl = _
    -- nothing before the last step touches the query
    have hquery : lib.url.query (removeFragment lib (v, decisions)).1 = lib.url.query u := by
      have hw := congrArg UrlParts.query hwparts
      have hv := congrArg UrlParts.query hvparts
      exact hw.trans hv
    rw [hresultParts, hroot, hwparts, hvparts, hquery]
    rfl

/-- Only what is accepted is rewritten. -/
theorem accepts_of_canonicalize (laws : UrlLaws lib.url) {originalUrl : String}
    {result : CanonicalizationResult} (h : policy.canonicalize lib originalUrl = .ok result) :
    ∃ u, policy.Accepts lib originalUrl u := by
  rw [CanonicalizationPolicy.canonicalize] at h
  rcases hvalid : policy.validate with error | _
  · rw [hvalid] at h
    cases h
  · rw [hvalid] at h
    rcases hparsed : lib.url.parse originalUrl with _ | u
    · simp only [hparsed] at h
      cases h
    · simp only [hparsed] at h
      by_cases hscheme : lib.url.scheme u = "http" ∨ lib.url.scheme u = "https"
      · by_cases htarget : (lib.url.hostStr u).isSome ∧ lib.url.username u = "" ∧
          lib.url.password u = none
        · exact ⟨u, hvalid, hparsed, laws.reparsed hparsed, hscheme, htarget.1, htarget.2⟩
        · simp only [ensure, if_pos hscheme, if_neg htarget] at h
          cases h
      · simp only [ensure, if_neg hscheme] at h
        cases h

/-- A result has the canonical parts of an accepted URL. -/
theorem canonicalize_eq_ok (laws : UrlLaws lib.url) {originalUrl : String}
    {result : CanonicalizationResult} (h : policy.canonicalize lib originalUrl = .ok result) :
    ∃ u, policy.Accepts lib originalUrl u ∧ lib.url.Target result.canonicalUrl ∧
      lib.url.parts result.canonicalUrl =
        policy.canonicalParts lib originalUrl.toList (lib.url.parts u) := by
  obtain ⟨u, hu⟩ := accepts_of_canonicalize laws h
  obtain ⟨result', hresult', hcanonical⟩ := canonicalize_of_accepts laws hu
  rw [h] at hresult'
  cases hresult'
  exact ⟨u, hu, hcanonical⟩

end Rewriting

/-! ## The site -/

namespace SitePage

/-- Whatever is read as a page is accepted. -/
theorem accepts_of_read {s : String} {page : SitePage} (h : read s.toList = some page) :
    CanonicalizationPolicy.default.Accepts siteLibraries s page.url where
  policy := rfl
  parsed := by
    show (read s.toList).map url = _
    rw [h]
    rfl
  target := target_url page

/-- The page at the port 8080. -/
def front : SitePage := ⟨true, none, written_none⟩

/-- The front page is accepted. -/
theorem accepts_front :
    CanonicalizationPolicy.default.Accepts siteLibraries "http:/a:8080/" front.url := by
  apply accepts_of_read
  have htext : "http:/a:8080/".toList =
      "http:/".toList ++ (['a'] ++ (":8080".toList ++ (['/'] ++ []))) := by simp
  rw [htext, read_oneSlash, readPort_alternate]
  rfl

/-- The page at the port 8080 with a query. -/
def asked (query : List Char) (written : ∀ c ∈ query, inQuery c = true) : SitePage :=
  ⟨true, some query, written⟩

variable {query : List Char} {written : ∀ c ∈ query, inQuery c = true} {s : String}

/-- A page with a query is accepted. -/
theorem accepts_asked
    (hs : s.toList = "http:/".toList ++ (['a'] ++ (":8080".toList ++ (['/'] ++ '?' :: query)))) :
    CanonicalizationPolicy.default.Accepts siteLibraries s (asked query written).url := by
  apply accepts_of_read
  rw [hs, read_oneSlash, readPort_alternate, readQuery, dif_pos written]
  rfl

/-- The query may be written. -/
theorem click_written : ∀ c ∈ "fbclid".toList, inQuery c = true := by simp [inQuery]

/-- The front page with a click identifier is accepted. -/
theorem accepts_click : CanonicalizationPolicy.default.Accepts siteLibraries
    "http:/a:8080/?fbclid" (asked "fbclid".toList click_written).url :=
  accepts_asked (by simp)

/-- The query may be written. -/
theorem referrer_written : ∀ c ∈ "utm_source=http://b:80/".toList, inQuery c = true := by
  simp [inQuery]

/-- The front page with a referrer is accepted. -/
theorem accepts_referrer : CanonicalizationPolicy.default.Accepts siteLibraries
    "http:/a:8080/?utm_source=http://b:80/"
      (asked "utm_source=http://b:80/".toList referrer_written).url :=
  accepts_asked (by simp)

end SitePage

/-! ## Fixed points -/

section Fixed

variable {lib : Libraries} {policy : CanonicalizationPolicy}

/-- Canonical parts stay when their own text is canonicalized. -/
theorem canonicalParts_canonicalParts {originalUrl : List Char} {parts : UrlParts}
    (hnormal : (policy.canonicalParts lib originalUrl parts).Normal) :
    policy.canonicalParts lib (policy.canonicalParts lib originalUrl parts).text
      (policy.canonicalParts lib originalUrl parts) =
        policy.canonicalParts lib originalUrl parts := by
  have hport : originalDefaultPort (policy.canonicalParts lib originalUrl parts).text
      (policy.canonicalParts lib originalUrl parts).scheme = false :=
    hnormal.not_originalDefaultPort
  rw [CanonicalizationPolicy.canonicalParts, hport]
  simp only [Bool.false_eq_true, if_false]
  rw [CanonicalizationPolicy.canonicalParts]
  simp only [canonicalQuery_canonicalQuery]

/-- Canonicalization is idempotent. -/
theorem CanonicalizationPolicy.canonicalize_idempotent (laws : UrlLaws lib.url)
    {originalUrl : String} {result : CanonicalizationResult}
    (h : policy.canonicalize lib originalUrl = .ok result) :
    ∃ again, policy.canonicalize lib result.canonicalUrl.text = .ok again ∧
      again.canonicalUrl = result.canonicalUrl := by
  obtain ⟨u, hu, hcanonical, hparts⟩ := canonicalize_eq_ok laws h
  obtain ⟨again, hagain, htarget, hagainParts⟩ := canonicalize_of_accepts laws
    ⟨hu.policy, hcanonical.made, hcanonical⟩
  refine ⟨again, hagain, laws.eq_of_parts htarget hcanonical ?_⟩
  have hnormal := laws.normal hcanonical
  rw [hagainParts, laws.text hcanonical]
  rw [hparts] at hnormal ⊢
  exact canonicalParts_canonicalParts hnormal

/-- The click identifier is dropped, and the result stays as it is. -/
theorem CanonicalizationPolicy.canonicalize_idempotent_click :
    ∃ result again,
      CanonicalizationPolicy.default.canonicalize siteLibraries "http:/a:8080/?fbclid" =
        .ok result ∧
      CanonicalizationPolicy.default.canonicalize siteLibraries result.canonicalUrl.text =
        .ok again ∧ again.canonicalUrl = result.canonicalUrl := by
  obtain ⟨result, hresult, _⟩ :=
    canonicalize_of_accepts siteUrlCrate_laws SitePage.accepts_click
  obtain ⟨again, hagain⟩ :=
    CanonicalizationPolicy.canonicalize_idempotent siteUrlCrate_laws hresult
  exact ⟨result, again, hresult, hagain⟩

end Fixed

/-! ## Order and dropped pairs -/

section Variants

variable {lib : Libraries} {policy : CanonicalizationPolicy} {a b : String} {u v : Url}

/-- Two accepted texts whose URLs differ in the query only: in the order of its pairs,
and in pairs that the policy drops. -/
structure CanonicalizationPolicy.Variant (lib : Libraries) (policy : CanonicalizationPolicy)
    (a b : String) (u v : Url) : Prop where
  accepts : policy.Accepts lib a u
  accepts' : policy.Accepts lib b v
  parts : lib.url.parts v = { lib.url.parts u with query := lib.url.query v }
  pairs : ∃ inserted, (∀ pair ∈ inserted, ¬ policy.Retains pair.parameter) ∧
    (queryPairs lib (lib.url.query v)).Perm (queryPairs lib (lib.url.query u) ++ inserted)

namespace CanonicalizationPolicy.Variant

/-- Variants retain the same pairs. -/
theorem retained_perm (h : policy.Variant lib a b u v) :
    (policy.retained lib (lib.url.query v)).Perm (policy.retained lib (lib.url.query u)) := by
  obtain ⟨inserted, hinserted, hpairs⟩ := h.pairs
  have hdropped : inserted.filter (fun pair => policy.Retains pair.parameter) = [] := by
    simpa using hinserted
  have hfiltered := hpairs.filter fun pair => policy.Retains pair.parameter
  rw [List.filter_append, hdropped, List.append_nil] at hfiltered
  exact hfiltered

/-- The canonical parts agree but for the port. -/
theorem canonicalParts_eq_iff (h : policy.Variant lib a b u v) :
    policy.canonicalParts lib a.toList (lib.url.parts u) =
        policy.canonicalParts lib b.toList (lib.url.parts v) ↔
      lib.url.port u = none ∨ originalDefaultPort a.toList (lib.url.scheme u) =
        originalDefaultPort b.toList (lib.url.scheme u) := by
  have hscheme : (lib.url.parts v).scheme = lib.url.scheme u := by
    rw [h.parts]
    rfl
  have hport : (lib.url.parts v).port = lib.url.port u := by
    rw [h.parts]
    rfl
  have hrest : (lib.url.parts v).host = (lib.url.parts u).host ∧
      (lib.url.parts v).path = (lib.url.parts u).path := by
    rw [h.parts]
    exact ⟨rfl, rfl⟩
  have hquery : policy.canonicalQuery lib (lib.url.parts v).query =
      policy.canonicalQuery lib (lib.url.parts u).query := canonicalQuery_congr h.retained_perm
  have hparts : policy.canonicalParts lib a.toList (lib.url.parts u) =
        policy.canonicalParts lib b.toList (lib.url.parts v) ↔
      (if originalDefaultPort a.toList (lib.url.scheme u) then none else lib.url.port u) =
        if originalDefaultPort b.toList (lib.url.scheme u) then none else lib.url.port u := by
    rw [CanonicalizationPolicy.canonicalParts, CanonicalizationPolicy.canonicalParts,
      UrlParts.mk.injEq]
    simp only [hscheme, hport, hrest, hquery, true_and, and_true]
    exact and_iff_right rfl
  rw [hparts]
  by_cases hnone : lib.url.port u = none
  · simp [hnone]
  · obtain ⟨port, hsome⟩ := Option.ne_none_iff_exists'.mp hnone
    rw [hsome]
    by_cases ha : originalDefaultPort a.toList (lib.url.scheme u) = true
    · by_cases hb : originalDefaultPort b.toList (lib.url.scheme u) = true
      · simp [ha, hb]
      · simp [ha, hb]
    · by_cases hb : originalDefaultPort b.toList (lib.url.scheme u) = true
      · simp [ha, hb]
      · simp [ha, hb]

/-- Both texts are canonicalized to the pairs that are retained. -/
theorem canonicalize (laws : UrlLaws lib.url) (h : policy.Variant lib a b u v) :
    ∃ result result', policy.canonicalize lib a = .ok result ∧
      policy.canonicalize lib b = .ok result' ∧
      (result.canonicalUrl = result'.canonicalUrl ↔
        lib.url.port u = none ∨ originalDefaultPort a.toList (lib.url.scheme u) =
          originalDefaultPort b.toList (lib.url.scheme u)) ∧
      (queryPairs lib (lib.url.query result.canonicalUrl)).Perm
        (policy.retained lib (lib.url.query u)) ∧
      (queryPairs lib (lib.url.query result'.canonicalUrl)).Perm
        (policy.retained lib (lib.url.query v)) := by
  obtain ⟨result, ha, htarget, hparts⟩ := canonicalize_of_accepts laws h.accepts
  obtain ⟨result', hb, htarget', hparts'⟩ := canonicalize_of_accepts laws h.accepts'
  have hquery : lib.url.query result.canonicalUrl =
      policy.canonicalQuery lib (lib.url.query u) := congrArg UrlParts.query hparts
  have hquery' : lib.url.query result'.canonicalUrl =
      policy.canonicalQuery lib (lib.url.query v) := congrArg UrlParts.query hparts'
  refine ⟨result, result', ha, hb, ?_, ?_, ?_⟩
  · rw [← h.canonicalParts_eq_iff, ← hparts, ← hparts']
    constructor
    · exact congrArg lib.url.parts
    · exact laws.eq_of_parts htarget htarget'
  · rw [hquery, queryPairs_canonicalQuery]
    exact RawQueryPair.sorted_perm _
  · rw [hquery', queryPairs_canonicalQuery]
    exact RawQueryPair.sorted_perm _

end CanonicalizationPolicy.Variant

namespace SitePage

/-- A dropped pair makes a variant of the front page. -/
theorem variant_asked {query : List Char} {written : ∀ c ∈ query, inQuery c = true}
    {s : String} (parameter : String)
    (hs : CanonicalizationPolicy.default.Accepts siteLibraries s (asked query written).url)
    (hamp : '&' ∉ query)
    (hpair : RawQueryPair.new siteLibraries query = ⟨String.ofList query, parameter⟩)
    (hparameter : ¬ CanonicalizationPolicy.default.Retains parameter) :
    CanonicalizationPolicy.default.Variant siteLibraries "http:/a:8080/" s front.url
      (asked query written).url := by
  have hquery : siteUrlCrate.query (asked query written).url = some (String.ofList query) := by
    simp [siteUrlCrate, asked]
  have hnone : siteUrlCrate.query front.url = none := by
    simp [siteUrlCrate, front]
  refine ⟨accepts_front, hs, ?_, [⟨String.ofList query, parameter⟩], ?_, ?_⟩
  · have hparts := parts_url (asked query written)
    have hfront := parts_url front
    show siteUrlCrate.parts (asked query written).url = UrlParts.mk
      (siteUrlCrate.parts front.url).scheme (siteUrlCrate.parts front.url).host
      (siteUrlCrate.parts front.url).port (siteUrlCrate.parts front.url).path
      (siteUrlCrate.query (asked query written).url) (siteUrlCrate.parts front.url).fragment
    rw [hparts, hfront, hquery]
    rfl
  · simpa using hparameter
  · show (queryPairs siteLibraries (siteUrlCrate.query (asked query written).url)).Perm
      (queryPairs siteLibraries (siteUrlCrate.query front.url) ++ _)
    rw [hquery, hnone, queryPairs, Option.map_some, Option.getD_some, split,
      String.toList_ofList, List.splitOn_eq_singleton hamp, List.map_singleton, hpair]
    exact List.Perm.refl _

/-- The click identifier makes a variant. -/
theorem variant_click : CanonicalizationPolicy.default.Variant siteLibraries "http:/a:8080/"
    "http:/a:8080/?fbclid" front.url (asked "fbclid".toList click_written).url := by
  apply variant_asked "fbclid" accepts_click (by simp)
  · simp [RawQueryPair.new, siteLibraries, siteUrlCrate, keyValues, keyValue, splitOnce,
      List.splitOn_cons_eq_if_modifyHead]
  · simp [CanonicalizationPolicy.Retains, isDefaultTrackingParameter,
      CanonicalizationPolicy.default]

/-- The referrer makes a variant. -/
theorem variant_referrer : CanonicalizationPolicy.default.Variant siteLibraries "http:/a:8080/"
    "http:/a:8080/?utm_source=http://b:80/" front.url
      (asked "utm_source=http://b:80/".toList referrer_written).url := by
  apply variant_asked "utm_source" accepts_referrer (by simp)
  · simp [RawQueryPair.new, siteLibraries, siteUrlCrate, keyValues, keyValue, splitOnce,
      List.splitOn_cons_eq_if_modifyHead]
  · simp [CanonicalizationPolicy.Retains, isDefaultTrackingParameter,
      CanonicalizationPolicy.default]

end SitePage

/-- The order of the pairs and the pairs that are dropped do not matter, unless the
original texts differ in naming the default port. -/
theorem CanonicalizationPolicy.canonicalUrl_eq_iff (laws : UrlLaws lib.url)
    (h : policy.Variant lib a b u v) :
    (∃ result result', policy.canonicalize lib a = .ok result ∧
      policy.canonicalize lib b = .ok result' ∧ result.canonicalUrl = result'.canonicalUrl ∧
      (queryPairs lib (lib.url.query result.canonicalUrl)).Perm
        ((queryPairs lib (lib.url.query u)).filter fun pair => policy.Retains pair.parameter) ∧
      (queryPairs lib (lib.url.query result'.canonicalUrl)).Perm
        ((queryPairs lib (lib.url.query v)).filter fun pair => policy.Retains pair.parameter)) ↔
      lib.url.port u = none ∨ originalDefaultPort a.toList (lib.url.scheme u) =
        originalDefaultPort b.toList (lib.url.scheme u) := by
  obtain ⟨result, result', ha, hb, hiff, hkept, hkept'⟩ := h.canonicalize laws
  rw [← hiff]
  constructor
  · rintro ⟨_, _, ha', hb', heq, _⟩
    rw [ha] at ha'
    rw [hb] at hb'
    cases ha'
    cases hb'
    exact heq
  · intro heq
    exact ⟨result, result', ha, hb, heq, hkept, hkept'⟩

/-- The variants have one canonical URL. -/
theorem CanonicalizationPolicy.canonicalUrl_eq_click :
    ∃ result result', CanonicalizationPolicy.default.canonicalize siteLibraries "http:/a:8080/" =
        .ok result ∧
      CanonicalizationPolicy.default.canonicalize siteLibraries "http:/a:8080/?fbclid" =
        .ok result' ∧ result.canonicalUrl = result'.canonicalUrl := by
  have hports : originalDefaultPort "http:/a:8080/".toList "http" =
      originalDefaultPort "http:/a:8080/?fbclid".toList "http" := by
    simp [originalDefaultPort, originalAuthority, splitOnce]
  obtain ⟨result, result', ha, hb, heq, _⟩ := (CanonicalizationPolicy.canonicalUrl_eq_iff
    siteUrlCrate_laws SitePage.variant_click).mpr (Or.inr hports)
  exact ⟨result, result', ha, hb, heq⟩

/-- A dropped pair with a URL takes the port along. -/
theorem SitePage.port_lost : UrlLaws siteLibraries.url ∧
    CanonicalizationPolicy.default.Variant siteLibraries "http:/a:8080/"
      "http:/a:8080/?utm_source=http://b:80/" front.url
      (asked "utm_source=http://b:80/".toList referrer_written).url ∧
    ∃ result result', CanonicalizationPolicy.default.canonicalize siteLibraries "http:/a:8080/" =
        .ok result ∧
      CanonicalizationPolicy.default.canonicalize siteLibraries
        "http:/a:8080/?utm_source=http://b:80/" = .ok result' ∧
      result.canonicalUrl ≠ result'.canonicalUrl := by
  refine ⟨siteUrlCrate_laws, variant_referrer, ?_⟩
  obtain ⟨result, result', ha, hb, hiff, _⟩ := variant_referrer.canonicalize siteUrlCrate_laws
  refine ⟨result, result', ha, hb, ?_⟩
  rw [Ne, hiff, not_or]
  constructor
  · show ¬ siteUrlCrate.port front.url = none
    simp [siteUrlCrate, front]
  · show ¬ originalDefaultPort "http:/a:8080/".toList "http" =
      originalDefaultPort "http:/a:8080/?utm_source=http://b:80/".toList "http"
    have ha : originalDefaultPort "http:/a:8080/".toList "http" = false := by
      simp [originalDefaultPort, originalAuthority, splitOnce]
    have hb : originalDefaultPort "http:/a:8080/?utm_source=http://b:80/".toList "http" = true := by
      simp [originalDefaultPort, originalAuthority, splitOnce, endsAuthority, withoutUserInfo,
        rsplitOnce, parseU16, parseDigits]
    rw [ha, hb]
    decide

/-- Texts that the library has written name no default port. -/
theorem CanonicalizationPolicy.Variant.canonicalUrl_eq_of_text (laws : UrlLaws lib.url)
    (h : policy.Variant lib u.text v.text u v) :
    ∃ result result', policy.canonicalize lib u.text = .ok result ∧
      policy.canonicalize lib v.text = .ok result' ∧
      result.canonicalUrl = result'.canonicalUrl := by
  obtain ⟨result, result', ha, hb, hiff, _⟩ := h.canonicalize laws
  have hu := (laws.normal h.accepts.target).not_originalDefaultPort
  have hv := (laws.normal h.accepts'.target).not_originalDefaultPort
  rw [← laws.text h.accepts.target] at hu
  rw [← laws.text h.accepts'.target, h.parts] at hv
  exact ⟨result, result', ha, hb, hiff.mpr (Or.inr (hu.trans hv.symm))⟩

end Variants

end Erabi.Authoring

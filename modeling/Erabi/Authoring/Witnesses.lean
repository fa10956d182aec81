/-
# Witnesses of ambiguity

When two page types may tie is decided on URLs made from their matchers.  Matchers with
equal fingerprints match the same URLs, are equally specific, and have one witness; where
the witness is ambiguous depends on the candidates that tie and not on their order.
-/
import Mathlib
import Erabi.Authoring.Publishable
import Erabi.Authoring.TieOrder

namespace Erabi.Authoring

variable {lib : Libraries} {context context' : VersionValidationContext}

/-! ## Pairs -/

/-- The pairs of a list with one more element in front. -/
theorem mem_pairs_cons {α : Type} {a p q : α} {rest : List α} :
    (p, q) ∈ pairs (a :: rest) ↔ p = a ∧ q ∈ rest ∨ (p, q) ∈ pairs rest := by
  rw [pairs, List.mem_append, List.mem_map]
  constructor
  · rintro (⟨b, hb, h⟩ | h)
    · cases h
      exact Or.inl ⟨rfl, hb⟩
    · exact Or.inr h
  · rintro (⟨rfl, hq⟩ | h)
    · exact Or.inl ⟨q, hq, rfl⟩
    · exact Or.inr h

/-- Both sides of a pair are in the list. -/
theorem mem_of_mem_pairs {α : Type} {p q : α} {l : List α} (h : (p, q) ∈ pairs l) :
    p ∈ l ∧ q ∈ l := by
  induction l with
  | nil => cases h
  | cons a rest ih =>
    rcases mem_pairs_cons.mp h with ⟨rfl, hq⟩ | h
    · exact ⟨List.mem_cons_self, List.mem_cons_of_mem _ hq⟩
    · exact ⟨List.mem_cons_of_mem _ (ih h).1, List.mem_cons_of_mem _ (ih h).2⟩

/-- A pair is kept in another order, though perhaps turned around. -/
theorem mem_pairs_perm {α : Type} {p q : α} {l l' : List α} (hperm : l.Perm l')
    (h : (p, q) ∈ pairs l) : (p, q) ∈ pairs l' ∨ (q, p) ∈ pairs l' := by
  induction hperm generalizing p q with
  | nil => cases h
  | cons a hperm ih =>
    simp only [mem_pairs_cons] at h ⊢
    rcases h with ⟨rfl, hq⟩ | h
    · exact Or.inl (Or.inl ⟨rfl, hperm.mem_iff.mp hq⟩)
    · exact (ih h).imp Or.inr Or.inr
  | swap a b rest =>
    simp only [mem_pairs_cons, List.mem_cons] at h ⊢
    rcases h with ⟨rfl, rfl | hq⟩ | ⟨rfl, hq⟩ | h
    · exact Or.inr (Or.inl ⟨rfl, Or.inl rfl⟩)
    · exact Or.inl (Or.inr (Or.inl ⟨rfl, hq⟩))
    · exact Or.inl (Or.inl ⟨rfl, Or.inr hq⟩)
    · exact Or.inl (Or.inr (Or.inr h))
  | trans _ _ ih ih' =>
    rcases ih h with h | h
    · exact ih' h
    · exact (ih' h).symm

/-! ## Ambiguity -/

/-- A URL is ambiguous where several candidates tie. -/
theorem isAmbiguous_iff {url : Url} {pageTypes : List PageType} :
    (resolvePageType lib url pageTypes).isAmbiguous = true ↔
      1 < (tiedCandidates lib url pageTypes).length := by
  rw [resolvePageType_eq,
    ← (List.mergeSort_perm (tiedCandidates lib url pageTypes) PageTypeCandidate.le).length_eq]
  rcases (tiedCandidates lib url pageTypes).mergeSort PageTypeCandidate.le with _ | ⟨a, _ | ⟨b, l⟩⟩
  · simp [decisionOf, PageTypeMatchDecision.isAmbiguous]
  · simp [decisionOf, PageTypeMatchDecision.isAmbiguous]
  · simp [decisionOf, PageTypeMatchDecision.isAmbiguous]

/-- The order of page types does not decide ambiguity. -/
theorem isAmbiguous_perm {url : Url} {pageTypes pageTypes' : List PageType}
    (h : pageTypes.Perm pageTypes') : (resolvePageType lib url pageTypes).isAmbiguous =
      (resolvePageType lib url pageTypes').isAmbiguous := by
  rw [Bool.eq_iff_iff, isAmbiguous_iff, isAmbiguous_iff,
    (tiedCandidates_perm (rearranged_of_perm h)).length_eq]

/-- Several members are kept where two of them are. -/
theorem one_lt_length_filterMap {α β : Type} {f : α → Option β} {l : List α} :
    1 < (l.filterMap f).length ↔
      ∃ p q, (p, q) ∈ pairs l ∧ (f p).isSome = true ∧ (f q).isSome = true := by
  induction l with
  | nil => simp [pairs]
  | cons a rest ih =>
    simp only [mem_pairs_cons]
    rcases ha : f a with _ | b
    · rw [List.filterMap_cons_none ha, ih]
      constructor
      · rintro ⟨p, q, hpair, hp, hq⟩
        exact ⟨p, q, Or.inr hpair, hp, hq⟩
      · rintro ⟨p, q, ⟨rfl, -⟩ | hpair, hp, hq⟩
        · rw [ha] at hp
          cases hp
        · exact ⟨p, q, hpair, hp, hq⟩
    · rw [List.filterMap_cons_some ha, List.length_cons]
      constructor
      · intro h
        obtain ⟨c, hc⟩ := List.exists_mem_of_length_pos (show 0 < (rest.filterMap f).length by omega)
        obtain ⟨q, hq, hqc⟩ := List.mem_filterMap.mp hc
        exact ⟨a, q, Or.inl ⟨rfl, hq⟩, by simp [ha], by simp [hqc]⟩
      · rintro ⟨p, q, hpair, -, hq⟩
        obtain ⟨c, hqc⟩ := Option.isSome_iff_exists.mp hq
        have hmem : q ∈ rest := by
          rcases hpair with ⟨-, hmem⟩ | hpair
          · exact hmem
          · exact (mem_of_mem_pairs hpair).2
        have hpos := List.length_pos_of_mem (List.mem_filterMap.mpr ⟨q, hmem, hqc⟩)
        omega

/-- A page type whose candidate ties leads. -/
theorem exists_leads_of_tied {url : Url} {pageTypes : List PageType} {pageType : PageType}
    {c : PageTypeCandidate} (hlisted : pageType ∈ pageTypes)
    (hcandidate : pageType.candidate lib url = some c)
    (htied : c ∈ tiedCandidates lib url pageTypes) :
    ∃ matcher, Leads lib url pageTypes pageType matcher := by
  obtain ⟨tied, -, htiedCandidate, hleads⟩ := mem_tiedCandidates.mp htied
  have hdescribes := PageType.candidate_describes hcandidate
  have hdescribes' := PageType.candidate_describes htiedCandidate
  obtain ⟨best, hbest⟩ := hdescribes.best
  obtain ⟨best', hbest'⟩ := hdescribes'.best
  refine ⟨best, hlisted, hbest.mem, hbest.matches_url, fun other hother rival hrival hmatches => ?_⟩
  rw [← hdescribes.rank_eq hbest, hdescribes'.rank_eq hbest']
  exact (hleads best' hbest').greatest other hother rival hrival hmatches

/-- A URL is ambiguous where two page types of the list lead. -/
theorem isAmbiguous_iff_leads {url : Url} {pageTypes : List PageType} :
    (resolvePageType lib url pageTypes).isAmbiguous = true ↔
      ∃ pageType other, (pageType, other) ∈ pairs pageTypes ∧
        (∃ matcher, Leads lib url pageTypes pageType matcher) ∧
          ∃ matcher, Leads lib url pageTypes other matcher := by
  have hkept : ∀ pageType ∈ pageTypes, (((pageType.candidate lib url).filter fun c =>
      (candidates lib url pageTypes).all fun d => (d.compareRank c).isLE).isSome = true ↔
        ∃ matcher, Leads lib url pageTypes pageType matcher) := by
    intro pageType hlisted
    constructor
    · intro h
      obtain ⟨c, hc⟩ := Option.isSome_iff_exists.mp h
      obtain ⟨hcandidate, hall⟩ := Option.filter_eq_some_iff.mp hc
      refine exists_leads_of_tied hlisted hcandidate ?_
      exact List.mem_filter.mpr ⟨List.mem_filterMap.mpr ⟨pageType, hlisted, hcandidate⟩, hall⟩
    · rintro ⟨matcher, hleads⟩
      obtain ⟨c, hcandidate, htied, -⟩ := hleads.candidate
      exact Option.isSome_iff_exists.mpr
        ⟨c, Option.filter_eq_some_iff.mpr ⟨hcandidate, (List.mem_filter.mp htied).2⟩⟩
  rw [isAmbiguous_iff, tiedCandidates, candidates, List.filter_filterMap, one_lt_length_filterMap]
  constructor
  · rintro ⟨pageType, other, hpair, hleft, hright⟩
    obtain ⟨hpageType, hother⟩ := mem_of_mem_pairs hpair
    exact ⟨pageType, other, hpair, (hkept pageType hpageType).mp hleft,
      (hkept other hother).mp hright⟩
  · rintro ⟨pageType, other, hpair, hleft, hright⟩
    obtain ⟨hpageType, hother⟩ := mem_of_mem_pairs hpair
    exact ⟨pageType, other, hpair, (hkept pageType hpageType).mpr hleft,
      (hkept other hother).mpr hright⟩

/-! ## Fingerprints -/

/-- The text of a fingerprint without its tag. -/
def fingerprintTail : UrlMatcher → String
  | .exactUrl url => url.text
  | .exactHostPathTemplate host pathTemplate _ =>
      toAsciiLowercase host ++ "|" ++ normalizeTemplate pathTemplate ++ "|"
  | .pathPrefix host path => toAsciiLowercase (host.getD "") ++ "|" ++ path
  | .pathGlob host pattern => toAsciiLowercase (host.getD "") ++ "|" ++ pattern
  | .regex pattern => pattern

/-- The word for a kind of matcher in its fingerprint. -/
def fingerprintTag : UrlMatcher → String
  | .exactUrl _ => "EXACT_URL"
  | .exactHostPathTemplate _ _ _ => "EXACT_HOST_PATH_TEMPLATE"
  | .pathPrefix _ _ => "PATH_PREFIX"
  | .pathGlob _ _ => "PATH_GLOB"
  | .regex _ => "REGEX"

/-- A fingerprint is the tag, a bar, and the rest. -/
theorem toList_fingerprint (matcher : UrlMatcher) : (matcherFingerprint matcher).1.toList =
    (fingerprintTag matcher).toList ++ '|' :: (fingerprintTail matcher).toList := by
  unfold matcherFingerprint fingerprintTag fingerprintTail
  rcases matcher with url | ⟨host, pathTemplate, query⟩ | ⟨host, path⟩ | ⟨host, pattern⟩ | pattern
  all_goals simp [String.toList_append]

/-- The tag ends at the first bar. -/
theorem tag_tail_eq {left right : UrlMatcher}
    (h : matcherFingerprint left = matcherFingerprint right) :
    fingerprintTag left = fingerprintTag right ∧
      (fingerprintTail left).toList = (fingerprintTail right).toList := by
  have hbar : ∀ matcher, '|' ∉ (fingerprintTag matcher).toList := by
    intro matcher
    rcases matcher with _ | _ | _ | _ | _ <;> simp [fingerprintTag]
  have hsplit := congrArg (fun fingerprint => splitOnce ['|'] fingerprint.1.toList) h
  simp only [toList_fingerprint, splitOnce_append (hbar _), Option.some.injEq, Prod.mk.injEq] at hsplit
  exact ⟨String.toList_inj.mp hsplit.1, hsplit.2⟩

/-! ### Templates -/

/-- What stands in place of a capture is a capture itself, and nothing else becomes one. -/
theorem mapSegments_of_normalizeTemplate {template template' : String} (capture : List Char)
    (h : normalizeTemplate template = normalizeTemplate template') :
    mapSegments capture template = mapSegments capture template' := by
  have hsegments : ∀ template : String, ((split '/' template).map fun segment =>
      if isCapture segment then ['{', '}'] else segment) =
        (normalizeTemplate template).toList.splitOn '/' := by
    intro template
    rw [normalizeTemplate, mapSegments, String.toList_ofList, List.splitOn_intercalate]
    · intro piece hpiece
      obtain ⟨segment, hsegment, rfl⟩ := List.mem_map.mp hpiece
      split
      · decide
      · exact not_mem_of_mem_splitOn hsegment
    · rw [Ne, List.map_eq_nil_iff]
      exact List.splitOn_ne_nil _ _
  have htwice : ∀ template : String, mapSegments capture template =
      String.ofList (['/'].intercalate (((normalizeTemplate template).toList.splitOn '/').map
        fun segment => if isCapture segment then capture else segment)) := by
    intro template
    rw [← hsegments, List.map_map, mapSegments]
    congr 2
    apply List.map_congr_left
    intro segment _
    have hbraces : isCapture ['{', '}'] = true := by decide
    by_cases hcapture : isCapture segment = true
    · simp [hcapture, hbraces]
    · simp [hcapture]
  rw [htwice, htwice, h]

/-- A path stays a path. -/
theorem head_mapSegments {template : String} (capture : List Char)
    (h : template.toList.head? = some '/') :
    (mapSegments capture template).toList.head? = some '/' := by
  obtain ⟨rest, hrest⟩ := List.head?_eq_some_iff.mp h
  have hsplit : split '/' template = [] :: rest.splitOn '/' := by
    have hnil : '/' ∉ ([] : List Char) := List.not_mem_nil
    rw [split, hrest]
    exact List.splitOn_append_cons_self_of_not_mem hnil rest
  have hempty : isCapture [] = false := by decide
  obtain ⟨first, behind, hbehind⟩ := List.exists_cons_of_ne_nil (List.splitOn_ne_nil '/' rest)
  rw [mapSegments, String.toList_ofList, hsplit, hbehind]
  simp [hempty]

/-! ### Hosts -/

/-- What the library does with the hosts it takes: a bar is in none of them, and letters
in lower case give the same URL. -/
structure WitnessLaws (lib : Libraries) : Prop where
  bar {host : String} : validHost lib host = true → '|' ∉ host.toList
  lowercase {host host' path : String} : validHost lib host = true → validHost lib host' = true →
    toAsciiLowercase host = toAsciiLowercase host' → path.toList.head? = some '/' →
      lib.url.parse ("https://" ++ host ++ path) = lib.url.parse ("https://" ++ host' ++ path)

/-- Small letters hide no bar. -/
theorem bar_not_mem_toAsciiLowercase {host : String} (h : '|' ∉ host.toList) :
    '|' ∉ (toAsciiLowercase host).toList := by
  rw [toAsciiLowercase, String.toList_ofList, List.mem_map]
  rintro ⟨c, hc, hlower⟩
  have halpha : c.isAlpha = false := by
    rw [← Char.isAlpha_toLower_eq_isAlpha, hlower]
    decide
  have hupper : ¬ c.isUpper = true := by
    intro hupper
    rw [Char.isAlpha, hupper, Bool.true_or] at halpha
    cases halpha
  rw [Char.toLower_eq_of_not_isUpper hupper] at hlower
  exact h (hlower ▸ hc)

/-- A valid host does not become empty in lower case. -/
theorem toAsciiLowercase_ne_empty {host : String} (h : validHost lib host = true) :
    toAsciiLowercase host ≠ "" := by
  intro hempty
  have hnil : host.toList = [] := by
    rw [toAsciiLowercase, ← String.toList_inj, String.toList_ofList] at hempty
    exact List.map_eq_nil_iff.mp hempty
  rw [validHost, isBlank, hnil] at h
  cases h

/-- The host of a matcher, which may have none. -/
theorem WitnessLaws.hostPathWitness_eq (laws : WitnessLaws lib) {host host' : Option String}
    {path : String} (hhost : validOptionalHost lib host = true)
    (hhost' : validOptionalHost lib host' = true)
    (hlower : toAsciiLowercase (host.getD "") = toAsciiLowercase (host'.getD ""))
    (hpath : path.toList.head? = some '/') :
    hostPathWitness lib host path = hostPathWitness lib host' path := by
  have hnone : toAsciiLowercase "" = "" := by decide
  have hnonempty : path ≠ "" := by
    rintro rfl
    cases hpath
  rw [hostPathWitness, hostPathWitness, if_neg hnonempty]
  rcases host with _ | host <;> rcases host' with _ | host'
  · rfl
  · exact absurd (hlower.symm.trans hnone) (toAsciiLowercase_ne_empty hhost')
  · exact absurd (hlower.trans hnone) (toAsciiLowercase_ne_empty hhost)
  · exact laws.lowercase hhost hhost' hlower hpath

/-- No bar occurs in a valid optional host. -/
theorem WitnessLaws.bar_optional (laws : WitnessLaws lib) {host : Option String}
    (h : validOptionalHost lib host = true) : '|' ∉ (toAsciiLowercase (host.getD "")).toList := by
  apply bar_not_mem_toAsciiLowercase
  rcases host with _ | host
  · exact List.not_mem_nil
  · exact laws.bar h

/-- The parts of a fingerprint that has a host in front. -/
theorem host_tail_eq {host host' rest rest' : String} (hbar : '|' ∉ host.toList)
    (hbar' : '|' ∉ host'.toList)
    (h : (host ++ "|" ++ rest).toList = (host' ++ "|" ++ rest').toList) :
    host = host' ∧ rest = rest' := by
  have hcons : ∀ host rest : String,
      (host ++ "|" ++ rest).toList = host.toList ++ '|' :: rest.toList := by
    intro host rest
    rw [String.toList_append, String.toList_append, List.append_assoc]
    rfl
  have hsplit := congrArg (splitOnce ['|']) h
  rw [hcons, hcons, splitOnce_append hbar, splitOnce_append hbar', Option.some.injEq,
    Prod.mk.injEq, String.toList_inj, String.toList_inj] at hsplit
  exact hsplit

/-- The definitions agree in all but the spelling of the host and the names of captures. -/
inductive AlikeDefinitions : UrlMatcher → UrlMatcher → Prop where
  | exactUrl (url : Url) : AlikeDefinitions (.exactUrl url) (.exactUrl url)
  | exactHostPathTemplate {host host' pathTemplate pathTemplate' : String}
      {query : List (String × String)} (hhost : toAsciiLowercase host = toAsciiLowercase host')
      (hpath : normalizeTemplate pathTemplate = normalizeTemplate pathTemplate') :
      AlikeDefinitions (.exactHostPathTemplate host pathTemplate query)
        (.exactHostPathTemplate host' pathTemplate' query)
  | pathPrefix {host host' : Option String} {path : String}
      (hhost : toAsciiLowercase (host.getD "") = toAsciiLowercase (host'.getD "")) :
      AlikeDefinitions (.pathPrefix host path) (.pathPrefix host' path)
  | pathGlob {host host' : Option String} {pattern : String}
      (hhost : toAsciiLowercase (host.getD "") = toAsciiLowercase (host'.getD "")) :
      AlikeDefinitions (.pathGlob host pattern) (.pathGlob host' pattern)
  | regex (pattern : String) : AlikeDefinitions (.regex pattern) (.regex pattern)

/-- Valid definitions with one fingerprint are alike. -/
theorem WitnessLaws.alikeDefinitions (laws : WitnessLaws lib) {left right : UrlMatcher}
    (hleft : left.validateDefinition lib = .ok ()) (hright : right.validateDefinition lib = .ok ())
    (h : matcherFingerprint left = matcherFingerprint right) : AlikeDefinitions left right := by
  have hquery := congrArg Prod.snd h
  obtain ⟨htag, htail⟩ := tag_tail_eq h
  clear h
  unfold fingerprintTag at htag
  unfold fingerprintTail at htail
  -- definitions of different kinds have different tags
  cases left <;> cases right <;> dsimp only at htag htail
  any_goals
    refine absurd htag ?_
    decide
  case exactUrl.exactUrl url url' =>
    obtain ⟨text, hprintable⟩ := url
    obtain ⟨text', hprintable'⟩ := url'
    obtain rfl : text = text' := String.toList_inj.mp htail
    exact .exactUrl _
  case exactHostPathTemplate.exactHostPathTemplate host pathTemplate query host' pathTemplate'
      query' =>
    obtain rfl : query = query' := hquery
    have htail' : (toAsciiLowercase host ++ "|" ++ (normalizeTemplate pathTemplate ++ "|")).toList =
        (toAsciiLowercase host' ++ "|" ++ (normalizeTemplate pathTemplate' ++ "|")).toList := by
      rwa [← String.append_assoc, ← String.append_assoc]
    obtain ⟨hlower, hpath⟩ := host_tail_eq
      (bar_not_mem_toAsciiLowercase (laws.bar (ensure_eq_ok.mp hleft).1))
      (bar_not_mem_toAsciiLowercase (laws.bar (ensure_eq_ok.mp hright).1)) htail'
    exact .exactHostPathTemplate hlower ((String.append_left_inj _).mp hpath)
  case pathPrefix.pathPrefix host path host' path' =>
    obtain ⟨hlower, rfl⟩ := host_tail_eq (laws.bar_optional (ensure_eq_ok.mp hleft).1)
      (laws.bar_optional (ensure_eq_ok.mp hright).1) htail
    exact .pathPrefix hlower
  case pathGlob.pathGlob host pattern host' pattern' =>
    obtain ⟨hlower, rfl⟩ := host_tail_eq (laws.bar_optional (ensure_eq_ok.mp hleft).1)
      (laws.bar_optional (ensure_eq_ok.mp hright).1) htail
    exact .pathGlob hlower
  case regex.regex pattern pattern' =>
    obtain rfl : pattern = pattern' := String.toList_inj.mp htail
    exact .regex pattern

/-- Alike definitions have one witness. -/
theorem WitnessLaws.matcherWitness_eq (laws : WitnessLaws lib) {left right : UrlMatcher}
    (hleft : left.validateDefinition lib = .ok ()) (hright : right.validateDefinition lib = .ok ())
    (h : matcherFingerprint left = matcherFingerprint right) :
    matcherWitness lib left = matcherWitness lib right := by
  rcases laws.alikeDefinitions hleft hright h with
    url | ⟨hlower, hnormalized⟩ | hlower | hlower | pattern
  · rfl
  · rename_i host host' pathTemplate pathTemplate' query
    obtain ⟨hhost, hpath, -⟩ := ensure_eq_ok.mp hleft
    obtain ⟨hhost', -, -⟩ := ensure_eq_ok.mp hright
    rw [validPathTemplate, Bool.and_eq_true, decide_eq_true_eq] at hpath
    have hwitness : normalizeTemplateWitness pathTemplate =
        normalizeTemplateWitness pathTemplate' := mapSegments_of_normalizeTemplate _ hnormalized
    have hhead : (normalizeTemplateWitness pathTemplate).toList.head? = some '/' :=
      head_mapSegments _ hpath.1
    rw [matcherWitness, matcherWitness, ← hwitness, laws.lowercase hhost hhost' hlower hhead]
  · rename_i host host' path
    obtain ⟨hhost, hpath⟩ := ensure_eq_ok.mp hleft
    obtain ⟨hhost', -⟩ := ensure_eq_ok.mp hright
    rw [validPathPrefix, Bool.and_eq_true, decide_eq_true_eq] at hpath
    exact laws.hostPathWitness_eq hhost hhost' hlower hpath.1
  · rename_i host host' pattern
    obtain ⟨hhost, hpath⟩ := ensure_eq_ok.mp hleft
    obtain ⟨hhost', -⟩ := ensure_eq_ok.mp hright
    rw [validPathGlob, decide_eq_true_eq] at hpath
    refine laws.hostPathWitness_eq hhost hhost' hlower ?_
    obtain ⟨rest, hrest⟩ := List.head?_eq_some_iff.mp hpath
    rw [String.toList_ofList, hrest, List.flatMap_cons, if_neg (by decide)]
    rfl
  · rfl

/-- Prefixes at one host in different case share their fingerprint. -/
theorem matcherFingerprint_pathPrefix {host host' path : String}
    (h : toAsciiLowercase host = toAsciiLowercase host') :
    matcherFingerprint (.pathPrefix (some host) path) =
      matcherFingerprint (.pathPrefix (some host') path) := by
  unfold matcherFingerprint
  show ("PATH_PREFIX|" ++ toAsciiLowercase host ++ "|" ++ path, _) = _
  rw [h]
  rfl

/-- Matchers compete at equal specificity and fingerprint, expressions apart. -/
theorem competes_iff {left right : UrlMatcher} : competes lib left right = true ↔
    left.kind ≠ .regex ∧ right.kind ≠ .regex ∧ left.specificity lib = right.specificity lib ∧
      matcherFingerprint left = matcherFingerprint right := by
  simp only [competes, Bool.and_eq_true, decide_eq_true_eq, and_assoc]

/-- Competing is mutual. -/
theorem competes_symm {left right : UrlMatcher} (h : competes lib left right = true) :
    competes lib right left = true := by
  obtain ⟨hleft, hright, hspecificity, hfingerprint⟩ := competes_iff.mp h
  exact competes_iff.mpr ⟨hright, hleft, hspecificity.symm, hfingerprint.symm⟩

/-! ## Known URLs -/

namespace VersionValidationContext

/-- A witness of two competing matchers of page types with one priority. -/
structure CompetingWitness (lib : Libraries) (pageTypes : List PageType) (left right : UrlMatcher)
    (pageType other : PageType) (url : Url) : Prop where
  pair : (pageType, other) ∈ pairs pageTypes
  priority : pageType.priority = other.priority
  left_mem : left ∈ pageType.matchers
  right_mem : right ∈ other.matchers
  competes : competes lib left right = true
  witness : matcherWitness lib left = some url

/-- The known URLs are the enabled seeds and the competing pairs' examples. -/
theorem mem_knownUrls {url : Url} : url ∈ context.knownUrls lib ↔
    (∃ seed ∈ context.enabledSeeds, seed.originalUrl = url) ∨
      ∃ left right pageType other,
        CompetingWitness lib context.pageTypes left right pageType other url := by
  rw [knownUrls, List.mem_append, List.mem_map]
  refine or_congr Iff.rfl ?_
  constructor
  · intro h
    obtain ⟨⟨pageType, other⟩, hpair, h⟩ := List.mem_flatMap.mp h
    obtain ⟨left, hleft, h⟩ := List.mem_flatMap.mp h
    obtain ⟨right, hright, hwitness⟩ := List.mem_filterMap.mp h
    obtain ⟨hpair, hpriority⟩ := List.mem_filter.mp hpair
    obtain ⟨hright, hcompetes⟩ := List.mem_filter.mp hright
    exact ⟨left, right, pageType, other, hpair, of_decide_eq_true hpriority, hleft, hright,
      hcompetes, hwitness⟩
  · rintro ⟨left, right, pageType, other, h⟩
    refine List.mem_flatMap.mpr ⟨(pageType, other), ?_, List.mem_flatMap.mpr ⟨left, h.left_mem, ?_⟩⟩
    · exact List.mem_filter.mpr ⟨h.pair, decide_eq_true h.priority⟩
    · exact List.mem_filterMap.mpr
        ⟨right, List.mem_filter.mpr ⟨h.right_mem, h.competes⟩, h.witness⟩

end VersionValidationContext

/-! ## The URLs of one shop -/

namespace Shop

/-- The origin of the sample site. -/
def origin : List Char := "https://shop.test".toList

/-- The URL of the shop with the path. -/
def url (path : List Char) : Option Url :=
  if h : Printable (String.ofList (origin ++ path)) then some ⟨_, h⟩ else none

/-- Capital letters in front of the path are read as small ones. -/
def parse (text : String) : Option Url :=
  if (text.toList.take 17).map Char.toLower = origin ∧ (text.toList.drop 17).head? = some '/' then
    url (text.toList.drop 17)
  else none

/-- The URL library on the URLs of the shop that have neither query nor fragment. -/
def urlCrate : UrlCrate where
  parse := parse
  scheme _ := "https"
  hostStr _ := some "shop.test"
  username _ := ""
  password _ := none
  port _ := none
  path u := String.ofList (u.text.toList.drop 17)
  query _ := none
  fragment _ := none
  queryPairs _ := []
  setScheme u _ := some u
  setHost u _ := some u
  setPort u _ := some u
  setPath u _ := u
  setQuery u _ := u
  setFragment u _ := u
  appendPair u _ _ := u
  formUrlencoded := keyValues

/-- The libraries of the sample, which know the sample site. -/
def libraries : Libraries := { plainLibraries with url := urlCrate }

/-- The length of the sample origin. -/
theorem length_origin : origin.length = 17 := by decide

/-- The sample origin is in lower case. -/
theorem map_toLower_origin : origin.map Char.toLower = origin := by decide

/-- Origin and path of a sample URL are found by position. -/
theorem take_drop_origin (path : List Char) :
    (origin ++ path).take 17 = origin ∧ (origin ++ path).drop 17 = path := by
  rw [← length_origin]
  exact ⟨List.take_left, List.drop_left⟩

/-- The URL of a path that can be printed. -/
theorem exists_url {path : List Char} (h : ∀ c ∈ path, isControl c = false) :
    ∃ u, url path = some u := by
  have horigin : Printable "https://shop.test" := by simp [Printable, isControl]
  have hprintable : Printable (String.ofList (origin ++ path)) := by
    intro c hc
    rw [String.toList_ofList, List.mem_append] at hc
    rcases hc with hc | hc
    · exact horigin c hc
    · exact h c hc
  rw [url, dif_pos hprintable]
  exact ⟨_, rfl⟩

/-- A host of the shop is its name, with capital letters perhaps. -/
theorem lowercase_of_validHost {host : String} (h : validHost libraries host = true) :
    host.toList.map Char.toLower = "shop.test".toList := by
  rw [validHost, Bool.and_eq_true] at h
  obtain ⟨-, hparsed⟩ := h
  split at hparsed
  · cases hparsed
  · rw [Bool.and_eq_true] at hparsed
    have hname : eqIgnoreAsciiCase "shop.test" host = true := hparsed.2
    rw [eqIgnoreAsciiCase, decide_eq_true_eq, toAsciiLowercase, toAsciiLowercase,
      String.ofList_inj] at hname
    rw [← hname]
    decide

/-- What is behind the host is the path. -/
theorem parse_https {host : String} (h : host.toList.map Char.toLower = "shop.test".toList)
    {path : String} (hpath : path.toList.head? = some '/') :
    parse ("https://" ++ host ++ path) = url path.toList := by
  have hlength : ("https://".toList ++ host.toList).length = 17 := by
    have hhost := congrArg List.length h
    rw [List.length_map] at hhost
    rw [List.length_append, hhost]
    decide
  have htext : ("https://" ++ host ++ path).toList =
      ("https://".toList ++ host.toList) ++ path.toList := by
    rw [String.toList_append, String.toList_append]
  have hlower : ("https://".toList ++ host.toList).map Char.toLower = origin := by
    rw [List.map_append, h]
    decide
  rw [parse, htext, ← hlength, List.take_left, List.drop_left, if_pos ⟨hlower, hpath⟩]

/-- The sample libraries keep the laws of witnesses. -/
theorem witnessLaws : WitnessLaws libraries where
  bar {host} h := by
    intro hbar
    have hmem : Char.toLower '|' ∈ host.toList.map Char.toLower := List.mem_map_of_mem hbar
    rw [lowercase_of_validHost h] at hmem
    exact absurd hmem (by decide)
  lowercase h h' _ hpath := by
    show parse _ = parse _
    rw [parse_https (lowercase_of_validHost h) hpath, parse_https (lowercase_of_validHost h') hpath]

/-- A sample URL is its origin and path. -/
theorem text_url {path : List Char} {u : Url} (h : url path = some u) :
    u.text = String.ofList (origin ++ path) := by
  rw [url] at h
  split at h
  · cases h
    rfl
  · cases h

/-- A sample URL is known by its text. -/
theorem url_eq_some {path : List Char} {u : Url} (h : u.text = String.ofList (origin ++ path)) :
    url path = some u := by
  have hprintable : Printable (String.ofList (origin ++ path)) := h ▸ u.printable
  rw [url, dif_pos hprintable]
  obtain ⟨text, printable⟩ := u
  cases h
  rfl

/-- The text of a URL of the shop is read as the URL. -/
theorem parse_url {path : List Char} {u : Url} (h : url path = some u)
    (hpath : path.head? = some '/') : parse u.text = some u := by
  obtain ⟨htake, hdrop⟩ := take_drop_origin path
  rw [parse, text_url h, String.toList_ofList, htake, hdrop, if_pos ⟨map_toLower_origin, hpath⟩, h]

/-- The path of a sample URL. -/
theorem path_url {path : List Char} {u : Url} (h : url path = some u) :
    urlCrate.path u = String.ofList path := by
  show String.ofList (u.text.toList.drop 17) = _
  rw [text_url h, String.toList_ofList, (take_drop_origin path).2]

/-- A prefix matches the paths that begin with it, however the host is spelled. -/
theorem matches_pathPrefix {host path : String} {actual : List Char} {u : Url}
    (hurl : url actual = some u) (hhost : toAsciiLowercase "shop.test" = toAsciiLowercase host)
    (hpath : path.toList.isPrefixOf actual = true) :
    (UrlMatcher.pathPrefix (some host) path).matches libraries u = true := by
  show (eqIgnoreAsciiCase "shop.test" host &&
    path.toList.isPrefixOf (urlCrate.path u).toList) = true
  rw [path_url hurl, String.toList_ofList, hpath, eqIgnoreAsciiCase, decide_eq_true hhost]
  rfl

/-- The scheme of a sample URL stays. -/
theorem normalizeScheme_eq (original : List Char) (u : Url)
    (decisions : List CanonicalizationDecision) :
    ∃ decisions', normalizeScheme libraries original (u, decisions) = .ok (u, decisions') := by
  simp only [normalizeScheme]
  split
  · exact ⟨_, rfl⟩
  · exact ⟨_, rfl⟩

/-- The host of a sample URL stays. -/
theorem normalizeHost_eq (original : List Char) (u : Url)
    (decisions : List CanonicalizationDecision) :
    ∃ decisions', normalizeHost libraries original (u, decisions) = .ok (u, decisions') := by
  simp only [normalizeHost, libraries, urlCrate]
  split
  · exact ⟨_, rfl⟩
  · exact ⟨_, rfl⟩

/-- A sample URL has no port to remove. -/
theorem removeDefaultPort_eq (original : List Char) (scheme : String) (u : Url)
    (decisions : List CanonicalizationDecision) :
    ∃ decisions',
      removeDefaultPort libraries original scheme (u, decisions) = .ok (u, decisions') := by
  simp only [removeDefaultPort]
  split
  · exact ⟨_, rfl⟩
  · exact ⟨_, rfl⟩

/-- The path of a sample URL stays. -/
theorem normalizeRootPath_fst (original : List Char) (u : Url)
    (decisions : List CanonicalizationDecision) :
    (normalizeRootPath libraries original (u, decisions)).1 = u := by
  simp only [normalizeRootPath]
  split
  · split
    · rfl
    · rfl
  · rfl

/-- The name of the shop is a valid host. -/
theorem validHost_of {host : String} (hblank : isBlank host = false)
    (hspace : host.toList.any Snapshot.isWhitespace = false)
    (h : host.toList.map Char.toLower = "shop.test".toList) : validHost libraries host = true := by
  have hpath : ("/" : String).toList.head? = some '/' := by decide
  have hroot : ∀ c ∈ ("/" : String).toList, isControl c = false := by simp [isControl]
  obtain ⟨u, hu⟩ := exists_url hroot
  have hparsed : libraries.url.parse ("https://" ++ host ++ "/") = some u := by
    show parse _ = _
    rw [parse_https h hpath, hu]
  have hname : eqIgnoreAsciiCase "shop.test" host = true := by
    rw [eqIgnoreAsciiCase, decide_eq_true_eq, toAsciiLowercase, toAsciiLowercase, h]
    decide
  rw [validHost, hblank, hspace, hparsed]
  show (true && (true && eqIgnoreAsciiCase "shop.test" host)) = true
  rw [hname]
  rfl

/-- A URL of the shop is canonical. -/
theorem canonicalize_eq_ok {policy : CanonicalizationPolicy} (hpolicy : policy.validate = .ok ())
    {text : String} {u : Url} (hparse : parse text = some u) :
    ∃ result, policy.canonicalize libraries text = .ok result ∧ result.canonicalUrl = u := by
  obtain ⟨schemed, hschemed⟩ := normalizeScheme_eq text.toList u []
  obtain ⟨hosted, hhosted⟩ := normalizeHost_eq text.toList u schemed
  obtain ⟨ported, hported⟩ :=
    removeDefaultPort_eq text.toList (toAsciiLowercase "https") u hosted
  have hparse' : libraries.url.parse text = some u := hparse
  have hscheme : libraries.url.scheme u = "http" ∨ libraries.url.scheme u = "https" := Or.inr rfl
  have htarget : (libraries.url.hostStr u).isSome ∧ libraries.url.username u = "" ∧
      libraries.url.password u = none := ⟨rfl, rfl, rfl⟩
  have hroot := normalizeRootPath_fst text.toList u (removeFragment libraries (u, ported)).2
  obtain ⟨canonicalUrl, explanation, hfinal⟩ : ∃ canonicalUrl explanation,
      policy.rewriteQuery libraries (normalizeRootPath libraries text.toList
        (removeFragment libraries (u, ported))) = (canonicalUrl, explanation) := ⟨_, _, rfl⟩
  have hcanonical : canonicalUrl = u := by
    rw [← hroot]
    exact (congrArg Prod.fst hfinal).symm
  refine ⟨⟨text, canonicalUrl, explanation⟩, ?_, hcanonical⟩
  rw [CanonicalizationPolicy.canonicalize, hpolicy]
  simp only [hparse', ensure, if_pos hscheme, if_pos htarget]
  show (normalizeScheme libraries text.toList (u, [])).bind _ = _
  rw [hschemed]
  show (normalizeHost libraries text.toList (u, schemed)).bind _ = _
  rw [hhosted]
  show (removeDefaultPort libraries text.toList (toAsciiLowercase "https") (u, hosted)).bind _ = _
  rw [hported]
  show Except.ok (CanonicalizationResult.mk _ (policy.rewriteQuery libraries (normalizeRootPath
    libraries text.toList (removeFragment libraries (u, ported)))).1 (policy.rewriteQuery libraries
      (normalizeRootPath libraries text.toList (removeFragment libraries (u, ported)))).2) = _
  rw [hfinal]

end Shop

end Erabi.Authoring

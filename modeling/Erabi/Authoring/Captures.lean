/-
# Capture names

What renaming the captures of path templates changes.  Templates match the same URLs,
but the letters and digits of a name count as literal characters, and its opening
parentheses as wildcards.
-/
import Mathlib
import Erabi.Authoring.Ranking
import Erabi.Authoring.UrlLaws

namespace Erabi.Authoring

/-! ## Templates -/

/-- The name in a capture. -/
def captureName (segment : List Char) : List Char := segment.tail.dropLast

/-- The names of the captures of a template. -/
def captureNames (template : String) : List (List Char) :=
  ((split '/' template).filter isCapture).map captureName

/-- The segment with its capture renamed. -/
def renameSegment (rename : List Char → List Char) (segment : List Char) : List Char :=
  if isCapture segment then '{' :: (rename (captureName segment) ++ ['}']) else segment

/-- The template with other capture names, distinct ones for distinct ones. -/
def RenamedTemplate (template template' : String) : Prop :=
  ∃ rename : List Char → List Char,
    Set.InjOn rename {name | name ∈ captureNames template} ∧
    split '/' template' = (split '/' template).map (renameSegment rename)

/-- A capture is a name in braces. -/
theorem isCapture_iff {segment : List Char} :
    isCapture segment = true ↔ segment = '{' :: (captureName segment ++ ['}']) := by
  rcases segment with _ | ⟨c, segment⟩
  · simp [isCapture]
  · rcases List.eq_nil_or_concat' segment with rfl | ⟨name, d, rfl⟩
    · simp [isCapture, captureName]
      rintro rfl
      decide
    · have hlast : (c :: (name ++ [d])).getLast? = some d := by
        rw [← List.cons_append, List.getLast?_concat]
      simp [isCapture, captureName, hlast]

/-- A name in braces is a capture. -/
theorem isCapture_braces (name : List Char) : isCapture ('{' :: (name ++ ['}'])) = true := by
  rw [isCapture_iff, captureName, List.tail_cons, List.dropLast_concat]

/-- Its name is between the braces. -/
theorem captureName_braces (name : List Char) : captureName ('{' :: (name ++ ['}'])) = name := by
  rw [captureName, List.tail_cons, List.dropLast_concat]

variable {rename : List Char → List Char}

/-- A renamed capture is one. -/
theorem isCapture_renameSegment (segment : List Char) :
    isCapture (renameSegment rename segment) = isCapture segment := by
  rw [renameSegment]
  split
  · rename_i hcapture
    rw [isCapture_braces, hcapture]
  · rfl

/-- What is no capture stays. -/
theorem renameSegment_of_not {segment : List Char} (h : isCapture segment = false) :
    renameSegment rename segment = segment := by
  rw [renameSegment, h]
  rfl

/-- Only the empty segment is empty. -/
theorem renameSegment_eq_nil {segment : List Char} :
    renameSegment rename segment = [] ↔ segment = [] := by
  by_cases hcapture : isCapture segment = true
  · rw [renameSegment, if_pos hcapture, isCapture_iff.mp hcapture]
    simp
  · rw [renameSegment, if_neg hcapture]

/-- A capture is no literal segment, whatever its name. -/
theorem isLiteral_renameSegment (segment : List Char) :
    (decide (renameSegment rename segment ≠ []) && !(renameSegment rename segment).any isWildcard) =
      (decide (segment ≠ []) && !segment.any isWildcard) := by
  have hbraces : ∀ name, (('{' :: (name ++ ['}'])).any isWildcard) = true := fun name => by
    rw [List.any_cons, Bool.or_eq_true]
    exact Or.inl (by decide)
  by_cases hcapture : isCapture segment = true
  · have hsegment : segment.any isWildcard = true := by
      rw [isCapture_iff.mp hcapture]
      exact hbraces _
    rw [renameSegment, if_pos hcapture, hbraces, hsegment]
    simp
  · rw [renameSegment, if_neg hcapture]

/-! ## Matching -/

/-- Names do not matter for what a template matches. -/
theorem templateMatches_renamed {template template' : String}
    (h : split '/' template' = (split '/' template).map (renameSegment rename)) (actual : String) :
    templateMatches template' actual = templateMatches template actual := by
  have hsegments : segments template' = (segments template).map (renameSegment rename) := by
    rw [segments, segments, h, List.filter_map]
    congr 1
    apply List.filter_congr
    intro segment _
    simp [renameSegment_eq_nil]
  rw [templateMatches, templateMatches, hsegments, List.length_map, List.zip_map_left,
    List.all_map]
  congr 2
  funext pair
  by_cases hcapture : isCapture pair.1 = true
  · simp [isCapture_renameSegment, hcapture]
  · simp [renameSegment_of_not (Bool.eq_false_iff.mpr hcapture)]

/-! ## Counting -/

section Counting

variable {p : Char → Bool}

/-- What is counted is counted in the segments. -/
theorem countP_splitOn {c : Char} (hp : p c = false) (s : List Char) :
    s.countP p = ((s.splitOn c).map (List.countP p)).sum := by
  induction s with
  | nil => rfl
  | cons d s ih =>
    rw [List.splitOn_cons_eq_if_modifyHead]
    by_cases hd : d = c
    · have hbeq : (d == c) = true := by simpa using hd
      rw [if_pos hbeq, hd, List.countP_cons_of_neg (by simp [hp]), ih]
      simp
    · have hbeq : ¬ (d == c) = true := by simpa using hd
      obtain ⟨first, rest, hs⟩ := List.exists_cons_of_ne_nil (List.splitOn_ne_nil c s)
      rw [if_neg hbeq, hs, List.modifyHead_cons, List.countP_cons, ih, hs]
      simp only [List.map_cons, List.sum_cons, List.countP_cons]
      omega

/-- Renaming replaces what is counted in the names. -/
theorem sum_countP_renameSegment (segments : List (List Char)) :
    ((segments.map (renameSegment rename)).map (List.countP p)).sum +
        ((segments.filter isCapture).map captureName).flatten.countP p =
      (segments.map (List.countP p)).sum +
        (((segments.map (renameSegment rename)).filter isCapture).map
          captureName).flatten.countP p := by
  induction segments with
  | nil => rfl
  | cons segment segments ih =>
    simp only [List.map_cons, List.sum_cons]
    by_cases hcapture : isCapture segment = true
    · have hsegment : segment.countP p =
          ('{' :: (captureName segment ++ ['}'])).countP p :=
        congrArg (List.countP p) (isCapture_iff.mp hcapture)
      have hrenamed : renameSegment rename segment =
          '{' :: (rename (captureName segment) ++ ['}']) := if_pos hcapture
      rw [List.filter_cons_of_pos hcapture,
        List.filter_cons_of_pos (by rw [isCapture_renameSegment, hcapture]), hrenamed, hsegment]
      simp only [List.map_cons, List.flatten_cons, List.countP_append, List.countP_cons,
        captureName_braces, List.countP_nil]
      omega
    · rw [List.filter_cons_of_neg hcapture,
        List.filter_cons_of_neg (by rw [isCapture_renameSegment]; exact hcapture),
        renameSegment_of_not (Bool.eq_false_iff.mpr hcapture)]
      omega

/-- Names of the same weight, or weights too great to count. -/
def SameCount (p : Char → Bool) (template template' : String) : Prop :=
  (captureNames template).flatten.countP p = (captureNames template').flatten.countP p ∨
    2 ^ 32 - 1 ≤ template.toList.countP p ∧ 2 ^ 32 - 1 ≤ template'.toList.countP p

/-- Counts agree where the numbers do, or beyond 32 bits. -/
theorem count_eq_iff {m n : ℕ} :
    count m = count n ↔ m = n ∨ 2 ^ 32 - 1 ≤ m ∧ 2 ^ 32 - 1 ≤ n := by
  simp only [count]
  omega

/-- The counts of a renamed template agree where those of the names do. -/
theorem count_renamed_iff (hp : p '/' = false) {template template' : String}
    (h : RenamedTemplate template template') :
    count (template'.toList.countP p) = count (template.toList.countP p) ↔
      SameCount p template template' := by
  obtain ⟨rename, _, hsplit⟩ := h
  have hsum : ((split '/' template').map (List.countP p)).sum +
      (captureNames template).flatten.countP p = ((split '/' template).map (List.countP p)).sum +
        (captureNames template').flatten.countP p := by
    rw [captureNames, captureNames, hsplit]
    exact sum_countP_renameSegment _
  have htemplate : template.toList.countP p = ((split '/' template).map (List.countP p)).sum :=
    countP_splitOn hp _
  have htemplate' : template'.toList.countP p = ((split '/' template').map (List.countP p)).sum :=
    countP_splitOn hp _
  rw [count_eq_iff, SameCount]
  omega

end Counting

/-! ## Specificity -/

/-- A matcher with other capture names. -/
inductive UrlMatcher.Renamed : UrlMatcher → UrlMatcher → Prop where
  | template {host template template' : String} {query : List (String × String)} :
      RenamedTemplate template template' → UrlMatcher.Renamed
        (.exactHostPathTemplate host template query) (.exactHostPathTemplate host template' query)
  | same (matcher : UrlMatcher) : UrlMatcher.Renamed matcher matcher

/-- The template of a matcher that has one. -/
def UrlMatcher.pathTemplate : UrlMatcher → String
  | exactHostPathTemplate _ pathTemplate _ => pathTemplate
  | exactUrl _ | pathPrefix _ _ | pathGlob _ _ | regex _ => ""

/-- The names have equally many letters and digits, and equally many wildcards. -/
def UrlMatcher.SameWeight (matcher matcher' : UrlMatcher) : Prop :=
  SameCount Char.isAlphanum matcher.pathTemplate matcher'.pathTemplate ∧
    SameCount isWildcard matcher.pathTemplate matcher'.pathTemplate

variable {lib : Libraries}

/-- The names do not matter for what is matched. -/
theorem UrlMatcher.Renamed.matches_eq {matcher matcher' : UrlMatcher}
    (h : matcher.Renamed matcher') (url : Url) :
    matcher'.matches lib url = matcher.matches lib url := by
  rcases h with ⟨_, _, hsplit⟩ | _
  · simp only [UrlMatcher.matches, templateMatches_renamed hsplit]
  · rfl

/-- They matter for the specificity unless they weigh the same. -/
theorem UrlMatcher.Renamed.specificity_eq_iff {matcher matcher' : UrlMatcher}
    (h : matcher.Renamed matcher') :
    matcher'.specificity lib = matcher.specificity lib ↔ matcher.SameWeight matcher' := by
  rcases h with htemplate | _
  · rename_i host template template' query
    have hsegments : (split '/' template').countP (fun part =>
        decide (part ≠ []) && !part.any isWildcard) = (split '/' template).countP fun part =>
          decide (part ≠ []) && !part.any isWildcard := by
      obtain ⟨rename, _, hsplit⟩ := htemplate
      rw [hsplit, List.countP_map]
      congr 1
      funext segment
      exact isLiteral_renameSegment segment
    have hletters := count_renamed_iff (show Char.isAlphanum '/' = false by decide) htemplate
    have hwildcards := count_renamed_iff (show isWildcard '/' = false by decide) htemplate
    simp only [UrlMatcher.SameWeight, UrlMatcher.pathTemplate, ← hletters, ← hwildcards,
      UrlMatcher.specificity, UrlMatcher.specificityPath, UrlMatcher.kind,
      UrlMatcher.queryConstraints, hsegments, SpecificityKey.mk.injEq, true_and]
  · exact ⟨fun _ => ⟨Or.inl rfl, Or.inl rfl⟩, fun _ => rfl⟩

/-! ## Decisions -/

/-- A page type with other capture names. -/
structure PageType.Renamed (pageType pageType' : PageType) : Prop where
  id : pageType.id = pageType'.id
  name : pageType.name = pageType'.name
  priority : pageType.priority = pageType'.priority
  matchers : List.Forall₂ UrlMatcher.Renamed pageType.matchers pageType'.matchers

/-- The page type that is chosen. -/
def PageTypeMatchDecision.chosen : PageTypeMatchDecision → Option Id
  | matched winner => some winner.pageTypeId
  | ambiguous _ | unmatched => none

/-- Candidates of one page type with the same rank. -/
def PageTypeCandidate.Equivalent (c c' : PageTypeCandidate) : Prop :=
  c.pageTypeId = c'.pageTypeId ∧ c.rank = c'.rank

/-- The order of what ties does not matter for what is chosen. -/
theorem chosen_decisionOf_mergeSort (tied : List PageTypeCandidate) :
    (decisionOf (tied.mergeSort PageTypeCandidate.le)).chosen = (decisionOf tied).chosen := by
  rcases tied with _ | ⟨a, _ | ⟨b, l⟩⟩
  · rw [List.mergeSort_nil]
  · rw [List.mergeSort_singleton]
  · have hlength : ((a :: b :: l).mergeSort PageTypeCandidate.le).length = l.length + 2 :=
      List.length_mergeSort _
    obtain ⟨c, rest, hc⟩ := List.exists_cons_of_length_pos (by rw [hlength]; omega)
    rw [hc, List.length_cons] at hlength
    obtain ⟨d, rest', hd⟩ := List.exists_cons_of_length_pos (l := rest) (by omega)
    rw [hc, hd]
    rfl

/-- Equivalent candidates give one choice. -/
theorem chosen_decisionOf_eq {tied tied' : List PageTypeCandidate}
    (h : List.Forall₂ PageTypeCandidate.Equivalent tied tied') :
    (decisionOf tied').chosen = (decisionOf tied).chosen := by
  rcases h with _ | ⟨⟨hid, _⟩, _ | ⟨_, _⟩⟩
  · rfl
  · exact congrArg some hid.symm
  · rfl

variable {pageTypes pageTypes' : List PageType}

/-- The specificity of each matcher is kept. -/
def PageType.SameSpecificities (lib : Libraries) (pageType pageType' : PageType) : Prop :=
  List.Forall₂ (fun matcher matcher' => matcher'.specificity lib = matcher.specificity lib)
    pageType.matchers pageType'.matchers

/-- The matching members keep their specificities. -/
theorem map_specificity_matching {url : Url} {matchers matchers' : List UrlMatcher}
    (h : List.Forall₂ UrlMatcher.Renamed matchers matchers') (hspecificity : List.Forall₂
      (fun matcher matcher' => matcher'.specificity lib = matcher.specificity lib)
      matchers matchers') :
    (matchers'.filter fun matcher => matcher.matches lib url).map (UrlMatcher.specificity lib) =
      (matchers.filter fun matcher => matcher.matches lib url).map
        (UrlMatcher.specificity lib) := by
  induction h with
  | nil => rfl
  | cons hhead htail ih =>
    rcases hspecificity with _ | ⟨hspecificity, hrest⟩
    rename_i matcher matcher' rest rest'
    by_cases hmatches : matcher.matches lib url = true
    · simp only [List.filter_cons, hhead.matches_eq, hmatches, if_true, List.map_cons,
        hspecificity, ih hrest]
    · simp only [List.filter_cons, hhead.matches_eq, hmatches, Bool.false_eq_true, if_false,
        ih hrest]

/-- A renamed page type has an equivalent candidate. -/
theorem candidate_equivalent {url : Url} {pageType pageType' : PageType}
    (h : pageType.Renamed pageType') (hspecificity : pageType.SameSpecificities lib pageType') :
    Option.Rel PageTypeCandidate.Equivalent (pageType.candidate lib url)
      (pageType'.candidate lib url) := by
  rw [PageType.candidate, PageType.candidate]
  dsimp only
  rw [map_specificity_matching h.matchers hspecificity]
  rcases hgreatest : greatest SpecificityKey.compare ((pageType.matchers.filter fun matcher =>
    matcher.matches lib url).map (UrlMatcher.specificity lib)) with _ | specificity
  · rw [hgreatest]
    exact Option.Rel.none
  · rw [hgreatest]
    exact Option.Rel.some ⟨h.id, Prod.ext h.priority rfl⟩

/-- Equivalent candidates have equal ranks. -/
theorem map_rank_eq {l l' : List PageTypeCandidate}
    (h : List.Forall₂ PageTypeCandidate.Equivalent l l') :
    l.map PageTypeCandidate.rank = l'.map PageTypeCandidate.rank := by
  induction h with
  | nil => rfl
  | cons hhead _ ih => rw [List.map_cons, List.map_cons, hhead.2, ih]

/-- Candidates tie as their equivalents do. -/
theorem tiedCandidates_equivalent {url : Url}
    (h : List.Forall₂ PageTypeCandidate.Equivalent (candidates lib url pageTypes)
      (candidates lib url pageTypes')) :
    List.Forall₂ PageTypeCandidate.Equivalent (tiedCandidates lib url pageTypes)
      (tiedCandidates lib url pageTypes') := by
  have hall : ∀ (l : List PageTypeCandidate) (c : PageTypeCandidate),
      (l.all fun d => (d.compareRank c).isLE) =
        (l.map PageTypeCandidate.rank).all fun rank => (rankCompare rank c.rank).isLE := by
    intro l c
    rw [List.all_map]
    rfl
  rw [tiedCandidates, tiedCandidates]
  apply List.rel_filter _ h
  rintro c c' ⟨_, hrank⟩
  dsimp only
  rw [hall, hall, map_rank_eq h, hrank]

/-- With equal specificities the choice is the same. -/
theorem chosen_resolvePageType_eq {url : Url}
    (h : List.Forall₂ PageType.Renamed pageTypes pageTypes')
    (hspecificity : List.Forall₂ (PageType.SameSpecificities lib) pageTypes pageTypes') :
    (resolvePageType lib url pageTypes').chosen = (resolvePageType lib url pageTypes).chosen := by
  rw [resolvePageType_eq, resolvePageType_eq, chosen_decisionOf_mergeSort,
    chosen_decisionOf_mergeSort]
  apply chosen_decisionOf_eq
  apply tiedCandidates_equivalent
  have hboth : List.Forall₂ (fun pageType pageType' => pageType.Renamed pageType' ∧
      pageType.SameSpecificities lib pageType') pageTypes pageTypes' :=
    List.Forall₂.mp (fun _ _ => And.intro) h hspecificity
  exact List.rel_filterMap (fun _ _ hpageType => candidate_equivalent hpageType.1 hpageType.2) hboth

/-- Renaming keeps the specificity of every matcher and the page type that is chosen
exactly where it keeps the weights of the names. -/
theorem resolvePageType_renamed_iff (h : List.Forall₂ PageType.Renamed pageTypes pageTypes') :
    (List.Forall₂ (fun pageType pageType' => List.Forall₂
        (fun matcher matcher' => matcher'.specificity lib = matcher.specificity lib)
        pageType.matchers pageType'.matchers) pageTypes pageTypes' ∧
      ∀ url, (resolvePageType lib url pageTypes').chosen =
        (resolvePageType lib url pageTypes).chosen) ↔
    List.Forall₂ (fun pageType pageType' => List.Forall₂ UrlMatcher.SameWeight
      pageType.matchers pageType'.matchers) pageTypes pageTypes' := by
  constructor
  · rintro ⟨hspecificity, _⟩
    exact List.Forall₂.mp (fun _ _ hrenamed hspecificity => List.Forall₂.mp
      (fun _ _ hmatcher => hmatcher.specificity_eq_iff.mp) hrenamed.matchers hspecificity)
      h hspecificity
  · intro hweight
    have hspecificity : List.Forall₂ (PageType.SameSpecificities lib) pageTypes pageTypes' :=
      List.Forall₂.mp (fun _ _ hrenamed hweight => List.Forall₂.mp
        (fun _ _ hmatcher => hmatcher.specificity_eq_iff.mpr) hrenamed.matchers hweight)
        h hweight
    exact ⟨hspecificity, fun _ => chosen_resolvePageType_eq h hspecificity⟩

/-! ## Renamed pages -/

/-- A page type with a template on the host "a". -/
def templated (n : ℕ) (template : String) : PageType :=
  ⟨numberedId n, "Page", 0, [.exactHostPathTemplate "a" template []]⟩

/-- A page of one segment. -/
def pageUrl : Url := ⟨"http://a/p", by simp [Printable, isControl]⟩

/-- A template that matches the path matches the URL. -/
theorem matches_pageUrl {template : String} (h : templateMatches template "/p" = true) :
    (UrlMatcher.exactHostPathTemplate "a" template []).matches plainLibraries pageUrl = true := by
  have hpath : plainLibraries.url.path pageUrl = "/p" := by
    simp [plainLibraries, plainUrlCrate, Url.plain, pageUrl, plainParts, splitOnce]
  have hhost : hostMatches plainLibraries "a" pageUrl = true := by
    simp [hostMatches, plainLibraries, plainUrlCrate, Url.plain, pageUrl, plainParts, splitOnce,
      PlainParts.hostPort, rsplitOnce, eqIgnoreAsciiCase]
  simp only [UrlMatcher.matches, hhost, hpath, h, List.all_nil, Bool.and_self]

/-- The page type has a candidate of its own specificity. -/
theorem candidate_templated {n : ℕ} {template : String}
    (h : templateMatches template "/p" = true) :
    ∃ c, (templated n template).candidate plainLibraries pageUrl = some c ∧
      c.pageTypeId = numberedId n ∧ c.rank =
        (0, (UrlMatcher.exactHostPathTemplate "a" template []).specificity plainLibraries) := by
  have hmem : .exactHostPathTemplate "a" template [] ∈ (templated n template).matchers :=
    List.mem_singleton.mpr rfl
  obtain ⟨c, hc⟩ := PageType.exists_candidate hmem (matches_pageUrl h)
  have hdescribes := PageType.candidate_describes hc
  obtain ⟨best, hbest⟩ := hdescribes.best
  refine ⟨c, hc, hdescribes.id, ?_⟩
  rw [hdescribes.rank_eq hbest, List.mem_singleton.mp hbest.mem]
  rfl

/-- The more specific of two candidates is chosen. -/
theorem chosen_of_lt {url : Url} {p q : PageType} {c d : PageTypeCandidate}
    (hp : p.candidate lib url = some c) (hq : q.candidate lib url = some d)
    (hlt : rankCompare c.rank d.rank = .lt) :
    (resolvePageType lib url [p, q]).chosen = some d.pageTypeId ∧
      (resolvePageType lib url [q, p]).chosen = some d.pageTypeId := by
  have hcd : c.compareRank d = .lt := hlt
  have hdc : d.compareRank c = .gt := Std.OrientedCmp.gt_of_lt hcd
  have hdd : d.compareRank d = .eq := Std.ReflCmp.compare_self
  have hpq : tiedCandidates lib url [p, q] = [d] := by
    simp [tiedCandidates, candidates, hp, hq, hcd, hdc, hdd]
  have hqp : tiedCandidates lib url [q, p] = [d] := by
    simp [tiedCandidates, candidates, hp, hq, hcd, hdc, hdd]
  rw [resolvePageType_eq, resolvePageType_eq, hpq, hqp, List.mergeSort_singleton]
  exact ⟨rfl, rfl⟩

/-- A template of one capture has one name. -/
theorem captureNames_single {name : List Char} {template : String}
    (h : split '/' template = [[], '{' :: (name ++ ['}'])]) : captureNames template = [name] := by
  rw [captureNames, h, List.filter_cons_of_neg (by simp [isCapture]),
    List.filter_cons_of_pos (isCapture_braces _), List.filter_nil, List.map_singleton,
    captureName_braces]

/-- Such templates are renamed ones of each other. -/
theorem renamed_single {name name' : List Char} {template template' : String}
    (h : split '/' template = [[], '{' :: (name ++ ['}'])])
    (h' : split '/' template' = [[], '{' :: (name' ++ ['}'])]) :
    RenamedTemplate template template' := by
  refine ⟨fun _ => name', ?_, ?_⟩
  · rw [captureNames_single h]
    intro a ha b hb _
    rw [List.mem_singleton.mp ha, List.mem_singleton.mp hb]
  · rw [h, h', List.map_cons, List.map_singleton, renameSegment_of_not (by simp [isCapture]),
      renameSegment, if_pos (isCapture_braces _)]

theorem PageType.Renamed.refl (pageType : PageType) : pageType.Renamed pageType :=
  ⟨rfl, rfl, rfl, List.forall₂_same.mpr fun matcher _ => UrlMatcher.Renamed.same matcher⟩

/-- One of two page types is renamed. -/
theorem templated_renamed {template template' : String} (h : RenamedTemplate template template')
    (other : PageType) : List.Forall₂ PageType.Renamed [templated 1 template, other]
      [templated 1 template', other] :=
  List.Forall₂.cons ⟨rfl, rfl, rfl, List.Forall₂.cons (.template h) List.Forall₂.nil⟩
    (List.Forall₂.cons (PageType.Renamed.refl other) List.Forall₂.nil)

/-- The segments of the template. -/
theorem split_id : split '/' "/{id}" = [[], '{' :: ("id".toList ++ ['}'])] := by
  simp [split, List.splitOn_cons_eq_if_modifyHead]

/-- The segments of the template. -/
theorem split_no : split '/' "/{no}" = [[], '{' :: ("no".toList ++ ['}'])] := by
  simp [split, List.splitOn_cons_eq_if_modifyHead]

/-- The segments of the template. -/
theorem split_identifier :
    split '/' "/{identifier}" = [[], '{' :: ("identifier".toList ++ ['}'])] := by
  simp [split, List.splitOn_cons_eq_if_modifyHead]

/-- A name of two letters may become another one. -/
theorem resolvePageType_renamed_iff_no :
    (resolvePageType plainLibraries pageUrl [templated 1 "/{no}", templated 2 "/{slug}"]).chosen =
      (resolvePageType plainLibraries pageUrl
        [templated 1 "/{id}", templated 2 "/{slug}"]).chosen := by
  have hweight : (UrlMatcher.exactHostPathTemplate "a" "/{id}" []).SameWeight
      (.exactHostPathTemplate "a" "/{no}" []) := by
    rw [UrlMatcher.SameWeight, UrlMatcher.pathTemplate, UrlMatcher.pathTemplate, SameCount,
      SameCount, captureNames_single split_id, captureNames_single split_no]
    exact ⟨Or.inl (by simp), Or.inl (by simp [isWildcard])⟩
  have hsame : (templated 2 "/{slug}").matchers.Forall₂ UrlMatcher.SameWeight
      (templated 2 "/{slug}").matchers :=
    List.forall₂_same.mpr fun _ _ => ⟨Or.inl rfl, Or.inl rfl⟩
  exact ((resolvePageType_renamed_iff
    (templated_renamed (renamed_single split_id split_no) (templated 2 "/{slug}"))).mpr
      (List.Forall₂.cons (List.Forall₂.cons hweight List.Forall₂.nil)
        (List.Forall₂.cons hsame List.Forall₂.nil))).2 pageUrl

/-- A longer name of a capture changes which page type is chosen. -/
theorem longerName_chosen :
    List.Forall₂ PageType.Renamed [templated 1 "/{id}", templated 2 "/{slug}"]
      [templated 1 "/{identifier}", templated 2 "/{slug}"] ∧
    (resolvePageType plainLibraries pageUrl [templated 1 "/{id}", templated 2 "/{slug}"]).chosen =
      some (numberedId 2) ∧
    (resolvePageType plainLibraries pageUrl
      [templated 1 "/{identifier}", templated 2 "/{slug}"]).chosen = some (numberedId 1) := by
  have hmatch : templateMatches "/{id}" "/p" = true ∧ templateMatches "/{slug}" "/p" = true ∧
      templateMatches "/{identifier}" "/p" = true := by
    simp [templateMatches, segments, split, List.splitOn_cons_eq_if_modifyHead, isCapture]
  have hid : (UrlMatcher.exactHostPathTemplate "a" "/{id}" []).specificity plainLibraries =
      ⟨3, 0, 0, 2, 1⟩ := by
    simp [UrlMatcher.specificity, UrlMatcher.specificityPath, UrlMatcher.kind, UrlMatcherKind.rank,
      UrlMatcher.queryConstraints, split, List.splitOn_cons_eq_if_modifyHead, count, isWildcard]
  have hslug : (UrlMatcher.exactHostPathTemplate "a" "/{slug}" []).specificity plainLibraries =
      ⟨3, 0, 0, 4, 1⟩ := by
    simp [UrlMatcher.specificity, UrlMatcher.specificityPath, UrlMatcher.kind, UrlMatcherKind.rank,
      UrlMatcher.queryConstraints, split, List.splitOn_cons_eq_if_modifyHead, count, isWildcard]
  have hidentifier : (UrlMatcher.exactHostPathTemplate "a" "/{identifier}" []).specificity
      plainLibraries = ⟨3, 0, 0, 10, 1⟩ := by
    simp [UrlMatcher.specificity, UrlMatcher.specificityPath, UrlMatcher.kind, UrlMatcherKind.rank,
      UrlMatcher.queryConstraints, split, List.splitOn_cons_eq_if_modifyHead, count, isWildcard]
  obtain ⟨c, hc, _, hcRank⟩ := candidate_templated (n := 1) hmatch.1
  obtain ⟨d, hd, hdId, hdRank⟩ := candidate_templated (n := 2) hmatch.2.1
  obtain ⟨e, he, heId, heRank⟩ := candidate_templated (n := 1) hmatch.2.2
  rw [hid] at hcRank
  rw [hslug] at hdRank
  rw [hidentifier] at heRank
  refine ⟨templated_renamed (renamed_single split_id split_identifier) _, ?_, ?_⟩
  · rw [(chosen_of_lt hc hd (by rw [hcRank, hdRank]; decide)).1, hdId]
  · rw [(chosen_of_lt hd he (by rw [hdRank, heRank]; decide)).2, heId]

end Erabi.Authoring

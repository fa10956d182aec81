/-
# URL matchers and page-type resolution

A page type matches a URL through its most specific matcher.  Among the page types
that match, the highest priority wins, then the highest specificity; a tie is an
ambiguity.
-/
import Mathlib
import Erabi.Authoring.Policy

namespace Erabi.Authoring

open Snapshot (isWhitespace)

variable (lib : Libraries)

/-! ## Matchers -/

/-- The kinds of matchers, prefixes and globs being one. -/
inductive UrlMatcherKind where
  | exactUrl
  | exactHostPathTemplate
  | pathPrefixOrGlob
  | regex
  deriving DecidableEq

/-- Exact matchers are more specific than patterns. -/
def UrlMatcherKind.rank : UrlMatcherKind → ℕ
  | exactUrl => 4
  | exactHostPathTemplate => 3
  | pathPrefixOrGlob => 2
  | regex => 1

/-- What a URL is matched against. -/
inductive UrlMatcher where
  | exactUrl (url : Url)
  | exactHostPathTemplate (host pathTemplate : String) (query : List (String × String))
  | pathPrefix (host : Option String) (path : String)
  | pathGlob (host : Option String) (pattern : String)
  | regex (pattern : String)
  deriving DecidableEq

/-- The host is one that a URL may have, as it is written. -/
def validHost (host : String) : Bool :=
  !isBlank host && !host.toList.any isWhitespace &&
    match lib.url.parse ("https://" ++ host ++ "/") with
    | none => false
    | some parsed => lib.url.port parsed = none &&
        (lib.url.hostStr parsed).any fun value => eqIgnoreAsciiCase value host

/-- A host that is given is valid. -/
def validOptionalHost (host : Option String) : Bool := host.all (validHost lib)

/-- The segment stands in braces. -/
def isCapture (segment : List Char) : Bool :=
  segment.head? = some '{' && segment.getLast? = some '}'

/-- A segment of a path template is a named capture or literal. -/
def validTemplateSegment (segment : List Char) : Bool :=
  if segment.head? = some '{' ∨ segment.getLast? = some '}' then
    2 < segment.length && isCapture segment &&
      !(segment.tail.dropLast.any fun c => ['{', '}', '/', '*'].contains c)
  else !(segment.any fun c => ['{', '}', '*'].contains c)

/-- A path of valid segments. -/
def validPathTemplate (path : String) : Bool :=
  path.toList.head? = some '/' && ((split '/' path).drop 1).all validTemplateSegment

/-- A path without wildcards and braces. -/
def validPathPrefix (path : String) : Bool :=
  path.toList.head? = some '/' && !(path.toList.any fun c => ['*', '{', '}'].contains c)

/-- A path. -/
def validPathGlob (path : String) : Bool := path.toList.head? = some '/'

/-- Parameters have names without white space. -/
def validQuery (query : List (String × String)) : Bool :=
  query.all fun pair => pair.1 ≠ "" && !pair.1.toList.any isWhitespace

/-- The structural contract of a matcher definition. -/
def UrlMatcher.validateDefinition : UrlMatcher → Except ProductError Unit
  | exactUrl _ => .ok ()
  | exactHostPathTemplate host pathTemplate query =>
      ensure (validHost lib host ∧ validPathTemplate pathTemplate ∧ validQuery query)
        (conflict "invalid exact host/path template matcher")
  | pathPrefix host path =>
      ensure (validOptionalHost lib host ∧ validPathPrefix path)
        (conflict "invalid URL path prefix matcher")
  | pathGlob host pattern =>
      ensure (validOptionalHost lib host ∧ validPathGlob pattern)
        (conflict "invalid URL path glob matcher")
  | regex pattern => ensure (lib.regex.compiles pattern) (conflict "invalid URL matcher regex")

/-- The kind of the matcher. -/
def UrlMatcher.kind : UrlMatcher → UrlMatcherKind
  | exactUrl _ => .exactUrl
  | exactHostPathTemplate _ _ _ => .exactHostPathTemplate
  | pathPrefix _ _ | pathGlob _ _ => .pathPrefixOrGlob
  | regex _ => .regex

/-- The matcher as it is shown. -/
def UrlMatcher.pattern : UrlMatcher → String
  | exactUrl url => url.text
  | exactHostPathTemplate host pathTemplate _ => host ++ pathTemplate
  | pathPrefix _ path => path
  | pathGlob _ pattern | regex pattern => pattern

/-! ## Specificity -/

/-- What the specificity of a matcher is made of. -/
structure SpecificityKey where
  matcherKindRank : ℕ
  literalPathSegments : ℕ
  explicitQueryConstraints : ℕ
  literalCharacters : ℕ
  wildcards : ℕ
  deriving DecidableEq

/-- Keys are compared field by field; fewer wildcards are more specific. -/
def SpecificityKey.compare (a b : SpecificityKey) : Ordering :=
  (Ord.compare a.matcherKindRank b.matcherKindRank).then <|
    (Ord.compare a.literalPathSegments b.literalPathSegments).then <|
      (Ord.compare a.explicitQueryConstraints b.explicitQueryConstraints).then <|
        (Ord.compare a.literalCharacters b.literalCharacters).then
          (Ord.compare b.wildcards a.wildcards)

/-- Counts are 32-bit numbers. -/
def count (value : ℕ) : ℕ := min value (2 ^ 32 - 1)

/-- The text that specificity is counted on. -/
def UrlMatcher.specificityPath : UrlMatcher → String
  | exactUrl url => lib.url.path url
  | exactHostPathTemplate _ pathTemplate _ => pathTemplate
  | pathPrefix _ path => path
  | pathGlob _ pattern | regex pattern => pattern

/-- The number of query parameters that a matcher demands. -/
def UrlMatcher.queryConstraints : UrlMatcher → ℕ
  | exactUrl url => count (lib.url.queryPairs url).length
  | exactHostPathTemplate _ _ query => count query.length
  | pathPrefix _ _ | pathGlob _ _ | regex _ => 0

/-- The characters that begin a wildcard. -/
def isWildcard (c : Char) : Bool := ['*', '{', '('].contains c

/-- Kind, literal segments, query, letters and digits, and wildcards. -/
def UrlMatcher.specificity (matcher : UrlMatcher) : SpecificityKey where
  matcherKindRank := matcher.kind.rank
  literalPathSegments := count ((split '/' (matcher.specificityPath lib)).countP fun part =>
    part ≠ [] && !part.any isWildcard)
  explicitQueryConstraints := matcher.queryConstraints lib
  literalCharacters := count ((matcher.specificityPath lib).toList.countP Char.isAlphanum)
  wildcards := count ((matcher.specificityPath lib).toList.countP isWildcard)

/-! ## Matching -/

/-- The segments of a path that are not empty. -/
def segments (path : String) : List (List Char) := (split '/' path).filter (· ≠ [])

/-- The path has the template's segments, with anything for a capture. -/
def templateMatches (template actual : String) : Bool :=
  (segments template).length = (segments actual).length &&
    ((segments template).zip (segments actual)).all fun pair =>
      isCapture pair.1 || pair.1 = pair.2

/-- The path matches the pattern, with anything for a star. -/
def globMatches (pattern actual : String) : Bool :=
  let escaped := (lib.regex.escape pattern).toList
  let expression := String.ofList (replaceAll "\\*".toList ".*".toList escaped.length escaped)
  lib.regex.compiles ("^" ++ expression ++ "$") &&
    lib.regex.isMatch ("^" ++ expression ++ "$") actual

/-- The host of the URL is the expected one, in any case. -/
def hostMatches (expected : String) (url : Url) : Bool :=
  (lib.url.hostStr url).any fun actual => eqIgnoreAsciiCase actual expected

/-- The matcher accepts the URL. -/
def UrlMatcher.matches (matcher : UrlMatcher) (url : Url) : Bool :=
  match matcher with
  | exactUrl expected => expected = url
  | exactHostPathTemplate host pathTemplate query =>
      hostMatches lib host url && templateMatches pathTemplate (lib.url.path url) &&
        query.all fun pair => (lib.url.queryPairs url).contains pair
  | pathPrefix host path =>
      host.all (fun expected => hostMatches lib expected url) &&
        path.toList.isPrefixOf (lib.url.path url).toList
  | pathGlob host pattern =>
      host.all (fun expected => hostMatches lib expected url) &&
        globMatches lib pattern (lib.url.path url)
  | regex pattern => lib.regex.compiles pattern && lib.regex.isMatch pattern url.text

/-! ## Resolution -/

/-- A page type as authored. -/
structure PageType where
  id : Id
  name : String
  priority : ℤ
  matchers : List UrlMatcher

/-- A page type that matches, with its best matchers. -/
structure PageTypeCandidate where
  pageTypeId : Id
  pageTypeName : String
  priority : ℤ
  matcherKind : UrlMatcherKind
  specificity : SpecificityKey
  matchedPatterns : List String

/-- What a URL resolves to. -/
inductive PageTypeMatchDecision where
  | matched (winner : PageTypeCandidate)
  | ambiguous (candidates : List PageTypeCandidate)
  | unmatched

/-- Several page types are best. -/
def PageTypeMatchDecision.isAmbiguous : PageTypeMatchDecision → Bool
  | ambiguous _ => true
  | matched _ | unmatched => false

/-- The last of the greatest members. -/
def greatest {α : Type} (compare : α → α → Ordering) : List α → Option α
  | [] => none
  | a :: rest => some (rest.foldl (fun best b => if compare best b = .gt then best else b) a)

/-- Equal neighbours are kept once. -/
def dedup {α : Type} [DecidableEq α] : List α → List α
  | [] => []
  | [a] => [a]
  | a :: b :: rest => if a = b then dedup (b :: rest) else a :: dedup (b :: rest)

/-- Deduplication keeps the elements. -/
theorem mem_dedup {α : Type} [DecidableEq α] {a : α} : ∀ l : List α, a ∈ dedup l ↔ a ∈ l
  | [] => Iff.rfl
  | [b] => Iff.rfl
  | b :: c :: rest => by
    have ih := mem_dedup (a := a) (c :: rest)
    rw [dedup]
    split
    · rename_i hbc
      rw [ih, hbc]
      simp
    · simp only [List.mem_cons, ih]

/-- The page type with the best of its matching matchers, when there is one. -/
def PageType.candidate (pageType : PageType) (url : Url) : Option PageTypeCandidate :=
  let matching := pageType.matchers.filter fun matcher => matcher.matches lib url
  (greatest SpecificityKey.compare (matching.map (UrlMatcher.specificity lib))).map
    fun specificity =>
      let best := matching.filter fun matcher => matcher.specificity lib = specificity
      { pageTypeId := pageType.id
        pageTypeName := pageType.name
        priority := pageType.priority
        matcherKind := (best.head?.map UrlMatcher.kind).getD .regex
        specificity := specificity
        matchedPatterns := dedup ((best.map UrlMatcher.pattern).mergeSort fun s t => s ≤ t) }

/-- Priority comes before specificity. -/
def PageTypeCandidate.compareRank (a b : PageTypeCandidate) : Ordering :=
  (compare a.priority b.priority).then (a.specificity.compare b.specificity)

/-- The order in which tied candidates are presented. -/
def PageTypeCandidate.le (a b : PageTypeCandidate) : Bool :=
  a.pageTypeName < b.pageTypeName ||
    (a.pageTypeName = b.pageTypeName && decide (a.matchedPatterns ≤ b.matchedPatterns))

/-- The best candidates by priority and specificity; one of them wins. -/
def resolvePageType (url : Url) (pageTypes : List PageType) : PageTypeMatchDecision :=
  let candidates := pageTypes.filterMap fun pageType => pageType.candidate lib url
  match greatest PageTypeCandidate.compareRank candidates with
  | none => .unmatched
  | some best =>
      match (candidates.filter fun c => c.compareRank best = .eq).mergeSort
          PageTypeCandidate.le with
      | [winner] => .matched winner
      | tied => .ambiguous tied

end Erabi.Authoring

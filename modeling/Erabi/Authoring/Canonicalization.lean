/-
# Canonicalization of URLs

A URL is parsed and rewritten: scheme and host in small letters, without the default
port, without its fragment, with a root path, with its query sorted and freed from
tracking parameters and from those the policy drops.
-/
import Mathlib
import Erabi.Authoring.Policy

namespace Erabi.Authoring

open Relational

variable (lib : Libraries)

/-- What canonicalization did to a URL. -/
inductive CanonicalizationDecision where
  | schemeNormalized
  | hostNormalized
  | defaultPortRemoved
  | fragmentRemoved
  | pathNormalized
  | querySorted
  | trackingParameterRemoved (parameter : String)
  | customParameterDropped (parameter : String)
  | explicitParameterKept (parameter : String)
  deriving DecidableEq

/-- A URL with its canonical form and what was done. -/
structure CanonicalizationResult where
  originalUrl : String
  canonicalUrl : Url
  decisions : List CanonicalizationDecision

/-- A URL on its way, with the decisions made so far. -/
abbrev Rewriting := Url × List CanonicalizationDecision

/-! ## The original text -/

/-- The scheme as it was written. -/
def originalScheme (originalUrl : List Char) : Option (List Char) :=
  (splitOnce "://".toList originalUrl).map Prod.fst

/-- The characters that end an authority. -/
def endsAuthority (c : Char) : Bool := ['/', '?', '#'].contains c

/-- The authority as it was written. -/
def originalAuthority (originalUrl : List Char) : Option (List Char) :=
  (splitOnce "://".toList originalUrl).map fun parts =>
    parts.2.takeWhile fun c => !endsAuthority c

/-- No path was written. -/
def originalPathIsEmpty (originalUrl : List Char) : Bool :=
  match splitOnce "://".toList originalUrl with
  | none => false
  | some (_, authorityAndPath) =>
      (authorityAndPath.dropWhile fun c => !endsAuthority c).head? ≠ some '/'

/-- The authority without user information. -/
def withoutUserInfo (authority : List Char) : List Char :=
  ((rsplitOnce '@' authority).map Prod.snd).getD authority

/-- What stands between the first byte and the bracket that closes an IPv6 address. -/
def bracketed (beforeBracket : List Char) : Option (List Char) :=
  match beforeBracket with
  | [] => none
  | c :: host => if c.utf8Size = 1 then some host else none

/-- The host as it was written. -/
def originalHost (originalUrl : List Char) : Option (List Char) := do
  let authority := withoutUserInfo (← originalAuthority originalUrl)
  match splitOnce [']'] authority with
  | some (beforeBracket, _) => bracketed beforeBracket
  | none =>
      match rsplitOnce ':' authority with
      | none => some authority
      | some (host, port) => (parseU16 port).map fun _ => host

/-- The default port of the scheme was written. -/
def originalDefaultPort (originalUrl : List Char) (scheme : String) : Bool :=
  match originalAuthority originalUrl with
  | none => false
  | some authority =>
      let authority := withoutUserInfo authority
      let port := match splitOnce [']'] authority with
        | some (_, suffix) => if suffix.head? = some ':' then some suffix.tail else none
        | none => (rsplitOnce ':' authority).map Prod.snd
      match scheme, port.bind parseU16 with
      | "http", some 80 => true
      | "https", some 443 => true
      | _, _ => false

/-! ## Rewriting -/

/-- The scheme in lower case. -/
def normalizeScheme (originalUrl : List Char) (rewriting : Rewriting) :
    Except ProductError Rewriting :=
  let (url, decisions) := rewriting
  let scheme := toAsciiLowercase (lib.url.scheme url)
  if ∃ original ∈ originalScheme originalUrl, String.ofList original ≠ scheme then
    match lib.url.setScheme url scheme with
    | some url => .ok (url, decisions ++ [.schemeNormalized])
    | none => .error ⟨.invalidUrl, "the URL scheme is invalid"⟩
  else .ok (url, decisions)

/-- The host in lower case. -/
def normalizeHost (originalUrl : List Char) (rewriting : Rewriting) :
    Except ProductError Rewriting :=
  let (url, decisions) := rewriting
  match lib.url.hostStr url with
  | none => .error ⟨.invalidUrl, "the URL host is missing"⟩
  | some host =>
      let normalizedHost := toAsciiLowercase host
      if normalizedHost ≠ host ∨
          ∃ original ∈ originalHost originalUrl, original.any Char.isUpper then
        match lib.url.setHost url (some normalizedHost) with
        | some url => .ok (url, decisions ++ [.hostNormalized])
        | none => .error ⟨.invalidUrl, "the URL host is invalid"⟩
      else .ok (url, decisions)

/-- The port of a URL is its scheme's default. -/
def isDefaultPort (url : Url) : Bool :=
  match lib.url.scheme url, lib.url.port url with
  | "http", some 80 => true
  | "https", some 443 => true
  | _, _ => false

/-- The default port is removed. -/
def removeDefaultPort (originalUrl : List Char) (scheme : String) (rewriting : Rewriting) :
    Except ProductError Rewriting :=
  let (url, decisions) := rewriting
  if originalDefaultPort originalUrl scheme ∨ isDefaultPort lib url then
    if (lib.url.port url).isSome then
      match lib.url.setPort url none with
      | some url => .ok (url, decisions ++ [.defaultPortRemoved])
      | none => .error ⟨.invalidUrl, "the URL port is invalid"⟩
    else .ok (url, decisions ++ [.defaultPortRemoved])
  else .ok (url, decisions)

/-- The fragment is removed. -/
def removeFragment (rewriting : Rewriting) : Rewriting :=
  let (url, decisions) := rewriting
  if (lib.url.fragment url).isSome then
    (lib.url.setFragment url none, decisions ++ [.fragmentRemoved])
  else (url, decisions)

/-- Only an empty path is rewritten. -/
def normalizeRootPath (originalUrl : List Char) (rewriting : Rewriting) : Rewriting :=
  let (url, decisions) := rewriting
  if lib.url.path url = "" ∨ originalPathIsEmpty originalUrl then
    (if lib.url.path url = "" then lib.url.setPath url "/" else url,
      decisions ++ [.pathNormalized])
  else (url, decisions)

/-! ## Queries -/

/-- A parameter as written, with its decoded name. -/
structure RawQueryPair where
  raw : String
  parameter : String
  deriving DecidableEq

/-- A parameter from its text. -/
def RawQueryPair.new (raw : List Char) : RawQueryPair where
  raw := String.ofList raw
  parameter :=
    match lib.url.formUrlencoded raw with
    | pair :: _ => pair.1
    | [] => String.ofList (raw.takeWhile (· ≠ '='))

/-- Pairs are sorted by parameter, then by their raw texts. -/
def RawQueryPair.le (left right : RawQueryPair) : Bool :=
  left.parameter < right.parameter ||
    (left.parameter = right.parameter && decide (left.raw ≤ right.raw))

/-- The parameters that are tracked by default. -/
def isDefaultTrackingParameter (parameter : String) : Bool :=
  "utm_".toList.isPrefixOf parameter.toList || ["fbclid", "gclid"].contains parameter

/-- What becomes of a parameter: whether its pair is retained, and the decision. -/
def CanonicalizationPolicy.decide (policy : CanonicalizationPolicy) (parameter : String) :
    Bool × List CanonicalizationDecision :=
  if parameter ∈ policy.explicitKeepParameters then (true, [.explicitParameterKept parameter])
  else if parameter ∈ policy.explicitDropParameters then
    (false, [.customParameterDropped parameter])
  else if isDefaultTrackingParameter parameter then
    (false, [.trackingParameterRemoved parameter])
  else (true, [])

/-- The query sorted, without the parameters that the policy drops. -/
def CanonicalizationPolicy.rewriteQuery (policy : CanonicalizationPolicy)
    (rewriting : Rewriting) : Rewriting :=
  let (url, decisions) := rewriting
  let rawQuery := (lib.url.query url).getD ""
  let originalPairs := (split '&' rawQuery).map (RawQueryPair.new lib)
  let sortedPairs := originalPairs.mergeSort RawQueryPair.le
  let sorted := if sortedPairs = originalPairs then [] else [.querySorted]
  let retainedPairs := sortedPairs.filter fun pair => (policy.decide pair.parameter).1
  let query :=
    if lib.url.query url = none ∨ retainedPairs = [] then none
    else some ("&".intercalate (retainedPairs.map RawQueryPair.raw))
  (lib.url.setQuery url query,
    decisions ++ (sorted ++ sortedPairs.flatMap fun pair => (policy.decide pair.parameter).2))

/-- Canonicalizes one raw URL and retains an explanation. -/
def CanonicalizationPolicy.canonicalize (policy : CanonicalizationPolicy) (originalUrl : String) :
    Except ProductError CanonicalizationResult := do
  policy.validate
  match lib.url.parse originalUrl with
  | none => throw ⟨.invalidUrl, "the URL is invalid"⟩
  | some url =>
      let scheme := lib.url.scheme url
      ensure (scheme = "http" ∨ scheme = "https")
        ⟨.unsupportedUrlScheme, "only HTTP and HTTPS URLs are supported"⟩
      ensure ((lib.url.hostStr url).isSome ∧ lib.url.username url = "" ∧
          lib.url.password url = none)
        ⟨.invalidUrl, "the URL is not a valid crawl target"⟩
      let original := originalUrl.toList
      let rewriting ← normalizeScheme lib original (url, [])
      let rewriting ← normalizeHost lib original rewriting
      let rewriting ← removeDefaultPort lib original (toAsciiLowercase scheme) rewriting
      let rewriting := removeFragment lib rewriting
      let rewriting := normalizeRootPath lib original rewriting
      let (canonicalUrl, decisions) := policy.rewriteQuery lib rewriting
      return ⟨originalUrl, canonicalUrl, decisions⟩

end Erabi.Authoring

/-
# Requests of browsers

What a mutation has to show before it is handled: a Host header of this server, an origin
that is its own or listed, a content type, and a body that is not too large.
-/
import Mathlib
import Erabi.Security.Configuration

namespace Erabi.Security

open Network
open Authoring (toAsciiLowercase eqIgnoreAsciiCase splitOnce splitOnce_append)
open Snapshot (isWhitespace)

/-! ## Requests -/

/-- The methods of requests. -/
inductive Method : Type where
  | get
  | head
  | options
  | post
  | put
  | patch
  | delete
  | other (name : String)
  deriving DecidableEq, Repr

/-- The methods that change state. -/
def Method.isMutation : Method → Bool
  | .post | .put | .patch | .delete => true
  | .get | .head | .options | .other _ => false

/-- The bytes of a header. -/
abbrev HeaderValue := List UInt8

/-- The text of a header without control characters and other than ASCII characters. -/
def HeaderValue.toStr (value : HeaderValue) : Option String :=
  if ∀ byte ∈ value, byte = 9 ∨ (32 ≤ byte ∧ byte < 127) then
    some (String.ofList (value.map fun byte => Char.ofNat byte.toNat))
  else none

/-- The method, the first header of each name that is read, and the body. -/
structure Request where
  method : Method
  host : Option HeaderValue
  origin : Option HeaderValue
  contentType : Option HeaderValue
  body : List UInt8
  deriving DecidableEq, Repr

/-- Why a request is rejected. -/
inductive Rejection : Type where
  | hostNotAllowed
  | originNotAllowed
  | contentTypeNotAllowed
  | bodyTooLarge
  | malformedJson
  deriving DecidableEq, Repr

namespace Rejection

/-- The status of a rejection. -/
def status : Rejection → ℕ
  | .hostNotAllowed => 400
  | .originNotAllowed => 403
  | .contentTypeNotAllowed => 415
  | .bodyTooLarge => 413
  | .malformedJson => 400

/-- The code of a rejection. -/
def code : Rejection → String
  | .hostNotAllowed => "HOST_NOT_ALLOWED"
  | .originNotAllowed => "ORIGIN_NOT_ALLOWED"
  | .contentTypeNotAllowed => "CONTENT_TYPE_NOT_ALLOWED"
  | .bodyTooLarge => "BODY_TOO_LARGE"
  | .malformedJson => "MALFORMED_JSON"

/-- The message of a rejection. -/
def message : Rejection → String
  | .hostNotAllowed => "The request Host header is not allowed for this server."
  | .originNotAllowed => "The request Origin is not allowed for this operation."
  | .contentTypeNotAllowed => "State-changing API requests must use application/json."
  | .bodyTooLarge => "The request body exceeds this endpoint's configured limit."
  | .malformedJson => "The request body must contain valid JSON."

end Rejection

/-- What becomes of a request.  What is handled or preflighted is answered with the CORS
headers of the origin. -/
inductive Outcome : Type where
  | preflight (origin : String)
  | rejected (rejection : Rejection)
  | handled (corsOrigin : Option String)
  deriving DecidableEq, Repr

/-! ## The checks -/

section Checks

variable (parse : String → Option Url) (isJson : List UInt8 → Bool) (config : SecurityConfig)

/-- The host, in brackets if it has a colon, and the port. -/
def authority (originHost : String) (port : Option UInt16) : String :=
  let bracketedHost := if ':' ∈ originHost.toList then "[" ++ originHost ++ "]" else originHost
  match port with
  | none => bracketedHost
  | some port => bracketedHost ++ ":" ++ String.ofList (Nat.toDigits 10 port.toNat)

/-- The authority of the origin is the text of the host. -/
def sameOrigin (origin host : String) : Bool :=
  (canonicalOrigin parse origin).any fun origin =>
    (parse origin).any fun parsed =>
      parsed.hostStr.any fun originHost =>
        eqIgnoreAsciiCase host (authority originHost parsed.port)

/-- The check on the host. -/
def checkHost (header : Option HeaderValue) : Except Rejection String :=
  match (header.bind HeaderValue.toStr).map toAsciiLowercase with
  | none => .error .hostNotAllowed
  | some host => if config.hostIsExpected host then .ok host else .error .hostNotAllowed

/-- The check on the origin. -/
def checkOrigin (host : String) (header : Option HeaderValue) : Except Rejection Unit :=
  match header with
  | none => .ok ()
  | some rawOrigin =>
    match rawOrigin.toStr.bind (canonicalOrigin parse) with
    | none => .error .originNotAllowed
    | some origin =>
      if sameOrigin parse origin host ∨ config.isAllowedCrossOrigin origin then .ok ()
      else .error .originNotAllowed

/-- The content type is that of JSON. -/
def isJsonContentType (contentType : Option HeaderValue) : Bool :=
  ((contentType.bind HeaderValue.toStr).bind fun value => (value.toList.splitOn ';').head?).any
    fun value => eqIgnoreAsciiCase
      (String.ofList ((value.dropWhile isWhitespace).rdropWhile isWhitespace)) "application/json"

/-- The check on the body. -/
def checkBody (contentType : Option HeaderValue) (body : List UInt8) : Except Rejection Unit :=
  if ¬ isJsonContentType contentType then .error .contentTypeNotAllowed
  else if config.mutationBodyLimitBytes < body.length then .error .bodyTooLarge
  else if ¬ isJson body then .error .malformedJson
  else .ok ()

/-- The checks on a request that changes state. -/
def checkMutation (request : Request) : Except Rejection Unit := do
  let host ← checkHost config request.host
  checkOrigin parse config host request.origin
  checkBody isJson config request.contentType request.body

/-- What becomes of a request. -/
def enforceBrowserRequestPolicy (request : Request) : Outcome :=
  let origin := (request.origin.bind HeaderValue.toStr).bind (canonicalOrigin parse)
  let corsOrigin := origin.filter config.isAllowedCrossOrigin
  if request.method = .options ∧ request.origin.isSome then
    match corsOrigin with
    | none => .rejected .originNotAllowed
    | some origin => .preflight origin
  else if request.method.isMutation then
    match checkMutation parse isJson config request with
    | .error rejection => .rejected rejection
    | .ok () => .handled corsOrigin
  else .handled corsOrigin

end Checks

/-! ## The same origin -/

section SameOrigin

variable {parse : String → Option Url} {u : Url} {value host : String}

/-- What follows the host in an authority. -/
def portSuffix (port : Option UInt16) : List Char :=
  port.elim [] fun port => ':' :: Nat.toDigits 10 port.toNat

/-- An authority, character by character. -/
theorem toList_authority (originHost : String) (port : Option UInt16) :
    (authority originHost port).toList =
      (if ':' ∈ originHost.toList then '[' :: (originHost.toList ++ [']']) else originHost.toList) ++
        portSuffix port := by
  rcases port with _ | port <;> by_cases h : ':' ∈ originHost.toList <;>
    simp [authority, portSuffix, h]

/-- The serialized origin is the origin of the same URL. -/
theorem parseOrigin_asciiOrigin (laws : UrlLaws parse) (hu : parseOrigin parse value = .ok u) :
    parseOrigin parse u.asciiOrigin = .ok u := by
  obtain ⟨-, hparse, horigin⟩ := parseOrigin_eq_ok.mp hu
  refine parseOrigin_eq_ok.mpr ⟨fun hstar => ?_, laws.origin hparse horigin, horigin⟩
  have hcolon := horigin.colon_mem_asciiOrigin
  rw [hstar] at hcolon
  exact absurd hcolon (by decide)

/-- An origin is the host's own when their authorities agree. -/
theorem sameOrigin_asciiOrigin (laws : UrlLaws parse) (hu : parseOrigin parse value = .ok u) :
    sameOrigin parse u.asciiOrigin host = true ↔
      ∃ originHost ∈ u.host, eqIgnoreAsciiCase host (authority originHost.text u.port) = true := by
  have hagain := parseOrigin_asciiOrigin laws hu
  have hcanonical : canonicalOrigin parse u.asciiOrigin = some u.asciiOrigin := by
    rw [canonicalOrigin, hagain]
    rfl
  rw [sameOrigin, hcanonical, Option.any_some, (parseOrigin_eq_ok.mp hagain).2.1, Option.any_some]
  rcases hhost : u.host with _ | originHost
  · simp [Url.hostStr, hhost]
  · simp [Url.hostStr, hhost]

theorem eqIgnoreAsciiCase_iff {s t : String} (hs : toAsciiLowercase s = s)
    (ht : t.toList.map Char.toLower = t.toList) :
    eqIgnoreAsciiCase s t = true ↔ s.toList = t.toList := by
  rw [eqIgnoreAsciiCase, decide_eq_true_eq, hs, toAsciiLowercase, ht, String.ofList_toList,
    String.toList_inj]

/-- Digits have no case. -/
theorem toLower_of_isDigit {c : Char} (h : c.isDigit = true) : c.toLower = c := by
  apply Char.toLower_eq_of_not_isUpper
  intro hupper
  simp only [Char.isDigit, Char.isUpper, Bool.and_eq_true, decide_eq_true_eq, ge_iff_le,
    UInt32.le_iff_toNat_le] at h hupper
  have h9 : '9'.val.toNat = 57 := rfl
  have hA : 'A'.val.toNat = 65 := rfl
  omega

/-- Ports have no case. -/
theorem map_toLower_portSuffix (port : Option UInt16) :
    (portSuffix port).map Char.toLower = portSuffix port := by
  rcases port with _ | port
  · rfl
  · simp only [portSuffix, Option.elim_some, List.map_cons]
    rw [List.map_congr_left fun c hc => toLower_of_isDigit (isDigit_toDigits _ c hc), List.map_id']
    rfl

/-- IPv4 addresses have no case. -/
theorem map_toLower_display (a : Ipv4Addr) : a.display.map Char.toLower = a.display := by
  have hall : ∀ c ∈ a.display, c.toLower = c := by
    intro c hc
    rcases mem_display hc with h | h
    · exact toLower_of_isDigit h
    · rw [h]
      decide
  rw [List.map_congr_left hall, List.map_id']

/-- An IPv4 address has digits and dots alone. -/
theorem not_mem_display {a : Ipv4Addr} {c : Char} (hdigit : c.isDigit = false) (hdot : c ≠ '.') :
    c ∉ a.display := by
  intro h
  rcases mem_display h with h | h
  · rw [hdigit] at h
    cases h
  · exact hdot h

/-- The forms of an accepted host. -/
def HostForm (host : String) : Prop :=
  (∃ a port, parseSocketAddr host.toList = some ⟨.v4 a, port⟩) ∨
    ∃ rest, host.toList = '[' :: rest ∧ rest.head? ≠ some '['

/-- An accepted host has a port, or brackets. -/
theorem HostForm.ne_of_not_mem (h : HostForm host) {text : List Char} (hcolon : ':' ∉ text)
    (hbracket : '[' ∉ text) : host.toList ≠ text := by
  rintro rfl
  rcases h with ⟨a, port, hparse⟩ | ⟨rest, hhost, -⟩
  · obtain ⟨digits, hhost, -⟩ := parseSocketAddr_v4.mp hparse
    rw [hhost] at hcolon
    exact hcolon (List.mem_append_right _ List.mem_cons_self)
  · rw [hhost] at hbracket
    exact hbracket List.mem_cons_self

/-- No bracket in a port. -/
theorem bracket_not_mem_portSuffix (port : Option UInt16) : '[' ∉ portSuffix port := by
  rcases port with _ | port
  · exact List.not_mem_nil
  · rw [portSuffix, Option.elim_some, List.mem_cons, not_or]
    exact ⟨by decide, fun h => absurd (isDigit_toDigits _ _ h) (by decide)⟩

/-- An accepted host is not a name, with or without a port. -/
theorem HostForm.not_name (h : HostForm host) {name : List Char} {port : Option UInt16}
    (hcolon : ':' ∉ name) (hbracket : '[' ∉ name) (haddress : ∀ a : Ipv4Addr, name ≠ a.display) :
    host.toList ≠ name ++ portSuffix port := by
  rcases h with ⟨a, port', hparse⟩ | hbrackets
  · rcases port with _ | port
    · rw [portSuffix, Option.elim_none, List.append_nil]
      exact HostForm.ne_of_not_mem (Or.inl ⟨a, port', hparse⟩) hcolon hbracket
    · intro hname
      obtain ⟨digits, hhost, -⟩ := parseSocketAddr_v4.mp hparse
      have hdisplay : ':' ∉ a.display := not_mem_display (by decide) (by decide)
      have hsplit := congrArg (splitOnce [':']) (hhost.symm.trans hname)
      rw [splitOnce_append hdisplay, portSuffix, Option.elim_some, splitOnce_append hcolon,
        Option.some.injEq, Prod.mk.injEq] at hsplit
      exact haddress a hsplit.1.symm
  · obtain ⟨rest, hhost, -⟩ := hbrackets
    intro hname
    have hmem : '[' ∈ name ++ portSuffix port := by
      rw [← hname, hhost]
      exact List.mem_cons_self
    rcases List.mem_append.mp hmem with h | h
    · exact hbracket h
    · exact bracket_not_mem_portSuffix port h

/-- An accepted host is not an address in two pairs of brackets. -/
theorem HostForm.not_brackets (h : HostForm host) (rest : List Char) :
    host.toList ≠ '[' :: '[' :: rest := by
  intro hbrackets
  rcases h with ⟨a, port, hparse⟩ | ⟨rest', hhost, hhead⟩
  · obtain ⟨digits, hhost, -⟩ := parseSocketAddr_v4.mp hparse
    obtain ⟨c, tail, hdisplay, hc⟩ := exists_display_cons a
    rw [hhost, hdisplay, List.cons_append, List.cons.injEq] at hbrackets
    rw [hbrackets.1] at hc
    exact absurd hc (by decide)
  · rw [hhost, List.cons.injEq] at hbrackets
    rw [hbrackets.2] at hhead
    exact hhead rfl

/-- The origin that matches a host is one with an IPv4 address and a port that is written,
and the host the text of the two. -/
theorem sameOrigin_iff (laws : UrlLaws parse) (hu : parseOrigin parse value = .ok u)
    (hsmall : toAsciiLowercase host = host) (hform : HostForm host) :
    sameOrigin parse u.asciiOrigin host = true ↔ ∃ a port, u.host = some (.ipv4 a) ∧
      u.port = some port ∧ host.toList = a.display ++ ':' :: Nat.toDigits 10 port.toNat := by
  obtain ⟨-, hparse, horigin⟩ := parseOrigin_eq_ok.mp hu
  obtain ⟨originHost, hhost⟩ := Option.ne_none_iff_exists'.mp horigin.host
  rw [sameOrigin_asciiOrigin laws hu]
  simp only [hhost, Option.mem_def, Option.some.injEq, exists_eq_left']
  rcases originHost with name | a | a
  · -- a name is no address, so the host is neither the name nor begins with it
    obtain ⟨hname, hcolon, hbracket, haddress⟩ := laws.name hparse horigin.web hhost
    refine ⟨fun h => ?_, fun ⟨_, _, h, _⟩ => by cases h⟩
    have htext : (authority name u.port).toList = name.toList ++ portSuffix u.port := by
      rw [toList_authority, if_neg hcolon]
    have hlower : (authority name u.port).toList.map Char.toLower = (authority name u.port).toList := by
      rw [htext, List.map_append, map_toLower_portSuffix, ← String.toList_ofList
        (l := name.toList.map Char.toLower)]
      rw [show String.ofList (name.toList.map Char.toLower) = name from hname]
    rw [Host.text, eqIgnoreAsciiCase_iff hsmall hlower, htext] at h
    exact absurd h (hform.not_name hcolon hbracket haddress)
  · have hcolon : ':' ∉ (Host.ipv4 a).text.toList := by
      rw [Host.text, String.toList_ofList]
      exact not_mem_display (by decide) (by decide)
    have htext : (authority (Host.ipv4 a).text u.port).toList = a.display ++ portSuffix u.port := by
      rw [toList_authority, if_neg hcolon, Host.text, String.toList_ofList]
    have hlower : (authority (Host.ipv4 a).text u.port).toList.map Char.toLower =
        (authority (Host.ipv4 a).text u.port).toList := by
      rw [htext, List.map_append, map_toLower_portSuffix, map_toLower_display]
    rw [eqIgnoreAsciiCase_iff hsmall hlower, htext]
    rcases u.port with _ | port
    · refine ⟨fun h => ?_, fun ⟨_, _, _, h, _⟩ => by cases h⟩
      rw [portSuffix, Option.elim_none, List.append_nil] at h
      exact absurd h (hform.ne_of_not_mem (not_mem_display (by decide) (by decide))
        (not_mem_display (by decide) (by decide)))
    · simp only [portSuffix, Option.elim_some, Option.some.injEq, Host.ipv4.injEq]
      exact ⟨fun h => ⟨a, port, rfl, rfl, h⟩, by rintro ⟨_, _, rfl, rfl, h⟩; exact h⟩
  · -- the brackets are doubled
    refine ⟨fun h => ?_, fun ⟨_, _, h, _⟩ => by cases h⟩
    have hcolon : ':' ∈ (Host.ipv6 a).text.toList := by
      simp [Host.text, colon_mem_compressed]
    rw [eqIgnoreAsciiCase, decide_eq_true_eq, hsmall, toAsciiLowercase, toList_authority,
      if_pos hcolon, Host.text, String.toList_ofList] at h
    exact absurd (congrArg String.toList h) (by
      rw [String.toList_ofList]
      exact hform.not_brackets _)

end SameOrigin

end Erabi.Security

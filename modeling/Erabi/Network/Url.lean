/-
# URLs by their parts

What the accessors of the URL library return, how it writes hosts and origins, and what is
relied on of its parser: a default port is dropped, a name is in small letters and not
written like an IPv4 address, and the text of an origin is read back.
-/
import Mathlib
import Erabi.Network.AddressText

namespace Erabi.Network

open Authoring (toAsciiLowercase)

/-- A host, parsed. -/
inductive Host : Type where
  | domain (name : String)
  | ipv4 (address : Ipv4Addr)
  | ipv6 (address : Ipv6Addr)
  deriving DecidableEq, Repr

/-- An IPv6 address stands in brackets. -/
def Host.text : Host → String
  | .domain name => name
  | .ipv4 address => String.ofList address.display
  | .ipv6 address => String.ofList ('[' :: (address.compressed ++ [']']))

/-- The address a host is, unless it is a name. -/
def Host.ip : Host → Option IpAddr
  | .domain _ => none
  | .ipv4 address => some (.v4 address)
  | .ipv6 address => some (.v6 address)

/-- A URL, parsed. -/
structure Url where
  scheme : String
  username : String
  password : Option String
  host : Option Host
  /-- The port that is written, which is not the default one of the scheme. -/
  port : Option UInt16
  path : String
  query : Option String
  fragment : Option String
  deriving DecidableEq, Repr

/-- The default port of a scheme. -/
def defaultPort (scheme : String) : Option UInt16 :=
  if scheme = "http" ∨ scheme = "ws" then some 80
  else if scheme = "https" ∨ scheme = "wss" then some 443
  else if scheme = "ftp" then some 21
  else none

/-- A scheme, a host and a port. -/
structure Origin where
  scheme : String
  host : Host
  port : UInt16
  deriving DecidableEq, Repr

/-- An origin as text. -/
def Origin.asciiSerialization (origin : Origin) : String :=
  if defaultPort origin.scheme = some origin.port then
    origin.scheme ++ "://" ++ origin.host.text
  else
    origin.scheme ++ "://" ++ origin.host.text ++ ":" ++
      String.ofList (Nat.toDigits 10 origin.port.toNat)

namespace Url

variable (u : Url)

/-- The host of a URL as text. -/
def hostStr : Option String := u.host.map Host.text

/-- The port of a URL, or its scheme's default. -/
def portOrKnownDefault : Option UInt16 := u.port.or (defaultPort u.scheme)

/-- The origin of a URL with a host and a port; another one has none it could share. -/
def origin : Option Origin := do
  let host ← u.host
  let port ← u.portOrKnownDefault
  pure ⟨u.scheme, host, port⟩

/-- The origin of a URL as text. -/
def asciiOrigin : String := u.origin.elim "null" Origin.asciiSerialization

/-- The schemes of web pages. -/
def IsWeb : Prop := u.scheme = "http" ∨ u.scheme = "https"

instance : Decidable u.IsWeb := inferInstanceAs (Decidable (_ ∨ _))

/-- A URL of a web page that has the parts of an origin only. -/
structure IsOrigin : Prop where
  web : u.IsWeb
  host : u.host ≠ none
  user : u.username = "" ∧ u.password = none
  rest : u.path = "/" ∧ u.query = none ∧ u.fragment = none

end Url

/-- The URLs that are an origin alone. -/
theorem Url.isOrigin_iff (u : Url) : u.IsOrigin ↔
    ¬ (¬ u.IsWeb ∨ u.hostStr.isNone ∨ u.username ≠ "" ∨ u.password.isSome ∨ u.path ≠ "/" ∨
      u.query.isSome ∨ u.fragment.isSome) := by
  simp only [not_or, not_not, Option.isNone_iff_eq_none, Option.not_isSome_iff_eq_none, ne_eq,
    hostStr, Option.map_eq_none_iff]
  constructor
  · rintro ⟨hweb, hhost, ⟨huser, hpassword⟩, hpath, hquery, hfragment⟩
    exact ⟨hweb, hhost, huser, hpassword, hpath, hquery, hfragment⟩
  · rintro ⟨hweb, hhost, huser, hpassword, hpath, hquery, hfragment⟩
    exact ⟨hweb, hhost, ⟨huser, hpassword⟩, hpath, hquery, hfragment⟩

/-- A URL of the web has a port. -/
theorem Url.portOrKnownDefault_isSome {u : Url} (h : u.IsWeb) : u.portOrKnownDefault.isSome := by
  rw [portOrKnownDefault, Option.isSome_or]
  rcases h with h | h
  · simp [defaultPort, h]
  · simp [defaultPort, h]

/-- The serialization of an origin is the scheme, with a colon, the host and the port. -/
theorem Url.IsOrigin.colon_mem_asciiOrigin {u : Url} (h : u.IsOrigin) :
    ':' ∈ u.asciiOrigin.toList := by
  obtain ⟨host, hhost⟩ := Option.ne_none_iff_exists'.mp h.host
  obtain ⟨port, hport⟩ := Option.isSome_iff_exists.mp (Url.portOrKnownDefault_isSome h.web)
  have horigin : u.origin = some ⟨u.scheme, host, port⟩ := by
    simp [origin, hhost, hport]
  rw [asciiOrigin, horigin, Option.elim_some, Origin.asciiSerialization]
  split
  · simp
  · simp

/-- What is relied on of the parser. -/
structure UrlLaws (parse : String → Option Url) : Prop where
  port {s : String} {u : Url} : parse s = some u → ∀ port ∈ u.port, defaultPort u.scheme ≠ some port
  name {s : String} {u : Url} {name : String} : parse s = some u → u.IsWeb →
    u.host = some (.domain name) → toAsciiLowercase name = name ∧ ':' ∉ name.toList ∧
      '[' ∉ name.toList ∧ ∀ a : Ipv4Addr, name.toList ≠ a.display
  origin {s : String} {u : Url} : parse s = some u → u.IsOrigin → parse u.asciiOrigin = some u

end Erabi.Network

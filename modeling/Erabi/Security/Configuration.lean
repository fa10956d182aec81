/-
# The security configuration

Which Host headers a listener accepts, which other origins may send requests to it, and
what an origin is.
-/
import Mathlib
import Erabi.Network.Url
import Erabi.Relational.Transaction

namespace Erabi.Security

open Network
open Authoring (toAsciiLowercase parseDigits_toDigits)
open Snapshot (isWhitespace)
open Relational.Transaction (except_bind_eq_ok)

/-- Whether the server can be reached from elsewhere. -/
inductive Exposure : Type where
  | loopback
  | remote
  deriving DecidableEq, Repr

/-- Why a configuration is refused. -/
inductive SecurityConfigError : Type where
  | loopbackAddressRequired
  | emptyAccessToken
  | invalidAllowedOrigin
  deriving DecidableEq, Repr

/-! ## Origins -/

section Origins

variable (parse : String → Option Url)

/-- Parses a URL that is an origin alone. -/
def parseOrigin (value : String) : Except SecurityConfigError Url :=
  if value = "*" then .error .invalidAllowedOrigin
  else match parse value with
    | none => .error .invalidAllowedOrigin
    | some parsed =>
      if ¬ parsed.IsWeb ∨ parsed.hostStr.isNone ∨ parsed.username ≠ "" ∨ parsed.password.isSome ∨
          parsed.path ≠ "/" ∨ parsed.query.isSome ∨ parsed.fragment.isSome then
        .error .invalidAllowedOrigin
      else .ok parsed

/-- An origin in its one spelling. -/
def canonicalOrigin (origin : String) : Option String :=
  (parseOrigin parse origin).toOption.map Url.asciiOrigin

variable {parse}

/-- The texts that are origins. -/
theorem parseOrigin_eq_ok {value : String} {u : Url} : parseOrigin parse value = .ok u ↔
    value ≠ "*" ∧ parse value = some u ∧ u.IsOrigin := by
  unfold parseOrigin
  by_cases hstar : value = "*"
  · simp [hstar]
  rw [if_neg hstar]
  rcases parse value with _ | parsed
  · simp
  · rw [Option.some.injEq]
    dsimp only
    by_cases horigin : parsed.IsOrigin
    · rw [if_neg (parsed.isOrigin_iff.mp horigin), Except.ok.injEq]
      exact ⟨fun h => ⟨hstar, h, h ▸ horigin⟩, fun h => h.2.1⟩
    · rw [if_pos (not_not.mp fun h => horigin (parsed.isOrigin_iff.mpr h))]
      constructor
      · intro h
        cases h
      · rintro ⟨-, rfl, h⟩
        exact absurd h horigin

end Origins

/-! ## Hosts -/

/-- An address and a port as a Host header names them. -/
def hostText (address : SocketAddr) : String :=
  match address.ip with
  | .v4 ip => String.ofList (ip.display ++ ':' :: Nat.toDigits 10 address.port.toNat)
  | .v6 ip => String.ofList ('[' :: ip.display ++ ']' :: ':' :: Nat.toDigits 10 address.port.toNat)

/-- A wildcard listener accepts the addresses of its family with its port. -/
inductive HostPolicy : Type where
  | exact (expectedHosts : Finset String)
  | wildcardIpv4 (port : UInt16)
  | wildcardIpv6 (port : UInt16)
  deriving DecidableEq

/-- The policy covers the host. -/
def HostPolicy.matches (policy : HostPolicy) (host : String) : Bool :=
  match policy with
  | .exact expectedHosts => toAsciiLowercase host ∈ expectedHosts
  | .wildcardIpv4 port => (parseSocketAddr host.toList).any fun address =>
      address.ip.isIpv4 && !address.ip.isUnspecified && address.port = port
  | .wildcardIpv6 port => (parseSocketAddr host.toList).any fun address =>
      !address.ip.isIpv4 && !address.ip.isUnspecified && address.port = port

/-- The hosts that reach a bound address. -/
def hostPolicyForSocketAddr (address : SocketAddr) : HostPolicy :=
  match address.ip with
  | .v4 _ =>
    if address.ip.isUnspecified then .wildcardIpv4 address.port else .exact {hostText address}
  | .v6 _ =>
    if address.ip.isUnspecified then .wildcardIpv6 address.port else .exact {hostText address}

/-! ## The configuration -/

/-- What requests are checked against. -/
structure SecurityConfig where
  exposure : Exposure
  accessToken : Option String
  hostPolicy : HostPolicy
  allowedOrigins : Finset String
  mutationBodyLimitBytes : ℕ
  openapiEnabled : Bool

/-- The origins of an allowlist, as they are serialized. -/
def canonicalOrigins (parse : String → Option Url) :
    List String → Finset String → Except SecurityConfigError (Finset String)
  | [], origins => .ok origins
  | origin :: rest, origins => do
    let parsed ← parseOrigin parse origin
    canonicalOrigins parse rest (insert parsed.asciiOrigin origins)

namespace SecurityConfig

/-- The configuration of a server for its own host. -/
def loopback (bindAddress : SocketAddr) : Except SecurityConfigError SecurityConfig :=
  if bindAddress.ip.isLoopback then
    .ok ⟨.loopback, none, hostPolicyForSocketAddr bindAddress, ∅, 64 * 1024, true⟩
  else .error .loopbackAddressRequired

/-- The configuration of a server that can be reached. -/
def remote (parse : String → Option Url) (bindAddress : SocketAddr) (accessToken : String)
    (allowedOrigins : List String) : Except SecurityConfigError SecurityConfig :=
  if accessToken.toList.all isWhitespace then .error .emptyAccessToken
  else do
    let origins ← canonicalOrigins parse allowedOrigins ∅
    .ok ⟨.remote, some accessToken, hostPolicyForSocketAddr bindAddress, origins, 64 * 1024, false⟩

variable (config : SecurityConfig)

/-- The configuration with another limit on bodies. -/
def withMutationBodyLimit (bytes : ℕ) : SecurityConfig :=
  { config with mutationBodyLimitBytes := bytes }

/-- The configuration with the description on or off. -/
def withOpenapiEnabled (enabled : Bool) : SecurityConfig :=
  { config with openapiEnabled := enabled }

/-- The host is one of the server's. -/
def hostIsExpected (host : String) : Bool := config.hostPolicy.matches host

/-- The origin was allowed. -/
def isAllowedCrossOrigin (origin : String) : Bool := origin ∈ config.allowedOrigins

/-- A configuration of a listener at the address, whatever it was set to afterwards. -/
inductive Serves (parse : String → Option Url) (bindAddress : SocketAddr) :
    SecurityConfig → Prop where
  | loopback {config : SecurityConfig} (h : loopback bindAddress = .ok config) :
      Serves parse bindAddress config
  | remote {config : SecurityConfig} {accessToken : String} {allowedOrigins : List String}
      (h : remote parse bindAddress accessToken allowedOrigins = .ok config) :
      Serves parse bindAddress config
  | withMutationBodyLimit {config : SecurityConfig} (h : Serves parse bindAddress config)
      (bytes : ℕ) : Serves parse bindAddress (config.withMutationBodyLimit bytes)
  | withOpenapiEnabled {config : SecurityConfig} (h : Serves parse bindAddress config)
      (enabled : Bool) : Serves parse bindAddress (config.withOpenapiEnabled enabled)

variable {config} in
/-- The listener's address decides the hosts, however the configuration was made. -/
theorem Serves.hostPolicy_eq {parse : String → Option Url} {bindAddress : SocketAddr}
    (h : Serves parse bindAddress config) :
    config.hostPolicy = hostPolicyForSocketAddr bindAddress := by
  induction h with
  | loopback h =>
    unfold SecurityConfig.loopback at h
    split at h
    · cases h
      rfl
    · cases h
  | remote h =>
    unfold SecurityConfig.remote at h
    split at h
    · cases h
    · obtain ⟨origins, -, h⟩ := except_bind_eq_ok.mp h
      cases h
      rfl
  | withMutationBodyLimit _ _ ih => exact ih
  | withOpenapiEnabled _ _ ih => exact ih

end SecurityConfig

/-! ## Accepted hosts -/

/-- A host without capital letters that a listener accepts is the text of an IPv4 socket
address, or begins with one bracket. -/
theorem accepted_cases {bindAddress : SocketAddr} {host : String}
    (hsmall : toAsciiLowercase host = host)
    (h : (hostPolicyForSocketAddr bindAddress).matches host = true) :
    (∃ a port, parseSocketAddr host.toList = some ⟨.v4 a, port⟩) ∨
      ∃ rest, host.toList = '[' :: rest ∧ rest.head? ≠ some '[' := by
  obtain ⟨ip, port⟩ := bindAddress
  -- by the family of the bind address, and whether it is the unspecified one
  rcases ip with ip | ip
  · left
    by_cases hwildcard : (IpAddr.v4 ip).isUnspecified
    · simp only [hostPolicyForSocketAddr, if_pos hwildcard, HostPolicy.matches, Option.any_eq_true,
        Bool.and_eq_true] at h
      obtain ⟨⟨a | a, port'⟩, haddress, ⟨hipv4, -⟩, -⟩ := h
      · exact ⟨a, port', haddress⟩
      · cases hipv4
    · simp only [hostPolicyForSocketAddr, if_neg hwildcard, HostPolicy.matches, hsmall,
        Finset.mem_singleton, decide_eq_true_eq] at h
      refine ⟨ip, port, parseSocketAddr_v4.mpr
        ⟨Nat.toDigits 10 port.toNat, ?_, parseDigits_toDigits port.toNat_lt⟩⟩
      rw [h, hostText, String.toList_ofList]
  · right
    by_cases hwildcard : (IpAddr.v6 ip).isUnspecified
    · simp only [hostPolicyForSocketAddr, if_pos hwildcard, HostPolicy.matches, Option.any_eq_true,
        Bool.and_eq_true] at h
      obtain ⟨⟨a | a, port'⟩, haddress, ⟨hipv6, -⟩, -⟩ := h
      · cases hipv6
      · exact exists_bracket_of_parseSocketAddr haddress
    · simp only [hostPolicyForSocketAddr, if_neg hwildcard, HostPolicy.matches, hsmall,
        Finset.mem_singleton, decide_eq_true_eq] at h
      rw [h, hostText, String.toList_ofList]
      refine ⟨_, rfl, fun hhead => ?_⟩
      rcases hdisplay : ip.display with _ | ⟨c, rest⟩
      · rw [hdisplay] at hhead
        have hclose : ']' = '[' := Option.some.inj hhead
        exact absurd hclose (by decide)
      · rw [hdisplay] at hhead
        obtain rfl : c = '[' := Option.some.inj hhead
        exact bracket_not_mem_display ip (hdisplay ▸ List.mem_cons_self)

end Erabi.Security

/-
# The network policy

A target is connected to only after its URL was checked and the host resolved, and every
address of the answer classified.  The target keeps the addresses the client must use:
those of the answer, in order and each once, with the port of the URL.
-/
import Mathlib
import Erabi.Network.Url
import Erabi.Relational.Transaction

namespace Erabi.Network

open Relational.Transaction (except_bind_eq_ok)

/-! ## Resolvers -/

/-- Why a resolver fails. -/
inductive NetworkResolveError : Type where
  | failed
  | tooManyAddresses
  deriving DecidableEq, Repr

/-- What a resolver answers for a host and a port, or `none` if that takes longer than the
policy waits. -/
abbrev NetworkResolver := String → UInt16 → Option (Except NetworkResolveError (List SocketAddr))

/-- Why a target is refused. -/
inductive NetworkTargetError : Type where
  | unsupportedScheme
  | missingHost
  | credentialsNotAllowed
  | fragmentNotAllowed
  | invalidPort
  | prohibitedLiteralAddress
  | resolutionFailed
  | resolutionTimedOut
  | emptyResolution
  | tooManyAddresses
  | prohibitedResolvedAddress
  deriving DecidableEq, Repr

/-- How many addresses a name may have. -/
def defaultNetworkResolutionAddressLimit : ℕ := 16

/-- A resolver with its limit. -/
structure NetworkTargetPolicy where
  resolver : NetworkResolver
  addressLimit : ℕ
  bounded : addressLimit ≤ defaultNetworkResolutionAddressLimit

/-- A policy with the default limit. -/
def NetworkTargetPolicy.new (resolver : NetworkResolver) : NetworkTargetPolicy :=
  ⟨resolver, defaultNetworkResolutionAddressLimit, le_rfl⟩

/-- A policy with another limit, below the default. -/
def NetworkTargetPolicy.withAddressLimit (policy : NetworkTargetPolicy) (limit : ℕ) :
    NetworkTargetPolicy :=
  ⟨policy.resolver, min limit defaultNetworkResolutionAddressLimit, min_le_right _ _⟩

/-- A target that has passed the policy. -/
structure ValidatedNetworkTarget where
  url : Url
  host : String
  port : UInt16
  addresses : List SocketAddr
  deriving DecidableEq, Repr

/-! ## Validation -/

/-- The checks on a URL by itself. -/
def validateUrlShape (url : Url) : Except NetworkTargetError Unit :=
  if ¬ (url.scheme = "http" ∨ url.scheme = "https") then .error .unsupportedScheme
  else if url.hostStr.isNone then .error .missingHost
  else if url.username ≠ "" ∨ url.password.isSome then .error .credentialsNotAllowed
  else if url.fragment.isSome then .error .fragmentNotAllowed
  else .ok ()

/-- The value of an accessor that must have one. -/
def required {α : Type} (value : Option α) (e : NetworkTargetError) : Except NetworkTargetError α :=
  value.elim (.error e) .ok

/-- The checks on a URL, its port included. -/
def validateUrl (url : Url) : Except NetworkTargetError Unit := do
  validateUrlShape url
  let port ← required url.portOrKnownDefault .invalidPort
  if port = 0 then .error .invalidPort else .ok ()

/-- Every address is classified before it joins the set. -/
def insertAddresses (port : UInt16) :
    List SocketAddr → Finset SocketAddr → Except NetworkTargetError (Finset SocketAddr)
  | [], normalized => .ok normalized
  | address :: rest, normalized =>
    if isPublicUnicast address.ip then
      insertAddresses port rest (insert (address.withPort port) normalized)
    else .error .prohibitedResolvedAddress

/-- The addresses in order, when each is public. -/
def normalizeAndValidateAddresses (addresses : List SocketAddr) (port : UInt16)
    (addressLimit : ℕ) : Except NetworkTargetError (List SocketAddr) :=
  if addresses = [] then .error .emptyResolution
  else if addressLimit = 0 ∨ addressLimit < addresses.length then .error .tooManyAddresses
  else do
    let normalized ← insertAddresses port addresses ∅
    if normalized = ∅ then .error .emptyResolution else .ok normalized.sort

/-- A literal address needs no resolver. -/
def literalAddress (ip : IpAddr) (port : UInt16) : Except NetworkTargetError (List SocketAddr) :=
  if isPublicUnicast ip then .ok [⟨ip, port⟩] else .error .prohibitedLiteralAddress

/-- The answer of a resolver, or the lack of one. -/
def awaitResolution :
    Option (Except NetworkResolveError (List SocketAddr)) → Except NetworkTargetError (List SocketAddr)
  | none => .error .resolutionTimedOut
  | some (.error .failed) => .error .resolutionFailed
  | some (.error .tooManyAddresses) => .error .tooManyAddresses
  | some (.ok addresses) => .ok addresses

namespace NetworkTargetPolicy

variable (policy : NetworkTargetPolicy) (url : Url)

/-- The addresses of a host, resolved when it is a name. -/
def hostAddresses (host : String) (port : UInt16) : Except NetworkTargetError (List SocketAddr) :=
  match url.host with
  | some (.ipv4 address) => literalAddress (.v4 address) port
  | some (.ipv6 address) => literalAddress (.v6 address) port
  | some (.domain _) => do
    let resolution ← awaitResolution (policy.resolver host port)
    normalizeAndValidateAddresses resolution port policy.addressLimit
  | none => .error .missingHost

/-- A target that was checked and resolved. -/
def validateAndResolve : Except NetworkTargetError ValidatedNetworkTarget := do
  validateUrl url
  let host ← required url.hostStr .missingHost
  let port ← required url.portOrKnownDefault .invalidPort
  let addresses ← policy.hostAddresses url host port
  .ok ⟨url, host, port, addresses⟩

end NetworkTargetPolicy

/-! ## What a successful call returns -/

/-- A required value is there. -/
@[simp] theorem required_eq_ok {α : Type} {value : Option α} {e : NetworkTargetError} {a : α} :
    required value e = .ok a ↔ value = some a := by
  cases value with
  | none => simp [required]
  | some b => simp [required]

/-- A resolution succeeds with its addresses. -/
@[simp] theorem awaitResolution_eq_ok
    {resolution : Option (Except NetworkResolveError (List SocketAddr))}
    {addresses : List SocketAddr} :
    awaitResolution resolution = .ok addresses ↔ resolution = some (.ok addresses) := by
  rcases resolution with _ | (_ | _) | found <;> simp [awaitResolution]

/-- The set of the addresses with the port of the URL. -/
def portedAddresses (port : UInt16) (addresses : List SocketAddr) : Finset SocketAddr :=
  (addresses.map (·.withPort port)).toFinset

/-- Addresses are taken when each is public. -/
theorem insertAddresses_eq_ok {port : UInt16} {addresses : List SocketAddr} :
    ∀ {normalized result : Finset SocketAddr}, insertAddresses port addresses normalized = .ok result ↔
      (∀ address ∈ addresses, isPublicUnicast address.ip = true) ∧
        result = portedAddresses port addresses ∪ normalized := by
  induction addresses with
  | nil =>
    intro normalized result
    simp only [insertAddresses, portedAddresses, Except.ok.injEq, List.map_nil, List.toFinset_nil,
      Finset.empty_union, List.not_mem_nil, false_imp_iff, implies_true, true_and]
    exact eq_comm
  | cons address rest ih =>
    intro normalized result
    by_cases hpublic : isPublicUnicast address.ip
    · rw [insertAddresses, if_pos hpublic, ih, List.forall_mem_cons]
      simp [hpublic, portedAddresses, Finset.union_insert]
    · rw [insertAddresses, if_neg hpublic, List.forall_mem_cons]
      simp [hpublic]

/-- Addresses are accepted when they are few and public. -/
theorem normalizeAndValidateAddresses_eq_ok {addresses result : List SocketAddr} {port : UInt16}
    {limit : ℕ} : normalizeAndValidateAddresses addresses port limit = .ok result ↔
      (addresses ≠ [] ∧ addresses.length ≤ limit) ∧
        (∀ address ∈ addresses, isPublicUnicast address.ip = true) ∧
          result = (portedAddresses port addresses).sort := by
  unfold normalizeAndValidateAddresses
  by_cases hempty : addresses = []
  · simp [hempty]
  by_cases hlimit : limit = 0 ∨ limit < addresses.length
  · have hlong : ¬ addresses.length ≤ limit := by
      have := List.length_pos_iff.mpr hempty
      omega
    simp [hempty, hlimit, hlong]
  have hported : portedAddresses port addresses ≠ ∅ := by
    simpa [portedAddresses] using hempty
  rw [if_neg hempty, if_neg hlimit, except_bind_eq_ok]
  simp only [insertAddresses_eq_ok, Finset.union_empty]
  constructor
  · rintro ⟨_, ⟨hpublic, rfl⟩, hresult⟩
    rw [if_neg hported, Except.ok.injEq] at hresult
    exact ⟨⟨hempty, by omega⟩, hpublic, hresult.symm⟩
  · rintro ⟨-, hpublic, rfl⟩
    exact ⟨_, ⟨hpublic, rfl⟩, if_neg hported⟩

/-- A literal address is accepted when it is public. -/
theorem literalAddress_eq_ok {ip : IpAddr} {port : UInt16} {result : List SocketAddr} :
    literalAddress ip port = .ok result ↔
      (∀ address ∈ [SocketAddr.mk ip port], isPublicUnicast address.ip = true) ∧
        result = (portedAddresses port [⟨ip, port⟩]).sort := by
  have hsingle : portedAddresses port [⟨ip, port⟩] = {⟨ip, port⟩} := rfl
  rw [hsingle, Finset.sort_singleton, List.forall_mem_singleton]
  by_cases hpublic : isPublicUnicast ip
  · simp [literalAddress, hpublic, eq_comm]
  · simp [literalAddress, hpublic]

/-! ## What the property says -/

namespace NetworkTargetPolicy

variable (policy : NetworkTargetPolicy) (url : Url)

/-- The answer for the URL: the address it names itself, or those of the resolver. -/
def answer : Option (List SocketAddr) :=
  match url.host, url.portOrKnownDefault with
  | some (.ipv4 address), some port => some [⟨.v4 address, port⟩]
  | some (.ipv6 address), some port => some [⟨.v6 address, port⟩]
  | some (.domain name), some port => (policy.resolver name port).bind Except.toOption
  | _, _ => none

/-- The URL is accepted, and the answer of a resolver neither empty nor too long. -/
structure Considers (addresses : List SocketAddr) : Prop where
  accepted : validateUrl url = .ok ()
  answered : policy.answer url = some addresses
  counted : (∃ name, url.host = some (.domain name)) →
    addresses ≠ [] ∧ addresses.length ≤ policy.addressLimit

/-- What the policy promises of a call. -/
structure ResolvesSafely : Prop where
  /-- Every address returned is public. -/
  isPublic : ∀ {target}, policy.validateAndResolve url = .ok target →
    ∀ address ∈ target.addresses, PublicUnicast address.ip
  /-- One address that is not rejects the answer. -/
  rejects : ∀ {addresses}, policy.answer url = some addresses →
    (∃ address ∈ addresses, ¬ PublicUnicast address.ip) →
    ∃ e, policy.validateAndResolve url = .error e
  /-- What is returned is the answer, sorted and each address once, with the URL's port. -/
  normalizes : ∀ {target}, policy.validateAndResolve url = .ok target →
    ∃ addresses, ∃ port, policy.answer url = some addresses ∧
      url.portOrKnownDefault = some port ∧ target.addresses.Pairwise (· < ·) ∧
      ∀ address, address ∈ target.addresses ↔ ∃ found ∈ addresses, found.withPort port = address

/-- The addresses of a host are accepted when they are few and public. -/
theorem hostAddresses_eq_ok {host : String} {port : UInt16} {result : List SocketAddr}
    (hhost : url.hostStr = some host) (hport : url.portOrKnownDefault = some port) :
    policy.hostAddresses url host port = .ok result ↔
      ∃ addresses, policy.answer url = some addresses ∧
        ((∃ name, url.host = some (.domain name)) →
          addresses ≠ [] ∧ addresses.length ≤ policy.addressLimit) ∧
        (∀ address ∈ addresses, isPublicUnicast address.ip = true) ∧
        result = (portedAddresses port addresses).sort := by
  rcases hkind : url.host with _ | name | address | address
  · simp [hostAddresses, answer, hkind]
  · obtain rfl : name = host := by simpa [Url.hostStr, hkind, Host.text] using hhost
    simp only [hostAddresses, answer, hkind, hport, except_bind_eq_ok, awaitResolution_eq_ok,
      normalizeAndValidateAddresses_eq_ok]
    constructor
    · rintro ⟨addresses, hanswer, hcount, hpublic, hresult⟩
      exact ⟨addresses, by rw [hanswer]; rfl, fun _ => hcount, hpublic, hresult⟩
    · rintro ⟨addresses, hanswer, hcount, hpublic, hresult⟩
      obtain ⟨_ | found, hresolver, hfound⟩ := Option.bind_eq_some_iff.mp hanswer
      · cases hfound
      · cases hfound
        exact ⟨_, hresolver, hcount ⟨name, rfl⟩, hpublic, hresult⟩
  · simp only [hostAddresses, answer, hkind, hport, literalAddress_eq_ok]
    simp
  · simp only [hostAddresses, answer, hkind, hport, literalAddress_eq_ok]
    simp

/-- A call succeeds for an answer whose addresses are all classified as public, and returns
them with the port. -/
theorem validateAndResolve_eq_ok {target : ValidatedNetworkTarget} :
    policy.validateAndResolve url = .ok target ↔
      ∃ addresses, policy.Considers url addresses ∧
        (∀ address ∈ addresses, isPublicUnicast address.ip = true) ∧
        url.hostStr = some target.host ∧ url.portOrKnownDefault = some target.port ∧
        target.url = url ∧ target.addresses = (portedAddresses target.port addresses).sort := by
  simp only [validateAndResolve, except_bind_eq_ok, required_eq_ok]
  constructor
  · rintro ⟨_, haccepted, host, hhost, port, hport, addresses, haddresses, htarget⟩
    obtain ⟨found, hanswered, hcounted, hpublic, rfl⟩ :=
      (policy.hostAddresses_eq_ok url hhost hport).mp haddresses
    cases htarget
    exact ⟨found, ⟨haccepted, hanswered, hcounted⟩, hpublic, hhost, hport, rfl, rfl⟩
  · rintro ⟨found, hconsiders, hpublic, hhost, hport, hurl, haddresses⟩
    refine ⟨(), hconsiders.accepted, target.host, hhost, target.port, hport, target.addresses, ?_, ?_⟩
    · rw [policy.hostAddresses_eq_ok url hhost hport]
      exact ⟨found, hconsiders.answered, hconsiders.counted, hpublic, haddresses⟩
    · rw [← hurl]

/-- A call that is refused returns an error. -/
theorem exists_error_of_forall_ne (h : ∀ target, policy.validateAndResolve url ≠ .ok target) :
    ∃ e, policy.validateAndResolve url = .error e := by
  rcases hcall : policy.validateAndResolve url with e | target
  · exact ⟨e, rfl⟩
  · exact absurd hcall (h target)

/-- What was answered was asked for with a host and a port. -/
theorem exists_of_answer {addresses : List SocketAddr} (h : policy.answer url = some addresses) :
    ∃ host port, url.hostStr = some host ∧ url.portOrKnownDefault = some port := by
  rcases hkind : url.host with _ | host
  · simp [answer, hkind] at h
  rcases hport : url.portOrKnownDefault with _ | port
  · rcases host with _ | _ | _ <;> simp [answer, hkind, hport] at h
  · exact ⟨host.text, port, by rw [Url.hostStr, hkind]; rfl, rfl⟩

/-- The addresses carry the port of the target. -/
theorem mem_sort_portedAddresses {port : UInt16} {addresses : List SocketAddr}
    {address : SocketAddr} : address ∈ (portedAddresses port addresses).sort ↔
      ∃ found ∈ addresses, found.withPort port = address := by
  rw [Finset.mem_sort, portedAddresses, List.mem_toFinset, List.mem_map]

/-- A call is safe if and only if the addresses it was not refused for lie in the public
block and embed no private IPv4 address. -/
theorem resolvesSafely_iff : policy.ResolvesSafely url ↔
    ∀ addresses, policy.Considers url addresses →
      (∀ address ∈ addresses, isPublicUnicast address.ip = true) →
      ∀ address ∈ addresses, PlainUnicast address.ip := by
  constructor
  · intro h addresses hconsiders hpublic address haddress
    -- a resolution that lets the address through cannot be the refusal the property asks for
    by_contra hplain
    have hforbidden : ¬ PublicUnicast address.ip := fun h =>
      hplain ((publicUnicast_iff address.ip).mp h).2
    obtain ⟨e, he⟩ := h.rejects hconsiders.answered ⟨address, haddress, hforbidden⟩
    obtain ⟨host, port, hhost, hport⟩ := policy.exists_of_answer url hconsiders.answered
    have hok : policy.validateAndResolve url =
        .ok ⟨url, host, port, (portedAddresses port addresses).sort⟩ :=
      (policy.validateAndResolve_eq_ok url).mpr
        ⟨addresses, hconsiders, hpublic, hhost, hport, rfl, rfl⟩
    rw [he] at hok
    cases hok
  · intro h
    refine ⟨?_, ?_, ?_⟩
    -- a target holds the addresses of one answer, all of them classified
    · intro target htarget address haddress
      obtain ⟨addresses, hconsiders, hpublic, -, -, -, hsorted⟩ :=
        (policy.validateAndResolve_eq_ok url).mp htarget
      rw [hsorted, mem_sort_portedAddresses] at haddress
      obtain ⟨found, hfound, rfl⟩ := haddress
      exact (publicUnicast_iff _).mpr
        ⟨hpublic found hfound, h addresses hconsiders hpublic found hfound⟩
    · rintro addresses hanswer ⟨address, haddress, hforbidden⟩
      apply exists_error_of_forall_ne
      intro target htarget
      obtain ⟨found, hconsiders, hpublic, -⟩ := (policy.validateAndResolve_eq_ok url).mp htarget
      obtain rfl : addresses = found := Option.some.inj (hanswer.symm.trans hconsiders.answered)
      exact hforbidden ((publicUnicast_iff _).mpr
        ⟨hpublic address haddress, h addresses hconsiders hpublic address haddress⟩)
    · intro target htarget
      obtain ⟨addresses, hconsiders, -, -, hport, -, hsorted⟩ :=
        (policy.validateAndResolve_eq_ok url).mp htarget
      refine ⟨addresses, target.port, hconsiders.answered, hport, ?_, fun address => ?_⟩
      · rw [hsorted]
        exact (Finset.sortedLT_sort _).pairwise
      · rw [hsorted, mem_sort_portedAddresses]

/-- `http://[fec0::1]/`, of the site-local block. -/
def siteLocalUrl : Url :=
  ⟨"http", "", none, some (.ipv6 ⟨0xfec0, 0, 0, 0, 0, 0, 0, 1⟩), none, "/", none, none⟩

/-- The site-local address is returned as a target, whatever the resolver. -/
theorem siteLocal_accepted : (∀ policy : NetworkTargetPolicy,
    policy.validateAndResolve siteLocalUrl = .ok ⟨siteLocalUrl, "[fec0::1]", 80,
      [⟨.v6 ⟨0xfec0, 0, 0, 0, 0, 0, 0, 1⟩, 80⟩]⟩) ∧
    ¬ ∀ (policy : NetworkTargetPolicy) (url : Url), policy.ResolvesSafely url := by
  have hcall : ∀ policy : NetworkTargetPolicy, policy.validateAndResolve siteLocalUrl =
      .ok ⟨siteLocalUrl, "[fec0::1]", 80, [⟨.v6 ⟨0xfec0, 0, 0, 0, 0, 0, 0, 1⟩, 80⟩]⟩ :=
    fun _ => rfl
  refine ⟨hcall, fun h => ?_⟩
  have hpublic := (h (.new fun _ _ => none) siteLocalUrl).isPublic (hcall _) _
    (List.mem_singleton_self _)
  exact absurd hpublic (by decide)

end NetworkTargetPolicy

end Erabi.Network

/-
# Mutations of browsers

Which mutations pass the checks of the host and of the origin: those of listed origins,
and those of the pages of an IPv4 listener whose port is not the default one.
-/
import Mathlib
import Erabi.Security.Origin

namespace Erabi.Security

open Network
open Authoring (toAsciiLowercase parseDigits_toDigits)

/-! ## Which mutations pass -/

/-- Neither the host nor the origin of the request was refused. -/
def Outcome.PassesHostAndOrigin (outcome : Outcome) : Prop :=
  outcome ≠ .rejected .hostNotAllowed ∧ outcome ≠ .rejected .originNotAllowed

/-- The host and the effective port of the URL are the address. -/
def Names (u : Url) (address : SocketAddr) : Prop :=
  u.host.bind Host.ip = some address.ip ∧ u.portOrKnownDefault = some address.port

/-- The header is the origin of the URL. -/
def States (parse : String → Option Url) (header : HeaderValue) (u : Url) : Prop :=
  ∃ text, header.toStr = some text ∧ parseOrigin parse text = .ok u

/-- A mutation with a Host header that the listener accepts, here in small letters. -/
structure Mutation (config : SecurityConfig) (request : Request) (host : String) : Prop where
  method : request.method.isMutation = true
  named : (request.host.bind HeaderValue.toStr).map toAsciiLowercase = some host
  expected : config.hostIsExpected host = true

/-- The origin is listed, or the one of the pages that this listener serves at the host. -/
def Entitled (config : SecurityConfig) (host : String) (u : Url) : Prop :=
  config.isAllowedCrossOrigin u.asciiOrigin = true ∨
    (u.scheme = "http" ∧ ∃ address, parseSocketAddr host.toList = some address ∧ Names u address)

section Passing

variable {parse : String → Option Url} {isJson : List UInt8 → Bool} {config : SecurityConfig}
  {request : Request} {host : String} {header : HeaderValue} {bindAddress : SocketAddr}

/-- A mutation passes the check on its host. -/
theorem checkHost_of_mutation (h : Mutation config request host) :
    checkHost config request.host = .ok host := by
  rw [checkHost, h.named]
  exact if_pos h.expected

/-- The check on the origin has one rejection. -/
theorem checkOrigin_error {r : Rejection} {origin : Option HeaderValue}
    (h : checkOrigin parse config host origin = .error r) : r = .originNotAllowed := by
  unfold checkOrigin at h
  rcases origin with _ | rawOrigin
  · cases h
  · dsimp only at h
    split at h
    · cases h
      rfl
    · split at h
      · cases h
      · cases h
        rfl

/-- The check on the body blames neither host nor origin. -/
theorem checkBody_error {r : Rejection} {contentType : Option HeaderValue} {body : List UInt8}
    (h : checkBody isJson config contentType body = .error r) :
    r ≠ .hostNotAllowed ∧ r ≠ .originNotAllowed := by
  unfold checkBody at h
  split_ifs at h <;> cases h <;> decide

/-- A mutation is checked for origin and body. -/
theorem checkMutation_of_mutation (h : Mutation config request host) :
    checkMutation parse isJson config request = (do
      checkOrigin parse config host request.origin
      checkBody isJson config request.contentType request.body) := by
  rw [checkMutation, checkHost_of_mutation h]
  rfl

/-- A mutation passes if its origin does. -/
theorem passes_iff_checkOrigin (h : Mutation config request host) :
    (enforceBrowserRequestPolicy parse isJson config request).PassesHostAndOrigin ↔
      checkOrigin parse config host request.origin = .ok () := by
  have hmethod : ¬ (request.method = .options ∧ request.origin.isSome = true) := by
    rintro ⟨hoptions, -⟩
    have hmutation := h.method
    rw [hoptions] at hmutation
    cases hmutation
  have hchecks : checkMutation parse isJson config request = _ := checkMutation_of_mutation h
  rw [enforceBrowserRequestPolicy, if_neg hmethod, if_pos h.method]
  rcases horigin : checkOrigin parse config host request.origin with r | ⟨⟩
  · have hrejected : checkMutation parse isJson config request = .error .originNotAllowed := by
      rw [hchecks, horigin, checkOrigin_error horigin]
      rfl
    rw [hrejected]
    exact ⟨fun hpasses => (hpasses.2 rfl).elim, fun hok => (by cases hok)⟩
  · refine ⟨fun _ => rfl, fun _ => ?_⟩
    -- The origin is right, so that only the body can be refused.
    have hrest : checkMutation parse isJson config request =
        checkBody isJson config request.contentType request.body := by
      rw [hchecks, horigin]
      rfl
    rw [hrest]
    rcases hbody : checkBody isJson config request.contentType request.body with r | ⟨⟩
    · obtain ⟨hhost, hforeign⟩ := checkBody_error hbody
      exact ⟨fun heq => hhost (Outcome.rejected.inj heq),
        fun heq => hforeign (Outcome.rejected.inj heq)⟩
    · constructor
      · intro heq
        cases heq
      · intro heq
        cases heq

/-- The spelling of a text that is an origin. -/
theorem canonicalOrigin_eq_some {text origin : String} :
    canonicalOrigin parse text = some origin ↔
      ∃ u, parseOrigin parse text = .ok u ∧ u.asciiOrigin = origin := by
  rw [canonicalOrigin]
  rcases parseOrigin parse text with e | u
  · simp [Except.toOption]
  · simp [Except.toOption]

/-- What the check of an origin accepts. -/
theorem checkOrigin_eq_ok : checkOrigin parse config host (some header) = .ok () ↔
    ∃ u, States parse header u ∧ (sameOrigin parse u.asciiOrigin host = true ∨
      config.isAllowedCrossOrigin u.asciiOrigin = true) := by
  unfold checkOrigin
  dsimp only
  rcases hread : header.toStr.bind (canonicalOrigin parse) with _ | origin
  · refine ⟨fun h => (by cases h), ?_⟩
    rintro ⟨u, ⟨text, htext, hu⟩, -⟩
    rw [htext, Option.bind_some, canonicalOrigin_eq_some.mpr ⟨u, hu, rfl⟩] at hread
    cases hread
  · obtain ⟨text, htext, hcanonical⟩ := Option.bind_eq_some_iff.mp hread
    obtain ⟨u, hu, rfl⟩ := canonicalOrigin_eq_some.mp hcanonical
    dsimp only
    constructor
    · intro h
      split at h
      · rename_i hpasses
        exact ⟨u, ⟨text, htext, hu⟩, hpasses⟩
      · cases h
    · rintro ⟨v, ⟨text', htext', hv⟩, hpasses⟩
      obtain rfl : text = text' := Option.some.inj (htext.symm.trans htext')
      obtain rfl : u = v := Except.ok.inj (hu.symm.trans hv)
      exact if_pos hpasses

/-- The host of a mutation is in lower case. -/
theorem small_of_mutation (h : Mutation config request host) : toAsciiLowercase host = host := by
  obtain ⟨text, -, rfl⟩ := Option.map_eq_some_iff.mp h.named
  simp [toAsciiLowercase, Function.comp_def]

/-- An accepted Host header has one of the forms. -/
theorem hostForm_of_mutation (hserves : config.Serves parse bindAddress)
    (h : Mutation config request host) : HostForm host := by
  have hexpected := h.expected
  rw [SecurityConfig.hostIsExpected, hserves.hostPolicy_eq] at hexpected
  exact accepted_cases (small_of_mutation h) hexpected

/-- The origins that match the host among those that name its address. -/
theorem sameOrigin_iff_hostText (laws : UrlLaws parse) {u : Url} {address : SocketAddr}
    (hu : States parse header u) (hsmall : toAsciiLowercase host = host) (hform : HostForm host)
    (hnames : Names u address) : sameOrigin parse u.asciiOrigin host = true ↔
      address.ip.isIpv4 = true ∧ u.port ≠ none ∧ host = hostText address := by
  obtain ⟨text, -, hparse⟩ := hu
  obtain ⟨hip, hport⟩ := hnames
  obtain ⟨ip, port⟩ := address
  rw [sameOrigin_iff laws hparse hsmall hform]
  constructor
  · rintro ⟨a, port', hhost, hport', htext⟩
    rw [hhost, Option.bind_some, Host.ip, Option.some.injEq] at hip
    rw [Url.portOrKnownDefault, hport', Option.some_or, Option.some.injEq] at hport
    subst hip hport
    refine ⟨rfl, by rw [hport']; exact Option.some_ne_none _, ?_⟩
    rw [← String.toList_inj, htext, hostText, String.toList_ofList]
  · rintro ⟨hipv4, hwritten, rfl⟩
    obtain ⟨port', hport'⟩ := Option.ne_none_iff_exists'.mp hwritten
    rw [Url.portOrKnownDefault, hport', Option.some_or, Option.some.injEq] at hport
    subst hport
    rcases ip with a | a
    · obtain ⟨originHost, hhost, horigin⟩ := Option.bind_eq_some_iff.mp hip
      rcases originHost with name | b | b <;> cases horigin
      exact ⟨a, port', hhost, hport', by rw [hostText, String.toList_ofList]⟩
    · cases hipv4

/-- A mutation passes exactly with a listed origin or one of its own pages, if and only if
every unlisted origin that names the address of the Host header is an HTTP origin exactly
when that address is an IPv4 address, the origin has a port other than the default one, and
the header is the canonical text of the address. -/
theorem passes_exactly_iff (laws : UrlLaws parse) (hserves : config.Serves parse bindAddress)
    (hmutation : Mutation config request host) (horigin : request.origin = some header) :
    ((enforceBrowserRequestPolicy parse isJson config request).PassesHostAndOrigin ↔
        ∃ u, States parse header u ∧ Entitled config host u) ↔
      ∀ u address, States parse header u → config.isAllowedCrossOrigin u.asciiOrigin = false →
        parseSocketAddr host.toList = some address → Names u address →
        (u.scheme = "http" ↔
          address.ip.isIpv4 = true ∧ u.port ≠ none ∧ host = hostText address) := by
  have hsmall := small_of_mutation hmutation
  have hform := hostForm_of_mutation hserves hmutation
  -- a request has one origin header, so it states one origin
  have hunique : ∀ {u v}, States parse header u → States parse header v → u = v := by
    rintro u v ⟨text, htext, hu⟩ ⟨text', htext', hv⟩
    obtain rfl : text = text' := Option.some.inj (htext.symm.trans htext')
    exact Except.ok.inj (hu.symm.trans hv)
  rw [passes_iff_checkOrigin hmutation, horigin, checkOrigin_eq_ok]
  constructor
  · intro hexact u address hu hunlisted haddress hnames
    rw [← sameOrigin_iff_hostText laws hu hsmall hform hnames]
    constructor
    · intro hhttp
      obtain ⟨v, hv, hpasses⟩ := hexact.mpr ⟨u, hu, Or.inr ⟨hhttp, address, haddress, hnames⟩⟩
      rw [hunique hv hu, hunlisted] at hpasses
      exact hpasses.resolve_right (by decide)
    · intro hsame
      obtain ⟨v, hv, hentitled⟩ := hexact.mp ⟨u, hu, Or.inl hsame⟩
      rw [hunique hv hu, Entitled, hunlisted] at hentitled
      exact (hentitled.resolve_left (by decide)).1
  · intro hcondition
    constructor
    · rintro ⟨u, hu, hpasses⟩
      refine ⟨u, hu, ?_⟩
      -- an origin on the allow list passes either way; the others are compared with the host
      by_cases hlisted : config.isAllowedCrossOrigin u.asciiOrigin = true
      · exact Or.inl hlisted
      have hsame := hpasses.resolve_right hlisted
      have ⟨_, _, hparse⟩ := hu
      obtain ⟨a, port, hhost, hport, htext⟩ := (sameOrigin_iff laws hparse hsmall hform).mp hsame
      have haddress : parseSocketAddr host.toList = some ⟨.v4 a, port⟩ :=
        parseSocketAddr_v4.mpr ⟨_, htext, parseDigits_toDigits port.toNat_lt⟩
      have hnames : Names u ⟨.v4 a, port⟩ :=
        ⟨by rw [hhost]; rfl, by rw [Url.portOrKnownDefault, hport, Option.some_or]⟩
      refine Or.inr ⟨?_, _, haddress, hnames⟩
      rw [hcondition u _ hu (by simpa using hlisted) haddress hnames,
        ← sameOrigin_iff_hostText laws hu hsmall hform hnames]
      exact hsame
    · rintro ⟨u, hu, hentitled⟩
      refine ⟨u, hu, ?_⟩
      by_cases hlisted : config.isAllowedCrossOrigin u.asciiOrigin = true
      · exact Or.inr hlisted
      obtain ⟨hhttp, address, haddress, hnames⟩ := hentitled.resolve_left hlisted
      left
      rw [sameOrigin_iff_hostText laws hu hsmall hform hnames,
        ← hcondition u address hu (by simpa using hlisted) haddress hnames]
      exact hhttp

end Passing

/-! ### A listener and its page -/

/-- The parser, for the origins of some pages. -/
def pageParser (pages : List Url) (text : String) : Option Url :=
  pages.find? fun page => page.asciiOrigin = text

/-- The page at an address. -/
def pageOf (host : Host) (port : UInt16) : Url :=
  ⟨"http", "", none, some host, some port, "/", none, none⟩

/-- The sample parser keeps the laws of URLs. -/
theorem pageParser_laws {host : Host} {port : UInt16} (hip : host.ip ≠ none) (hport : port ≠ 80) :
    UrlLaws (pageParser [pageOf host port]) := by
  have hpage : ∀ {s u}, pageParser [pageOf host port] s = some u → u = pageOf host port :=
    fun h => List.mem_singleton.mp (List.mem_of_find?_eq_some h)
  refine ⟨?_, ?_, ?_⟩
  · intro s u h port' hport'
    rw [hpage h] at hport' ⊢
    cases hport'
    exact fun hdefault => hport (Option.some.inj hdefault).symm
  · intro s u name h _ hname
    rw [hpage h] at hname
    obtain rfl : host = .domain name := Option.some.inj hname
    exact absurd rfl hip
  · intro s u h _
    have hs := List.find?_some h
    rw [decide_eq_true_eq] at hs
    rwa [hs]

/-- A text as a header. -/
def headerOf (text : String) : HeaderValue := text.toList.map fun c => UInt8.ofNat c.toNat

/-- A request of the page at the address to its own server. -/
def pageRequest (host origin : String) : Request :=
  ⟨.post, some (headerOf host), some (headerOf origin), some (headerOf "application/json"), []⟩

/-- The configuration of a loopback listener. -/
def listener (address : SocketAddr) : SecurityConfig :=
  ⟨.loopback, none, hostPolicyForSocketAddr address, ∅, 64 * 1024, true⟩

/-- The IPv4 address of the host itself. -/
def loopbackV4 : SocketAddr := ⟨.v4 ⟨127, 0, 0, 1⟩, 3000⟩

/-- The IPv6 address of the host itself. -/
def loopbackV6 : SocketAddr := ⟨.v6 ⟨0, 0, 0, 0, 0, 0, 0, 1⟩, 3000⟩

/-- The page of `127.0.0.1:3000` may send mutations. -/
theorem passes_exactly_loopback :
    ((enforceBrowserRequestPolicy (pageParser [pageOf (.ipv4 ⟨127, 0, 0, 1⟩) 3000]) (fun _ => true)
        (listener loopbackV4)
        (pageRequest "127.0.0.1:3000" "http://127.0.0.1:3000")).PassesHostAndOrigin ↔
      ∃ u, States (pageParser [pageOf (.ipv4 ⟨127, 0, 0, 1⟩) 3000]) (headerOf "http://127.0.0.1:3000") u ∧
        Entitled (listener loopbackV4) "127.0.0.1:3000" u) ↔
      ∀ u address, States (pageParser [pageOf (.ipv4 ⟨127, 0, 0, 1⟩) 3000])
          (headerOf "http://127.0.0.1:3000") u →
        (listener loopbackV4).isAllowedCrossOrigin u.asciiOrigin = false →
        parseSocketAddr "127.0.0.1:3000".toList = some address → Names u address →
        (u.scheme = "http" ↔
          address.ip.isIpv4 = true ∧ u.port ≠ none ∧ "127.0.0.1:3000" = hostText address) :=
  passes_exactly_iff (pageParser_laws (by decide) (by decide))
    (.loopback (if_pos (by decide) : SecurityConfig.loopback loopbackV4 = .ok (listener loopbackV4)))
    ⟨rfl, by decide +kernel, by decide +kernel⟩ rfl

/-- The page of `[::1]:3000` may not: the origin is compared with doubled brackets. -/
theorem ipv6_page_refused :
    enforceBrowserRequestPolicy (pageParser [pageOf (.ipv6 ⟨0, 0, 0, 0, 0, 0, 0, 1⟩) 3000])
        (fun _ => true) (listener loopbackV6) (pageRequest "[::1]:3000" "http://[::1]:3000") =
      .rejected .originNotAllowed ∧
    ¬ ∀ (parse : String → Option Url) (isJson : List UInt8 → Bool) (bindAddress : SocketAddr)
      (config : SecurityConfig) (request : Request) (host : String) (header : HeaderValue),
      UrlLaws parse → config.Serves parse bindAddress → Mutation config request host →
      request.origin = some header →
      ((enforceBrowserRequestPolicy parse isJson config request).PassesHostAndOrigin ↔
        ∃ u, States parse header u ∧ Entitled config host u) := by
  have hrefused : enforceBrowserRequestPolicy
      (pageParser [pageOf (.ipv6 ⟨0, 0, 0, 0, 0, 0, 0, 1⟩) 3000]) (fun _ => true)
      (listener loopbackV6) (pageRequest "[::1]:3000" "http://[::1]:3000") =
        .rejected .originNotAllowed := by decide +kernel
  refine ⟨hrefused, fun h => ?_⟩
  have hexact := h (pageParser [pageOf (.ipv6 ⟨0, 0, 0, 0, 0, 0, 0, 1⟩) 3000]) (fun _ => true)
    loopbackV6 (listener loopbackV6) (pageRequest "[::1]:3000" "http://[::1]:3000") "[::1]:3000"
    (headerOf "http://[::1]:3000") (pageParser_laws (by decide) (by decide))
    (.loopback (if_pos (by decide))) ⟨rfl, by decide +kernel, by decide +kernel⟩ rfl
  have hpasses := hexact.mpr ⟨pageOf (.ipv6 ⟨0, 0, 0, 0, 0, 0, 0, 1⟩) 3000,
    ⟨"http://[::1]:3000", by decide +kernel, by rfl⟩,
    Or.inr ⟨rfl, loopbackV6, by decide +kernel, rfl, rfl⟩⟩
  exact hpasses.2 hrefused

end Erabi.Security

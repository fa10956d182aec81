/-
# Domain scope

The classification of a URL by the domain scope of a version.  A custom scope decides
by its rules, those that block first; an exact rule for a host is without effect only
where a URL writes the host in another way than the rule.
-/
import Mathlib
import Erabi.Authoring.Contract
import Erabi.Authoring.Hosts

namespace Erabi.Authoring

open Relational

variable (lib : Libraries)

/-! ## Rules -/

/-- The text in front of its end, where it ends so. -/
def stripSuffix (ending s : List Char) : Option (List Char) :=
  if ending.isSuffixOf s then some (s.take (s.length - ending.length)) else none

/-- The host is the root or a name under it. -/
def hostIsWithinRoot (candidate root : String) : Bool :=
  candidate = root ||
    (stripSuffix root.toList candidate.toList).any fun rest => rest.getLast? = some '.'

/-- The rule covers the host. -/
def DomainScopeHostRule.matches (candidate : String) : DomainScopeHostRule → Bool
  | exact host => candidate = host
  | subdomains host => hostIsWithinRoot candidate host

/-! ## Classification -/

/-- Why a host is in scope or not. -/
inductive DomainScopeRationale where
  | seedHost
  | registrableDomain
  | explicitSubdomain
  | unselectedSubdomain
  | explicitAllowlist
  | outsideSeedDomains
  | outsideAllowlist
  | explicitBlock
  | customAllow
  | outsideCustomAllow
  deriving DecidableEq, Repr

/-- The answer of a scope about a host. -/
inductive DomainScopeClassification where
  | inScope (host : String) (rationale : DomainScopeRationale)
  | external (host : String) (rationale : DomainScopeRationale)
  | blocked (host : String) (rationale : DomainScopeRationale)
  deriving DecidableEq, Repr

/-- A target of a crawl: an HTTP URL with a host and without user and fragment. -/
def IsCrawlUrl (u : Url) : Prop :=
  (lib.url.scheme u = "http" ∨ lib.url.scheme u = "https") ∧ (lib.url.hostStr u).isSome ∧
    lib.url.username u = "" ∧ lib.url.password u = none ∧ lib.url.fragment u = none

instance (u : Url) : Decidable (IsCrawlUrl lib u) :=
  inferInstanceAs (Decidable ((lib.url.scheme u = "http" ∨ lib.url.scheme u = "https") ∧
    (lib.url.hostStr u).isSome ∧ lib.url.username u = "" ∧ lib.url.password u = none ∧
      lib.url.fragment u = none))

/-- The check that a URL can be crawled. -/
def validateCrawlUrl (u : Url) : Except ProductError Unit :=
  ensure (IsCrawlUrl lib u) ⟨.invalidUrl, "the URL is not a valid HTTP(S) crawl target"⟩

/-- The host of a URL in lower case. -/
def normalizedUrlHost (u : Url) : Except ProductError String :=
  match lib.url.hostStr u with
  | some host => .ok (toAsciiLowercase host)
  | none => .error (invalidScope "the URL host is missing")

/-- The host of a target. -/
def targetHost (u : Url) : Except ProductError String := do
  validateCrawlUrl lib u
  normalizedUrlHost lib u

section Classify

variable (pslDomain : String → Option String)

/-- The domain of a host that a registrar sells, which `pslDomain` finds in the Public
Suffix List. -/
def registrableDomain (host : String) : Except ProductError String :=
  if isIpAddr host ∨ '.' ∉ host.toList then .ok host
  else match pslDomain host with
    | some domain => .ok domain
    | none => .error ⟨.registrableDomainUnavailable,
        "registrable-domain data is unavailable for this host"⟩

/-- The decision about the host of a candidate, from the hosts of the enabled seeds. -/
def DomainScopeKind.classifyHost (kind : DomainScopeKind) (candidateHost : String)
    (seedHosts : List String) : Except ProductError DomainScopeClassification :=
  match kind with
  | .seedDomainsOnly => do
      ensure (seedHosts ≠ []) (invalidScope "Domain Scope requires an enabled seed")
      if candidateHost ∈ seedHosts then
        return .inScope candidateHost .seedHost
      else
        return .external candidateHost .outsideSeedDomains
  | .sameRegistrableDomain explicitSubdomains => do
      ensure (seedHosts ≠ []) (invalidScope "Domain Scope requires an enabled seed")
      let roots ← seedHosts.mapM (registrableDomain pslDomain)
      let candidateRoot ← registrableDomain pslDomain candidateHost
      if candidateHost ∈ explicitSubdomains ∧ roots.any (hostIsWithinRoot candidateHost) then
        return .inScope candidateHost .explicitSubdomain
      else if candidateRoot ∈ roots ∧ candidateHost = candidateRoot then
        return .inScope candidateHost .registrableDomain
      else if candidateHost ∈ seedHosts then
        return .inScope candidateHost .seedHost
      else
        return .external candidateHost .unselectedSubdomain
  | .explicitAllowlist hosts =>
      if candidateHost ∈ hosts then
        .ok (.inScope candidateHost .explicitAllowlist)
      else
        .ok (.external candidateHost .outsideAllowlist)
  | .custom allow block =>
      -- Blocking is evaluated first, in whatever order the rules stand.
      if block.keys.any (DomainScopeHostRule.matches candidateHost) then
        .ok (.blocked candidateHost .explicitBlock)
      else if allow.keys.any (DomainScopeHostRule.matches candidateHost) then
        .ok (.inScope candidateHost .customAllow)
      else
        .ok (.external candidateHost .outsideCustomAllow)

/-- The answer of a valid scope about a URL, given the enabled seeds' hosts. -/
def DomainScopePolicy.classify (scope : DomainScopePolicy) (candidate : Url) (seeds : List Seed) :
    Except ProductError DomainScopeClassification := do
  scope.validate lib
  let candidateHost ← targetHost lib candidate
  let seedHosts ← (seeds.filter Seed.enabled).mapM fun seed => targetHost lib seed.canonicalUrl
  scope.policy.classifyHost pslDomain candidateHost seedHosts

end Classify

variable {lib}

/-! ## Texts in small letters -/

/-- Lower case twice is lower case once. -/
theorem toAsciiLowercase_idem (s : String) :
    toAsciiLowercase (toAsciiLowercase s) = toAsciiLowercase s := by
  simp only [toAsciiLowercase, String.toList_ofList, List.map_map]
  congr 1
  apply List.map_congr_left
  intro c _
  exact c.toLower_toLower_eq_toLower

/-- A bracket in front is kept by lower case. -/
theorem toAsciiLowercase_bracket (s : String) :
    toAsciiLowercase ("[" ++ s) = "[" ++ toAsciiLowercase s := by
  simp [toAsciiLowercase]

/-! ## Accepted rules -/

/-- A host is within a root when it is the root or ends with a dot and the root. -/
theorem hostIsWithinRoot_iff {candidate root : String} : hostIsWithinRoot candidate root = true ↔
    candidate = root ∨ ∃ labels, candidate = labels ++ "." ++ root := by
  rw [hostIsWithinRoot, Bool.or_eq_true, decide_eq_true_eq, stripSuffix]
  apply or_congr Iff.rfl
  constructor
  · intro h
    split at h
    · rename_i hends
      obtain ⟨rest, hrest⟩ := List.isSuffixOf_iff_suffix.mp hends
      rw [← hrest, List.length_append, Nat.add_sub_cancel, List.take_left, Option.any_some,
        decide_eq_true_eq] at h
      obtain ⟨labels, rfl⟩ := List.getLast?_eq_some_iff.mp h
      exact ⟨String.ofList labels, String.toList_inj.mp (by simp [← hrest])⟩
    · cases h
  · rintro ⟨labels, rfl⟩
    have hends : root.toList.isSuffixOf (labels ++ "." ++ root).toList = true :=
      List.isSuffixOf_iff_suffix.mpr ⟨(labels ++ ".").toList, by simp⟩
    have hrest : (labels ++ "." ++ root).toList = (labels.toList ++ ['.']) ++ root.toList := by simp
    rw [if_pos hends, hrest, List.length_append, Nat.add_sub_cancel, List.take_left,
      Option.any_some, List.getLast?_append]
    simp

/-- A rule is accepted when its host is normalized, and is an address or what the library
makes of it. -/
theorem validate_rule_eq_ok {rule : DomainScopeHostRule} : rule.validate lib = .ok () ↔
    toAsciiLowercase (trim rule.host) = rule.host ∧
      validateNormalizedHost lib rule.host = .ok () := by
  rw [DomainScopeHostRule.validate, normalizeRuleHost, bind_eq_ok]
  simp only [check_bind_eq_ok, pure_eq_ok, ensure_eq_ok]
  constructor
  · rintro ⟨host, ⟨hvalid, rfl⟩, hsame⟩
    exact ⟨hsame, hsame ▸ hvalid⟩
  · rintro ⟨hsame, hvalid⟩
    exact ⟨rule.host, ⟨hsame.symm ▸ hvalid, hsame⟩, rfl⟩

/-- Checks pass over a list when each passes. -/
theorem forM_check_eq_ok {α : Type} {check : α → Except ProductError Unit} {l : List α} :
    l.forM check = .ok () ↔ ∀ a ∈ l, check a = .ok () := by
  induction l with
  | nil => exact ⟨fun _ _ h => (by cases h), fun _ => rfl⟩
  | cons a l ih =>
    rw [List.forall_mem_cons, ← ih]
    exact check_bind_eq_ok

/-- The library writes an accepted host that is not an address as the rule does. -/
theorem validateNormalizedHost_eq_ok {host : String}
    (h : validateNormalizedHost lib host = .ok ()) : isIpAddr host = true ∨
      ∃ parsed, lib.url.parse ("https://" ++ host ++ "/") = some parsed ∧
        lib.url.hostStr parsed = some host := by
  rw [validateNormalizedHost, check_bind_eq_ok] at h
  obtain ⟨_, h⟩ := h
  split at h
  · rename_i haddr
    exact Or.inl haddr
  · right
    split at h
    · cases h
    · rename_i parsed hparsed
      exact ⟨parsed, hparsed, (ensure_eq_ok.mp h).1⟩

/-- The rules of an accepted scope are accepted. -/
theorem validate_custom_rules {version : ℕ} {allow block : KeySet DomainScopeHostRule}
    (h : DomainScopePolicy.validate lib ⟨version, .custom allow block⟩ = .ok ()) :
    ∀ rule ∈ allow.keys ++ block.keys, rule.validate lib = .ok () := by
  simp only [DomainScopePolicy.validate, check_bind_eq_ok] at h
  exact forM_check_eq_ok.mp h.2.2

/-! ## Targets -/

/-- A target host is a crawlable URL's host in lower case. -/
theorem targetHost_eq_ok {u : Url} {host : String} : targetHost lib u = .ok host ↔
    IsCrawlUrl lib u ∧ ∃ text ∈ lib.url.hostStr u, toAsciiLowercase text = host := by
  rw [targetHost, check_bind_eq_ok, validateCrawlUrl, ensure_eq_ok, normalizedUrlHost]
  rcases lib.url.hostStr u with _ | text
  · simp
  · simp

/-- A target has a host. -/
theorem exists_targetHost {u : Url} : (∃ host, targetHost lib u = .ok host) ↔ IsCrawlUrl lib u := by
  simp only [targetHost_eq_ok]
  constructor
  · rintro ⟨_, htarget, _⟩
    exact htarget
  · intro htarget
    obtain ⟨text, htext⟩ := Option.isSome_iff_exists.mp htarget.2.1
    exact ⟨_, htarget, text, htext, rfl⟩

/-- A fallible function maps over a list when it succeeds at each element. -/
theorem exists_mapM {α β : Type} {f : α → Except ProductError β} {l : List α} :
    (∃ bs, l.mapM f = .ok bs) ↔ ∀ a ∈ l, ∃ b, f a = .ok b := by
  induction l with
  | nil => exact ⟨fun _ _ h => (by cases h), fun _ => ⟨[], rfl⟩⟩
  | cons a l ih =>
    rw [List.forall_mem_cons, ← ih, List.mapM_cons]
    simp only [bind_eq_ok, pure_eq_ok]
    constructor
    · rintro ⟨_, b, hb, bs, hbs, _⟩
      exact ⟨⟨b, hb⟩, bs, hbs⟩
    · rintro ⟨⟨b, hb⟩, bs, hbs⟩
      exact ⟨b :: bs, b, hb, bs, hbs, rfl⟩

/-! ## Custom scopes -/

section Custom

variable {pslDomain : String → Option String} {version : ℕ}
  {allow block : KeySet DomainScopeHostRule} {u : Url} {seeds : List Seed}

/-- What a custom scope makes of a host. -/
def customDecision (allow block : KeySet DomainScopeHostRule) (host : String) :
    DomainScopeClassification :=
  if ∃ rule ∈ block.keys, rule.matches host then .blocked host .explicitBlock
  else if ∃ rule ∈ allow.keys, rule.matches host then .inScope host .customAllow
  else .external host .outsideCustomAllow

/-- A custom scope decides from its two lists. -/
theorem classifyHost_custom (host : String) (seedHosts : List String) :
    (DomainScopeKind.custom allow block).classifyHost pslDomain host seedHosts =
      .ok (customDecision allow block host) := by
  simp only [DomainScopeKind.classifyHost, customDecision, List.any_eq_true]
  split_ifs
  · rfl
  · rfl
  · rfl

/-- A custom scope blocks the hosts that a rule of its block list covers. -/
theorem customDecision_blocked {host : String} :
    (∃ text rationale, customDecision allow block host = .blocked text rationale) ↔
      ∃ rule ∈ block.keys, rule.matches host := by
  rw [customDecision]
  split_ifs with hblock hallow
  · exact ⟨fun _ => hblock, fun _ => ⟨_, _, rfl⟩⟩
  · exact ⟨fun ⟨_, _, h⟩ => (by cases h), fun h => absurd h hblock⟩
  · exact ⟨fun ⟨_, _, h⟩ => (by cases h), fun h => absurd h hblock⟩

/-- An accepted custom scope classifies the targets, given seeds that are targets, and
decides by their hosts. -/
theorem classify_custom_eq_ok {c : DomainScopeClassification}
    (hvalid : DomainScopePolicy.validate lib ⟨version, .custom allow block⟩ = .ok ()) :
    DomainScopePolicy.classify lib pslDomain ⟨version, .custom allow block⟩ u seeds = .ok c ↔
      (∀ seed ∈ seeds, seed.enabled = true → IsCrawlUrl lib seed.canonicalUrl) ∧
        ∃ host, targetHost lib u = .ok host ∧ customDecision allow block host = c := by
  have hseeds : (∃ hosts, (seeds.filter Seed.enabled).mapM
      (fun seed => targetHost lib seed.canonicalUrl) = .ok hosts) ↔
        ∀ seed ∈ seeds, seed.enabled = true → IsCrawlUrl lib seed.canonicalUrl := by
    rw [exists_mapM]
    simp only [exists_targetHost, List.mem_filter, and_imp]
  rw [DomainScopePolicy.classify, check_bind_eq_ok, bind_eq_ok, ← hseeds]
  simp only [bind_eq_ok, classifyHost_custom, Except.ok.injEq]
  constructor
  · rintro ⟨_, host, hhost, hosts, hhosts, hc⟩
    exact ⟨⟨hosts, hhosts⟩, host, hhost, hc⟩
  · rintro ⟨⟨hosts, hhosts⟩, host, hhost, hc⟩
    exact ⟨hvalid, host, hhost, hosts, hhosts, hc⟩

/-! ### Exact rules -/

variable {host : String}

/-- The rule names the host as the URL writes it. -/
def DomainScopeHostRule.Covers (lib : Libraries) (rule : DomainScopeHostRule) (u : Url) : Prop :=
  ∃ text ∈ lib.url.hostStr u, rule.matches (toAsciiLowercase text) = true

/-- A URL writes a host that is no IPv6 address as an accepted rule does. -/
theorem hostStr_of_name (laws : HostLaws lib.url)
    (hrule : (DomainScopeHostRule.exact host).validate lib = .ok ())
    (hhost : lib.url.HostIs u host) (hname : isIpv6Addr host = false) :
    lib.url.hostStr u = some host := by
  obtain ⟨v, hparse, hsame⟩ := hhost
  rw [inAuthority, if_neg (by simp [hname])] at hparse
  rw [hsame]
  have hnormal : validateNormalizedHost lib host = .ok () := (validate_rule_eq_ok.mp hrule).2
  rcases validateNormalizedHost_eq_ok hnormal with haddr | ⟨parsed, hparsed, hwritten⟩
  · have hipv4 : readIpv4Addr host.toList = some [] := by
      rw [isIpAddr, ← isIpv6Addr, hname] at haddr
      simpa using haddr
    exact laws.ipv4 hipv4 hparse
  · rw [hparse] at hparsed
    cases hparsed
    exact hwritten

/-- An exact rule covers the URLs of its host unless the host is an IPv6 address, which
the rule has without the brackets. -/
theorem covers_exact_iff (laws : HostLaws lib.url)
    (hrule : (DomainScopeHostRule.exact host).validate lib = .ok ())
    (hhost : lib.url.HostIs u host) :
    (DomainScopeHostRule.exact host).Covers lib u ↔ isIpv6Addr host = false := by
  constructor
  · rintro ⟨text, htext, hmatch⟩
    by_contra hipv6
    rw [Bool.not_eq_false] at hipv6
    obtain ⟨v, hparse, hsame⟩ := hhost
    have hauthority : "https://" ++ inAuthority host ++ "/" = "https://[" ++ host ++ "]/" := by
      rw [inAuthority, if_pos hipv6]
      exact String.toList_inj.mp (by simp)
    rw [hauthority] at hparse
    obtain ⟨address, hwritten⟩ := laws.ipv6 hipv6 hparse
    have htext' : some text = some ("[" ++ address ++ "]") := by
      rw [← hwritten, ← hsame]
      exact htext.symm
    have hhost' : "[" ++ toAsciiLowercase (address ++ "]") = host := by
      rw [← toAsciiLowercase_bracket, ← String.append_assoc, ← Option.some.inj htext']
      simpa [DomainScopeHostRule.matches] using hmatch
    rw [← hhost', isIpv6Addr_bracket] at hipv6
    cases hipv6
  · intro hname
    refine ⟨host, hostStr_of_name laws hrule hhost hname, ?_⟩
    have hsmall : toAsciiLowercase host = host := by
      have hnormal : toAsciiLowercase (trim host) = host := (validate_rule_eq_ok.mp hrule).1
      conv_lhs => rw [← hnormal, toAsciiLowercase_idem]
      exact hnormal
    simp [DomainScopeHostRule.matches, hsmall]

/-- A URL of a host with an exact block rule is blocked, given targets, exactly when the
host is no IPv6 address or another rule covers the address in brackets. -/
theorem DomainScopePolicy.classify_blocked_iff (laws : HostLaws lib.url)
    (hvalid : DomainScopePolicy.validate lib ⟨version, .custom allow block⟩ = .ok ())
    (hrule : .exact host ∈ block) (hhost : lib.url.HostIs u host) :
    (∃ text rationale, DomainScopePolicy.classify lib pslDomain ⟨version, .custom allow block⟩
        u seeds = .ok (.blocked text rationale)) ↔
      (IsCrawlUrl lib u ∧ ∀ seed ∈ seeds, seed.enabled = true → IsCrawlUrl lib seed.canonicalUrl) ∧
        (isIpv6Addr host = false ∨
          ∃ rule ∈ block.keys, rule ≠ .exact host ∧ rule.Covers lib u) := by
  have hexact := covers_exact_iff laws
    (validate_custom_rules hvalid _ (List.mem_append_right _ hrule)) hhost
  have hcovers : (∃ rule ∈ block.keys, rule.Covers lib u) ↔ isIpv6Addr host = false ∨
      ∃ rule ∈ block.keys, rule ≠ .exact host ∧ rule.Covers lib u := by
    constructor
    · rintro ⟨rule, hmem, hcover⟩
      by_cases hsame : rule = .exact host
      · rw [hsame] at hcover
        exact Or.inl (hexact.mp hcover)
      · exact Or.inr ⟨rule, hmem, hsame, hcover⟩
    · rintro (hname | ⟨rule, hmem, _, hcover⟩)
      · exact ⟨_, hrule, hexact.mpr hname⟩
      · exact ⟨rule, hmem, hcover⟩
  rw [← hcovers]
  simp only [classify_custom_eq_ok hvalid]
  constructor
  · rintro ⟨text, rationale, hseeds, host', hhost', hdecision⟩
    obtain ⟨htarget, written, hwritten, rfl⟩ := targetHost_eq_ok.mp hhost'
    obtain ⟨rule, hmem, hmatch⟩ := customDecision_blocked.mp ⟨text, rationale, hdecision⟩
    exact ⟨⟨htarget, hseeds⟩, rule, hmem, written, hwritten, hmatch⟩
  · rintro ⟨⟨htarget, hseeds⟩, rule, hmem, written, hwritten, hmatch⟩
    have hblocked : ∃ text rationale,
        customDecision allow block (toAsciiLowercase written) = .blocked text rationale :=
      customDecision_blocked.mpr ⟨rule, hmem, hmatch⟩
    obtain ⟨text, rationale, hdecision⟩ := hblocked
    exact ⟨text, rationale, hseeds, _, targetHost_eq_ok.mpr ⟨htarget, written, hwritten, rfl⟩,
      hdecision⟩

end Custom

/-! ### The loopback address -/

/-- A URL whose host is an IPv6 literal. -/
def loopbackUrl : Url := ⟨"https://[::1]/", by simp [Printable, isControl]⟩

/-- A URL is known by the text of its parts. -/
theorem plainUrl_eq {parts : PlainParts} {u : Url} (h : parts.text = u.text) :
    plainUrl parts = some u := by
  have hprintable : Printable parts.text := h ▸ u.printable
  rw [plainUrl, dif_pos hprintable]
  simp only [h]

/-- The sample crate parses that URL. -/
theorem parse_loopbackUrl : plainUrlCrate.parse "https://[::1]/" = some loopbackUrl := by
  have hparts : plainParts "https://[::1]/".toList =
      ⟨"https".toList, "[::1]".toList, ['/'], none, none⟩ := by
    simp [plainParts, splitOnce]
  simp only [plainUrlCrate, hparts]
  rw [if_pos (by simp)]
  apply plainUrl_eq
  exact String.toList_inj.mp (by simp [PlainParts.text, loopbackUrl])

/-- The host of that URL is the loopback address. -/
theorem hostIs_loopbackUrl : plainUrlCrate.HostIs loopbackUrl "::1" := by
  have hauthority : "https://" ++ inAuthority "::1" ++ "/" = "https://[::1]/" := by
    rw [inAuthority, if_pos (by decide)]
    exact String.toList_inj.mp (by simp)
  refine ⟨loopbackUrl, ?_, rfl⟩
  rw [hauthority]
  exact parse_loopbackUrl

/-- The host is given back in brackets. -/
theorem hostStr_loopbackUrl : plainUrlCrate.hostStr loopbackUrl = some "[::1]" := by
  have htext : "https://[" ++ "::1" ++ "]/" = "https://[::1]/" :=
    String.toList_inj.mp (by simp)
  have hhost : "[" ++ "::1" ++ "]" = "[::1]" := String.toList_inj.mp (by simp)
  rw [← hhost]
  apply hostStr_plain_ipv6 (by decide)
  rw [htext]
  exact parse_loopbackUrl

/-- The parts of that URL. -/
theorem plain_loopbackUrl :
    loopbackUrl.plain = ⟨"https".toList, "[::1]".toList, ['/'], none, none⟩ := by
  simp [Url.plain, loopbackUrl, plainParts, splitOnce]

/-- That URL can be crawled. -/
theorem isCrawlUrl_loopbackUrl : IsCrawlUrl plainLibraries loopbackUrl := by
  refine ⟨Or.inr ?_, rfl, rfl, rfl, ?_⟩
  · simp [plainLibraries, plainUrlCrate, plain_loopbackUrl]
  · simp [plainLibraries, plainUrlCrate, plain_loopbackUrl]

/-- A rule for the loopback address, with or without brackets, is accepted. -/
theorem validate_loopbackRule {rule : DomainScopeHostRule}
    (h : rule = .exact "[::1]" ∨ rule = .exact "::1") : rule.validate plainLibraries = .ok () := by
  have haddress : validateNormalizedHost plainLibraries "::1" = .ok () := by
    decide +kernel
  have hbracket : validateNormalizedHost plainLibraries "[::1]" = .ok () := by
    have htext : "https://" ++ "[::1]" ++ "/" = "https://[::1]/" :=
      String.toList_inj.mp (by simp)
    have hparse : plainLibraries.url.parse "https://[::1]/" = some loopbackUrl :=
      parse_loopbackUrl
    have haddr : ¬ isIpAddr "[::1]" = true := by decide
    rw [validateNormalizedHost, check_bind_eq_ok, ensure_eq_ok, if_neg haddr, htext, hparse]
    refine ⟨by decide, ensure_eq_ok.mpr ⟨hostStr_loopbackUrl, ?_⟩⟩
    simp [plainLibraries, plainUrlCrate, plain_loopbackUrl, PlainParts.hostPort, splitOnce]
  rw [validate_rule_eq_ok]
  rcases h with rfl | rfl
  · exact ⟨by decide, hbracket⟩
  · exact ⟨by decide, haddress⟩

/-- The exact rule for a host, alone. -/
def onlyHost (host : String) : KeySet DomainScopeHostRule := ⟨[.exact host], by simp⟩

/-- A scope that lets the loopback address in and blocks it as written. -/
def loopbackScope (blocked : String) : DomainScopePolicy :=
  ⟨domainScopePolicyVersion, .custom (onlyHost "[::1]") (onlyHost blocked)⟩

/-- A scope that blocks either spelling is valid. -/
theorem validate_loopbackScope {blocked : String} (h : blocked = "[::1]" ∨ blocked = "::1") :
    (loopbackScope blocked).validate plainLibraries = .ok () := by
  rw [DomainScopePolicy.validate, check_bind_eq_ok]
  refine ⟨ensure_eq_ok.mpr rfl, ?_⟩
  show ((ensure _ _) >>= fun _ => List.forM _ _) = _
  rw [check_bind_eq_ok, forM_check_eq_ok]
  refine ⟨ensure_eq_ok.mpr (by simp [onlyHost]), ?_⟩
  intro rule hrule
  apply validate_loopbackRule
  rcases List.mem_pair.mp hrule with rfl | rfl
  · exact Or.inl rfl
  · rcases h with rfl | rfl
    · exact Or.inl rfl
    · exact Or.inr rfl

/-- With the brackets the rule blocks the address. -/
theorem classify_blocked_iff_loopback : ∃ text rationale,
    (loopbackScope "[::1]").classify plainLibraries (fun _ => none) loopbackUrl [] =
      .ok (.blocked text rationale) := by
  have hhost : plainUrlCrate.HostIs loopbackUrl "[::1]" := by
    refine ⟨loopbackUrl, ?_, rfl⟩
    have hauthority : "https://" ++ inAuthority "[::1]" ++ "/" = "https://[::1]/" := by
      rw [inAuthority, if_neg (by decide)]
      exact String.toList_inj.mp (by simp)
    rw [hauthority]
    exact parse_loopbackUrl
  exact (DomainScopePolicy.classify_blocked_iff plainUrlCrate_hostLaws
    (validate_loopbackScope (Or.inl rfl)) (List.mem_singleton.mpr rfl) hhost).mpr
      ⟨⟨isCrawlUrl_loopbackUrl, by simp⟩, Or.inl (by decide)⟩

/-- Without them the rule is accepted as well, and the address is let in. -/
theorem loopback_inScope : (loopbackScope "::1").validate plainLibraries = .ok () ∧
    .exact "::1" ∈ onlyHost "::1" ∧ plainUrlCrate.HostIs loopbackUrl "::1" ∧
    (loopbackScope "::1").classify plainLibraries (fun _ => none) loopbackUrl [] =
      .ok (.inScope "[::1]" .customAllow) := by
  have hvalid : (loopbackScope "::1").validate plainLibraries = .ok () :=
    validate_loopbackScope (Or.inr rfl)
  have htarget : targetHost plainLibraries loopbackUrl = .ok "[::1]" :=
    targetHost_eq_ok.mpr ⟨isCrawlUrl_loopbackUrl, "[::1]", hostStr_loopbackUrl, by decide⟩
  refine ⟨hvalid, List.mem_singleton.mpr rfl, hostIs_loopbackUrl, ?_⟩
  exact (classify_custom_eq_ok hvalid).mpr ⟨by simp, "[::1]", htarget, by decide⟩

end Erabi.Authoring

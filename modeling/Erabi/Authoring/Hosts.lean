/-
# Hosts

Literals of hosts, and how they are written in a URL: an IPv6 address stands in
brackets there, every other host as it is.
-/
import Mathlib
import Erabi.Authoring.Policy
import Erabi.Authoring.UrlLaws

namespace Erabi.Authoring

/-! ## Readers of addresses -/

section Readers

variable {p q : Char → Bool} {read next : List Char → Option (List Char)}

/-- What the reader takes away are characters with the property. -/
def Consumes (p : Char → Bool) (read : List Char → Option (List Char)) : Prop :=
  ∀ s rest, read s = some rest → ∃ used, s = used ++ rest ∧ ∀ c ∈ used, p c = true

/-- What reads some characters reads a larger class. -/
theorem Consumes.mono (h : Consumes p read) (hpq : ∀ c, p c = true → q c = true) :
    Consumes q read := by
  intro s rest hread
  obtain ⟨used, hs, hused⟩ := h s rest hread
  exact ⟨used, hs, fun c hc => hpq c (hused c hc)⟩

/-- A reader followed by another. -/
theorem Consumes.bind (h : Consumes p read) (hnext : Consumes p next) :
    Consumes p fun s => (read s).bind next := by
  intro s rest hread
  obtain ⟨between, hfirst, hsecond⟩ := Option.bind_eq_some_iff.mp hread
  obtain ⟨used, rfl, hused⟩ := h s between hfirst
  obtain ⟨used', rfl, hused'⟩ := hnext between rest hsecond
  refine ⟨used ++ used', by simp, fun c hc => ?_⟩
  rcases List.mem_append.mp hc with hc | hc
  · exact hused c hc
  · exact hused' c hc

/-- A text that is read to its end has such characters only. -/
theorem Consumes.all (h : Consumes p read) {s : List Char} (hs : read s = some []) :
    ∀ c ∈ s, p c = true := by
  obtain ⟨used, hused, hall⟩ := h s [] hs
  rw [hused, List.append_nil]
  exact hall

/-- Reading a given character of the class. -/
theorem consumes_readGiven {c : Char} (h : p c = true) : Consumes p (readGiven c) := by
  intro s rest hread
  rw [readGiven] at hread
  split at hread
  · rename_i hhead
    obtain ⟨tail, rfl⟩ := List.head?_eq_some_iff.mp hhead
    cases hread
    exact ⟨[c], rfl, by simpa using h⟩
  · cases hread

/-- Takes the longest start of characters with the property away. -/
theorem eq_takeWhile_append_drop (s : List Char) :
    s = s.takeWhile p ++ s.drop (s.takeWhile p).length := by
  induction s with
  | nil => rfl
  | cons c s ih =>
    by_cases hc : p c = true
    · rw [List.takeWhile_cons_of_pos hc, List.length_cons, List.drop_succ_cons, List.cons_append,
        ← ih]
    · rw [List.takeWhile_cons_of_neg hc]
      rfl

/-- The characters taken are in the class. -/
theorem mem_takeWhile {s : List Char} {c : Char} (h : c ∈ s.takeWhile p) : p c = true :=
  List.all_eq_true.mp List.all_takeWhile c h

end Readers

/-- The characters of an IPv4 address. -/
def inIpv4 (c : Char) : Bool := c.isDigit || c = '.'

/-- The characters of an IPv6 address. -/
def inIpv6 (c : Char) : Bool := isHexDigit c || c = ':' || c = '.'

theorem consumes_readOctet : Consumes inIpv4 readOctet := by
  intro s rest hread
  rw [readOctet] at hread
  split at hread
  · cases hread
    refine ⟨_, eq_takeWhile_append_drop s, fun c hc => ?_⟩
    simp [inIpv4, mem_takeWhile hc]
  · cases hread

/-- An IPv4 address reads its own characters. -/
theorem consumes_readIpv4Addr : Consumes inIpv4 readIpv4Addr := by
  have hdot : Consumes inIpv4 (readGiven '.') := consumes_readGiven (by decide)
  have hmore : Consumes inIpv4 fun s => (readGiven '.' s).bind readOctet :=
    hdot.bind consumes_readOctet
  exact consumes_readOctet.bind
    (hdot.bind (consumes_readOctet.bind (hdot.bind (consumes_readOctet.bind hmore))))

/-- The characters of IPv4 addresses occur in IPv6 addresses. -/
theorem inIpv6_of_inIpv4 (c : Char) (h : inIpv4 c = true) : inIpv6 c = true := by
  simp only [inIpv4, Bool.or_eq_true] at h
  rcases h with h | h
  · simp [inIpv6, isHexDigit, Snapshot.isAsciiHexdigit, h]
  · simp [inIpv6, h]

theorem consumes_readGroup : Consumes inIpv6 readGroup := by
  intro s rest hread
  rw [readGroup] at hread
  split at hread
  · cases hread
    refine ⟨_, eq_takeWhile_append_drop s, fun c hc => ?_⟩
    simp [inIpv6, mem_takeWhile hc]
  · cases hread

theorem consumes_readSeparator {read : List Char → Option (List Char)} (h : Consumes inIpv6 read)
    (index : ℕ) : Consumes inIpv6 (readSeparator index read) := by
  intro s rest hread
  rw [readSeparator] at hread
  split at hread
  · exact h s rest hread
  · exact (consumes_readGiven (by decide)).bind h s rest hread

/-- The groups are of the characters of an address. -/
theorem consumes_readGroups (limit index left : ℕ) :
    Consumes inIpv6 fun s => some (readGroups limit index left s).2.2 := by
  induction left generalizing index with
  | zero =>
    intro s rest hread
    cases hread
    exact ⟨[], rfl, by simp⟩
  | succ left ih =>
    intro s rest hread
    simp only [readGroups, Option.some.injEq] at hread
    split at hread
    · rename_i rest' hipv4
      split at hipv4
      · cases hread
        exact consumes_readSeparator (consumes_readIpv4Addr.mono inIpv6_of_inIpv4) index s rest'
          hipv4
      · cases hipv4
    · split at hread
      · rename_i rest' hgroup
        have hboth := (consumes_readSeparator consumes_readGroup index).bind (ih (index + 1))
        exact hboth s rest (by simp [hgroup, hread])
      · cases hread
        exact ⟨[], rfl, by simp⟩

/-- An IPv6 address reads its own characters. -/
theorem consumes_readIpv6Addr : Consumes inIpv6 readIpv6Addr := by
  intro s rest hread
  have hcolon : Consumes inIpv6 (readGiven ':') := consumes_readGiven (by decide)
  simp only [readIpv6Addr] at hread
  split at hread
  · exact consumes_readGroups 8 0 8 s rest hread
  · split at hread
    · cases hread
    · have hall := (consumes_readGroups 8 0 8).bind (hcolon.bind (hcolon.bind (consumes_readGroups
        (8 - ((readGroups 8 0 8 s).1 + 1)) 0 (8 - ((readGroups 8 0 8 s).1 + 1)))))
      exact hall s rest hread

/-! ## Hosts in URLs -/

/-- The literal is an IPv6 address, without brackets. -/
def isIpv6Addr (host : String) : Bool := readIpv6Addr host.toList = some []

/-- The host as it is written in a URL. -/
def inAuthority (host : String) : String :=
  if isIpv6Addr host then "[" ++ host ++ "]" else host

/-- The host of the URL is the one of the literal: the host of `https://host/`. -/
def UrlCrate.HostIs (crate : UrlCrate) (u : Url) (host : String) : Prop :=
  ∃ v, crate.parse ("https://" ++ inAuthority host ++ "/") = some v ∧
    crate.hostStr u = crate.hostStr v

/-- What the library makes of addresses: an IPv4 address is written as it is, an IPv6
address in brackets. -/
structure HostLaws (crate : UrlCrate) : Prop where
  ipv4 {host : String} {u : Url} : readIpv4Addr host.toList = some [] →
    crate.parse ("https://" ++ host ++ "/") = some u → crate.hostStr u = some host
  ipv6 {host : String} {u : Url} : isIpv6Addr host = true →
    crate.parse ("https://[" ++ host ++ "]/") = some u →
      ∃ address, crate.hostStr u = some ("[" ++ address ++ "]")

/-- An address in brackets is no address. -/
theorem isIpv6Addr_bracket (s : String) : isIpv6Addr ("[" ++ s) = false := by
  rw [isIpv6Addr, decide_eq_false_iff_not]
  intro hread
  have hbracket := consumes_readIpv6Addr.all hread '[' (by simp)
  exact absurd hbracket (by decide)

/-! ### Hosts of plain URLs -/

section Plain

variable {authority : List Char}

/-- A text without characters that end an authority is the authority. -/
theorem plainParts_https (h : ∀ c ∈ authority, endsAuthority c = false) :
    plainParts ("https://".toList ++ (authority ++ ['/'])) =
      ⟨"https".toList, authority, ['/'], none, none⟩ := by
  have hscheme : splitOnce "://".toList ("https://".toList ++ (authority ++ ['/'])) =
      some ("https".toList, authority ++ ['/']) := by simp [splitOnce]
  have hhash : splitOnce ['#'] (authority ++ ['/']) = none := by
    apply splitOnce_eq_none
    simp only [List.mem_append, List.mem_singleton, not_or]
    exact ⟨fun hmem => absurd (h _ hmem) (by decide), by decide⟩
  have hquery : splitOnce ['?'] (authority ++ ['/']) = none := by
    apply splitOnce_eq_none
    simp only [List.mem_append, List.mem_singleton, not_or]
    exact ⟨fun hmem => absurd (h _ hmem) (by decide), by decide⟩
  have hslash : ∀ c ∈ authority, decide (c ≠ '/') = true := by
    intro c hc
    rw [decide_eq_true_eq]
    rintro rfl
    exact absurd (h _ hc) (by decide)
  rw [plainParts, hscheme]
  simp only [Option.getD_some, hhash, hquery]
  rw [List.takeWhile_append_of_pos hslash, List.dropWhile_append_of_pos hslash]
  simp

/-- The host of a plain URL is the host of the authority it was made with. -/
theorem hostStr_plain (h : ∀ c ∈ authority, endsAuthority c = false) {s : String} {u : Url}
    (hs : s.toList = "https://".toList ++ (authority ++ ['/']))
    (hu : plainUrlCrate.parse s = some u) : plainUrlCrate.hostStr u =
      some (String.ofList (PlainParts.hostPort ⟨[], authority, [], none, none⟩).1) := by
  simp only [plainUrlCrate, hs, plainParts_https h] at hu
  split at hu
  · rw [plainUrl] at hu
    split at hu
    · cases hu
      have htext : (PlainParts.text ⟨"https".toList, authority, ['/'], none, none⟩).toList =
          "https://".toList ++ (authority ++ ['/']) := by simp [PlainParts.text]
      simp only [plainUrlCrate, Url.plain, htext, plainParts_https h]
      rfl
    · cases hu
  · cases hu

end Plain

/-- No character of an address ends an authority. -/
theorem endsAuthority_of_inIpv6 {c : Char} (h : inIpv6 c = true) : endsAuthority c = false := by
  have hne : ∀ d : Char, inIpv6 d = false → c ≠ d := by
    rintro d hd rfl
    rw [h] at hd
    cases hd
  simp [endsAuthority, hne '/' (by decide), hne '?' (by decide), hne '#' (by decide)]

/-- A URL of an IPv6 address has the address in brackets as its host. -/
theorem hostStr_plain_ipv6 {host : String} {u : Url} (hread : isIpv6Addr host = true)
    (hu : plainUrlCrate.parse ("https://[" ++ host ++ "]/") = some u) :
    plainUrlCrate.hostStr u = some ("[" ++ host ++ "]") := by
  have hchars : ∀ c ∈ host.toList, inIpv6 c = true :=
    consumes_readIpv6Addr.all (by simpa [isIpv6Addr] using hread)
  have hs : ("https://[" ++ host ++ "]/").toList =
      "https://".toList ++ (('[' :: host.toList ++ [']']) ++ ['/']) := by simp
  have hends : ∀ c ∈ '[' :: host.toList ++ [']'], endsAuthority c = false := by
    simp only [List.cons_append, List.forall_mem_cons, List.forall_mem_append]
    exact ⟨by decide, fun c hc => endsAuthority_of_inIpv6 (hchars c hc), by decide, by simp⟩
  have hbracket : ']' ∉ '[' :: host.toList := by
    simp only [List.mem_cons, not_or]
    exact ⟨by decide, fun hmem => absurd (hchars _ hmem) (by decide)⟩
  rw [hostStr_plain hends hs hu, PlainParts.hostPort, splitOnce_append hbracket]
  exact congrArg some (String.toList_inj.mp (by simp))

/-- The laws hold of plain URLs. -/
theorem plainUrlCrate_hostLaws : HostLaws plainUrlCrate where
  ipv4 {host u} hread hu := by
    have hchars : ∀ c ∈ host.toList, inIpv4 c = true := consumes_readIpv4Addr.all hread
    have hs : ("https://" ++ host ++ "/").toList =
        "https://".toList ++ (host.toList ++ ['/']) := by simp
    have hends : ∀ c ∈ host.toList, endsAuthority c = false := fun c hc =>
      endsAuthority_of_inIpv6 (inIpv6_of_inIpv4 c (hchars c hc))
    have hbracket : ']' ∉ host.toList := fun hmem => absurd (hchars _ hmem) (by decide)
    have hcolon : ':' ∉ host.toList := fun hmem => absurd (hchars _ hmem) (by decide)
    rw [hostStr_plain hends hs hu, PlainParts.hostPort, splitOnce_eq_none hbracket,
      rsplitOnce_eq_none hcolon]
    exact congrArg some String.ofList_toList
  ipv6 hread hu := ⟨_, hostStr_plain_ipv6 hread hu⟩

end Erabi.Authoring

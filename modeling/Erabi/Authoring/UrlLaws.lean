/-
# Laws of URLs

What canonicalization relies on of the URL library, for the HTTP URLs the library
makes: their serialization is read back, it consists of the parts the getters return,
and a setter changes the part it names.  The texts of such URLs are taken apart the
same way by the functions that look at the original text.
-/
import Mathlib
import Erabi.Authoring.Canonicalization

namespace Erabi.Authoring

/-! ## Splitting -/

section Splitting

variable {c : Char} {s before rest : List Char}

/-- What comes behind the last occurrence has none. -/
theorem rsplitOnce_append (h : c ∉ rest) :
    rsplitOnce c (before ++ c :: rest) = some (before, rest) := by
  have hreverse : (before ++ c :: rest).reverse = rest.reverse ++ c :: before.reverse := by simp
  rw [rsplitOnce, hreverse, splitOnce_append (by simpa using h)]
  simp

/-- A text without the character is not split. -/
theorem rsplitOnce_eq_none (h : c ∉ s) : rsplitOnce c s = none := by
  rw [rsplitOnce, splitOnce_eq_none (by simpa using h)]
  rfl

end Splitting

/-! ## Numbers -/

/-- A number below the bound is read from its digits. -/
theorem parseDigits_toDigits {p bound : ℕ} (hp : p < bound) :
    parseDigits bound (Nat.toDigits 10 p) = some p := by
  have hdigits : (Nat.toDigits 10 p).all Char.isDigit = true :=
    List.all_eq_true.mpr fun _ hc => Nat.isDigit_of_mem_toDigits (by omega) (by omega) hc
  have hvalue : (Nat.toDigits 10 p).foldl (fun n c => 10 * n + (c.toNat - '0'.toNat)) 0 = p := by
    rw [← Nat.ofDigitChars_eq_foldl, Nat.ofDigitChars_ten_toDigits]
  rw [parseDigits, if_pos ⟨Nat.toDigits_ne_nil, hdigits⟩]
  simp only [hvalue, if_pos hp]

/-- A port is read from its digits. -/
theorem parseU16_toDigits {p : ℕ} (hp : p < 65536) : parseU16 (Nat.toDigits 10 p) = some p := by
  unfold parseU16
  split
  · rename_i digits hplus
    have hdigit : '+'.isDigit = true :=
      Nat.isDigit_of_mem_toDigits (b := 10) (n := p) (by omega) (by omega) (by rw [hplus]; simp)
    exact absurd hdigit (by decide)
  · exact parseDigits_toDigits hp

/-! ## The parts of a URL -/

/-- The parts of an HTTP URL without user information. -/
@[ext]
structure UrlParts where
  scheme : String
  host : String
  port : Option ℕ
  path : String
  query : Option String
  fragment : Option String

namespace UrlParts

variable (parts : UrlParts)

/-- The host and the port as they are written. -/
def authority : List Char :=
  parts.host.toList ++ (parts.port.map fun port => ':' :: Nat.toDigits 10 port).getD []

/-- What follows the authority. -/
def behind : List Char :=
  parts.path.toList ++ (parts.query.map fun query => '?' :: query.toList).getD [] ++
    (parts.fragment.map fun fragment => '#' :: fragment.toList).getD []

/-- The URL as it is serialized. -/
def text : List Char :=
  parts.scheme.toList ++ ("://".toList ++ (parts.authority ++ parts.behind))

/-- The port a scheme has by default. -/
def defaultPort (scheme : String) : ℕ := if scheme = "http" then 80 else 443

/-- Parts as the library writes them: a host in small letters, with a colon or a bracket
only in an address in brackets; no default port; a path from the root. -/
structure Normal : Prop where
  scheme : parts.scheme = "http" ∨ parts.scheme = "https"
  small : toAsciiLowercase parts.host = parts.host
  delimiters : ∀ c ∈ parts.host.toList, endsAuthority c = false ∧ c ≠ '@'
  brackets : (':' ∉ parts.host.toList ∧ ']' ∉ parts.host.toList) ∨
    ∃ address, parts.host.toList = address ++ [']'] ∧ ']' ∉ address
  port : ∀ port ∈ parts.port, port < 65536 ∧ port ≠ defaultPort parts.scheme
  path : parts.path.toList.head? = some '/'

variable {parts}

/-- An authority has characters of its host, a colon, and digits. -/
theorem mem_authority {c : Char} (h : c ∈ parts.authority) :
    c ∈ parts.host.toList ∨ c = ':' ∨ c.isDigit = true := by
  rw [authority, List.mem_append] at h
  rcases h with h | h
  · exact Or.inl h
  · rcases hport : parts.port with _ | port
    · rw [hport] at h
      cases h
    · rw [hport, Option.map_some, Option.getD_some, List.mem_cons] at h
      rcases h with rfl | h
      · exact Or.inr (Or.inl rfl)
      · exact Or.inr (Or.inr (Nat.isDigit_of_mem_toDigits (by omega) (by omega) h))

/-- No digit ends an authority. -/
theorem not_endsAuthority_of_isDigit {c : Char} (h : c.isDigit = true) :
    endsAuthority c = false ∧ c ≠ '@' := by
  have hne : ∀ d : Char, d.isDigit = false → c ≠ d := by
    rintro d hd rfl
    rw [h] at hd
    cases hd
  refine ⟨?_, hne '@' (by decide)⟩
  simp [endsAuthority, hne '/' (by decide), hne '?' (by decide), hne '#' (by decide)]

/-- An authority in normal form neither ends early nor has user information. -/
theorem Normal.authority (hs : parts.Normal) {c : Char} (h : c ∈ parts.authority) :
    endsAuthority c = false ∧ c ≠ '@' := by
  rcases mem_authority h with h | rfl | h
  · exact hs.delimiters c h
  · decide
  · exact not_endsAuthority_of_isDigit h

/-- Behind the authority comes the path. -/
theorem Normal.behind (hs : parts.Normal) : ∃ rest, parts.behind = '/' :: rest := by
  obtain ⟨rest, hpath⟩ := List.head?_eq_some_iff.mp hs.path
  exact ⟨_, by rw [UrlParts.behind, hpath]; rfl⟩

/-- The authority is what the original text is asked for. -/
theorem Normal.originalAuthority_text (hs : parts.Normal) :
    originalAuthority parts.text = some parts.authority := by
  have hsplit : splitOnce "://".toList parts.text =
      some (parts.scheme.toList, parts.authority ++ parts.behind) := by
    rcases hs.scheme with hscheme | hscheme
    · rw [text, hscheme]
      simp [splitOnce]
    · rw [text, hscheme]
      simp [splitOnce]
  obtain ⟨rest, hbehind⟩ := hs.behind
  rw [originalAuthority, hsplit, Option.map_some, hbehind]
  have hends : endsAuthority '/' = true := by decide
  rw [List.takeWhile_append_of_pos fun c hc => by simp [(hs.authority hc).1],
    List.takeWhile_cons_of_neg (by simp [hends]), List.append_nil]

/-- A port has no colon. -/
theorem colon_not_mem_toDigits (n : ℕ) : ':' ∉ Nat.toDigits 10 n := fun h =>
  absurd (Nat.isDigit_of_mem_toDigits (by omega) (by omega) h) (by decide)

/-- A port has no bracket. -/
theorem bracket_not_mem_toDigits (n : ℕ) : ']' ∉ Nat.toDigits 10 n := fun h =>
  absurd (Nat.isDigit_of_mem_toDigits (by omega) (by omega) h) (by decide)

/-- The authority of a host without brackets ends at its last colon. -/
theorem authority_of_name (hcolon : ':' ∉ parts.host.toList) (hbracket : ']' ∉ parts.host.toList) :
    splitOnce [']'] parts.authority = none ∧
      (rsplitOnce ':' parts.authority).map Prod.snd = parts.port.map (Nat.toDigits 10) := by
  rw [UrlParts.authority]
  rcases parts.port with _ | port
  · simp only [Option.map_none, Option.getD_none, List.append_nil]
    exact ⟨splitOnce_eq_none hbracket, by rw [rsplitOnce_eq_none hcolon]; rfl⟩
  · simp only [Option.map_some, Option.getD_some]
    constructor
    · apply splitOnce_eq_none
      simp [hbracket, bracket_not_mem_toDigits]
    · rw [rsplitOnce_append (colon_not_mem_toDigits port)]
      rfl

/-- The authority of an address in brackets ends at the bracket. -/
theorem authority_of_address {address : List Char} (hhost : parts.host.toList = address ++ [']'])
    (hbracket : ']' ∉ address) : splitOnce [']'] parts.authority =
      some (address, (parts.port.map fun port => ':' :: Nat.toDigits 10 port).getD []) := by
  rw [UrlParts.authority, hhost, List.append_assoc]
  exact splitOnce_append hbracket

/-- The port in the text of a URL is never the default port. -/
theorem Normal.not_originalDefaultPort (hs : parts.Normal) :
    originalDefaultPort parts.text parts.scheme = false := by
  -- a URL that passed the earlier checks names no user
  have huser : withoutUserInfo parts.authority = parts.authority := by
    rw [withoutUserInfo, rsplitOnce_eq_none fun h => (hs.authority h).2 rfl]
    rfl
  have hport : (parts.port.map (Nat.toDigits 10)).bind parseU16 = parts.port := by
    rcases hparts : parts.port with _ | port
    · rfl
    · exact parseU16_toDigits (hs.port port hparts).1
  have hne : ∀ port ∈ parts.port, port ≠ defaultPort parts.scheme :=
    fun port hmem => (hs.port port hmem).2
  rw [originalDefaultPort, hs.originalAuthority_text]
  dsimp only
  rw [huser]
  -- the port is found behind the last colon, or behind the bracket of an address
  rcases hs.brackets with ⟨hcolon, hbracket⟩ | ⟨address, hhost, hbracket⟩
  · obtain ⟨hnone, hdigits⟩ := authority_of_name hcolon hbracket
    rw [hnone]
    dsimp only
    rw [hdigits, hport]
    split
    · rename_i hscheme hmem
      exact absurd rfl (hscheme ▸ hne 80 hmem)
    · rename_i hscheme hmem
      exact absurd rfl (hscheme ▸ hne 443 hmem)
    · rfl
  · rw [authority_of_address hhost hbracket]
    dsimp only
    have hsuffix : (if (List.head? ((parts.port.map fun port =>
        ':' :: Nat.toDigits 10 port).getD [])) = some ':' then
          some (List.tail ((parts.port.map fun port => ':' :: Nat.toDigits 10 port).getD []))
        else none) = parts.port.map (Nat.toDigits 10) := by
      rcases parts.port with _ | port
      · rfl
      · rfl
    rw [hsuffix, hport]
    split
    · rename_i hscheme hmem
      exact absurd rfl (hscheme ▸ hne 80 hmem)
    · rename_i hscheme hmem
      exact absurd rfl (hscheme ▸ hne 443 hmem)
    · rfl

end UrlParts

/-! ## Laws -/

section Laws

variable (crate : UrlCrate)

/-- The parts that the library reads of a URL. -/
def UrlCrate.parts (u : Url) : UrlParts where
  scheme := crate.scheme u
  host := (crate.hostStr u).getD ""
  port := crate.port u
  path := crate.path u
  query := crate.query u
  fragment := crate.fragment u

/-- A URL the library makes that canonicalization accepts. -/
structure UrlCrate.Target (u : Url) : Prop where
  made : crate.parse u.text = some u
  scheme : crate.scheme u = "http" ∨ crate.scheme u = "https"
  host : (crate.hostStr u).isSome
  user : crate.username u = "" ∧ crate.password u = none

/-- Texts joined as the pairs of a query. -/
def joinPairs (pieces : List (List Char)) : String :=
  "&".intercalate (pieces.map String.ofList)

/-- What the library does to the URLs of the web.  Pieces of a query need no encoding:
they are written into a query as they are. -/
structure UrlLaws : Prop where
  reparsed {s : String} {u : Url} : crate.parse s = some u → crate.parse u.text = some u
  text {u : Url} : crate.Target u → u.text.toList = (crate.parts u).text
  normal {u : Url} : crate.Target u → (crate.parts u).Normal
  setScheme {u : Url} : crate.Target u → crate.setScheme u (crate.scheme u) = some u
  setHost {u : Url} : crate.Target u → crate.setHost u (crate.hostStr u) = some u
  setPort {u : Url} : crate.Target u → ∃ v, crate.setPort u none = some v ∧
    crate.Target v ∧ crate.parts v = { crate.parts u with port := none }
  setFragment {u : Url} : crate.Target u → crate.Target (crate.setFragment u none) ∧
    crate.parts (crate.setFragment u none) = { crate.parts u with fragment := none }
  clearQuery {u : Url} : crate.Target u → crate.Target (crate.setQuery u none) ∧
    crate.parts (crate.setQuery u none) = { crate.parts u with query := none }
  setQuery {u : Url} {query : String} {pieces : List (List Char)} : crate.Target u →
    crate.query u = some query → pieces ≠ [] → pieces.Subperm (split '&' query) →
      crate.Target (crate.setQuery u (some (joinPairs pieces))) ∧
      crate.parts (crate.setQuery u (some (joinPairs pieces))) =
        { crate.parts u with query := some (joinPairs pieces) }

variable {crate}

/-- A URL is determined by its parts. -/
theorem UrlLaws.eq_of_parts (laws : UrlLaws crate) {u v : Url} (hu : crate.Target u)
    (hv : crate.Target v) (h : crate.parts u = crate.parts v) : u = v := by
  have htext : u.text.toList = v.text.toList := by rw [laws.text hu, laws.text hv, h]
  obtain ⟨text, _⟩ := u
  obtain ⟨text', _⟩ := v
  have htexts : text = text' := String.toList_inj.mp htext
  cases htexts
  rfl

/-- The URL of a crawl has a host. -/
theorem UrlCrate.Target.hostStr {u : Url} (hu : crate.Target u) :
    crate.hostStr u = some (crate.parts u).host := by
  obtain ⟨host, hhost⟩ := Option.isSome_iff_exists.mp hu.host
  rw [UrlCrate.parts, hhost]
  rfl

end Laws

/-! ## Pieces of a query -/

/-- No part contains the separator. -/
theorem not_mem_of_mem_splitOn {c : Char} {s part : List Char} (h : part ∈ s.splitOn c) :
    c ∉ part := by
  induction s generalizing part with
  | nil => simp_all
  | cons d s ih =>
    rw [List.splitOn_cons_eq_if_modifyHead] at h
    by_cases hd : d = c
    · rw [if_pos (by simpa using hd), List.mem_cons] at h
      rcases h with rfl | h
      · simp
      · exact ih h
    · rw [if_neg (by simpa using hd)] at h
      obtain ⟨first, rest, hs⟩ := List.exists_cons_of_ne_nil (List.splitOn_ne_nil c s)
      rw [hs, List.modifyHead_cons, List.mem_cons] at h
      rcases h with rfl | h
      · simp only [List.mem_cons, not_or]
        exact ⟨Ne.symm hd, ih (by simp [hs])⟩
      · exact ih (by simp [hs, h])

/-- A joined text has characters of its separator and of its pieces. -/
theorem mem_intercalate {c : Char} {sep : List Char} {pieces : List (List Char)}
    (h : c ∈ sep.intercalate pieces) : c ∈ sep ∨ ∃ piece ∈ pieces, c ∈ piece := by
  induction pieces with
  | nil => cases h
  | cons piece pieces ih =>
    by_cases hne : pieces = []
    · rw [hne, List.intercalate_singleton] at h
      exact Or.inr ⟨piece, by simp, h⟩
    · rw [List.intercalate_cons_of_ne_nil hne, List.mem_append, List.mem_append] at h
      rcases h with (h | h) | h
      · exact Or.inr ⟨piece, by simp, h⟩
      · exact Or.inl h
      · rcases ih h with h | ⟨piece', hpiece, h⟩
        · exact Or.inl h
        · exact Or.inr ⟨piece', by simp [hpiece], h⟩

/-- The pieces of a text have characters of it. -/
theorem mem_of_mem_splitOn {c d : Char} {s part : List Char} (hpart : part ∈ s.splitOn c)
    (hd : d ∈ part) : d ∈ s := by
  induction s generalizing part with
  | nil =>
    rw [List.splitOn_nil, List.mem_singleton] at hpart
    exact hpart ▸ hd
  | cons e s ih =>
    rw [List.splitOn_cons_eq_if_modifyHead] at hpart
    by_cases he : e = c
    · rw [if_pos (by simpa using he), List.mem_cons] at hpart
      rcases hpart with rfl | hpart
      · cases hd
      · exact List.mem_cons_of_mem e (ih hpart hd)
    · rw [if_neg (by simpa using he)] at hpart
      obtain ⟨first, rest, hs⟩ := List.exists_cons_of_ne_nil (List.splitOn_ne_nil c s)
      rw [hs, List.modifyHead_cons, List.mem_cons] at hpart
      rcases hpart with rfl | hpart
      · rcases List.mem_cons.mp hd with rfl | hd
        · exact List.mem_cons_self
        · exact List.mem_cons_of_mem e (ih (by simp [hs]) hd)
      · exact List.mem_cons_of_mem e (ih (by simp [hs, hpart]) hd)

/-- Pairs are joined by ampersands. -/
theorem toList_joinPairs (pieces : List (List Char)) :
    (joinPairs pieces).toList = ['&'].intercalate pieces := by
  have htexts : (pieces.map String.ofList).map String.toList = pieces := by
    rw [List.map_map]
    exact (List.map_congr_left fun piece _ => String.toList_ofList).trans (List.map_id pieces)
  rw [joinPairs, String.toList_intercalate, htexts]
  rfl

/-- Joined texts are taken apart again. -/
theorem split_joinPairs {pieces : List (List Char)} (hne : pieces ≠ [])
    (h : ∀ piece ∈ pieces, '&' ∉ piece) : split '&' (joinPairs pieces) = pieces := by
  rw [split, toList_joinPairs]
  exact List.splitOn_intercalate '&' h hne

/-! ## A library of one site

The laws hold of the URLs of a site: its pages have the root path, the port 8080 or
none, and queries of characters that are written as they are. -/

/-- A character that needs no encoding in a query. -/
def inQuery (c : Char) : Bool :=
  0x21 ≤ c.toNat && c.toNat ≤ 0x7E && c ∉ ['"', '#', '<', '>', '\'']

/-- A page of a site with one host, on one of its two ports. -/
structure SitePage where
  alternate : Bool
  query : Option (List Char)
  written : ∀ c ∈ query.getD [], inQuery c = true
  deriving DecidableEq

namespace SitePage

/-- A missing query has no characters. -/
theorem written_none : ∀ c ∈ (none : Option (List Char)).getD [], inQuery c = true := by simp

/-- What is behind the start of a text. -/
def strip (start s : List Char) : Option (List Char) :=
  if start.isPrefixOf s then some (s.drop start.length) else none

/-- Reads what follows the path. -/
def readQuery (alternate : Bool) : List Char → Option SitePage
  | [] => some ⟨alternate, none, written_none⟩
  | '?' :: query =>
      if h : ∀ c ∈ query, inQuery c = true then some ⟨alternate, some query, h⟩ else none
  | _ => none

/-- Reads what follows the host.  The path may be missing. -/
def readPort (s : List Char) : Option SitePage :=
  let alternate := (strip ":8080".toList s).isSome
  let s := (strip ":8080".toList s).getD s
  readQuery alternate ((strip ['/'] s).getD s)

/-- Reads a text of a page.  There may be one slash in front of the host. -/
def read (s : List Char) : Option SitePage := do
  let s ← strip "http:/".toList s
  let s ← strip ['a'] ((strip ['/'] s).getD s)
  readPort s

/-- The page's URL as it is serialized. -/
def text (page : SitePage) : List Char :=
  "http:/".toList ++ (['/'] ++ (['a'] ++ ((if page.alternate then ":8080".toList else []) ++
    (['/'] ++ (page.query.map ('?' :: ·)).getD []))))

/-- A query has no control characters. -/
theorem isControl_of_inQuery {c : Char} (h : inQuery c = true) : isControl c = false := by
  simp only [inQuery, Bool.and_eq_true, decide_eq_true_eq] at h
  simp only [isControl, Bool.or_eq_false_iff, Bool.and_eq_false_iff, decide_eq_false_iff_not]
  omega

theorem isControl_of_mem_text (page : SitePage) :
    ∀ c ∈ page.text, isControl c = false := by
  obtain ⟨alternate, query, written⟩ := page
  have hport : ∀ c ∈ (if alternate then ":8080".toList else []), isControl c = false := by
    cases alternate
    · simp
    · simp [isControl]
  have hquery : ∀ c ∈ (query.map ('?' :: ·)).getD [], isControl c = false := by
    rcases query with _ | query
    · simp
    · rw [Option.map_some, Option.getD_some, List.forall_mem_cons]
      exact ⟨by simp [isControl], fun c hc => isControl_of_inQuery (written c hc)⟩
  simp only [text, List.forall_mem_append]
  exact ⟨by simp [isControl], by simp [isControl], by simp [isControl], hport,
    by simp [isControl], hquery⟩

/-- The start is taken away. -/
theorem strip_append (start s : List Char) : strip start (start ++ s) = some s := by
  rw [strip, if_pos (by simp), List.drop_left]

/-- The host is no slash. -/
theorem strip_slash_host (s : List Char) : strip ['/'] (['a'] ++ s) = none := by
  simp [strip]

/-- The other port is read. -/
theorem readPort_alternate (s : List Char) :
    readPort (":8080".toList ++ (['/'] ++ s)) = readQuery true s := by
  rw [readPort, strip_append]
  simp only [Option.isSome_some, Option.getD_some, strip_append]

/-- No port is read. -/
theorem readPort_plain (s : List Char) : readPort (['/'] ++ s) = readQuery false s := by
  have hport : strip ":8080".toList (['/'] ++ s) = none := by simp [strip]
  rw [readPort, hport]
  simp only [Option.isSome_none, Option.getD_none, strip_append, Option.getD_some]

/-- A URL with two slashes is read. -/
theorem read_twoSlashes (s : List Char) :
    read ("http:/".toList ++ (['/'] ++ (['a'] ++ s))) = readPort s := by
  rw [read, strip_append]
  simp only [Option.bind_eq_bind, Option.bind_some, strip_append, Option.getD_some]

theorem read_oneSlash (s : List Char) : read ("http:/".toList ++ (['a'] ++ s)) = readPort s := by
  rw [read, strip_append]
  simp only [Option.bind_eq_bind, Option.bind_some, strip_slash_host, Option.getD_none,
    strip_append]

/-- The text of a page is read back. -/
theorem read_text (page : SitePage) : read page.text = some page := by
  obtain ⟨alternate, query, written⟩ := page
  have hquery : readQuery alternate ((query.map ('?' :: ·)).getD []) =
      some ⟨alternate, query, written⟩ := by
    rcases query with _ | query
    · rfl
    · have hwritten : ∀ c ∈ query, inQuery c = true := written
      simp only [Option.map_some, Option.getD_some, readQuery, dif_pos hwritten]
  refine (read_twoSlashes _).trans ?_
  cases alternate
  · exact (readPort_plain _).trans hquery
  · exact (readPort_alternate _).trans hquery

/-- The URL of a page. -/
def url (page : SitePage) : Url :=
  ⟨String.ofList page.text, fun c hc => page.isControl_of_mem_text c (by simpa using hc)⟩

/-- The page a URL is of. -/
def ofUrl (u : Url) : Option SitePage := read u.text.toList

/-- The page is read back from its URL. -/
@[simp] theorem ofUrl_url (page : SitePage) : ofUrl page.url = some page := by
  rw [ofUrl, url, String.toList_ofList, read_text]

/-- The page with another query, where it can be written. -/
def withQuery (page : SitePage) (query : Option String) : SitePage :=
  if h : ∀ c ∈ (query.map String.toList).getD [], inQuery c = true then
    { page with query := query.map String.toList, written := h } else page

end SitePage

/-- The URL library on the pages of the site. -/
def siteUrlCrate : UrlCrate where
  parse text := (SitePage.read text.toList).map SitePage.url
  scheme _ := "http"
  hostStr _ := some "a"
  username _ := ""
  password _ := none
  port u := (SitePage.ofUrl u).bind fun page => if page.alternate then some 8080 else none
  path _ := "/"
  query u := (SitePage.ofUrl u).bind fun page => page.query.map String.ofList
  fragment _ := none
  queryPairs u := keyValues (((SitePage.ofUrl u).bind SitePage.query).getD [])
  setScheme u scheme := if scheme = "http" then some u else none
  setHost u host := if host = some "a" then some u else none
  setPort u port := if port = none then
    (SitePage.ofUrl u).map fun page => SitePage.url { page with alternate := false } else none
  setPath u _ := u
  setQuery u query := ((SitePage.ofUrl u).map fun page => (page.withQuery query).url).getD u
  setFragment u _ := u
  appendPair u key value := ((SitePage.ofUrl u).map fun page => (page.withQuery
    (some (String.ofList ((page.query.map (· ++ ['&'])).getD [] ++
      key.toList ++ '=' :: value.toList)))).url).getD u
  formUrlencoded := keyValues

/-- The libraries on the pages of the site. -/
def siteLibraries : Libraries := { plainLibraries with url := siteUrlCrate }

namespace SitePage

/-- Every URL of a crawl on the site is the URL of a page. -/
theorem of_target {u : Url} (hu : siteUrlCrate.Target u) : ∃ page : SitePage, u = page.url := by
  obtain ⟨page, _, hpage⟩ := Option.map_eq_some_iff.mp hu.made
  exact ⟨page, hpage.symm⟩

/-- The URL of a page is one of a crawl. -/
theorem target_url (page : SitePage) : siteUrlCrate.Target page.url where
  made := by
    show (read (String.ofList page.text).toList).map url = _
    rw [String.toList_ofList, read_text]
    rfl
  scheme := Or.inl rfl
  host := rfl
  user := ⟨rfl, rfl⟩

/-- The parts of a page. -/
theorem parts_url (page : SitePage) : siteUrlCrate.parts page.url =
    ⟨"http", "a", if page.alternate then some 8080 else none, "/", page.query.map String.ofList,
      none⟩ := by
  simp [UrlCrate.parts, siteUrlCrate]

end SitePage

namespace SitePage

/-- It is serialized by its parts. -/
theorem text_url (page : SitePage) : page.url.text.toList = (siteUrlCrate.parts page.url).text := by
  rw [parts_url, url, String.toList_ofList]
  obtain ⟨alternate, query, written⟩ := page
  have hport : (':' :: Nat.toDigits 10 8080) = ":8080".toList := by
    simp [Nat.toDigits, Nat.toDigitsCore, Nat.digitChar]
  cases alternate
  · rcases query with _ | query
    · simp [text, UrlParts.text, UrlParts.authority, UrlParts.behind]
    · simp [text, UrlParts.text, UrlParts.authority, UrlParts.behind]
  · rcases query with _ | query
    · simp [text, UrlParts.text, UrlParts.authority, UrlParts.behind, hport]
    · simp [text, UrlParts.text, UrlParts.authority, UrlParts.behind, hport]

/-- Its parts are in normal form. -/
theorem normal_url (page : SitePage) : (siteUrlCrate.parts page.url).Normal := by
  rw [parts_url]
  have hsmall : toAsciiLowercase "a" = "a" := by decide
  refine ⟨Or.inl rfl, hsmall, by simp [endsAuthority], Or.inl (by simp), ?_, by simp⟩
  cases page.alternate
  · simp
  · simp [UrlParts.defaultPort]

/-- Setting the query changes no other part. -/
theorem withQuery_eq {page : SitePage} {query : Option String}
    (h : ∀ c ∈ (query.map String.toList).getD [], inQuery c = true) :
    siteUrlCrate.Target (siteUrlCrate.setQuery page.url query) ∧
      siteUrlCrate.parts (siteUrlCrate.setQuery page.url query) =
        { siteUrlCrate.parts page.url with query := query } := by
  have hset : siteUrlCrate.setQuery page.url query =
      SitePage.url { page with query := query.map String.toList, written := h } := by
    simp [siteUrlCrate, withQuery, dif_pos h]
  have hquery : (query.map String.toList).map String.ofList = query := by
    rcases query with _ | query
    · rfl
    · exact congrArg some String.ofList_toList
  rw [hset]
  refine ⟨target_url _, ?_⟩
  rw [parts_url, parts_url, hquery]

end SitePage

/-- The laws hold of the site. -/
theorem siteUrlCrate_laws : UrlLaws siteUrlCrate where
  reparsed h := by
    obtain ⟨page, _, rfl⟩ := Option.map_eq_some_iff.mp h
    exact (SitePage.target_url page).made
  text hu := by
    obtain ⟨page, rfl⟩ := SitePage.of_target hu
    exact page.text_url
  normal hu := by
    obtain ⟨page, rfl⟩ := SitePage.of_target hu
    exact page.normal_url
  setScheme _ := rfl
  setHost _ := rfl
  setPort hu := by
    obtain ⟨page, rfl⟩ := SitePage.of_target hu
    refine ⟨SitePage.url { page with alternate := false }, ?_, SitePage.target_url _, ?_⟩
    · simp [siteUrlCrate]
    · rw [SitePage.parts_url, SitePage.parts_url]
      rfl
  setFragment hu := by
    obtain ⟨page, rfl⟩ := SitePage.of_target hu
    refine ⟨SitePage.target_url page, ?_⟩
    show siteUrlCrate.parts page.url = _
    rw [SitePage.parts_url]
  clearQuery hu := by
    obtain ⟨page, rfl⟩ := SitePage.of_target hu
    exact SitePage.withQuery_eq (by simp)
  -- pieces of the old query hold only characters of the old query
  setQuery {u query pieces} hu hquery hne hsub := by
    obtain ⟨page, rfl⟩ := SitePage.of_target hu
    apply SitePage.withQuery_eq
    rw [Option.map_some, Option.getD_some, toList_joinPairs]
    intro c hc
    rcases mem_intercalate hc with hc | ⟨piece, hpiece, hc⟩
    · rw [List.mem_singleton.mp hc]
      decide
    · have hmem : c ∈ query.toList := mem_of_mem_splitOn (hsub.subset hpiece) hc
      obtain ⟨text, htext, hwritten⟩ : ∃ text, page.query = some text ∧
          String.ofList text = query := by
        simpa [siteUrlCrate] using hquery
      apply page.written
      rw [htext, Option.getD_some]
      simpa [← hwritten] using hmem

end Erabi.Authoring

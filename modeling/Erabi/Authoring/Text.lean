/-
# Texts, identifiers and URLs

Functions on texts that the version content is checked with, identifiers of
versions and their children, and the functions of the URL, regular-expression and
hash libraries.  Texts are lists of characters where they are taken apart.
-/
import Mathlib
import Erabi.Json.Uuid
import Erabi.Snapshot.Record
import Erabi.Snapshot.CanonicalHash

namespace Erabi.Authoring

open Snapshot (isWhitespace hexEncode hexByte)

/-! ## Characters and texts -/

/-- Control characters, of ASCII and of Latin-1. -/
def isControl (c : Char) : Bool := c.toNat < 0x20 || (0x7F ≤ c.toNat && c.toNat ≤ 0x9F)

/-- A text without control characters. -/
def Printable (s : String) : Prop := ∀ c ∈ s.toList, isControl c = false

/-- Some character is a control character. -/
def hasControl (s : String) : Bool := s.toList.any isControl

/-- Texts without control characters are the printable ones. -/
theorem hasControl_eq_false {s : String} : hasControl s = false ↔ Printable s := by
  simp [hasControl, Printable]

/-- The text has no character that is not trimmed. -/
def isBlank (s : String) : Bool := s.toList.all isWhitespace

/-- A text without the white space at its ends. -/
def trim (s : String) : String :=
  String.ofList ((s.toList.dropWhile isWhitespace).rdropWhile isWhitespace)

/-- A text with its ASCII letters in lower case. -/
def toAsciiLowercase (s : String) : String := String.ofList (s.toList.map Char.toLower)

/-- Equality up to the case of ASCII letters. -/
def eqIgnoreAsciiCase (s t : String) : Bool := toAsciiLowercase s = toAsciiLowercase t

/-- The parts between the separators. -/
def split (separator : Char) (s : String) : List (List Char) := s.toList.splitOn separator

/-- The text before and after the first occurrence of `sep`. -/
def splitOnce (sep : List Char) : List Char → Option (List Char × List Char)
  | [] => if sep = [] then some ([], []) else none
  | c :: cs =>
      if sep.isPrefixOf (c :: cs) then some ([], (c :: cs).drop sep.length)
      else (splitOnce sep cs).map fun parts => (c :: parts.1, parts.2)

/-- The first occurrence of a character splits there. -/
theorem splitOnce_append {c : Char} {before rest : List Char} (h : c ∉ before) :
    splitOnce [c] (before ++ c :: rest) = some (before, rest) := by
  induction before with
  | nil => simp [splitOnce]
  | cons d before ih =>
    simp only [List.mem_cons, not_or] at h
    simp [splitOnce, h.1, ih h.2]

/-- Without the character there is no split. -/
theorem splitOnce_eq_none {c : Char} {s : List Char} (h : c ∉ s) : splitOnce [c] s = none := by
  induction s with
  | nil => rfl
  | cons d s ih =>
    simp only [List.mem_cons, not_or] at h
    simp [splitOnce, h.1, ih h.2]

/-- The text before and after the last occurrence of `sep`. -/
def rsplitOnce (sep : Char) (s : List Char) : Option (List Char × List Char) :=
  (splitOnce [sep] s.reverse).map fun parts => (parts.2.reverse, parts.1.reverse)

/-- Replaces the occurrences of `old` from left to right.  The length of the text
bounds their number. -/
def replaceAll (old new : List Char) : ℕ → List Char → List Char
  | 0, s => s
  | fuel + 1, s =>
      match splitOnce old s with
      | some (before, rest) => before ++ (new ++ replaceAll old new fuel rest)
      | none => s

/-- The number that a text of digits stands for, `none` from `bound` on. -/
def parseDigits (bound : ℕ) (s : List Char) : Option ℕ :=
  if s ≠ [] ∧ s.all Char.isDigit then
    let value := s.foldl (fun n c => 10 * n + (c.toNat - '0'.toNat)) 0
    if value < bound then some value else none
  else none

/-- An unsigned 16-bit number, which may have a plus sign. -/
def parseU16 : List Char → Option ℕ
  | '+' :: digits => parseDigits 65536 digits
  | s => parseDigits 65536 s

/-! ## Addresses -/

/-- A number of an IPv4 address: at most three digits and no needless zero. -/
def readOctet (s : List Char) : Option (List Char) :=
  let digits := s.takeWhile Char.isDigit
  if digits.length ≤ 3 ∧ (digits.head? = some '0' → digits.length = 1) ∧
      (parseDigits 256 digits).isSome then some (s.drop digits.length) else none

/-- Reads one given character. -/
def readGiven (c : Char) (s : List Char) : Option (List Char) :=
  if s.head? = some c then some s.tail else none

/-- Reads an IPv4 address and returns what follows it. -/
def readIpv4Addr (s : List Char) : Option (List Char) := do
  let s ← readOctet s
  let s ← readOctet (← readGiven '.' s)
  let s ← readOctet (← readGiven '.' s)
  readOctet (← readGiven '.' s)

/-- A hexadecimal digit. -/
def isHexDigit (c : Char) : Bool := Snapshot.isAsciiHexdigit c

/-- Reads a group of an IPv6 address, at most four hexadecimal digits. -/
def readGroup (s : List Char) : Option (List Char) :=
  let digits := s.takeWhile isHexDigit
  if 1 ≤ digits.length ∧ digits.length ≤ 4 then some (s.drop digits.length) else none

/-- Reads with a colon in front unless it is the first group. -/
def readSeparator (index : ℕ) (read : List Char → Option (List Char)) (s : List Char) :
    Option (List Char) :=
  if index = 0 then read s else (readGiven ':' s).bind read

/-- Reads up to `limit` groups from the one at `index` on.  Two of them may be an IPv4
address, which ends the groups.  The result is the number of groups, whether they end
with an IPv4 address, and what follows them. -/
def readGroups (limit index : ℕ) : ℕ → List Char → ℕ × Bool × List Char
  | 0, s => (limit, false, s)
  | left + 1, s =>
      match if 1 ≤ left then readSeparator index readIpv4Addr s else none with
      | some rest => (index + 2, true, rest)
      | none =>
          match readSeparator index readGroup s with
          | some rest => readGroups limit (index + 1) left rest
          | none => (index, false, s)

/-- Reads an IPv6 address and returns what follows it. -/
def readIpv6Addr (s : List Char) : Option (List Char) :=
  let (head, headIpv4, rest) := readGroups 8 0 8 s
  if head = 8 then some rest
  else if headIpv4 then none
  else do
    let rest ← readGiven ':' rest
    let rest ← readGiven ':' rest
    let limit := 8 - (head + 1)
    pure (readGroups limit 0 limit rest).2.2

/-- The text is an IP address. -/
def isIpAddr (s : String) : Bool :=
  readIpv4Addr s.toList = some [] || readIpv6Addr s.toList = some []

/-! ## Identifiers -/

/-- An application-generated identifier, a UUID of version 7. -/
structure Id where
  uuid : Uuid
  version : uuid.digits[12]? = some 7
  deriving DecidableEq

namespace Id

/-- An identifier as text. -/
def text (id : Id) : String := id.uuid.hyphenated

/-- Identifiers are known by their text. -/
theorem text_injective : Function.Injective text := by
  intro a b h
  have huuid : a.uuid = b.uuid := by
    have hparse := Uuid.parse_hyphenated a.uuid
    rw [show a.uuid.hyphenated = b.uuid.hyphenated from h, Uuid.parse_hyphenated] at hparse
    exact (Option.some.inj hparse).symm
  obtain ⟨a, ha⟩ := a
  obtain ⟨b, hb⟩ := b
  cases huuid
  rfl

end Id

/-- The identifier with a number in its last digits. -/
def numberedId (n : ℕ) : Id where
  uuid := ⟨List.replicate 12 0 ++ 7 :: (List.replicate 15 0 ++
    [Fin.ofNat 16 (n / 4096), Fin.ofNat 16 (n / 256), Fin.ofNat 16 (n / 16), Fin.ofNat 16 n]), by simp⟩
  version := by simp

/-- Small numbers give distinct identifiers. -/
theorem numberedId_injOn {m n : ℕ} (hm : m < 4096) (hn : n < 4096)
    (h : numberedId m = numberedId n) : m = n := by
  have hdigits := congrArg (fun id => id.uuid.digits.drop 28) h
  simp only [numberedId, List.drop_append, List.drop_succ_cons, List.length_replicate,
    List.drop_replicate, Nat.reduceSub, List.replicate_zero, List.nil_append, List.drop_zero,
    List.cons.injEq, Fin.ofNat, Fin.mk.injEq, and_true] at hdigits
  omega

/-! ## Libraries -/

/-- A URL, by its serialization.  All that a URL may not contain is percent-encoded
in it, control characters among it. -/
structure Url where
  text : String
  printable : Printable text
  deriving DecidableEq

/-- What is used of the URL library. -/
structure UrlCrate where
  parse : String → Option Url
  scheme : Url → String
  hostStr : Url → Option String
  username : Url → String
  password : Url → Option String
  port : Url → Option ℕ
  path : Url → String
  query : Url → Option String
  fragment : Url → Option String
  queryPairs : Url → List (String × String)
  setScheme : Url → String → Option Url
  setHost : Url → Option String → Option Url
  setPort : Url → Option ℕ → Option Url
  setPath : Url → String → Url
  setQuery : Url → Option String → Url
  setFragment : Url → Option String → Url
  appendPair : Url → String → String → Url
  formUrlencoded : List Char → List (String × String)

/-- What is used of the regular-expression library. -/
structure RegexCrate where
  compiles : String → Bool
  isMatch : String → String → Bool
  escape : String → String

/-- The libraries that authoring relies on. -/
structure Libraries where
  url : UrlCrate
  regex : RegexCrate
  sha256 : ByteArray → Vector UInt8 32

/-! ## Plain URLs -/

instance (s : String) : Decidable (Printable s) :=
  inferInstanceAs (Decidable (∀ c ∈ s.toList, isControl c = false))

/-- The parts of `scheme://authority/path?query#fragment`, for URLs that are normal as
they are written. -/
structure PlainParts where
  scheme : List Char
  authority : List Char
  path : List Char
  query : Option (List Char)
  fragment : Option (List Char)

/-- A URL cut at its first separators. -/
def plainParts (text : List Char) : PlainParts :=
  let (scheme, rest) := (splitOnce "://".toList text).getD ([], text)
  let (rest, fragment) := match splitOnce ['#'] rest with
    | some (before, fragment) => (before, some fragment)
    | none => (rest, none)
  let (rest, query) := match splitOnce ['?'] rest with
    | some (before, query) => (before, some query)
    | none => (rest, none)
  ⟨scheme, rest.takeWhile (· ≠ '/'), rest.dropWhile (· ≠ '/'), query, fragment⟩

/-- The parts put together again. -/
def PlainParts.text (parts : PlainParts) : String :=
  String.ofList (parts.scheme ++ "://".toList ++ parts.authority ++ parts.path ++
    (parts.query.map ('?' :: ·)).getD [] ++ (parts.fragment.map ('#' :: ·)).getD [])

/-- The host of the authority, an IPv6 address with its brackets, and its port. -/
def PlainParts.hostPort (parts : PlainParts) : List Char × Option (List Char) :=
  match splitOnce [']'] parts.authority with
  | some (address, suffix) => (address ++ [']'], if suffix = [] then none else some suffix.tail)
  | none =>
      match rsplitOnce ':' parts.authority with
      | some (host, port) => (host, some port)
      | none => (parts.authority, none)

/-- The parts of a URL. -/
def Url.plain (u : Url) : PlainParts := plainParts u.text.toList

/-- The URL with other parts, where they can be written. -/
def plainUrl (parts : PlainParts) : Option Url :=
  if h : Printable parts.text then some ⟨parts.text, h⟩ else none

/-- A parameter cut at its first equality sign. -/
def keyValue (pair : List Char) : String × String :=
  match splitOnce ['='] pair with
  | some (key, value) => (String.ofList key, String.ofList value)
  | none => (String.ofList pair, "")

/-- The parameters of a query that are not empty. -/
def keyValues (query : List Char) : List (String × String) :=
  ((query.splitOn '&').filter (· ≠ [])).map keyValue

/-- The URL library on plain URLs. -/
def plainUrlCrate : UrlCrate where
  parse text :=
    let parts := plainParts text.toList
    if parts.scheme ≠ [] ∧ parts.authority ≠ [] ∧ parts.path ≠ [] then plainUrl parts else none
  scheme u := String.ofList u.plain.scheme
  hostStr u := some (String.ofList u.plain.hostPort.1)
  username _ := ""
  password _ := none
  port u := u.plain.hostPort.2.bind parseU16
  path u := String.ofList u.plain.path
  query u := u.plain.query.map String.ofList
  fragment u := u.plain.fragment.map String.ofList
  queryPairs u := keyValues (u.plain.query.getD [])
  setScheme u scheme := plainUrl { u.plain with scheme := scheme.toList }
  setHost u host := (host.bind fun host => plainUrl { u.plain with authority := host.toList })
  setPort u _ := plainUrl { u.plain with authority := u.plain.hostPort.1 }
  setPath u path := (plainUrl { u.plain with path := path.toList }).getD u
  setQuery u query := (plainUrl { u.plain with query := query.map String.toList }).getD u
  setFragment u fragment :=
    (plainUrl { u.plain with fragment := fragment.map String.toList }).getD u
  appendPair u key value := (plainUrl { u.plain with
    query := some ((u.plain.query.map (· ++ ['&'])).getD [] ++
      key.toList ++ '=' :: value.toList) }).getD u
  formUrlencoded := keyValues

/-- The libraries on plain URLs, without regular expressions and hashes. -/
def plainLibraries : Libraries where
  url := plainUrlCrate
  regex := ⟨fun _ => false, fun _ _ => false, id⟩
  sha256 := fun _ => Vector.replicate 32 0

end Erabi.Authoring

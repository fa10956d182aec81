/-
# The text of addresses

Addresses as the standard library writes and reads them.  An IPv4 address has one text; a
port and an IPv6 address can be written in several ways.
-/
import Mathlib
import Erabi.Authoring.UrlLaws
import Erabi.Network.Addresses

namespace Erabi.Network

open Authoring (parseDigits parseDigits_toDigits readOctet readGroup readGiven isHexDigit)

/-! ## Decimal numbers -/

/-- A digit is the character of a number below ten. -/
theorem exists_digitChar {c : Char} (h : c.isDigit = true) : ∃ d < 10, c = Nat.digitChar d := by
  have hbounds : 48 ≤ c.toNat ∧ c.toNat ≤ 57 := by
    simpa [Char.isDigit, UInt32.le_iff_toNat_le] using h
  refine ⟨c.toNat - 48, by omega, ?_⟩
  apply Char.toNat_inj.mp
  rw [Nat.toNat_digitChar_of_lt_ten (by omega)]
  omega

/-- Further digits continue a number that is not zero. -/
theorem toDigits_append_digits {n : ℕ} (hn : 0 < n) {digits : List Char}
    (hdigits : ∀ c ∈ digits, c.isDigit = true) :
    Nat.toDigits 10 n ++ digits = Nat.toDigits 10 (Nat.ofDigitChars 10 digits n) := by
  induction digits generalizing n with
  | nil => simp
  | cons c digits ih =>
    obtain ⟨hc, hrest⟩ := List.forall_mem_cons.mp hdigits
    obtain ⟨d, hd, rfl⟩ := exists_digitChar hc
    rw [Nat.ofDigitChars_cons_digitChar_of_lt_ten hd, ← ih (by omega) hrest,
      ← Nat.toDigits_append_toDigits (by decide) hn hd, Nat.toDigits_of_lt_base hd,
      List.append_assoc, List.singleton_append]

/-- Digits without a needless zero are those of their number. -/
theorem toDigits_ofDigitChars {digits : List Char} (hne : digits ≠ [])
    (hdigits : ∀ c ∈ digits, c.isDigit = true) (hzero : digits.head? = some '0' → digits.length = 1) :
    Nat.toDigits 10 (Nat.ofDigitChars 10 digits 0) = digits := by
  obtain ⟨c, rest, rfl⟩ := List.exists_cons_of_ne_nil hne
  obtain ⟨hc, hrest⟩ := List.forall_mem_cons.mp hdigits
  obtain ⟨d, hd, rfl⟩ := exists_digitChar hc
  rw [Nat.ofDigitChars_cons_digitChar_of_lt_ten hd, Nat.mul_zero, Nat.zero_add]
  rcases Nat.eq_zero_or_pos d with rfl | hpos
  · have hnil : rest = [] := by simpa using hzero rfl
    rw [hnil]
    rfl
  · rw [← toDigits_append_digits hpos hrest, Nat.toDigits_of_lt_base hd]
    rfl

/-- Decimal texts consist of digits. -/
theorem isDigit_toDigits (n : ℕ) : ∀ c ∈ Nat.toDigits 10 n, c.isDigit = true :=
  fun _ hc => Nat.isDigit_of_mem_toDigits (by omega) (by omega) hc

/-- The text does not go on with a digit. -/
def EndsDigits (rest : List Char) : Prop := ∀ c ∈ rest.head?, c.isDigit = false

/-- Digits are taken up to what follows them. -/
theorem takeWhile_digits {digits rest : List Char} (hdigits : ∀ c ∈ digits, c.isDigit = true)
    (hrest : EndsDigits rest) : (digits ++ rest).takeWhile Char.isDigit = digits := by
  rw [List.takeWhile_append_of_pos hdigits]
  rcases rest with _ | ⟨c, rest⟩
  · simp
  · have hc : c.isDigit = false := hrest c rfl
    rw [List.takeWhile_cons_of_neg (by simp [hc]), List.append_nil]

/-- Without a digit in front nothing is dropped. -/
theorem dropWhile_of_endsDigits {rest : List Char} (hrest : EndsDigits rest) :
    rest.dropWhile Char.isDigit = rest := by
  rcases rest with _ | ⟨c, rest⟩
  · rfl
  · have hc : c.isDigit = false := hrest c rfl
    exact List.dropWhile_cons_of_neg (by simp [hc])

/-- What is left begins with no digit. -/
theorem endsDigits_dropWhile (s : List Char) : EndsDigits (s.dropWhile Char.isDigit) := by
  intro c hc
  have hnot := List.head?_dropWhile_not Char.isDigit s
  rw [Option.mem_def.mp hc] at hnot
  simpa using hnot

/-! ## IPv4 addresses -/

/-- An IPv4 address as text. -/
def Ipv4Addr.display (a : Ipv4Addr) : List Char :=
  Nat.toDigits 10 a.first.toNat ++ '.' :: (Nat.toDigits 10 a.second.toNat ++
    '.' :: (Nat.toDigits 10 a.third.toNat ++ '.' :: Nat.toDigits 10 a.fourth.toNat))

/-- The number of an IPv4 address in front of the text, and what follows it. -/
def octet (s : List Char) : Option (UInt8 × List Char) := do
  let rest ← readOctet s
  let value ← parseDigits 256 (s.takeWhile Char.isDigit)
  pure (UInt8.ofNat value, rest)

/-- Reads an IPv4 address. -/
def readIpv4 (s : List Char) : Option (Ipv4Addr × List Char) := do
  let (first, s) ← octet s
  let (second, s) ← octet (← readGiven '.' s)
  let (third, s) ← octet (← readGiven '.' s)
  let (fourth, s) ← octet (← readGiven '.' s)
  pure (⟨first, second, third, fourth⟩, s)

/-- A given character is read from the front. -/
theorem readGiven_eq_some {c : Char} {s rest : List Char} :
    readGiven c s = some rest ↔ s = c :: rest := by
  rcases s with _ | ⟨d, s⟩
  · simp [readGiven]
  · simp only [readGiven, List.head?_cons, Option.some.injEq, List.tail_cons, List.cons.injEq]
    split
    · rename_i h
      simp [h]
    · rename_i h
      simp [h]

/-- Digits are read as a number below the bound. -/
theorem parseDigits_eq_some {bound n : ℕ} {s : List Char} : parseDigits bound s = some n ↔
    s ≠ [] ∧ (∀ c ∈ s, c.isDigit = true) ∧ n < bound ∧ Nat.ofDigitChars 10 s 0 = n := by
  simp only [parseDigits, ← Nat.ofDigitChars_eq_foldl, List.all_eq_true]
  by_cases hdigits : s ≠ [] ∧ ∀ c ∈ s, c.isDigit = true
  · rw [if_pos hdigits]
    by_cases hbound : Nat.ofDigitChars 10 s 0 < bound
    · rw [if_pos hbound, Option.some.injEq]
      exact ⟨fun h => ⟨hdigits.1, hdigits.2, h ▸ hbound, h⟩, fun h => h.2.2.2⟩
    · rw [if_neg hbound]
      exact ⟨fun h => (Option.some_ne_none _ h.symm).elim,
        fun h => absurd (h.2.2.2 ▸ h.2.2.1) hbound⟩
  · rw [if_neg hdigits]
    exact ⟨fun h => (Option.some_ne_none _ h.symm).elim, fun h => absurd ⟨h.1, h.2.1⟩ hdigits⟩

/-- Only zero is written with a zero in front. -/
theorem eq_zero_of_head_toDigits {n : ℕ} (h : (Nat.toDigits 10 n).head? = some '0') : n = 0 := by
  induction n using Nat.base_induction 10 (by decide) with
  | single m hm =>
    rw [Nat.toDigits_of_lt_base hm, List.head?_cons, Option.some.injEq] at h
    have hvalue := congrArg Char.toNat h
    rw [Nat.toNat_digitChar_of_lt_ten hm] at hvalue
    exact Nat.add_left_cancel hvalue
  | digit m k hk hm ih =>
    rw [← Nat.toDigits_append_toDigits (by decide) hm hk,
      List.head?_append_of_ne_nil _ Nat.toDigits_ne_nil] at h
    exact absurd (ih h) (by omega)

/-- When an octet is read. -/
theorem readOctet_eq_some {s rest : List Char} : readOctet s = some rest ↔
    s.dropWhile Char.isDigit = rest ∧ (s.takeWhile Char.isDigit).length ≤ 3 ∧
      ((s.takeWhile Char.isDigit).head? = some '0' → (s.takeWhile Char.isDigit).length = 1) ∧
      (parseDigits 256 (s.takeWhile Char.isDigit)).isSome := by
  have hdrop : s.drop (s.takeWhile Char.isDigit).length = s.dropWhile Char.isDigit :=
    calc s.drop (s.takeWhile Char.isDigit).length
      _ = (s.takeWhile Char.isDigit ++ s.dropWhile Char.isDigit).drop
            (s.takeWhile Char.isDigit).length := by rw [List.takeWhile_append_dropWhile]
      _ = s.dropWhile Char.isDigit := List.drop_left
  simp only [readOctet, hdrop]
  split
  · rename_i h
    rw [Option.some.injEq, and_iff_left h]
  · rename_i h
    exact ⟨fun hnone => (Option.some_ne_none _ hnone.symm).elim, fun hall => absurd hall.2 h⟩

/-- A number of an address has one text. -/
theorem octet_eq_some {s rest : List Char} {n : UInt8} : octet s = some (n, rest) ↔
    s = Nat.toDigits 10 n.toNat ++ rest ∧ EndsDigits rest := by
  simp only [octet, Option.bind_eq_bind, Option.bind_eq_some_iff, readOctet_eq_some,
    parseDigits_eq_some, Option.pure_def, Option.some.injEq, Prod.mk.injEq]
  constructor
  · rintro ⟨_, ⟨rfl, -, hzero, -⟩, value, ⟨hne, hdigits, hvalue, hof⟩, rfl, rfl⟩
    refine ⟨?_, endsDigits_dropWhile s⟩
    have hnat : (UInt8.ofNat value).toNat = value := UInt8.toNat_ofNat_of_lt' hvalue
    rw [hnat, ← hof, toDigits_ofDigitChars hne hdigits hzero, List.takeWhile_append_dropWhile]
  · rintro ⟨rfl, hends⟩
    have hdigits := isDigit_toDigits n.toNat
    have htake := takeWhile_digits hdigits hends
    have hlt : n.toNat < 256 := n.toNat_lt
    refine ⟨rest, ⟨?_, ?_, ?_, ?_⟩, n.toNat, ?_, UInt8.ofNat_toNat, rfl⟩
    · rw [List.dropWhile_append_of_pos hdigits]
      exact dropWhile_of_endsDigits hends
    · rw [htake, Nat.length_toDigits_le_iff (by decide) (by decide)]
      omega
    · rw [htake]
      intro hhead
      rw [eq_zero_of_head_toDigits hhead]
      rfl
    · rw [htake, parseDigits_toDigits hlt]
      rfl
    · rw [htake]
      exact ⟨Nat.toDigits_ne_nil, hdigits, hlt, Nat.ofDigitChars_ten_toDigits⟩

/-- An IPv4 address is read exactly from its text. -/
theorem readIpv4_eq_some {s rest : List Char} {a : Ipv4Addr} : readIpv4 s = some (a, rest) ↔
    s = a.display ++ rest ∧ EndsDigits rest := by
  have hdot : ∀ s : List Char, EndsDigits ('.' :: s) := by
    intro s c hc
    cases hc
    decide
  simp only [readIpv4, Option.bind_eq_bind, Option.bind_eq_some_iff, Prod.exists, octet_eq_some,
    readGiven_eq_some, Option.pure_def, Option.some.injEq, Prod.mk.injEq]
  constructor
  · rintro ⟨first, _, ⟨rfl, -⟩, _, rfl, second, _, ⟨rfl, -⟩, _, rfl, third, _, ⟨rfl, -⟩, _, rfl,
      fourth, _, ⟨rfl, hends⟩, rfl, rfl⟩
    exact ⟨by simp [Ipv4Addr.display], hends⟩
  · rintro ⟨rfl, hends⟩
    simp only [Ipv4Addr.display, List.append_assoc, List.cons_append]
    exact ⟨a.first, _, ⟨rfl, hdot _⟩, _, rfl, a.second, _, ⟨rfl, hdot _⟩, _, rfl, a.third, _,
      ⟨rfl, hdot _⟩, _, rfl, a.fourth, _, ⟨rfl, hends⟩, rfl, rfl⟩

/-- The characters of a displayed IPv4 address. -/
theorem mem_display {a : Ipv4Addr} {c : Char} (h : c ∈ a.display) : c.isDigit = true ∨ c = '.' := by
  simp only [Ipv4Addr.display, List.mem_append, List.mem_cons] at h
  rcases h with h | h | h | h | h | h | h
  · exact Or.inl (isDigit_toDigits _ c h)
  · exact Or.inr h
  · exact Or.inl (isDigit_toDigits _ c h)
  · exact Or.inr h
  · exact Or.inl (isDigit_toDigits _ c h)
  · exact Or.inr h
  · exact Or.inl (isDigit_toDigits _ c h)

/-! ## IPv6 addresses -/

/-- The segments of an IPv6 address. -/
def Ipv6Addr.segments (a : Ipv6Addr) : List UInt16 :=
  [a.s0, a.s1, a.s2, a.s3, a.s4, a.s5, a.s6, a.s7]

/-- The address of the segments; those that are missing are zero. -/
def Ipv6Addr.ofSegments (segments : List UInt16) : Ipv6Addr :=
  let segment (i : ℕ) : UInt16 := segments[i]?.getD 0
  ⟨segment 0, segment 1, segment 2, segment 3, segment 4, segment 5, segment 6, segment 7⟩

/-- A run of zero segments. -/
structure Span where
  start : ℕ
  len : ℕ
  deriving DecidableEq, Repr

/-- The first longest run of zeros, from the segment at `index` on. -/
def longestZeroes (index : ℕ) (longest current : Span) : List UInt16 → Span
  | [] => longest
  | segment :: rest =>
    if segment = 0 then
      let current : Span := ⟨if current.len = 0 then index else current.start, current.len + 1⟩
      longestZeroes (index + 1) (if longest.len < current.len then current else longest) current rest
    else longestZeroes (index + 1) longest ⟨0, 0⟩ rest

/-- Segments as text. -/
def hexSegments : List UInt16 → List Char
  | [] => []
  | first :: tail =>
    Nat.toDigits 16 first.toNat ++ tail.flatMap fun segment => ':' :: Nat.toDigits 16 segment.toNat

/-- The segments, with a double colon for the longest run of at least two zeros. -/
def Ipv6Addr.compressed (a : Ipv6Addr) : List Char :=
  let zeroes := longestZeroes 0 ⟨0, 0⟩ ⟨0, 0⟩ a.segments
  if 1 < zeroes.len then
    hexSegments (a.segments.take zeroes.start) ++ ':' :: ':' ::
      hexSegments (a.segments.drop (zeroes.start + zeroes.len))
  else hexSegments a.segments

/-- The two halves of the last segments. -/
def Ipv6Addr.lastOctets (a : Ipv6Addr) : Ipv4Addr :=
  ⟨(a.s6 / 256).toUInt8, a.s6.toUInt8, (a.s7 / 256).toUInt8, a.s7.toUInt8⟩

/-- The standard library writes the IPv4 address of a mapped address with dots. -/
def Ipv6Addr.display (a : Ipv6Addr) : List Char :=
  if a.s0 = 0 ∧ a.s1 = 0 ∧ a.s2 = 0 ∧ a.s3 = 0 ∧ a.s4 = 0 ∧ a.s5 = 0xffff then
    "::ffff:".toList ++ a.lastOctets.display
  else a.compressed

/-- No bracket in a hexadecimal text. -/
theorem bracket_not_mem_hex (n : ℕ) : '[' ∉ Nat.toDigits 16 n := by
  induction n using Nat.base_induction 16 (by decide) with
  | single m hm =>
    rw [Nat.toDigits_of_lt_base hm, List.mem_singleton]
    interval_cases m <;> decide
  | digit m k hk hm ih =>
    rw [← Nat.toDigits_append_toDigits (by decide) hm hk, List.mem_append, not_or,
      Nat.toDigits_of_lt_base hk, List.mem_singleton]
    refine ⟨ih, ?_⟩
    interval_cases k <;> decide

/-- No bracket in the text of segments. -/
theorem bracket_not_mem_hexSegments (segments : List UInt16) : '[' ∉ hexSegments segments := by
  rcases segments with _ | ⟨first, tail⟩
  · exact List.not_mem_nil
  · simp only [hexSegments, List.mem_append, List.mem_flatMap, List.mem_cons, not_or, not_exists,
      not_and]
    exact ⟨bracket_not_mem_hex _, fun segment _ => ⟨by decide, bracket_not_mem_hex _⟩⟩

theorem bracket_not_mem_display (a : Ipv6Addr) : '[' ∉ a.display := by
  unfold Ipv6Addr.display
  split
  · rw [List.mem_append, not_or]
    refine ⟨by decide, fun h => ?_⟩
    rcases mem_display h with h | h
    · exact absurd h (by decide)
    · exact absurd h (by decide)
  · simp only [Ipv6Addr.compressed]
    split
    · simp [bracket_not_mem_hexSegments]
    · exact bracket_not_mem_hexSegments _

/-- An IPv6 address is never without a colon. -/
theorem colon_mem_compressed (a : Ipv6Addr) : ':' ∈ a.compressed := by
  simp only [Ipv6Addr.compressed]
  split
  · simp
  · simp [Ipv6Addr.segments, hexSegments]

/-- An address as text. -/
def IpAddr.display : IpAddr → List Char
  | .v4 a => a.display
  | .v6 a => a.display

/-- The value of a hexadecimal digit. -/
def hexValue (c : Char) : ℕ :=
  if c.isDigit then c.toNat - '0'.toNat else c.toLower.toNat - 'a'.toNat + 10

/-- A segment in front of the text. -/
def segment (s : List Char) : Option (UInt16 × List Char) := do
  let rest ← readGroup s
  pure (UInt16.ofNat ((s.takeWhile isHexDigit).foldl (fun n c => 16 * n + hexValue c) 0), rest)

/-- Reads with a colon in front unless it is the first segment. -/
def separated {α : Type} (index : ℕ) (read : List Char → Option α) (s : List Char) : Option α :=
  if index = 0 then read s else (readGiven ':' s).bind read

/-- Reads up to `left` segments from the one at `index` on.  Two of them may be an IPv4
address, which ends the segments.  The result are the segments, whether they end with an
IPv4 address, and what follows them. -/
def readSegments (index : ℕ) : ℕ → List Char → List UInt16 × Bool × List Char
  | 0, s => ([], false, s)
  | left + 1, s =>
    match if 1 ≤ left then separated index readIpv4 s else none with
    | some (a, rest) =>
      ([a.first.toUInt16 * 256 + a.second.toUInt16, a.third.toUInt16 * 256 + a.fourth.toUInt16],
        true, rest)
    | none =>
      match separated index segment s with
      | some (value, rest) =>
        let (values, ipv4, rest) := readSegments (index + 1) left rest
        (value :: values, ipv4, rest)
      | none => ([], false, s)

/-- Reads an IPv6 address. -/
def readIpv6 (s : List Char) : Option (Ipv6Addr × List Char) :=
  let (head, headIpv4, rest) := readSegments 0 8 s
  if head.length = 8 then some (.ofSegments head, rest)
  else if headIpv4 then none
  else do
    let rest ← readGiven ':' rest
    let rest ← readGiven ':' rest
    let (tail, _, rest) := readSegments 0 (8 - (head.length + 1)) rest
    pure (.ofSegments (head ++ List.replicate (8 - (head.length + tail.length)) 0 ++ tail), rest)

/-! ## Socket addresses -/

/-- Reads a port. -/
def readPort (s : List Char) : Option (UInt16 × List Char) := do
  let s ← readGiven ':' s
  let value ← parseDigits 65536 (s.takeWhile Char.isDigit)
  pure (UInt16.ofNat value, s.dropWhile Char.isDigit)

/-- Reads an IPv4 address with its port. -/
def readSocketAddrV4 (s : List Char) : Option (SocketAddr × List Char) := do
  let (ip, s) ← readIpv4 s
  let (port, s) ← readPort s
  pure (⟨.v4 ip, port⟩, s)

/-- A scope after the address is read, and may be missing. -/
def skipScope (s : List Char) : List Char :=
  match (readGiven '%' s).bind fun s =>
    (parseDigits (2 ^ 32) (s.takeWhile Char.isDigit)).map fun _ => s.dropWhile Char.isDigit with
  | some rest => rest
  | none => s

/-- Reads a bracketed IPv6 address with its port. -/
def readSocketAddrV6 (s : List Char) : Option (SocketAddr × List Char) := do
  let s ← readGiven '[' s
  let (ip, s) ← readIpv6 s
  let s ← readGiven ']' (skipScope s)
  let (port, s) ← readPort s
  pure (⟨.v6 ip, port⟩, s)

/-- A whole text as an address with its port. -/
def parseSocketAddr (s : List Char) : Option SocketAddr :=
  ((readSocketAddrV4 s).or (readSocketAddrV6 s)).bind fun (address, rest) =>
    if rest = [] then some address else none

/-- What the digits of a port are worth. -/
theorem readPort_eq_some {s : List Char} {port : UInt16} : readPort s = some (port, []) ↔
    ∃ digits, s = ':' :: digits ∧ parseDigits 65536 digits = some port.toNat := by
  simp only [readPort, Option.bind_eq_bind, Option.bind_eq_some_iff, readGiven_eq_some,
    Option.pure_def, Option.some.injEq, Prod.mk.injEq]
  constructor
  · rintro ⟨digits, rfl, value, hvalue, rfl, hrest⟩
    have htake : digits.takeWhile Char.isDigit = digits := by
      have happend := List.takeWhile_append_dropWhile (p := Char.isDigit) (l := digits)
      rwa [hrest, List.append_nil] at happend
    rw [htake] at hvalue
    refine ⟨digits, rfl, ?_⟩
    rw [hvalue, UInt16.toNat_ofNat_of_lt' (parseDigits_eq_some.mp hvalue).2.2.1]
  · rintro ⟨digits, rfl, hvalue⟩
    have hdigits := (parseDigits_eq_some.mp hvalue).2.1
    refine ⟨digits, rfl, port.toNat, ?_, UInt16.ofNat_toNat, ?_⟩
    · rwa [List.takeWhile_eq_self_iff.mpr hdigits]
    · rwa [List.dropWhile_eq_nil_iff]

/-- The text of an IPv4 address begins with a digit. -/
theorem exists_display_cons (a : Ipv4Addr) : ∃ c rest, a.display = c :: rest ∧ c.isDigit = true := by
  obtain ⟨c, rest, hfirst⟩ := List.exists_cons_of_ne_nil
    (Nat.toDigits_ne_nil (n := a.first.toNat) (b := 10))
  have hc : c.isDigit = true := by
    apply isDigit_toDigits a.first.toNat
    rw [hfirst]
    exact List.mem_cons_self
  rw [Ipv4Addr.display, hfirst]
  exact ⟨c, _, rfl, hc⟩

/-- No IPv4 address begins with a bracket. -/
theorem not_readIpv4_bracket (s : List Char) : readIpv4 ('[' :: s) = none := by
  rw [Option.eq_none_iff_forall_ne_some]
  rintro ⟨a, rest⟩ h
  obtain ⟨c, digits, hdisplay, hc⟩ := exists_display_cons a
  have hs := (readIpv4_eq_some.mp h).1
  rw [hdisplay, List.cons_append, List.cons.injEq] at hs
  rw [← hs.1] at hc
  exact absurd hc (by decide)

/-- No IPv6 address begins with a bracket. -/
theorem not_readIpv6_bracket (s : List Char) : readIpv6 ('[' :: s) = none := by
  have hgroup : segment ('[' :: s) = none := by
    have htake : ('[' :: s).takeWhile isHexDigit = [] := List.takeWhile_cons_of_neg (by decide)
    simp [segment, readGroup, htake]
  have hsegments : readSegments 0 8 ('[' :: s) = ([], false, '[' :: s) := by
    simp [readSegments, separated, not_readIpv4_bracket, hgroup]
  simp [readIpv6, hsegments, readGiven]

/-- An IPv4 address with its port is read in two parts. -/
theorem readSocketAddrV4_eq_some {s rest : List Char} {address : SocketAddr} :
    readSocketAddrV4 s = some (address, rest) ↔ ∃ a s' port, readIpv4 s = some (a, s') ∧
      readPort s' = some (port, rest) ∧ address = ⟨.v4 a, port⟩ := by
  simp only [readSocketAddrV4, Option.bind_eq_bind, Option.bind_eq_some_iff, Prod.exists,
    Option.pure_def, Option.some.injEq, Prod.mk.injEq]
  constructor
  · rintro ⟨a, s', hip, port, _, hport, rfl, rfl⟩
    exact ⟨a, s', port, hip, hport, rfl⟩
  · rintro ⟨a, s', port, hip, hport, rfl⟩
    exact ⟨a, s', hip, port, rest, hport, rfl, rfl⟩

/-- An IPv6 address with its port was in brackets. -/
theorem of_readSocketAddrV6 {s rest : List Char} {address : SocketAddr}
    (h : readSocketAddrV6 s = some (address, rest)) : ∃ s' a rest' port, s = '[' :: s' ∧
      readIpv6 s' = some (a, rest') ∧ address = ⟨.v6 a, port⟩ := by
  simp only [readSocketAddrV6, Option.bind_eq_bind, Option.bind_eq_some_iff, Prod.exists,
    readGiven_eq_some, Option.pure_def, Option.some.injEq, Prod.mk.injEq] at h
  obtain ⟨s', rfl, a, rest', hip, _, -, port, _, -, rfl, -⟩ := h
  exact ⟨s', a, rest', port, rfl, hip, rfl⟩

/-- A whole text is read as the one or the other. -/
theorem parseSocketAddr_eq_some {s : List Char} {address : SocketAddr} :
    parseSocketAddr s = some address ↔ readSocketAddrV4 s = some (address, []) ∨
      (readSocketAddrV4 s = none ∧ readSocketAddrV6 s = some (address, [])) := by
  rw [parseSocketAddr, Option.bind_eq_some_iff, Prod.exists]
  simp only [Option.or_eq_some_iff, Option.ite_none_right_eq_some, Option.some.injEq]
  constructor
  · rintro ⟨_, _, h, rfl, rfl⟩
    exact h
  · intro h
    exact ⟨address, [], h, rfl, rfl⟩

/-- The texts of a socket address with an IPv4 address: only its port has several. -/
theorem parseSocketAddr_v4 {s : List Char} {a : Ipv4Addr} {port : UInt16} :
    parseSocketAddr s = some ⟨.v4 a, port⟩ ↔
      ∃ digits, s = a.display ++ ':' :: digits ∧ parseDigits 65536 digits = some port.toNat := by
  rw [parseSocketAddr_eq_some]
  constructor
  · rintro (h | ⟨-, h⟩)
    · obtain ⟨a', s', port', hip, hport, haddress⟩ := readSocketAddrV4_eq_some.mp h
      cases haddress
      obtain ⟨digits, rfl, hdigits⟩ := readPort_eq_some.mp hport
      exact ⟨digits, (readIpv4_eq_some.mp hip).1, hdigits⟩
    · obtain ⟨_, _, _, _, -, -, haddress⟩ := of_readSocketAddrV6 h
      cases haddress
  · rintro ⟨digits, rfl, hdigits⟩
    left
    rw [readSocketAddrV4_eq_some]
    refine ⟨a, ':' :: digits, port, readIpv4_eq_some.mpr ⟨rfl, ?_⟩,
      readPort_eq_some.mpr ⟨digits, rfl, hdigits⟩, rfl⟩
    intro c hc
    cases hc
    decide

/-- A socket address with an IPv6 address begins with one bracket. -/
theorem exists_bracket_of_parseSocketAddr {s : List Char} {a : Ipv6Addr} {port : UInt16}
    (h : parseSocketAddr s = some ⟨.v6 a, port⟩) :
    ∃ rest, s = '[' :: rest ∧ rest.head? ≠ some '[' := by
  rcases parseSocketAddr_eq_some.mp h with h | ⟨-, h⟩
  · obtain ⟨_, _, _, -, -, haddress⟩ := readSocketAddrV4_eq_some.mp h
    cases haddress
  · obtain ⟨rest, a', rest', _, rfl, hip, -⟩ := of_readSocketAddrV6 h
    refine ⟨rest, rfl, fun hhead => ?_⟩
    obtain ⟨tail, rfl⟩ := List.head?_eq_some_iff.mp hhead
    rw [not_readIpv6_bracket] at hip
    cases hip

example : parseSocketAddr "[0:0::127.0.0.1%7]:0080".toList =
    some ⟨.v6 ⟨0, 0, 0, 0, 0, 0, 0x7f00, 1⟩, 80⟩ := by decide +kernel

example : (Ipv6Addr.mk 0x2001 0xdb8 0 0 1 0 0 1).display = "2001:db8::1:0:0:1".toList := by
  decide +kernel

end Erabi.Network

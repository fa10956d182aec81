/-
# Public addresses

Addresses of both families, the blocks of addresses that are not publicly routable
unicast, and the classification of the crawler.  It rejects every such IPv4 address; of
the IPv6 addresses it rejects a list of blocks.
-/
import Mathlib

namespace Erabi.Network

/-! ## Addresses -/

/-- An address of four octets. -/
structure Ipv4Addr where
  first : UInt8
  second : UInt8
  third : UInt8
  fourth : UInt8
  deriving DecidableEq, Repr

/-- The address as a number of 32 bits. -/
def Ipv4Addr.value (a : Ipv4Addr) : ℕ :=
  a.first.toNat * 2 ^ 24 + a.second.toNat * 2 ^ 16 + a.third.toNat * 2 ^ 8 + a.fourth.toNat

/-- Eight segments of 16 bits. -/
structure Ipv6Addr where
  s0 : UInt16
  s1 : UInt16
  s2 : UInt16
  s3 : UInt16
  s4 : UInt16
  s5 : UInt16
  s6 : UInt16
  s7 : UInt16
  deriving DecidableEq, Repr

/-- The address as a number of 128 bits. -/
def Ipv6Addr.value (a : Ipv6Addr) : ℕ :=
  a.s0.toNat * 2 ^ 112 + a.s1.toNat * 2 ^ 96 + a.s2.toNat * 2 ^ 80 + a.s3.toNat * 2 ^ 64 +
    a.s4.toNat * 2 ^ 48 + a.s5.toNat * 2 ^ 32 + a.s6.toNat * 2 ^ 16 + a.s7.toNat

/-- An address of either kind. -/
inductive IpAddr : Type where
  | v4 (address : Ipv4Addr)
  | v6 (address : Ipv6Addr)
  deriving DecidableEq, Repr

namespace IpAddr

/-- The address has four octets. -/
def isIpv4 : IpAddr → Bool
  | .v4 _ => true
  | .v6 _ => false

/-- The wildcard address of the family. -/
def isUnspecified : IpAddr → Bool
  | .v4 address => address = ⟨0, 0, 0, 0⟩
  | .v6 address => address = ⟨0, 0, 0, 0, 0, 0, 0, 0⟩

/-- The address is the host's own. -/
def isLoopback : IpAddr → Bool
  | .v4 address => address.first = 127
  | .v6 address => address = ⟨0, 0, 0, 0, 0, 0, 0, 1⟩

end IpAddr

/-- An IPv4 address is known by its value. -/
theorem Ipv4Addr.value_injective : Function.Injective Ipv4Addr.value := by
  rintro ⟨a, b, c, d⟩ ⟨a', b', c', d'⟩ h
  have hb := b.toNat_lt
  have hb' := b'.toNat_lt
  have hc := c.toNat_lt
  have hc' := c'.toNat_lt
  have hd := d.toNat_lt
  have hd' := d'.toNat_lt
  simp only [value] at h
  have hfirst : a = a' := UInt8.toNat_inj.mp (by omega)
  have hsecond : b = b' := UInt8.toNat_inj.mp (by omega)
  have hthird : c = c' := UInt8.toNat_inj.mp (by omega)
  have hfourth : d = d' := UInt8.toNat_inj.mp (by omega)
  rw [hfirst, hsecond, hthird, hfourth]

/-- An IPv6 address is known by its value. -/
theorem Ipv6Addr.value_injective : Function.Injective Ipv6Addr.value := by
  rintro ⟨a, b, c, d, e, f, g, i⟩ ⟨a', b', c', d', e', f', g', i'⟩ h
  have hlt : ∀ s : UInt16, s.toNat < 65536 := fun s => s.toNat_lt
  have hb := hlt b
  have hb' := hlt b'
  have hc := hlt c
  have hc' := hlt c'
  have hd := hlt d
  have hd' := hlt d'
  have he := hlt e
  have he' := hlt e'
  have hf := hlt f
  have hf' := hlt f'
  have hg := hlt g
  have hg' := hlt g'
  have hi := hlt i
  have hi' := hlt i'
  simp only [value] at h
  have h0 : a = a' := UInt16.toNat_inj.mp (by omega)
  subst h0
  have h1 : b = b' := UInt16.toNat_inj.mp (by omega)
  subst h1
  have h2 : c = c' := UInt16.toNat_inj.mp (by omega)
  subst h2
  have h3 : d = d' := UInt16.toNat_inj.mp (by omega)
  subst h3
  have h4 : e = e' := UInt16.toNat_inj.mp (by omega)
  subst h4
  have h5 : f = f' := UInt16.toNat_inj.mp (by omega)
  subst h5
  have h6 : g = g' := UInt16.toNat_inj.mp (by omega)
  subst h6
  have h7 : i = i' := UInt16.toNat_inj.mp (by omega)
  rw [h7]

/-! ## Blocks -/

/-- The numbers from a base on that differ in their last bits only. -/
structure Block where
  base : ℕ
  bits : ℕ
  deriving DecidableEq, Repr

/-- The block contains the value. -/
def Block.Contains (block : Block) (value : ℕ) : Prop :=
  block.base ≤ value ∧ value < block.base + 2 ^ block.bits

instance (block : Block) (value : ℕ) : Decidable (block.Contains value) :=
  inferInstanceAs (Decidable (_ ∧ _))

/-- The IPv4 addresses with a prefix of some length. -/
def cidr4 (first second third length : ℕ) : Block :=
  ⟨first * 2 ^ 24 + second * 2 ^ 16 + third * 2 ^ 8, 32 - length⟩

/-- The IPv6 addresses with a prefix of some length. -/
def cidr6 (s0 s1 s2 s3 s4 s5 length : ℕ) : Block :=
  ⟨s0 * 2 ^ 112 + s1 * 2 ^ 96 + s2 * 2 ^ 80 + s3 * 2 ^ 64 + s4 * 2 ^ 48 + s5 * 2 ^ 32, 128 - length⟩

/-! ## IPv4 -/

/-- This network, private, carrier-grade, loopback, link-local, private, protocol,
documentation, private, relay, benchmarking and documentation addresses, and from 224 on
multicast and reserved ones. -/
def nonPublicIpv4Blocks : List Block :=
  [cidr4 0 0 0 8, cidr4 10 0 0 8, cidr4 100 64 0 10, cidr4 127 0 0 8, cidr4 169 254 0 16,
    cidr4 172 16 0 12, cidr4 192 0 0 24, cidr4 192 0 2 24, cidr4 192 168 0 16, cidr4 192 88 99 24,
    cidr4 198 18 0 15, cidr4 198 51 100 24, cidr4 203 0 113 24, cidr4 224 0 0 3]

/-- The address is in no block that is not public. -/
def PublicIpv4 (a : Ipv4Addr) : Prop := ∀ block ∈ nonPublicIpv4Blocks, ¬ block.Contains a.value

instance (a : Ipv4Addr) : Decidable (PublicIpv4 a) :=
  inferInstanceAs (Decidable (∀ block ∈ nonPublicIpv4Blocks, ¬ block.Contains a.value))

/-- The check on an IPv4 address. -/
def isPublicIpv4 (address : Ipv4Addr) : Bool :=
  let first := address.first.toNat
  let second := address.second.toNat
  let third := address.third.toNat
  !(first = 0 ||
    first = 10 ||
    (first = 100 && (64 ≤ second && second ≤ 127)) ||
    first = 127 ||
    (first = 169 && second = 254) ||
    (first = 172 && (16 ≤ second && second ≤ 31)) ||
    (first = 192 && second = 0 && third = 0) ||
    (first = 192 && second = 0 && third = 2) ||
    (first = 192 && second = 168) ||
    (first = 192 && second = 88 && third = 99) ||
    (first = 198 && (18 ≤ second && second ≤ 19)) ||
    (first = 198 && second = 51 && third = 100) ||
    (first = 203 && second = 0 && third = 113) ||
    224 ≤ first)

section Prefixes

variable (a : Ipv4Addr) (first second third low high : ℕ)

/-- A prefix of 8 bits, with a range of the second octet behind it. -/
theorem contains_range (k : ℕ) (hk : k ≤ 8) (hhigh : high + 1 = low + 2 ^ k)
    (hlt : high < 256) : (cidr4 first low 0 (16 - k)).Contains a.value ↔
      a.first.toNat = first ∧ low ≤ a.second.toNat ∧ a.second.toNat ≤ high := by
  have hsecond := a.second.toNat_lt
  have hthird := a.third.toNat_lt
  have hfourth := a.fourth.toNat_lt
  have hpow : 2 ^ (32 - (16 - k)) = 2 ^ k * 2 ^ 16 := by
    rw [← pow_add]
    congr 1
    omega
  simp only [Block.Contains, cidr4, hpow, Ipv4Addr.value]
  generalize 2 ^ k = size at hhigh ⊢
  omega

/-- A block of the third octet. -/
theorem contains_third (h : second < 256) (h' : third < 256) :
    (cidr4 first second third 24).Contains a.value ↔
      a.first.toNat = first ∧ a.second.toNat = second ∧ a.third.toNat = third := by
  have hsecond := a.second.toNat_lt
  have hthird := a.third.toNat_lt
  have hfourth := a.fourth.toNat_lt
  simp only [Block.Contains, cidr4, Ipv4Addr.value]
  omega

/-- A block of the first octet. -/
theorem contains_octet : (cidr4 first 0 0 8).Contains a.value ↔ a.first.toNat = first := by
  have hsecond := a.second.toNat_lt
  rw [contains_range a first 0 255 8 le_rfl (by decide) (by decide)]
  omega

/-- A block of the second octet. -/
theorem contains_pair (h : second < 256) : (cidr4 first second 0 16).Contains a.value ↔
    a.first.toNat = first ∧ a.second.toNat = second := by
  rw [contains_range a first second second 0 (by omega) (by omega) h]
  omega

/-- The multicast addresses and those above. -/
theorem contains_multicast : (cidr4 224 0 0 3).Contains a.value ↔ 224 ≤ a.first.toNat := by
  have hfirst := a.first.toNat_lt
  have hsecond := a.second.toNat_lt
  have hthird := a.third.toNat_lt
  have hfourth := a.fourth.toNat_lt
  simp only [Block.Contains, cidr4, Ipv4Addr.value]
  omega

end Prefixes

/-- The classification of IPv4 addresses is exact. -/
theorem isPublicIpv4_iff (a : Ipv4Addr) : isPublicIpv4 a = true ↔ PublicIpv4 a := by
  have h100 := contains_range a 100 64 127 6 (by decide) (by decide) (by decide)
  have h172 := contains_range a 172 16 31 4 (by decide) (by decide) (by decide)
  have h198 := contains_range a 198 18 19 1 (by decide) (by decide) (by decide)
  simp only [PublicIpv4, nonPublicIpv4Blocks, List.forall_mem_cons, contains_octet,
    contains_pair _ _ _ (show 254 < 256 by decide), contains_pair _ _ _ (show 168 < 256 by decide),
    contains_third _ _ _ _ (show 0 < 256 by decide) (show 0 < 256 by decide),
    contains_third _ _ _ _ (show 0 < 256 by decide) (show 2 < 256 by decide),
    contains_third _ _ _ _ (show 88 < 256 by decide) (show 99 < 256 by decide),
    contains_third _ _ _ _ (show 51 < 256 by decide) (show 100 < 256 by decide),
    contains_third _ _ _ _ (show 0 < 256 by decide) (show 113 < 256 by decide),
    contains_multicast, h100, h172, h198]
  simp only [isPublicIpv4, Bool.not_eq_true', Bool.or_eq_false_iff,
    Bool.and_eq_false_iff, decide_eq_false_iff_not, not_and_or, and_assoc]
  simp only [or_assoc, List.not_mem_nil, false_imp_iff, implies_true, and_true]

/-! ## IPv6 -/

/-- The blocks that the crawler rejects: the unspecified and the loopback address,
multicast, IPv4-compatible, IPv4-mapped, two for translation, discard, protocol, 6to4,
documentation, documentation, segment routing, unique-local and link-local addresses. -/
def rejectedIpv6Blocks : List Block :=
  [⟨0, 0⟩, ⟨1, 0⟩, cidr6 0xff00 0 0 0 0 0 8, cidr6 0 0 0 0 0 0 96, cidr6 0 0 0 0 0 0xffff 96,
    cidr6 0x64 0xff9b 0 0 0 0 96, cidr6 0x64 0xff9b 1 0 0 0 48, cidr6 0x100 0 0 0 0 0 64,
    cidr6 0x2001 0 0 0 0 0 23, cidr6 0x2002 0 0 0 0 0 16, cidr6 0x2001 0xdb8 0 0 0 0 32,
    cidr6 0x3fff 0 0 0 0 0 20, cidr6 0x5f00 0 0 0 0 0 16, cidr6 0xfc00 0 0 0 0 0 7,
    cidr6 0xfe80 0 0 0 0 0 10]

/-- The check on an IPv6 address. -/
def isPublicIpv6 (address : Ipv6Addr) : Bool :=
  let s0 := address.s0.toNat
  let s1 := address.s1.toNat
  let s2 := address.s2.toNat
  let s3 := address.s3.toNat
  let s4 := address.s4.toNat
  let s5 := address.s5.toNat
  let s6 := address.s6.toNat
  let s7 := address.s7.toNat
  !((s0 = 0 && s1 = 0 && s2 = 0 && s3 = 0 && s4 = 0 && s5 = 0 && s6 = 0 && s7 = 0) ||
    (s0 = 0 && s1 = 0 && s2 = 0 && s3 = 0 && s4 = 0 && s5 = 0 && s6 = 0 && s7 = 1) ||
    s0 &&& 0xff00 = 0xff00 ||
    (s0 = 0 && s1 = 0 && s2 = 0 && s3 = 0 && s4 = 0 && s5 = 0) ||
    (s0 = 0 && s1 = 0 && s2 = 0 && s3 = 0 && s4 = 0 && s5 = 0xffff) ||
    (s0 = 0x64 && s1 = 0xff9b && s2 = 0 && s3 = 0 && s4 = 0 && s5 = 0) ||
    (s0 = 0x64 && s1 = 0xff9b && s2 = 1) ||
    (s0 = 0x100 && s1 = 0 && s2 = 0 && s3 = 0) ||
    (s0 = 0x2001 && (0 ≤ s1 && s1 ≤ 0x01ff)) ||
    s0 = 0x2002 ||
    (s0 = 0x2001 && s1 = 0xdb8) ||
    (s0 = 0x3fff && (0 ≤ s1 && s1 ≤ 0x0fff)) ||
    s0 = 0x5f00 ||
    s0 &&& 0xfe00 = 0xfc00 ||
    s0 &&& 0xffc0 = 0xfe80)

/-- The bits of a mask are a range of the number. -/
theorem and_mask (n k m : ℕ) : n &&& 2 ^ k * (2 ^ m - 1) = 2 ^ k * (n / 2 ^ k % 2 ^ m) := by
  apply Nat.eq_of_testBit_eq
  intro i
  rw [Nat.testBit_and, Nat.testBit_two_pow_mul, Nat.testBit_two_pow_mul,
    Nat.testBit_two_pow_sub_one, Nat.testBit_mod_two_pow, Nat.testBit_div_two_pow]
  by_cases hi : k ≤ i
  · rw [show i - k + k = i by omega]
    simp [hi, Bool.and_comm]
  · simp [hi]

/-- The segments are below their bound. -/
theorem Ipv6Addr.segments_lt (a : Ipv6Addr) :
    a.s0.toNat < 65536 ∧ a.s1.toNat < 65536 ∧ a.s2.toNat < 65536 ∧ a.s3.toNat < 65536 ∧
      a.s4.toNat < 65536 ∧ a.s5.toNat < 65536 ∧ a.s6.toNat < 65536 ∧ a.s7.toNat < 65536 :=
  ⟨a.s0.toNat_lt, a.s1.toNat_lt, a.s2.toNat_lt, a.s3.toNat_lt, a.s4.toNat_lt, a.s5.toNat_lt,
    a.s6.toNat_lt, a.s7.toNat_lt⟩

section Segments

variable (a : Ipv6Addr) (n0 n1 n2 n5 low high : ℕ)

/-- A block that is a range of first segments. -/
theorem contains_segment_range (k : ℕ) (hk : k ≤ 16) (hhigh : high + 1 = low + 2 ^ k) :
    (cidr6 low 0 0 0 0 0 (16 - k)).Contains a.value ↔
      low ≤ a.s0.toNat ∧ a.s0.toNat ≤ high := by
  have hlt := a.segments_lt
  have hpow : 2 ^ (128 - (16 - k)) = 2 ^ k * 2 ^ 112 := by
    rw [← pow_add]
    congr 1
    omega
  simp only [Block.Contains, cidr6, hpow, Ipv6Addr.value]
  generalize 2 ^ k = size at hhigh ⊢
  omega

/-- A block that is a range of second segments. -/
theorem contains_second_range (k : ℕ) (hk : k ≤ 16) (hhigh : high + 1 = low + 2 ^ k)
    (hfits : high < 65536) : (cidr6 n0 low 0 0 0 0 (32 - k)).Contains a.value ↔
      a.s0.toNat = n0 ∧ low ≤ a.s1.toNat ∧ a.s1.toNat ≤ high := by
  have hlt := a.segments_lt
  have hpow : 2 ^ (128 - (32 - k)) = 2 ^ k * 2 ^ 96 := by
    rw [← pow_add]
    congr 1
    omega
  simp only [Block.Contains, cidr6, hpow, Ipv6Addr.value]
  generalize 2 ^ k = size at hhigh ⊢
  omega

/-- A block of the first segment. -/
theorem contains_segment : (cidr6 n0 0 0 0 0 0 16).Contains a.value ↔ a.s0.toNat = n0 := by
  rw [contains_segment_range a n0 n0 0 (by decide) (by omega)]
  omega

/-- A block of the second segment. -/
theorem contains_two (h : n1 < 65536) : (cidr6 n0 n1 0 0 0 0 32).Contains a.value ↔
    a.s0.toNat = n0 ∧ a.s1.toNat = n1 := by
  rw [contains_second_range a n0 n1 n1 0 (by omega) (by omega) h]
  omega

/-- A block of the third segment. -/
theorem contains_three (h1 : n1 < 65536) (h2 : n2 < 65536) :
    (cidr6 n0 n1 n2 0 0 0 48).Contains a.value ↔
      a.s0.toNat = n0 ∧ a.s1.toNat = n1 ∧ a.s2.toNat = n2 := by
  have hlt := a.segments_lt
  simp only [Block.Contains, cidr6, Ipv6Addr.value]
  omega

/-- The block of the first half. -/
theorem contains_discard : (cidr6 n0 0 0 0 0 0 64).Contains a.value ↔
    a.s0.toNat = n0 ∧ a.s1.toNat = 0 ∧ a.s2.toNat = 0 ∧ a.s3.toNat = 0 := by
  have hlt := a.segments_lt
  simp only [Block.Contains, cidr6, Ipv6Addr.value]
  omega

/-- The prefixes before an embedded IPv4 address. -/
theorem contains_embedded (h1 : n1 < 65536) (h5 : n5 < 65536) :
    (cidr6 n0 n1 0 0 0 n5 96).Contains a.value ↔
      a.s0.toNat = n0 ∧ a.s1.toNat = n1 ∧ a.s2.toNat = 0 ∧ a.s3.toNat = 0 ∧
        a.s4.toNat = 0 ∧ a.s5.toNat = n5 := by
  have hlt := a.segments_lt
  simp only [Block.Contains, cidr6, Ipv6Addr.value]
  omega

/-- A block of one address. -/
theorem contains_single (n7 : ℕ) (h : n7 < 65536) : (Block.mk n7 0).Contains a.value ↔
    a.s0.toNat = 0 ∧ a.s1.toNat = 0 ∧ a.s2.toNat = 0 ∧ a.s3.toNat = 0 ∧ a.s4.toNat = 0 ∧
      a.s5.toNat = 0 ∧ a.s6.toNat = 0 ∧ a.s7.toNat = n7 := by
  have hlt := a.segments_lt
  simp only [Block.Contains, Ipv6Addr.value]
  omega

/-- Comparing the leading bits of a segment is a range check. -/
theorem segment_mask (s : UInt16) (k m n : ℕ) (hkm : k + m = 16) :
    s.toNat &&& 2 ^ k * (2 ^ m - 1) = 2 ^ k * n ↔
      2 ^ k * n ≤ s.toNat ∧ s.toNat ≤ 2 ^ k * n + (2 ^ k - 1) := by
  have hpos : 0 < 2 ^ k := Nat.two_pow_pos k
  have hquot : s.toNat / 2 ^ k < 2 ^ m := by
    rw [Nat.div_lt_iff_lt_mul hpos, ← pow_add, Nat.add_comm m k, hkm]
    exact s.toNat_lt
  rw [and_mask, Nat.mod_eq_of_lt hquot, Nat.mul_right_inj hpos.ne', Nat.div_eq_iff hpos,
    Nat.mul_comm n]
  omega

end Segments

/-- The crawler rejects the listed blocks and no other IPv6 address. -/
theorem isPublicIpv6_iff (a : Ipv6Addr) :
    isPublicIpv6 a = true ↔ ∀ block ∈ rejectedIpv6Blocks, ¬ block.Contains a.value := by
  have hmulticast := segment_mask a.s0 8 8 0xff (by decide)
  have hlocal := segment_mask a.s0 9 7 0x7e (by decide)
  have hlink := segment_mask a.s0 6 10 0x3fa (by decide)
  have h8 := contains_segment_range a 0xff00 0xffff 8 (by decide) (by decide)
  have h7 := contains_segment_range a 0xfc00 0xfdff 9 (by decide) (by decide)
  have h10 := contains_segment_range a 0xfe80 0xfebf 6 (by decide) (by decide)
  have h23 := contains_second_range a 0x2001 0 0x1ff 9 (by decide) (by decide) (by decide)
  have h20 := contains_second_range a 0x3fff 0 0xfff 12 (by decide) (by decide) (by decide)
  norm_num at hmulticast hlocal hlink
  simp only [rejectedIpv6Blocks, List.forall_mem_cons, h8, h7, h10, h23, h20, contains_segment,
    contains_single a _ (show 0 < 65536 by decide), contains_single a _ (show 1 < 65536 by decide),
    contains_embedded a _ _ _ (show 0 < 65536 by decide) (show 0 < 65536 by decide),
    contains_embedded a _ _ _ (show 0 < 65536 by decide) (show 0xffff < 65536 by decide),
    contains_embedded a _ _ _ (show 0xff9b < 65536 by decide) (show 0 < 65536 by decide),
    contains_three a _ _ _ (show 0xff9b < 65536 by decide) (show 1 < 65536 by decide),
    contains_discard, contains_two a _ _ (show 0xdb8 < 65536 by decide)]
  simp only [isPublicIpv6, Bool.not_eq_true', Bool.or_eq_false_iff, Bool.and_eq_false_iff,
    decide_eq_false_iff_not, not_and_or, and_assoc, hmulticast, hlocal, hlink]
  simp only [or_assoc, List.not_mem_nil, false_imp_iff, implies_true, and_true]

/-! ## Public IPv6 addresses -/

/-- The only block that is assigned to public unicast addresses. -/
def globalUnicast : Block := cidr6 0x2000 0 0 0 0 0 3

/-- Protocol (with the addresses of Teredo), documentation and 6to4 addresses, and
documentation addresses again. -/
def specialUnicastBlocks : List Block :=
  [cidr6 0x2001 0 0 0 0 0 23, cidr6 0x2001 0xdb8 0 0 0 0 32, cidr6 0x2002 0 0 0 0 0 16,
    cidr6 0x3fff 0 0 0 0 0 20]

/-- The blocks outside the public one: the addresses that embed an IPv4 address behind a
prefix, discard, segment routing, unique-local, link-local, site-local and multicast. -/
def reservedIpv6Blocks : List Block :=
  [⟨0, 0⟩, ⟨1, 0⟩, cidr6 0 0 0 0 0 0 96, cidr6 0 0 0 0 0 0xffff 96, cidr6 0 0 0 0 0xffff 0 96,
    cidr6 0x64 0xff9b 0 0 0 0 96, cidr6 0x64 0xff9b 1 0 0 0 48, cidr6 0x100 0 0 0 0 0 64,
    cidr6 0x5f00 0 0 0 0 0 16, cidr6 0xfc00 0 0 0 0 0 7, cidr6 0xfe80 0 0 0 0 0 10,
    cidr6 0xfec0 0 0 0 0 0 10, cidr6 0xff00 0 0 0 0 0 8]

/-- The IPv4 address of an interface identifier of the ISATAP form. -/
def Ipv6Addr.isatap (a : Ipv6Addr) : Option Ipv4Addr :=
  if (a.s4 = 0 ∨ a.s4 = 0x200) ∧ a.s5 = 0x5efe then
    some ⟨(a.s6 / 256).toUInt8, a.s6.toUInt8, (a.s7 / 256).toUInt8, a.s7.toUInt8⟩
  else none

/-- A public address has no special purpose and embeds no IPv4 address that is not public. -/
def PublicIpv6 (a : Ipv6Addr) : Prop :=
  globalUnicast.Contains a.value ∧ (∀ block ∈ specialUnicastBlocks, ¬ block.Contains a.value) ∧
    ∀ embedded ∈ a.isatap, PublicIpv4 embedded

instance (a : Ipv6Addr) : Decidable (PublicIpv6 a) :=
  inferInstanceAs (Decidable (_ ∧ _ ∧ _))

/-- Blocks of which one ends before the other begins. -/
def Block.Apart (block other : Block) : Prop :=
  block.base + 2 ^ block.bits ≤ other.base ∨ other.base + 2 ^ other.bits ≤ block.base

instance (block other : Block) : Decidable (block.Apart other) :=
  inferInstanceAs (Decidable (_ ∨ _))

/-- Blocks that are apart share no address. -/
theorem Block.Apart.not_contains {block other : Block} {value : ℕ} (h : block.Apart other)
    (hother : other.Contains value) : ¬ block.Contains value := by
  rintro ⟨hlow, hhigh⟩
  obtain ⟨hlow', hhigh'⟩ := hother
  rcases h with h | h
  · omega
  · omega

/-- A public address is in no reserved block. -/
theorem PublicIpv6.not_reserved {a : Ipv6Addr} (h : PublicIpv6 a) :
    ∀ block ∈ reservedIpv6Blocks, ¬ block.Contains a.value := by
  have hapart : ∀ block ∈ reservedIpv6Blocks, block.Apart globalUnicast := by decide
  intro block hblock
  exact (hapart block hblock).not_contains h.1

/-- Of the public addresses the crawler rejects none; of the others it accepts those outside
the public block that it does not list, and those that embed an IPv4 address in their last
segments. -/
theorem publicIpv6_iff (a : Ipv6Addr) : PublicIpv6 a ↔ isPublicIpv6 a = true ∧
    globalUnicast.Contains a.value ∧ ∀ embedded ∈ a.isatap, PublicIpv4 embedded := by
  have hlisted : ∀ block ∈ rejectedIpv6Blocks,
      block ∈ specialUnicastBlocks ∨ block.Apart globalUnicast := by decide
  have hspecial : ∀ block ∈ specialUnicastBlocks, block ∈ rejectedIpv6Blocks := by decide
  rw [isPublicIpv6_iff]
  constructor
  · rintro ⟨hglobal, hblocks, hembedded⟩
    refine ⟨fun block hblock => ?_, hglobal, hembedded⟩
    rcases hlisted block hblock with h | h
    · exact hblocks block h
    · exact h.not_contains hglobal
  · rintro ⟨hblocks, hglobal, hembedded⟩
    exact ⟨hglobal, fun block hblock => hblocks block (hspecial block hblock), hembedded⟩

/-! ## Both families -/

/-- The check on an address of either kind. -/
def isPublicUnicast : IpAddr → Bool
  | .v4 address => isPublicIpv4 address
  | .v6 address => isPublicIpv6 address

/-- The address is public, of either kind. -/
def PublicUnicast : IpAddr → Prop
  | .v4 address => PublicIpv4 address
  | .v6 address => PublicIpv6 address

instance : ∀ address, Decidable (PublicUnicast address)
  | .v4 address => inferInstanceAs (Decidable (PublicIpv4 address))
  | .v6 address => inferInstanceAs (Decidable (PublicIpv6 address))

/-- An IPv4 address, or an IPv6 address of the public block that embeds no IPv4 address in
its last segments but a public one. -/
def PlainUnicast : IpAddr → Prop
  | .v4 _ => True
  | .v6 address =>
    globalUnicast.Contains address.value ∧ ∀ embedded ∈ address.isatap, PublicIpv4 embedded

/-- The check is exact on plain unicast addresses. -/
theorem publicUnicast_iff (address : IpAddr) :
    PublicUnicast address ↔ isPublicUnicast address = true ∧ PlainUnicast address := by
  cases address with
  | v4 address => exact (isPublicIpv4_iff address).symm.trans (and_true _).symm.to_iff
  | v6 address => exact publicIpv6_iff address

/-! ## Socket addresses -/

/-- An address with its port. -/
structure SocketAddr where
  ip : IpAddr
  port : UInt16
  deriving DecidableEq, Repr

/-- The order of the derived comparison: IPv4 first, then by address and port. -/
def SocketAddr.order (address : SocketAddr) : ℕ ×ₗ ℕ ×ₗ ℕ :=
  match address.ip with
  | .v4 ip => toLex (0, toLex (ip.value, address.port.toNat))
  | .v6 ip => toLex (1, toLex (ip.value, address.port.toNat))

/-- Addresses with ports are known by their place in the order. -/
theorem SocketAddr.order_injective : Function.Injective SocketAddr.order := by
  rintro ⟨ip, port⟩ ⟨ip', port'⟩ h
  rcases ip with a | a <;> rcases ip' with a' | a' <;>
    simp only [order, EmbeddingLike.apply_eq_iff_eq, Prod.mk.injEq, zero_ne_one, one_ne_zero,
      false_and, true_and] at h
  · rw [Ipv4Addr.value_injective h.1, UInt16.toNat_inj.mp h.2]
  · rw [Ipv6Addr.value_injective h.1, UInt16.toNat_inj.mp h.2]

instance : LinearOrder SocketAddr := LinearOrder.lift' SocketAddr.order SocketAddr.order_injective

/-- The address with the port of the URL in place of the resolver's. -/
def SocketAddr.withPort (address : SocketAddr) (port : UInt16) : SocketAddr := ⟨address.ip, port⟩

end Erabi.Network

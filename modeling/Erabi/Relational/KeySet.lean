/-
# Finite sets of keys

A set of keys as the list of its members without repetition, for the places
where a program both asks for membership and walks through the set.
-/
import Mathlib

namespace Relational

/-- Keys in insertion order, each of them once. -/
structure KeySet (κ : Type*) where
  keys : List κ
  nodup : keys.Nodup

namespace KeySet

variable {κ : Type*}

instance : Membership κ (KeySet κ) := ⟨fun s k => k ∈ s.keys⟩

/-- Membership is membership in the list. -/
theorem mem_def {s : KeySet κ} {k : κ} : k ∈ s ↔ k ∈ s.keys := Iff.rfl

instance [DecidableEq κ] (s : KeySet κ) (k : κ) : Decidable (k ∈ s) :=
  inferInstanceAs (Decidable (k ∈ s.keys))

/-- The set without members. -/
def empty : KeySet κ := ⟨[], List.nodup_nil⟩

/-- The empty set has no member. -/
@[simp] theorem not_mem_empty (k : κ) : k ∉ (empty : KeySet κ) := List.not_mem_nil

/-- The number of members. -/
def size (s : KeySet κ) : ℕ := s.keys.length

/-- The empty set has size zero. -/
@[simp] theorem size_empty : (empty : KeySet κ).size = 0 := rfl

/-- The members of one set are members of the other. -/
def Subset (s t : KeySet κ) : Prop := ∀ k ∈ s.keys, k ∈ t

/-- The sets have no member in common. -/
def Disjoint (s t : KeySet κ) : Prop := ∀ k ∈ s.keys, k ∉ t

/-- Inclusion by members. -/
theorem subset_iff {s t : KeySet κ} : s.Subset t ↔ ∀ k, k ∈ s → k ∈ t := Iff.rfl

/-- The sets have the same members. -/
def Same (s t : KeySet κ) : Prop := ∀ k, k ∈ s ↔ k ∈ t

/-- Sets that are the same list their members in some order. -/
theorem Same.perm {s t : KeySet κ} (h : s.Same t) : s.keys.Perm t.keys :=
  (List.perm_ext_iff_of_nodup s.nodup t.nodup).mpr h

/-- Sets with the same members have the same size. -/
theorem Same.size {s t : KeySet κ} (h : s.Same t) : s.size = t.size := h.perm.length_eq

section Change

variable [DecidableEq κ]

instance (s t : KeySet κ) : Decidable (s.Subset t) :=
  inferInstanceAs (Decidable (∀ k ∈ s.keys, k ∈ t))

instance (s t : KeySet κ) : Decidable (s.Disjoint t) :=
  inferInstanceAs (Decidable (∀ k ∈ s.keys, k ∉ t))

/-- The set with one more member. -/
def insert (s : KeySet κ) (k : κ) : KeySet κ :=
  if h : k ∈ s.keys then s else
    ⟨s.keys ++ [k], List.nodup_append.mpr ⟨s.nodup, List.nodup_singleton k,
      fun _ ha _ hb e => h (List.mem_singleton.mp hb ▸ e ▸ ha)⟩⟩

/-- Inserting a member again. -/
theorem insert_of_mem {s : KeySet κ} {k : κ} (h : k ∈ s) : s.insert k = s := dif_pos h

/-- A new member is listed last. -/
theorem keys_insert_of_not_mem {s : KeySet κ} {k : κ} (h : k ∉ s) :
    (s.insert k).keys = s.keys ++ [k] := by
  rw [insert, dif_neg (show k ∉ s.keys from h)]

/-- The members after an insertion. -/
@[simp] theorem mem_insert {s : KeySet κ} {k a : κ} : a ∈ s.insert k ↔ a ∈ s ∨ a = k := by
  by_cases h : k ∈ s
  · rw [insert_of_mem h]
    exact ⟨Or.inl, fun hs => hs.elim id fun e => e ▸ h⟩
  · rw [mem_def, keys_insert_of_not_mem h, List.mem_append, List.mem_singleton]
    rfl

/-- Inserting a member again does not count. -/
theorem size_insert_of_mem {s : KeySet κ} {k : κ} (h : k ∈ s) : (s.insert k).size = s.size := by
  rw [insert_of_mem h]

/-- Inserting a new member counts. -/
theorem size_insert_of_not_mem {s : KeySet κ} {k : κ} (h : k ∉ s) :
    (s.insert k).size = s.size + 1 := by
  rw [size, keys_insert_of_not_mem h, List.length_append, List.length_singleton, size]

/-- The set without one member. -/
def remove (s : KeySet κ) (k : κ) : KeySet κ := ⟨s.keys.erase k, s.nodup.erase k⟩

/-- The members after a removal. -/
@[simp] theorem mem_remove {s : KeySet κ} {k a : κ} : a ∈ s.remove k ↔ a ∈ s ∧ a ≠ k := by
  rw [mem_def, remove, s.nodup.mem_erase_iff, and_comm]
  rfl

/-- Removing a member counts. -/
theorem size_remove {s : KeySet κ} {k : κ} (h : k ∈ s) : (s.remove k).size + 1 = s.size := by
  show (s.keys.erase k).length + 1 = s.keys.length
  rw [List.length_erase_of_mem h]
  have hpos : 0 < s.keys.length := List.length_pos_of_mem h
  omega

/-- Insertion into sets that are the same. -/
theorem Same.insert {s t : KeySet κ} (h : s.Same t) (k : κ) : (s.insert k).Same (t.insert k) := by
  intro a
  rw [mem_insert, mem_insert, h a]

/-- Removal from sets that are the same. -/
theorem Same.remove {s t : KeySet κ} (h : s.Same t) (k : κ) : (s.remove k).Same (t.remove k) := by
  intro a
  rw [mem_remove, mem_remove, h a]

/-! ## From lists -/

/-- The set of the members of a list, unless one of them is listed twice. -/
def ofList? (l : List κ) : Option (KeySet κ) := if h : l.Nodup then some ⟨l, h⟩ else none

/-- A set is made of a list without repetitions. -/
theorem ofList?_eq_some {l : List κ} {s : KeySet κ} :
    ofList? l = some s ↔ l.Nodup ∧ s.keys = l := by
  unfold ofList?
  split
  · rename_i h
    simp only [Option.some.injEq, h, true_and]
    constructor
    · intro e
      rw [← e]
    · intro e
      cases s
      cases e
      rfl
  · rename_i h
    simp [h]

/-- The set of the members of a list. -/
def ofList (l : List κ) : KeySet κ := ⟨l.dedup, l.nodup_dedup⟩

/-- The members of a list as a set. -/
@[simp] theorem mem_ofList {l : List κ} {k : κ} : k ∈ ofList l ↔ k ∈ l := List.mem_dedup

end Change

/-! ## In order -/

/-- The members in ascending order. -/
def sorted (s : KeySet ℕ) : List ℕ := s.keys.insertionSort (· ≤ ·)

/-- Sorting keeps the members. -/
@[simp] theorem mem_sorted {s : KeySet ℕ} {k : ℕ} : k ∈ s.sorted ↔ k ∈ s :=
  List.mem_insertionSort _

/-- A sorted set has no repetition. -/
theorem nodup_sorted (s : KeySet ℕ) : s.sorted.Nodup :=
  (List.perm_insertionSort _ _).nodup_iff.mpr s.nodup

/-- Sets with the same members are sorted into the same list. -/
theorem Same.sorted {s t : KeySet ℕ} (h : s.Same t) : s.sorted = t.sorted := by
  have hperm : s.sorted.Perm t.sorted :=
    (List.perm_insertionSort _ _).trans (h.perm.trans (List.perm_insertionSort _ _).symm)
  exact hperm.eq_of_pairwise' (List.pairwise_insertionSort _ _) (List.pairwise_insertionSort _ _)

/-- A sorted set has its size. -/
theorem length_sorted (s : KeySet ℕ) : s.sorted.length = s.size :=
  List.length_insertionSort _ _

/-- The set with its members in ascending order. -/
def arrange (s : KeySet ℕ) : KeySet ℕ := ⟨s.sorted, s.nodup_sorted⟩

/-- Arranging keeps the members. -/
@[simp] theorem mem_arrange {s : KeySet ℕ} {k : ℕ} : k ∈ s.arrange ↔ k ∈ s := mem_sorted

/-- A set is the same when arranged. -/
theorem same_arrange (s : KeySet ℕ) : s.Same s.arrange := fun _ => mem_arrange.symm

end KeySet

end Relational

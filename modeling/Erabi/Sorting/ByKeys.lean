/-
# Sorting by two keys

A stable sort of a list by one key and then by another.  It depends on the members of
the list only, up to members with the same keys, and leaves those in their order.
-/
import Mathlib

namespace Erabi.Sorting

/-! ## Sorted lists -/

section Sorted

variable {α : Type*} {le : α → α → Bool} (trans : ∀ a b c, le a b → le b c → le a c)
  (total : ∀ a b, le a b || le b a)

include trans total

/-- The order of the list does not matter where members that are alike are equal. -/
theorem mergeSort_eq_of_perm {l l' : List α}
    (antisymm : ∀ a ∈ l, ∀ b ∈ l, le a b → le b a → a = b) (h : l.Perm l') :
    l.mergeSort le = l'.mergeSort le := by
  have hperm : (l.mergeSort le).Perm (l'.mergeSort le) :=
    (List.mergeSort_perm l le).trans (h.trans (List.mergeSort_perm l' le).symm)
  apply List.Perm.eq_of_pairwise _ (List.pairwise_mergeSort trans total l)
    (List.pairwise_mergeSort trans total l') hperm
  intro a b ha hb
  exact antisymm a (List.mem_mergeSort.mp ha) b (h.mem_iff.mpr (List.mem_mergeSort.mp hb))

/-- Members that are alike stay in their order. -/
theorem filter_mergeSort_alike {l : List α} {p : α → Bool}
    (alike : ∀ a b, p a = true → p b = true → le a b = true) :
    (l.mergeSort le).filter p = l.filter p := by
  have hpairwise : (l.filter p).Pairwise fun a b => le a b = true :=
    List.pairwise_of_forall_mem_list fun a ha b hb =>
      alike a b (List.mem_filter.mp ha).2 (List.mem_filter.mp hb).2
  have hsublist := List.sublist_mergeSort trans total hpairwise List.filter_sublist
  have hfilter := hsublist.filter p
  rw [List.filter_filter] at hfilter
  simp only [Bool.and_self] at hfilter
  apply (hfilter.eq_of_length _).symm
  exact (((List.mergeSort_perm l le).filter p).length_eq).symm

end Sorted

/-! ## Keys -/

section Keys

variable {α β γ : Type*} [LinearOrder β] [LinearOrder γ] (f : α → β) (g : α → γ)

/-- The order by two keys. -/
def leBy (a b : α) : Bool := f a < f b || (f a = f b && decide (g a ≤ g b))

variable {f} {g}

/-- The first key decides, then the second. -/
theorem leBy_iff {a b : α} : leBy f g a b = true ↔ f a < f b ∨ f a = f b ∧ g a ≤ g b := by
  simp [leBy]

/-- The order by two keys is transitive. -/
theorem leBy_trans (a b c : α) (hab : leBy f g a b = true) (hbc : leBy f g b c = true) :
    leBy f g a c = true := by
  rw [leBy_iff] at *
  rcases hab with hab | ⟨hab, hg⟩
  · left
    rcases hbc with hbc | ⟨hbc, _⟩
    · exact hab.trans hbc
    · exact hbc ▸ hab
  · rcases hbc with hbc | ⟨hbc, hg'⟩
    · left
      exact hab ▸ hbc
    · right
      exact ⟨hab.trans hbc, hg.trans hg'⟩

/-- The order by two keys is total. -/
theorem leBy_total (a b : α) : (leBy f g a b || leBy f g b a) = true := by
  rw [Bool.or_eq_true, leBy_iff, leBy_iff]
  rcases lt_trichotomy (f a) (f b) with h | h | h
  · exact Or.inl (Or.inl h)
  · rcases le_total (g a) (g b) with hg | hg
    · exact Or.inl (Or.inr ⟨h, hg⟩)
    · exact Or.inr (Or.inr ⟨h.symm, hg⟩)
  · exact Or.inr (Or.inl h)

/-- Members that are alike have the same keys. -/
theorem leBy_antisymm {a b : α} (hab : leBy f g a b = true) (hba : leBy f g b a = true) :
    f a = f b ∧ g a = g b := by
  rw [leBy_iff] at hab hba
  rcases hab with hab | ⟨hf, hab⟩
  · rcases hba with hba | ⟨hf, _⟩
    · exact absurd (hab.trans hba) (lt_irrefl _)
    · exact absurd (hf ▸ hab) (lt_irrefl _)
  · rcases hba with hba | ⟨_, hba⟩
    · exact absurd (hf ▸ hba) (lt_irrefl _)
    · exact ⟨hf, hab.antisymm hba⟩

/-- Equal first keys leave it to the second. -/
theorem leBy_of_eq {a b : α} (hf : f a = f b) (hg : g a = g b) : leBy f g a b = true :=
  leBy_iff.mpr (Or.inr ⟨hf, hg.le⟩)

end Keys

end Erabi.Sorting

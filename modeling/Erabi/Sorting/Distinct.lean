/-
# Sorted lists of distinct keys

A list is sorted by a key, and of neighbours with one key the first stays.  What comes
of it depends on the first member of every key only: neither on the order of the keys
in the list nor on the later members of a key.
-/
import Mathlib

namespace Erabi.Sorting

variable {α κ : Type*} {key : α → κ} {r : κ → κ → Prop}

/-! ## Neighbours -/

section Neighbours

variable [DecidableEq κ] [Std.Total r] [Std.Antisymm r]

/-- Of a sorted list the first member of every key stays. -/
theorem mem_destutter'_iff {t : α} (l : List α) {a : α}
    (h : (a :: l).Pairwise fun a b => r (key a) (key b)) :
    t ∈ l.destutter' (fun a b => key a ≠ key b) a ↔
      (a :: l).find? (fun b => key b = key t) = some t := by
  induction l generalizing a with
  | nil =>
    by_cases hkey : key a = key t
    · simp [hkey, eq_comm]
    · have hne : t ≠ a := fun heq => hkey (by rw [heq])
      simp [hkey, hne]
  | cons b l ih =>
    obtain ⟨hfirst, htail⟩ := List.pairwise_cons.mp h
    by_cases hab : key a = key b
    · rw [List.destutter'_cons_neg _ (not_not.mpr hab),
        ih (h.sublist (List.Sublist.cons_cons a (List.sublist_cons_self b l)))]
      by_cases hkey : key a = key t
      · simp [hkey]
      · have hkey' : key b ≠ key t := hab ▸ hkey
        simp [hkey, hkey']
    · rw [List.destutter'_cons_pos _ hab, List.mem_cons, ih htail]
      by_cases hkey : key a = key t
      · -- the keys behind are greater
        have hbehind : (b :: l).find? (fun c => key c = key t) = none := by
          rw [List.find?_eq_none]
          intro c hc hcKey
          have hct : key c = key t := of_decide_eq_true hcKey
          have hbc : r (key b) (key c) := by
            rcases List.mem_cons.mp hc with rfl | hc
            · exact (Std.Total.total _ _).elim id id
            · exact (List.pairwise_cons.mp htail).1 c hc
          rw [hct, ← hkey] at hbc
          exact hab (Std.Antisymm.antisymm _ _ (hfirst b List.mem_cons_self) hbc)
        rw [hbehind]
        simp [hkey, eq_comm]
      · have hne : t ≠ a := fun heq => hkey (by rw [heq])
        have hskip : (a :: b :: l).find? (fun c => key c = key t) =
            (b :: l).find? fun c => key c = key t := List.find?_cons_of_neg (by simpa using hkey)
        rw [hskip]
        exact or_iff_right hne

/-- A sorted list without repetitions of keys increases strictly. -/
theorem pairwise_destutter' (l : List α) {a : α}
    (h : (a :: l).Pairwise fun a b => r (key a) (key b)) :
    (l.destutter' (fun a b => key a ≠ key b) a).Pairwise
      fun a b => r (key a) (key b) ∧ key a ≠ key b := by
  induction l generalizing a with
  | nil => exact List.pairwise_singleton _ a
  | cons b l ih =>
    obtain ⟨hfirst, htail⟩ := List.pairwise_cons.mp h
    by_cases hab : key a = key b
    · rw [List.destutter'_cons_neg _ (not_not.mpr hab)]
      exact ih (h.sublist (List.Sublist.cons_cons a (List.sublist_cons_self b l)))
    · rw [List.destutter'_cons_pos _ hab]
      refine List.pairwise_cons.mpr ⟨fun c hc => ?_, ih htail⟩
      have hmem : c ∈ b :: l := (List.destutter'_sublist _ _ _).subset hc
      refine ⟨hfirst c hmem, fun hac => hab ?_⟩
      have hbc : r (key b) (key c) := by
        rcases List.mem_cons.mp hmem with rfl | hmem
        · exact (Std.Total.total _ _).elim id id
        · exact (List.pairwise_cons.mp htail).1 c hmem
      rw [← hac] at hbc
      exact Std.Antisymm.antisymm _ _ (hfirst b List.mem_cons_self) hbc

end Neighbours

/-! ## Sorting -/

section Sorting

variable (key r) [DecidableRel r] [IsTrans κ r] [Std.Total r]

/-- A sorted list increases. -/
theorem pairwise_sorted (l : List α) :
    (l.insertionSort fun a b => r (key a) (key b)).Pairwise fun a b => r (key a) (key b) := by
  have htrans : IsTrans α fun a b => r (key a) (key b) := ⟨fun _ _ _ => IsTrans.trans _ _ _⟩
  have htotal : Std.Total fun a b : α => r (key a) (key b) := ⟨fun _ _ => Std.Total.total _ _⟩
  exact List.pairwise_insertionSort _ l

variable [DecidableEq κ]

/-- Sorting leaves the first member of a key in front of the others. -/
theorem find?_insertionSort (l : List α) (k : κ) :
    (l.insertionSort fun a b => r (key a) (key b)).find? (fun a => key a = k) =
      l.find? fun a => key a = k := by
  have htrans : IsTrans α fun a b => r (key a) (key b) := ⟨fun _ _ _ => IsTrans.trans _ _ _⟩
  have htotal : Std.Total fun a b : α => r (key a) (key b) := ⟨fun _ _ => Std.Total.total _ _⟩
  have halike : (l.filter fun a => key a = k).Pairwise fun a b => r (key a) (key b) := by
    apply List.pairwise_of_forall_mem_list
    intro a ha b hb
    rw [of_decide_eq_true (List.mem_filter.mp ha).2, of_decide_eq_true (List.mem_filter.mp hb).2]
    exact (Std.Total.total k k).elim id id
  have hsublist := (List.sublist_insertionSort halike List.filter_sublist).filter fun a => key a = k
  rw [List.filter_filter] at hsublist
  simp only [Bool.and_self] at hsublist
  have hlength := ((List.perm_insertionSort (fun a b => r (key a) (key b)) l).filter
    fun a => key a = k).length_eq
  rw [← List.head?_filter, ← List.head?_filter, hsublist.eq_of_length hlength.symm]

end Sorting

/-! ## Both -/

variable [DecidableRel r] [IsTrans κ r] [Std.Total r] [Std.Antisymm r] [DecidableEq κ]

/-- What stays is the first member of its key. -/
theorem mem_distinct_iff {l : List α} {t : α} :
    t ∈ (l.insertionSort fun a b => r (key a) (key b)).destutter (fun a b => key a ≠ key b) ↔
      l.find? (fun a => key a = key t) = some t := by
  rw [← find?_insertionSort key r]
  have hsorted := pairwise_sorted key r l
  generalize l.insertionSort (fun a b => r (key a) (key b)) = sorted at hsorted ⊢
  rcases sorted with _ | ⟨a, rest⟩
  · simp
  · exact mem_destutter'_iff rest hsorted

/-- Sorting and removing repetitions leaves a strictly increasing list. -/
theorem pairwise_distinct (l : List α) :
    ((l.insertionSort fun a b => r (key a) (key b)).destutter
      fun a b => key a ≠ key b).Pairwise fun a b => r (key a) (key b) ∧ key a ≠ key b := by
  have hsorted := pairwise_sorted key r l
  generalize l.insertionSort (fun a b => r (key a) (key b)) = sorted at hsorted ⊢
  rcases sorted with _ | ⟨a, rest⟩
  · exact List.Pairwise.nil
  · exact pairwise_destutter' rest hsorted

variable (key r) in
/-- Lists in which the same members come first for their keys are reduced to one list. -/
theorem destutter_insertionSort_eq {l l' : List α}
    (h : ∀ k, l.find? (fun a => key a = k) = l'.find? fun a => key a = k) :
    (l.insertionSort fun a b => r (key a) (key b)).destutter (fun a b => key a ≠ key b) =
      (l'.insertionSort fun a b => r (key a) (key b)).destutter fun a b => key a ≠ key b := by
  have hirrefl : Std.Irrefl fun a b : α => r (key a) (key b) ∧ key a ≠ key b :=
    ⟨fun _ h => h.2 rfl⟩
  have hantisymm : Std.Antisymm fun a b : α => r (key a) (key b) ∧ key a ≠ key b :=
    ⟨fun a b hab hba => absurd (Std.Antisymm.antisymm _ _ hab.1 hba.1) hab.2⟩
  apply List.Pairwise.eq_of_mem_iff (pairwise_distinct l) (pairwise_distinct l')
  intro t
  rw [mem_distinct_iff, mem_distinct_iff, h]

end Erabi.Sorting

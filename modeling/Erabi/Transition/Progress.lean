/-
# Runs that come to an end

Steps that lower a weight make no longer run than the weight, in whatever order they are
taken.
-/
import Mathlib

namespace Transition

variable {σ : Type*} {R : σ → σ → Prop}

/-- A run of a given number of steps. -/
inductive Steps (R : σ → σ → Prop) : ℕ → σ → σ → Prop
  | refl (a : σ) : Steps R 0 a a
  | tail {n : ℕ} {a b c : σ} (hrun : Steps R n a b) (hstep : R b c) : Steps R (n + 1) a c

/-- With an invariant at hand: if every step lowers the weight, a run has at most as many
steps as it has lowered the weight by. -/
theorem Steps.length_le {I : σ → Prop} {weight : σ → ℕ} (hI : ∀ a b, I a → R a b → I b)
    (hweight : ∀ a b, I a → R a b → weight b < weight a) {n : ℕ} {a b : σ} (h : Steps R n a b)
    (ha : I a) : I b ∧ n + weight b ≤ weight a := by
  induction h with
  | refl => exact ⟨ha, (Nat.zero_add _).le⟩
  | tail _ hstep ih =>
    obtain ⟨hb, hle⟩ := ih ha
    have := hweight _ _ hb hstep
    exact ⟨hI _ _ hb hstep, by omega⟩

end Transition

/-
# Coupled runs of transactions

Two transactions that run from related stores end alike when both fail with one
error, or both return one value with related stores.
-/
import Erabi.Relational.Transaction

namespace Relational

namespace Transaction

variable {σ ε α β : Type} {R S : σ → σ → Prop} {s t : σ}

/-- Two results with one error, or with one value and stores that are related. -/
inductive Coupled (R : σ → σ → Prop) : Except ε (α × σ) → Except ε (α × σ) → Prop
  | failed (e : ε) : Coupled R (.error e) (.error e)
  | returned (a : α) {s t : σ} (related : R s t) : Coupled R (.ok (a, s)) (.ok (a, t))

namespace Coupled

/-- What one of two coupled runs returned, the other returned as well. -/
theorem of_ok {x y : Except ε (α × σ)} {a : α} (h : Coupled R x y) (hx : x = .ok (a, s)) :
    ∃ t, y = .ok (a, t) ∧ R s t := by
  cases h with
  | failed e => cases hx
  | returned b related =>
    cases hx
    exact ⟨_, rfl, related⟩

/-- Coupled runs fail together. -/
theorem of_error {x y : Except ε (α × σ)} {e : ε} (h : Coupled R x y) (hx : x = .error e) :
    y = .error e := by
  cases h with
  | failed e' => exact hx
  | returned b related => cases hx

/-- One run is coupled with itself. -/
theorem self (hR : ∀ s, R s s) (x : Except ε (α × σ)) : Coupled R x x := by
  rcases x with e | ⟨a, s⟩
  · exact .failed e
  · exact .returned a (hR s)

/-- Runs that end in equal stores are one run. -/
theorem eq {x y : Except ε (α × σ)} (h : Coupled Eq x y) : x = y := by
  cases h with
  | failed e => rfl
  | returned a related => rw [related]

/-- A coupling under a weaker relation. -/
theorem mono {x y : Except ε (α × σ)} (h : Coupled R x y) (hRS : ∀ s t, R s t → S s t) :
    Coupled S x y := by
  cases h with
  | failed e => exact .failed e
  | returned a related => exact .returned a (hRS _ _ related)

/-- What the first run is known to have reached may be added to the relation. -/
theorem and {P : σ → Prop} {x y : Except ε (α × σ)} (h : Coupled R x y)
    (hP : ∀ a s, x = .ok (a, s) → P s) : Coupled (fun s t => R s t ∧ P s) x y := by
  cases h with
  | failed e => exact .failed e
  | returned a related => exact .returned a ⟨related, hP a _ rfl⟩

/-- Sequences of coupled steps are coupled. -/
theorem bind {x y : Transaction σ ε α} {f g : α → Transaction σ ε β}
    (hx : Coupled R (x s) (y t))
    (hf : ∀ a s t, R s t → Coupled S (f a s) (g a t)) :
    Coupled S ((x >>= f) s) ((y >>= g) t) := by
  rw [bind_apply, bind_apply]
  rcases hxs : x s with e | ⟨a, s'⟩
  · rw [hx.of_error hxs]
    exact .failed e
  · obtain ⟨t', hyt, hR⟩ := hx.of_ok hxs
    rw [hyt]
    exact hf a s' t' hR

/-- Equivalent demands are coupled. -/
theorem require_bind {p q : Prop} [Decidable p] [Decidable q] {e : ε}
    {f g : Unit → Transaction σ ε β} (hpq : p ↔ q) (h : p → Coupled S (f () s) (g () t)) :
    Coupled S ((require p e >>= f) s) ((require q e >>= g) t) := by
  rw [bind_apply, bind_apply, require, require]
  by_cases hp : p
  · rw [if_pos hp, if_pos (hpq.mp hp)]
    exact h hp
  · rw [if_neg hp, if_neg fun hq => hp (hpq.mpr hq)]
    exact .failed e

/-- Searches for one value are coupled. -/
theorem orFail_bind {o : Option α} {e : ε} {f g : α → Transaction σ ε β}
    (h : ∀ a, o = some a → Coupled S (f a s) (g a t)) :
    Coupled S ((orFail o e >>= f) s) ((orFail o e >>= g) t) := by
  cases o with
  | none => exact .failed e
  | some a => exact h a rfl

/-- Computations without a state are coupled. -/
theorem lift_bind {x : Except ε α} {f g : α → Transaction σ ε β}
    (h : ∀ a, x = .ok a → Coupled S (f a s) (g a t)) :
    Coupled S ((lift x >>= f) s) ((lift x >>= g) t) := by
  cases x with
  | error e => exact .failed e
  | ok a => exact h a rfl

/-- A relation that may name the elements still to come goes through a fold. -/
theorem foldEach {R : List α → σ → σ → Prop} {f g : β → α → Transaction σ ε β}
    (hround : ∀ b a as s t, R (a :: as) s t → Coupled (R as) (f b a s) (g b a t)) :
    ∀ {as : List α} {b : β} {s t : σ}, R as s t →
      Coupled (R []) (foldEach f b as s) (foldEach g b as t) := by
  intro as
  induction as with
  | nil =>
    intro b s t h
    exact .returned b h
  | cons a as ih =>
    intro b s t h
    exact (hround b a as s t h).bind fun _ _ _ hrest => ih hrest

end Coupled

end Transaction

end Relational

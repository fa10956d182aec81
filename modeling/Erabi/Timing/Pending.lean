/-
# Pending deadlines

A deadline is a time before which something must not happen.  Of a deadline that
has passed nothing needs to be remembered; one that is pending may only be
replaced by a later one.  Then it can be told at any later time whether every
deadline set so far has passed.
-/
import Mathlib

namespace Timing

variable {T : Type*} [LinearOrder T] {now reading : T} {deadline : Option T} {d c : T}

/-- The deadline, forgotten when it has passed. -/
def unexpired (now : T) (deadline : Option T) : Option T := deadline.filter fun d => now < d

/-- The later one of a deadline that may be set and another one. -/
def later (deadline : Option T) (c : T) : T := deadline.elim c fun d => max d c

/-- The time has passed, or a deadline is pending that is not earlier. -/
def Kept (now : T) (deadline : Option T) (d : T) : Prop := d ≤ now ∨ ∃ d' ∈ deadline, d ≤ d'

/-- A deadline is kept while it stands. -/
theorem Kept.of_mem (h : d ∈ deadline) : Kept now deadline d := Or.inr ⟨d, h, le_rfl⟩

/-- A deadline is kept at a later time. -/
theorem Kept.at_later (h : Kept reading deadline d) (hle : reading ≤ now) : Kept now deadline d :=
  h.imp_left fun hd => hd.trans hle

/-- A reading of the clock may be old when the deadlines that have passed are
forgotten. -/
theorem Kept.unexpired (h : Kept now deadline d) (hle : reading ≤ now) :
    Kept now (unexpired reading deadline) d := by
  rcases h with hd | ⟨d', hd', hle'⟩
  · exact Or.inl hd
  · by_cases hpassed : reading < d'
    · exact Or.inr ⟨d', Option.mem_filter_iff.mpr ⟨hd', by simpa using hpassed⟩, hle'⟩
    · exact Or.inl (hle'.trans ((not_lt.mp hpassed).trans hle))

/-- A deadline is kept by a later one. -/
theorem Kept.later (h : Kept now deadline d) : Kept now (some (later deadline c)) d := by
  rcases h with hd | ⟨d', hd', hle'⟩
  · exact Or.inl hd
  · cases hd'
    exact Or.inr ⟨_, rfl, hle'.trans (le_max_left d' c)⟩

/-- When no deadline is pending, all have passed. -/
theorem Kept.passed (h : Kept now deadline d) (hpassed : ∀ d' ∈ deadline, d' ≤ now) : d ≤ now := by
  rcases h with hd | ⟨d', hd', hle'⟩
  · exact hd
  · exact hle'.trans (hpassed d' hd')

/-- The later of two is no earlier. -/
theorem le_later (deadline : Option T) (c : T) : c ≤ later deadline c := by
  cases deadline with
  | none => exact le_rfl
  | some d => exact le_max_right d c

end Timing

/-
# Runs of a deterministic system

A run is a finite list of inputs.  A property holds throughout a run when it
holds in the state after every prefix of the inputs, and a guard is met by a run
when it holds of every input in the state the input arrives in.
-/
import Mathlib

namespace Transition

variable {σ ι : Type*}

/-- The state after a run. -/
def after (step : σ → ι → σ) (s : σ) (inputs : List ι) : σ := inputs.foldl step s

/-- The run without input. -/
@[simp] theorem after_nil (step : σ → ι → σ) (s : σ) : after step s [] = s := rfl

/-- The run with one more input in front. -/
@[simp] theorem after_cons (step : σ → ι → σ) (s : σ) (i : ι) (is : List ι) :
    after step s (i :: is) = after step (step s i) is := rfl

theorem after_append (step : σ → ι → σ) (s : σ) (is js : List ι) :
    after step s (is ++ js) = after step (after step s is) js := List.foldl_append

/-- The property holds initially and after every input of the run. -/
def Throughout (step : σ → ι → σ) (P : σ → Prop) : σ → List ι → Prop
  | s, [] => P s
  | s, i :: is => P s ∧ Throughout step P (step s i) is

/-- Every input of the run meets the guard in the state it arrives in. -/
def Meets (step : σ → ι → σ) (G : σ → ι → Prop) : σ → List ι → Prop
  | _, [] => True
  | s, i :: is => G s i ∧ Meets step G (step s i) is

/-- A guard that holds everywhere is met by every run. -/
theorem meets_of_forall {step : σ → ι → σ} {G : σ → ι → Prop} (hG : ∀ s i, G s i) {s : σ}
    {is : List ι} : Meets step G s is := by
  induction is generalizing s with
  | nil => trivial
  | cons i is ih => exact ⟨hG s i, ih⟩

/-- Whether a run meets a decidable guard can be computed. -/
instance Meets.decidable (step : σ → ι → σ) (G : σ → ι → Prop) [∀ s i, Decidable (G s i)] :
    ∀ (s : σ) (is : List ι), Decidable (Meets step G s is)
  | _, [] => isTrue trivial
  | s, i :: is =>
    have := Meets.decidable step G (step s i) is
    inferInstanceAs (Decidable (G s i ∧ Meets step G (step s i) is))

/-- What holds throughout a run holds at its end. -/
theorem Throughout.atEnd {step : σ → ι → σ} {P : σ → Prop} {is : List ι} {s : σ}
    (h : Throughout step P s is) : P (after step s is) := by
  induction is generalizing s with
  | nil => exact h
  | cons i is ih => exact ih h.2

/-- A weaker property holds throughout as well. -/
theorem Throughout.mono {step : σ → ι → σ} {P Q : σ → Prop} (hPQ : ∀ s, P s → Q s)
    {is : List ι} {s : σ} (h : Throughout step P s is) : Throughout step Q s is := by
  induction is generalizing s with
  | nil => exact hPQ s h
  | cons i is ih => exact ⟨hPQ s h.1, ih h.2⟩

/-- A step-invariant holds at the end of every run. -/
theorem after_invariant {step : σ → ι → σ} {I : σ → Prop} (hstep : ∀ s i, I s → I (step s i))
    {s : σ} (hs : I s) (is : List ι) : I (after step s is) := by
  induction is generalizing s with
  | nil => exact hs
  | cons i is ih => exact ih (hstep s i hs)

/-- What every step of a relation keeps, its reflexive transitive closure keeps. -/
theorem keeps_of_reflTransGen {α : Type*} {R : α → α → Prop} {Q : α → Prop}
    (hstep : ∀ a b, R a b → Q a → Q b) {a b : α} (h : Relation.ReflTransGen R a b)
    (ha : Q a) : Q b := by
  induction h with
  | refl => exact ha
  | tail _ hR ih => exact hstep _ _ hR ih

/-- With an invariant `I` at hand: when a step from a state with `P` leads to a
state with `P` exactly if its input meets the guard, then `P` holds throughout a
run exactly if the run meets the guard. -/
theorem throughout_iff_meets {step : σ → ι → σ} {I P : σ → Prop} {G : σ → ι → Prop}
    (hI : ∀ s i, I s → I (step s i))
    (hP : ∀ s i, I s → P s → (P (step s i) ↔ G s i)) :
    ∀ {is : List ι} {s : σ}, I s → P s → (Throughout step P s is ↔ Meets step G s is) := by
  intro is
  induction is with
  | nil =>
    intro s _ hs
    exact ⟨fun _ => trivial, fun _ => hs⟩
  | cons i is ih =>
    intro s hIs hPs
    constructor
    · rintro ⟨_, hrest⟩
      have hnext : P (step s i) := by
        cases is with
        | nil => exact hrest
        | cons j js => exact hrest.1
      exact ⟨(hP s i hIs hPs).mp hnext, (ih (hI s i hIs) hnext).mp hrest⟩
    · rintro ⟨hg, hrest⟩
      have hnext : P (step s i) := (hP s i hIs hPs).mpr hg
      exact ⟨hPs, (ih (hI s i hIs) hnext).mpr hrest⟩

/-- The sufficient half, for guards that are not exact: a guard under which every
step keeps `P` keeps `P` throughout every run that meets it. -/
theorem throughout_of_meets {step : σ → ι → σ} {I P : σ → Prop} {G : σ → ι → Prop}
    (hI : ∀ s i, I s → I (step s i))
    (hP : ∀ s i, I s → P s → G s i → P (step s i)) :
    ∀ {is : List ι} {s : σ}, I s → P s → Meets step G s is → Throughout step P s is := by
  intro is
  induction is with
  | nil =>
    intro s _ hs _
    exact hs
  | cons i is ih =>
    intro s hIs hPs hmeets
    exact ⟨hPs, ih (hI s i hIs) (hP s i hIs hPs hmeets.1) hmeets.2⟩

end Transition

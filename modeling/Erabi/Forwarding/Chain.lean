/-
# Forwarding

A partial map in which a point either forwards to another one or stays.  When the
chain of every point comes to an end there is no cycle, all chains from a point meet
at its end, and a link to a point that does not lead back keeps all of this.
-/
import Mathlib

namespace Forwarding

variable {α : Type*} {next next' : α → Option α} {a b c : α}

/-! ## Chains -/

/-- One link. -/
def Link (next : α → Option α) (a b : α) : Prop := next a = some b

/-- The chain from `a` passes `b`. -/
def Leads (next : α → Option α) : α → α → Prop := Relation.ReflTransGen (Link next)

/-- The chain from `a` stops at a point that does not forward. -/
def Ends (next : α → Option α) (a : α) : Prop := ∃ b, Leads next a b ∧ next b = none

/-- A chain ends where nothing follows. -/
theorem Ends.of_stays (h : next a = none) : Ends next a := ⟨a, .refl, h⟩

/-- A chain ends when its next link does. -/
theorem Ends.of_link (h : next a = some b) (hb : Ends next b) : Ends next a := by
  obtain ⟨c, hc, hstays⟩ := hb
  exact ⟨c, .head h hc, hstays⟩

/-- A chain that stops passes every point only once it has passed the others. -/
theorem Leads.eq_of_stays (h : Leads next a b) (ha : next a = none) : b = a := by
  rcases Relation.ReflTransGen.cases_head h with rfl | ⟨c, hac, _⟩
  · rfl
  · rw [Link, ha] at hac
    cases hac

theorem Leads.total (hb : Leads next a b) (hc : Leads next a c) :
    Leads next b c ∨ Leads next c b := by
  refine Relation.ReflTransGen.total_of_right_unique ?_ hb hc
  intro x y z hy hz
  exact Option.some.inj (hy.symm.trans hz)

/-- Whatever a chain passes leads to its end. -/
theorem Leads.to_end (hb : Leads next a b) (hstays : next b = none) (hc : Leads next a c) :
    Leads next c b := by
  rcases hb.total hc with h | h
  · rw [h.eq_of_stays hstays]
    exact .refl
  · exact h

/-! ## No cycles -/

/-- The point after a point on a cycle is on the cycle. -/
theorem cycle_next (h : Relation.TransGen (Link next) a a) (hab : next a = some b) :
    Relation.TransGen (Link next) b b := by
  obtain ⟨c, hac, hca⟩ := Relation.TransGen.head'_iff.mp h
  have hbc : c = b := Option.some.inj (hac.symm.trans hab)
  subst hbc
  exact Relation.TransGen.tail' hca hac

/-- A chain that ends is not caught in a cycle. -/
theorem Ends.acyclic (h : Ends next a) : ¬ Relation.TransGen (Link next) a a := by
  obtain ⟨b, hab, hstays⟩ := h
  induction hab using Relation.ReflTransGen.head_induction_on with
  | refl =>
    intro hcycle
    obtain ⟨c, hbc, _⟩ := Relation.TransGen.head'_iff.mp hcycle
    rw [Link, hstays] at hbc
    cases hbc
  | head hac _ ih => exact fun hcycle => ih (cycle_next hcycle hac)

/-! ## Changed links -/

/-- Chains only depend on the links. -/
theorem Ends.congr (h : Ends next a) (hsame : ∀ x, next' x = next x) : Ends next' a := by
  have heq : next' = next := funext hsame
  rw [heq]
  exact h

/-- A new link from `b` to a point that does not lead back to `b` ends no chain
less. -/
theorem ends_of_link (hall : ∀ x, Ends next x) (hother : ∀ x, x ≠ b → next' x = next x)
    (hlink : next' b = some c) (hback : ¬ Leads next c b) (a : α) : Ends next' a := by
  -- The chain of a point that does not lead to `b` is what it was.
  have haway : ∀ x, ¬ Leads next x b → Ends next' x := by
    intro x hx
    obtain ⟨y, hxy, hstays⟩ := hall x
    induction hxy using Relation.ReflTransGen.head_induction_on with
    | refl =>
      have hne : y ≠ b := by
        rintro rfl
        exact hx .refl
      exact .of_stays ((hother y hne).trans hstays)
    | @head x z hxz _ ih =>
      have hne : x ≠ b := by
        rintro rfl
        exact hx .refl
      exact .of_link ((hother x hne).trans hxz) (ih fun hz => hx (.head hxz hz))
  have hb : Ends next' b := .of_link hlink (haway c hback)
  obtain ⟨y, hay, hstays⟩ := hall a
  induction hay using Relation.ReflTransGen.head_induction_on with
  | refl =>
    by_cases hyb : y = b
    · rw [hyb]
      exact hb
    · exact .of_stays ((hother y hyb).trans hstays)
  | @head x z hxz _ ih =>
    by_cases hxb : x = b
    · rw [hxb]
      exact hb
    · exact .of_link ((hother x hxb).trans hxz) ih

end Forwarding

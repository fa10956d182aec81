/-
# Sessions of transactions

A session runs one transaction after the other, each committed on its own.  When it
fails, what the earlier transactions have committed stays: the store a crash leaves
behind is the one after some of the commits.
-/
import Mathlib
import Erabi.Relational.Transaction

namespace Relational

/-- A session over stores `σ` that fails with errors `ε`. -/
def Session (σ ε α : Type) : Type := σ → Except ε α × σ

namespace Session

variable {σ ε α β : Type}

/-- The second session goes on with the store and the result of the first. -/
def andThen (x : Session σ ε α) (f : α → Session σ ε β) : Session σ ε β := fun s =>
  match x s with
  | (.error e, s') => (.error e, s')
  | (.ok a, s') => f a s'

instance : Monad (Session σ ε) where
  pure a := fun s => (.ok a, s)
  bind := andThen

/-- A transaction of its own. -/
def perform (x : Transaction σ ε α) : Session σ ε α := x.commit

/-- The current store. -/
def look : Session σ ε σ := fun s => (.ok s, s)

/-- A check that ends the session with `e` when it does not hold. -/
def check (p : Prop) [Decidable p] (e : ε) : Session σ ε Unit := fun s =>
  if p then (.ok (), s) else (.error e, s)

variable {x : Session σ ε α} {f : α → Session σ ε β} {s s' s'' : σ} {a : α} {b : β} {e : ε}

@[simp] theorem pure_apply : (pure a : Session σ ε α) s = (.ok a, s) := rfl

/-- What follows on a look at the state. -/
@[simp] theorem look_bind {g : σ → Session σ ε β} : (look >>= g) s = g s s := rfl

/-- A session after a first step that succeeds. -/
theorem bind_of_ok (h : x s = (.ok a, s')) : (x >>= f) s = f a s' := by
  show andThen x f s = _
  unfold andThen
  rw [h]

/-- A session after a first step that fails. -/
theorem bind_of_error (h : x s = (.error e, s')) : (x >>= f) s = (.error e, s') := by
  show andThen x f s = _
  unfold andThen
  rw [h]

/-- A session succeeds when both of its steps do. -/
theorem bind_eq_ok : (x >>= f) s = (.ok b, s'') ↔
    ∃ a s', x s = (.ok a, s') ∧ f a s' = (.ok b, s'') := by
  rcases hx : x s with ⟨e | a, s'⟩
  · rw [bind_of_error hx]
    constructor
    · intro h
      cases h
    · rintro ⟨a, s₁, h, _⟩
      cases h
  · rw [bind_of_ok hx]
    constructor
    · intro h
      exact ⟨a, s', rfl, h⟩
    · rintro ⟨a', s₁, h, hf⟩
      cases h
      exact hf

/-- What follows on a check. -/
theorem check_bind {p : Prop} [Decidable p] {g : Unit → Session σ ε β} :
    (check p e >>= g) s = if p then g () s else (.error e, s) := by
  by_cases hp : p
  · rw [if_pos hp]
    apply bind_of_ok
    exact if_pos hp
  · rw [if_neg hp]
    apply bind_of_error
    exact if_neg hp

/-- A session goes on after a check exactly when the check holds. -/
theorem check_bind_eq_ok {p : Prop} [Decidable p] {g : Unit → Session σ ε β} :
    (check p e >>= g) s = (.ok b, s') ↔ p ∧ g () s = (.ok b, s') := by
  rw [check_bind]
  by_cases hp : p
  · rw [if_pos hp]
    exact ⟨fun h => ⟨hp, h⟩, fun h => h.2⟩
  · rw [if_neg hp]
    constructor
    · intro h
      cases h
    · intro h
      exact absurd h.1 hp

end Session

end Relational

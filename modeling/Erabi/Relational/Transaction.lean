/-
# Transactions

A transaction reads and writes one store and either returns a value with the
new store or fails with an error.  A failed transaction has no new store: what
it wrote before the failure is gone, which is the rollback of the database.
-/
import Mathlib

namespace Relational

/-- A transaction over stores `σ` that fails with errors `ε`. -/
def Transaction (σ ε α : Type) : Type := σ → Except ε (α × σ)

namespace Transaction

variable {σ ε α β : Type}

instance : Monad (Transaction σ ε) where
  pure a := fun s => .ok (a, s)
  bind x f := fun s =>
    match x s with
    | .error e => .error e
    | .ok (a, s') => f a s'

/-! ## Statements -/

/-- The current store. -/
def read : Transaction σ ε σ := fun s => .ok (s, s)

/-- A change of the store. -/
def write (f : σ → σ) : Transaction σ ε Unit := fun s => .ok ((), f s)

/-- The failing transaction. -/
def fail (e : ε) : Transaction σ ε α := fun _ => .error e

/-- A check that fails with `e` when it does not hold. -/
def require (p : Prop) [Decidable p] (e : ε) : Transaction σ ε Unit := fun s =>
  if p then .ok ((), s) else .error e

/-- The value of an optional result, or the failure `e`. -/
def orFail (o : Option α) (e : ε) : Transaction σ ε α := fun s =>
  match o with
  | some a => .ok (a, s)
  | none => .error e

/-- The result of a computation that neither reads nor writes the store. -/
def lift (x : Except ε α) : Transaction σ ε α := fun s =>
  match x with
  | .ok a => .ok (a, s)
  | .error e => .error e

/-- The transaction with its failures translated. -/
def mapError {ε' : Type} (f : ε → ε') (x : Transaction σ ε α) : Transaction σ ε' α := fun s =>
  match x s with
  | .ok r => .ok r
  | .error e => .error (f e)

/-- One round for every element of a list, threading an accumulator. -/
def foldEach (f : β → α → Transaction σ ε β) : β → List α → Transaction σ ε β
  | b, [] => pure b
  | b, a :: as => do foldEach f (← f b a) as

/-- Runs a transaction against a store and commits it, or rolls it back. -/
def commit (x : Transaction σ ε α) (s : σ) : Except ε α × σ :=
  match x s with
  | .ok (a, s') => (.ok a, s')
  | .error e => (.error e, s)

/-! ## What a returning and a failing transaction did -/

@[simp] theorem pure_apply (a : α) (s : σ) :
    (pure a : Transaction σ ε α) s = .ok (a, s) := rfl

@[simp] theorem read_apply (s : σ) : (read : Transaction σ ε σ) s = .ok (s, s) := rfl

@[simp] theorem write_apply (f : σ → σ) (s : σ) :
    (write f : Transaction σ ε Unit) s = .ok ((), f s) := rfl

@[simp] theorem fail_apply (e : ε) (s : σ) : (fail e : Transaction σ ε α) s = .error e := rfl

theorem bind_apply (x : Transaction σ ε α) (f : α → Transaction σ ε β) (s : σ) :
    (x >>= f) s = match x s with
      | .error e => .error e
      | .ok (a, s') => f a s' := rfl

/-- A sequence after a first step that succeeds. -/
theorem bind_of_ok {x : Transaction σ ε α} {f : α → Transaction σ ε β} {s s' : σ} {a : α}
    (h : x s = .ok (a, s')) : (x >>= f) s = f a s' := by
  rw [bind_apply, h]

@[simp] theorem read_bind (f : σ → Transaction σ ε β) (s : σ) : (read >>= f) s = f s s := rfl

@[simp] theorem write_bind (g : σ → σ) (f : Unit → Transaction σ ε β) (s : σ) :
    (write g >>= f) s = f () (g s) := rfl

@[simp] theorem pure_bind' (a : α) (f : α → Transaction σ ε β) (s : σ) :
    ((pure a : Transaction σ ε α) >>= f) s = f a s := rfl

@[simp] theorem fail_bind (e : ε) (f : α → Transaction σ ε β) (s : σ) :
    ((fail e : Transaction σ ε α) >>= f) s = .error e := rfl

/-- A sequence succeeds when both of its steps do. -/
theorem bind_eq_ok {x : Transaction σ ε α} {f : α → Transaction σ ε β} {s s'' : σ} {b : β} :
    (x >>= f) s = .ok (b, s'') ↔ ∃ a s', x s = .ok (a, s') ∧ f a s' = .ok (b, s'') := by
  rw [bind_apply]
  rcases x s with e | ⟨a, s'⟩
  · simp
  · constructor
    · intro h
      exact ⟨a, s', rfl, h⟩
    · rintro ⟨a', s₁, h, hf⟩
      cases h
      exact hf

/-- A sequence fails in its first step or in its second. -/
theorem bind_eq_error {x : Transaction σ ε α} {f : α → Transaction σ ε β} {s : σ} {e : ε} :
    (x >>= f) s = .error e ↔
      x s = .error e ∨ ∃ a s', x s = .ok (a, s') ∧ f a s' = .error e := by
  rw [bind_apply]
  rcases x s with e' | ⟨a, s'⟩
  · simp
  · constructor
    · intro h
      exact Or.inr ⟨a, s', rfl, h⟩
    · rintro (h | ⟨a', s₁, h, hf⟩)
      · cases h
      · cases h
        exact hf

/-- A demand is met exactly when its condition holds. -/
@[simp] theorem require_eq_ok {p : Prop} [Decidable p] {e : ε} {s s' : σ} {u : Unit} :
    require p e s = .ok (u, s') ↔ p ∧ s' = s := by
  unfold require
  split
  · rename_i h
    simp only [Except.ok.injEq, Prod.mk.injEq, h, true_and]
    exact ⟨fun e => e.symm, fun e => e.symm⟩
  · rename_i h
    simp [h]

/-- A demand fails exactly when its condition does not hold. -/
@[simp] theorem require_eq_error {p : Prop} [Decidable p] {e e' : ε} {s : σ} :
    require p e s = .error e' ↔ ¬ p ∧ e' = e := by
  unfold require
  split
  · rename_i h
    simp [h]
  · rename_i h
    simp only [Except.error.injEq, h, not_false_eq_true, true_and]
    exact ⟨fun e => e.symm, fun e => e.symm⟩

/-- An optional value is found. -/
@[simp] theorem orFail_eq_ok {o : Option α} {e : ε} {s s' : σ} {a : α} :
    orFail o e s = .ok (a, s') ↔ o = some a ∧ s' = s := by
  cases o with
  | none => simp [orFail]
  | some b =>
    simp only [orFail, Except.ok.injEq, Prod.mk.injEq, Option.some.injEq]
    exact ⟨fun h => ⟨h.1, h.2.symm⟩, fun h => ⟨h.1, h.2.symm⟩⟩

/-- An optional value is missing. -/
@[simp] theorem orFail_eq_error {o : Option α} {e e' : ε} {s : σ} :
    orFail o e s = .error e' ↔ o = none ∧ e' = e := by
  cases o with
  | none =>
    simp only [orFail, Except.error.injEq, true_and]
    exact ⟨fun h => h.symm, fun h => h.symm⟩
  | some b => simp [orFail]

/-- A computation without a state succeeds and leaves the state. -/
@[simp] theorem lift_eq_ok {x : Except ε α} {s s' : σ} {a : α} :
    lift x s = .ok (a, s') ↔ x = .ok a ∧ s' = s := by
  cases x with
  | error e => simp [lift]
  | ok b =>
    simp only [lift, Except.ok.injEq, Prod.mk.injEq]
    exact ⟨fun h => ⟨h.1, h.2.symm⟩, fun h => ⟨h.1, h.2.symm⟩⟩

/-- Checking and continuing succeeds exactly when the check holds and the rest
succeeds. -/
theorem require_bind_eq_ok {p : Prop} [Decidable p] {e : ε} {f : Unit → Transaction σ ε β}
    {s s' : σ} {b : β} : (require p e >>= f) s = .ok (b, s') ↔ p ∧ f () s = .ok (b, s') := by
  rw [bind_eq_ok]
  constructor
  · rintro ⟨_, s₁, h, hf⟩
    obtain ⟨hp, rfl⟩ := require_eq_ok.mp h
    exact ⟨hp, hf⟩
  · rintro ⟨hp, hf⟩
    exact ⟨(), s, require_eq_ok.mpr ⟨hp, rfl⟩, hf⟩

/-- The same for a transaction that unfolds to a check and a rest, without running it. -/
theorem of_require_bind {p : Prop} [Decidable p] {e : ε} {f : Unit → Transaction σ ε β}
    {x : Transaction σ ε β} (hx : x = (require p e >>= f)) {s s' : σ} {b : β}
    (h : x s = .ok (b, s')) : p ∧ f () s = .ok (b, s') := by
  rw [hx] at h
  exact require_bind_eq_ok.mp h

/-- What follows on a value that was found. -/
theorem orFail_bind_eq_ok {o : Option α} {e : ε} {f : α → Transaction σ ε β}
    {s s' : σ} {b : β} :
    (orFail o e >>= f) s = .ok (b, s') ↔ ∃ a, o = some a ∧ f a s = .ok (b, s') := by
  rw [bind_eq_ok]
  constructor
  · rintro ⟨a, s₁, h, hf⟩
    obtain ⟨ho, rfl⟩ := orFail_eq_ok.mp h
    exact ⟨a, ho, hf⟩
  · rintro ⟨a, ho, hf⟩
    exact ⟨a, s, orFail_eq_ok.mpr ⟨ho, rfl⟩, hf⟩

/-- A check that holds is passed. -/
theorem require_bind_of {p : Prop} [Decidable p] {e : ε} {f : Unit → Transaction σ ε β} {s : σ}
    (h : p) : (require p e >>= f) s = f () s :=
  bind_of_ok (a := ()) (require_eq_ok.mpr ⟨h, rfl⟩)

/-- A failure after a demand. -/
theorem require_bind_eq_error {p : Prop} [Decidable p] {e e' : ε}
    {f : Unit → Transaction σ ε β} {s : σ} :
    (require p e >>= f) s = .error e' ↔ (¬ p ∧ e' = e) ∨ (p ∧ f () s = .error e') := by
  rw [bind_eq_error, require_eq_error]
  constructor
  · rintro (h | ⟨_, s₁, h, hf⟩)
    · exact Or.inl h
    · obtain ⟨hp, rfl⟩ := require_eq_ok.mp h
      exact Or.inr ⟨hp, hf⟩
  · rintro (h | ⟨hp, hf⟩)
    · exact Or.inl h
    · exact Or.inr ⟨(), s, require_eq_ok.mpr ⟨hp, rfl⟩, hf⟩

/-- A failure after a search. -/
theorem orFail_bind_eq_error {o : Option α} {e e' : ε}
    {f : α → Transaction σ ε β} {s : σ} :
    (orFail o e >>= f) s = .error e' ↔
      (o = none ∧ e' = e) ∨ ∃ a, o = some a ∧ f a s = .error e' := by
  rw [bind_eq_error, orFail_eq_error]
  constructor
  · rintro (h | ⟨a, s₁, h, hf⟩)
    · exact Or.inl h
    · obtain ⟨ho, rfl⟩ := orFail_eq_ok.mp h
      exact Or.inr ⟨a, ho, hf⟩
  · rintro (h | ⟨a, ho, hf⟩)
    · exact Or.inl h
    · exact Or.inr ⟨a, s, orFail_eq_ok.mpr ⟨ho, rfl⟩, hf⟩

/-- Renaming errors does not change successes. -/
@[simp] theorem mapError_eq_ok {ε' : Type} {f : ε → ε'} {x : Transaction σ ε α} {s s' : σ}
    {a : α} : mapError f x s = .ok (a, s') ↔ x s = .ok (a, s') := by
  unfold mapError
  rcases x s with e | r <;> simp

/-- What succeeds in sequence succeeds part by part, also outside transactions. -/
theorem except_bind_eq_ok {x : Except ε α} {f : α → Except ε β} {b : β} :
    (x >>= f) = .ok b ↔ ∃ a, x = .ok a ∧ f a = .ok b := by
  constructor
  · intro h
    cases x with
    | error e => cases h
    | ok a => exact ⟨a, rfl, h⟩
  · rintro ⟨a, rfl, hf⟩
    exact hf

/-- What succeeds for every element of a list, with the result known. -/
theorem except_mapM_eq_ok {f : α → Except ε β} {P : α → Prop} {g : α → β}
    (hf : ∀ a b, f a = .ok b ↔ P a ∧ b = g a) {as : List α} {bs : List β} :
    as.mapM f = .ok bs ↔ (∀ a ∈ as, P a) ∧ bs = as.map g := by
  induction as generalizing bs with
  | nil =>
    rw [List.mapM_nil]
    refine ⟨fun h => ⟨fun a ha => (by cases ha), (Except.ok.inj h).symm⟩, fun h => ?_⟩
    rw [h.2]
    rfl
  | cons a as ih =>
    rw [List.mapM_cons, except_bind_eq_ok, List.forall_mem_cons, List.map_cons]
    constructor
    · rintro ⟨b, hb, h⟩
      obtain ⟨bs, hbs, h⟩ := except_bind_eq_ok.mp h
      obtain ⟨hP, rfl⟩ := (hf a b).mp hb
      obtain ⟨hPs, rfl⟩ := ih.mp hbs
      cases h
      exact ⟨⟨hP, hPs⟩, rfl⟩
    · rintro ⟨⟨hP, hPs⟩, rfl⟩
      exact ⟨g a, (hf a _).mpr ⟨hP, rfl⟩, except_bind_eq_ok.mpr ⟨as.map g, ih.mpr ⟨hPs, rfl⟩, rfl⟩⟩

/-- What follows on a computation without a state. -/
theorem lift_bind_eq_ok {x : Except ε α} {f : α → Transaction σ ε β} {s s' : σ} {b : β} :
    (lift x >>= f) s = .ok (b, s') ↔ ∃ a, x = .ok a ∧ f a s = .ok (b, s') := by
  rw [bind_eq_ok]
  constructor
  · rintro ⟨a, s₁, h, hf⟩
    obtain ⟨hx, rfl⟩ := lift_eq_ok.mp h
    exact ⟨a, hx, hf⟩
  · rintro ⟨a, hx, hf⟩
    exact ⟨a, s, lift_eq_ok.mpr ⟨hx, rfl⟩, hf⟩

/-! ## Invariants of transactions -/

/-- A returning transaction keeps the predicate. -/
def Keeps (I : σ → Prop) (x : Transaction σ ε α) : Prop :=
  ∀ s a s', x s = .ok (a, s') → I s → I s'

/-- A sequence keeps what both of its steps keep. -/
theorem Keeps.bind {I : σ → Prop} {x : Transaction σ ε α} {f : α → Transaction σ ε β}
    (hx : Keeps I x) (hf : ∀ a, Keeps I (f a)) : Keeps I (x >>= f) := by
  intro s b s'' h hs
  obtain ⟨a, s', hxa, hfa⟩ := bind_eq_ok.mp h
  exact hf a s' b s'' hfa (hx s a s' hxa hs)

/-- A fold keeps what each of its steps keeps. -/
theorem Keeps.foldEach {I : σ → Prop} {f : β → α → Transaction σ ε β}
    (hf : ∀ b a, Keeps I (f b a)) (as : List α) (b : β) :
    Keeps I (Transaction.foldEach f b as) := by
  induction as generalizing b with
  | nil =>
    intro s b' s' h hs
    cases h
    exact hs
  | cons a as ih => exact Keeps.bind (hf b a) ih

/-- What a fold of statements that returns has done: one statement for every element. -/
theorem foldEach_induction {f : α → Transaction σ ε Unit} {Q : List α → σ → σ → Prop}
    (nil : ∀ s, Q [] s s)
    (cons : ∀ a as s s' s'', f a s = .ok ((), s') → Q as s' s'' → Q (a :: as) s s'')
    {as : List α} {s s' : σ} (h : Transaction.foldEach (fun _ => f) () as s = .ok ((), s')) :
    Q as s s' := by
  induction as generalizing s with
  | nil =>
    cases h
    exact nil _
  | cons a as ih =>
    obtain ⟨⟨⟩, s₁, ha, h⟩ := bind_eq_ok.mp h
    exact cons a as s s₁ s' ha (ih h)

/-! ## Failures of transactions -/

/-- The transaction fails with errors of `E` only. -/
def FailsWith (E : ε → Prop) (x : Transaction σ ε α) : Prop := ∀ s e, x s = .error e → E e

section FailsWith

variable {E : ε → Prop}

/-- A sequence fails as its steps do. -/
theorem FailsWith.bind {x : Transaction σ ε α} {f : α → Transaction σ ε β}
    (hx : FailsWith E x) (hf : ∀ a, FailsWith E (f a)) : FailsWith E (x >>= f) := by
  intro s e h
  rcases bind_eq_error.mp h with hfail | ⟨a, s', -, hfail⟩
  · exact hx s e hfail
  · exact hf a s' e hfail

/-- A fold fails as its steps do. -/
theorem FailsWith.foldEach {f : β → α → Transaction σ ε β} (hf : ∀ b a, FailsWith E (f b a))
    (as : List α) (b : β) : FailsWith E (Transaction.foldEach f b as) := by
  induction as generalizing b with
  | nil =>
    intro s e h
    cases h
  | cons a as ih => exact .bind (hf b a) ih

/-- A branch fails as its sides do. -/
theorem FailsWith.ite {p : Prop} [Decidable p] {x y : Transaction σ ε α}
    (hx : p → FailsWith E x) (hy : ¬ p → FailsWith E y) : FailsWith E (if p then x else y) := by
  by_cases h : p
  · rw [if_pos h]
    exact hx h
  · rw [if_neg h]
    exact hy h

theorem FailsWith.pure (a : α) : FailsWith E (pure a : Transaction σ ε α) := fun _ _ h => by
  cases h

theorem FailsWith.read : FailsWith E (read : Transaction σ ε σ) := fun _ _ h => by cases h

theorem FailsWith.write (f : σ → σ) : FailsWith E (write f : Transaction σ ε Unit) :=
  fun _ _ h => by cases h

/-- A demand fails with its error. -/
theorem FailsWith.require {p : Prop} [Decidable p] {e : ε} (he : ¬ p → E e) :
    FailsWith E (require p e : Transaction σ ε Unit) := by
  intro s e' h
  obtain ⟨hp, rfl⟩ := require_eq_error.mp h
  exact he hp

/-- A search fails with its error. -/
theorem FailsWith.orFail (o : Option α) {e : ε} (he : E e) :
    FailsWith E (orFail o e : Transaction σ ε α) := by
  intro s e' h
  rw [(orFail_eq_error.mp h).2]
  exact he

/-- A computation without a state fails with its errors. -/
theorem FailsWith.lift {x : Except ε α} (hx : ∀ e, x = .error e → E e) :
    FailsWith E (lift x : Transaction σ ε α) := by
  intro s e h
  cases x with
  | error e' =>
    cases h
    exact hx e rfl
  | ok a => cases h

end FailsWith

/-! ## Transactions as sequences of statements -/

/-- A returning transaction performs a sequence of statements of `R`. -/
def Performs (R : σ → σ → Prop) (x : Transaction σ ε α) : Prop :=
  ∀ s a s', x s = .ok (a, s') → Relation.ReflTransGen R s s'

section Performs

variable {R : σ → σ → Prop} {x : Transaction σ ε α}

/-- A sequence performs what its steps perform. -/
theorem Performs.bind {f : α → Transaction σ ε β} (hx : Performs R x)
    (hf : ∀ a, Performs R (f a)) : Performs R (x >>= f) := by
  intro s b s'' h
  obtain ⟨a, s', hxa, hfa⟩ := bind_eq_ok.mp h
  exact (hx s a s' hxa).trans (hf a s' b s'' hfa)

/-- A single statement performs itself. -/
theorem Performs.of_statement (h : ∀ s a s', x s = .ok (a, s') → R s s') : Performs R x :=
  fun s a s' hx => .single (h s a s' hx)

/-- The statements of a transaction are also statements of a wider relation. -/
theorem Performs.mono {R' : σ → σ → Prop} (hx : Performs R x) (h : ∀ s s', R s s' → R' s s') :
    Performs R' x := fun s a s' hxa => Relation.ReflTransGen.mono (fun _ _ hR => h _ _ hR) _ _
  (hx s a s' hxa)

/-- A transaction that only reads performs nothing. -/
theorem Performs.of_reads (h : ∀ s a s', x s = .ok (a, s') → s' = s) : Performs R x := by
  intro s a s' hx
  rw [h s a s' hx]

theorem Performs.pure (a : α) : Performs R (pure a : Transaction σ ε α) :=
  .of_reads fun s b s' h => by
    cases h
    rfl

/-- Reading performs nothing. -/
theorem Performs.read : Performs R (read : Transaction σ ε σ) :=
  .of_reads fun s b s' h => by
    cases h
    rfl

theorem Performs.fail (e : ε) : Performs R (fail e : Transaction σ ε α) :=
  .of_reads fun s b s' h => by cases h

theorem Performs.require (p : Prop) [Decidable p] (e : ε) : Performs R (require p e) :=
  .of_reads fun _ _ _ h => (require_eq_ok.mp h).2

theorem Performs.orFail (o : Option α) (e : ε) : Performs R (orFail o e : Transaction σ ε α) :=
  .of_reads fun _ _ _ h => (orFail_eq_ok.mp h).2

/-- A write performs its statement. -/
theorem Performs.write {f : σ → σ} (h : ∀ s, R s (f s)) :
    Performs R (write f : Transaction σ ε Unit) :=
  .of_statement fun s a s' hx => by
    cases hx
    exact h s

/-- Renaming errors does not change what is performed. -/
theorem Performs.mapError {ε' : Type} {f : ε → ε'} (hx : Performs R x) :
    Performs R (mapError f x) := fun s a s' h => hx s a s' (mapError_eq_ok.mp h)

/-- A fold performs what its steps perform. -/
theorem Performs.foldEach {f : β → α → Transaction σ ε β} (hf : ∀ b a, Performs R (f b a))
    (as : List α) (b : β) : Performs R (Transaction.foldEach f b as) := by
  induction as generalizing b with
  | nil => exact .pure b
  | cons a as ih => exact (hf b a).bind ih

/-- A rolled back transaction performs nothing. -/
theorem Performs.commit (hx : Performs R x) (s : σ) :
    Relation.ReflTransGen R s (x.commit s).2 := by
  unfold Transaction.commit
  rcases h : x s with e | ⟨a, s'⟩
  · exact .refl
  · exact hx s a s' h

end Performs

/-! ## Committing -/

/-- A transaction that succeeds is committed. -/
theorem commit_of_ok {x : Transaction σ ε α} {s s' : σ} {a : α} (h : x s = .ok (a, s')) :
    x.commit s = (.ok a, s') := by
  rw [commit, h]

/-- A transaction that fails leaves the state. -/
theorem commit_of_error {x : Transaction σ ε α} {s : σ} {e : ε} (h : x s = .error e) :
    x.commit s = (.error e, s) := by
  rw [commit, h]

/-- What a transaction keeps, its commit or rollback keeps. -/
theorem Keeps.commit {I : σ → Prop} {x : Transaction σ ε α} (hx : Keeps I x) {s : σ}
    (hs : I s) : I (x.commit s).2 := by
  rcases h : x s with e | ⟨a, s'⟩
  · rw [commit_of_error h]
    exact hs
  · rw [commit_of_ok h]
    exact hx s a s' h hs

end Transaction

end Relational

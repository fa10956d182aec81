/-
# Tables under a schema

A table whose rows satisfy the constraints of its schema.  A statement computes
the rows it would leave behind and is refused when they violate a constraint, so
that a table in which a constraint is broken cannot be built.
-/
import Mathlib
import Erabi.Relational.Table

namespace Relational

/-- A table whose rows satisfy `C`. -/
structure Constrained (ρ κ : Type*) (key : ρ → κ) (C : List ρ → Prop) where
  table : Table ρ κ key
  holds : C table.rows

namespace Constrained

variable {ρ κ : Type*} {key : ρ → κ} {C : List ρ → Prop}

/-- The rows of a constrained table. -/
def rows (t : Constrained ρ κ key C) : List ρ := t.table.rows

/-- The row stored under a key. -/
def find? [DecidableEq κ] (t : Constrained ρ κ key C) (k : κ) : Option ρ := t.table.find? k

/-- The table without rows, under a schema that admits it. -/
def empty (h : C []) : Constrained ρ κ key C := ⟨.empty, h⟩

/-- The rows a statement leaves behind, unless they violate the schema. -/
def commit? [DecidablePred C] (table : Table ρ κ key) : Option (Constrained ρ κ key C) :=
  if h : C table.rows then some ⟨table, h⟩ else none

theorem commit?_eq_some [DecidablePred C] {table : Table ρ κ key} {t : Constrained ρ κ key C} :
    commit? table = some t ↔ t.table = table := by
  unfold commit?
  constructor
  · intro h
    split at h
    · cases h
      rfl
    · cases h
  · rintro rfl
    exact dif_pos t.holds

end Constrained

end Relational

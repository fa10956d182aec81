/-
# Keyed tables

Rows of one relation under a primary key, with the statements a transactional
store is built from: lookup by key, insertion that respects the key, and an
`UPDATE ... SET ... WHERE ...` that reports how many rows it changed.
-/
import Mathlib

namespace Relational

/-! ## Tables -/

/-- Rows in insertion order whose keys are pairwise distinct, so a table in
which two rows share a primary key cannot be built. -/
structure Table (ρ κ : Type*) (key : ρ → κ) where
  rows : List ρ
  keysNodup : (rows.map key).Nodup

namespace Table

variable {ρ κ : Type*} {key : ρ → κ}

/-- The table without rows. -/
def empty : Table ρ κ key := ⟨[], List.nodup_nil⟩

/-- A table is its rows. -/
@[ext] theorem ext {t u : Table ρ κ key} (h : t.rows = u.rows) : t = u := by
  cases t; cases u; cases h; rfl

theorem eq_of_key_eq (t : Table ρ κ key) {r s : ρ} (hr : r ∈ t.rows) (hs : s ∈ t.rows)
    (h : key r = key s) : r = s :=
  List.inj_on_of_nodup_map t.keysNodup hr hs h

/-- The rows a predicate selects, in insertion order. -/
def select (t : Table ρ κ key) (p : ρ → Bool) : List ρ := t.rows.filter p

/-- The rows selected. -/
@[simp] theorem mem_select {t : Table ρ κ key} {p : ρ → Bool} {r : ρ} :
    r ∈ t.select p ↔ r ∈ t.rows ∧ p r = true := List.mem_filter

/-! ## Lookup -/

section Lookup

variable [DecidableEq κ]

/-- The row stored under a key. -/
def find? (t : Table ρ κ key) (k : κ) : Option ρ := t.rows.find? fun r => key r = k

@[simp] theorem find?_empty (k : κ) : (empty : Table ρ κ key).find? k = none := rfl

/-- The row under a key. -/
theorem find?_eq_some {t : Table ρ κ key} {k : κ} {r : ρ} :
    t.find? k = some r ↔ r ∈ t.rows ∧ key r = k := by
  constructor
  · intro h
    exact ⟨List.mem_of_find?_eq_some h, by simpa using List.find?_some h⟩
  · rintro ⟨hr, hk⟩
    have hsome : (t.rows.find? fun r => key r = k).isSome := by
      rw [List.find?_isSome]
      exact ⟨r, hr, by simpa using hk⟩
    obtain ⟨s, hs⟩ := Option.isSome_iff_exists.mp hsome
    have hks : key s = k := by simpa using List.find?_some hs
    have hsr : s = r := t.eq_of_key_eq (List.mem_of_find?_eq_some hs) hr (hks.trans hk.symm)
    rw [find?, hs, hsr]

/-- No row under a key. -/
theorem find?_eq_none {t : Table ρ κ key} {k : κ} :
    t.find? k = none ↔ ∀ r ∈ t.rows, key r ≠ k := by
  simp [find?, List.find?_eq_none]

/-- The row found has the key. -/
theorem key_of_find? {t : Table ρ κ key} {k : κ} {r : ρ} (h : t.find? k = some r) :
    key r = k := (find?_eq_some.mp h).2

/-- The row found is in the table. -/
theorem mem_of_find? {t : Table ρ κ key} {k : κ} {r : ρ} (h : t.find? k = some r) :
    r ∈ t.rows := (find?_eq_some.mp h).1

/-- Every row is found under its own key. -/
theorem find?_key {t : Table ρ κ key} {r : ρ} (h : r ∈ t.rows) : t.find? (key r) = some r :=
  find?_eq_some.mpr ⟨h, rfl⟩

end Lookup

/-! ## Insertion -/

section Insert

variable [DecidableEq κ]

/-- Keys stay distinct under an insertion. -/
theorem insert_keysNodup (t : Table ρ κ key) (r : ρ) (h : t.find? (key r) = none) :
    ((t.rows ++ [r]).map key).Nodup := by
  rw [List.map_append, List.nodup_append]
  refine ⟨t.keysNodup, by simp, ?_⟩
  intro a ha b hb hab
  obtain ⟨s, hs, hsk⟩ := List.mem_map.mp ha
  have hbr : b = key r := by simpa using hb
  exact find?_eq_none.mp h s hs (hsk.trans (hab.trans hbr))

/-- `INSERT`: refused when the primary key is already taken. -/
def insert? (t : Table ρ κ key) (r : ρ) : Option (Table ρ κ key) :=
  if h : t.find? (key r) = none then some ⟨t.rows ++ [r], t.insert_keysNodup r h⟩ else none

/-- A row is inserted under a new key. -/
theorem insert?_eq_some {t t' : Table ρ κ key} {r : ρ} :
    t.insert? r = some t' ↔ t.find? (key r) = none ∧ t'.rows = t.rows ++ [r] := by
  unfold insert?
  split
  · rename_i h
    simp only [Option.some.injEq, h, true_and]
    exact ⟨fun e => e ▸ rfl, fun e => Table.ext e.symm⟩
  · rename_i h
    simp [h]

/-- The rows after an insertion. -/
theorem mem_insert {t t' : Table ρ κ key} {r s : ρ} (h : t.insert? r = some t') :
    s ∈ t'.rows ↔ s ∈ t.rows ∨ s = r := by
  rw [(insert?_eq_some.mp h).2]
  simp

/-- A lookup after an insertion. -/
theorem find?_insert {t t' : Table ρ κ key} {r : ρ} (h : t.insert? r = some t') (k : κ) :
    t'.find? k = if key r = k then some r else t.find? k := by
  obtain ⟨hnone, hrows⟩ := insert?_eq_some.mp h
  split
  · rename_i hk
    exact find?_eq_some.mpr ⟨by simp [hrows], hk⟩
  · rename_i hk
    rcases hfind : t.find? k with _ | s
    · refine find?_eq_none.mpr fun s hs => ?_
      rcases (mem_insert h).mp hs with hs | rfl
      · exact find?_eq_none.mp hfind s hs
      · exact hk
    · exact find?_eq_some.mpr ⟨(mem_insert h).mpr (Or.inl (mem_of_find? hfind)),
        key_of_find? hfind⟩

end Insert

/-! ## From lists -/

section OfList

variable [DecidableEq κ]

/-- The table of the rows of a list, unless two of them share a key. -/
def ofList? (rows : List ρ) : Option (Table ρ κ key) :=
  if h : (rows.map key).Nodup then some ⟨rows, h⟩ else none

/-- Rows under distinct keys make a table. -/
theorem ofList?_of_nodup {rows : List ρ} (h : (rows.map key).Nodup) :
    ofList? rows = some (⟨rows, h⟩ : Table ρ κ key) := dif_pos h

/-- A table is made of rows under distinct keys. -/
theorem ofList?_eq_some {rows : List ρ} {t : Table ρ κ key} :
    ofList? rows = some t ↔ (rows.map key).Nodup ∧ t.rows = rows := by
  unfold ofList?
  split
  · rename_i h
    simp only [Option.some.injEq, h, true_and]
    exact ⟨fun e => e ▸ rfl, fun e => Table.ext e.symm⟩
  · rename_i h
    simp [h]

end OfList

/-! ## Update and deletion -/

section Update

/-- `UPDATE ... SET f WHERE p`, for an assignment that leaves the key alone. -/
def update (t : Table ρ κ key) (p : ρ → Bool) (f : ρ → ρ)
    (hf : ∀ r, key (f r) = key r := by intro; rfl) : Table ρ κ key where
  rows := t.rows.map fun r => if p r then f r else r
  keysNodup := by
    have hkeys : (t.rows.map fun r => if p r then f r else r).map key = t.rows.map key := by
      rw [List.map_map]
      refine List.map_congr_left fun r _ => ?_
      simp only [Function.comp_apply]
      split
      · exact hf r
      · rfl
    rw [hkeys]
    exact t.keysNodup

/-- The number of rows an `UPDATE` or a `DELETE` with this predicate changes. -/
def changed (t : Table ρ κ key) (p : ρ → Bool) : ℕ := t.rows.countP p

/-- `DELETE ... WHERE p`. -/
def delete (t : Table ρ κ key) (p : ρ → Bool) : Table ρ κ key where
  rows := t.rows.filter fun r => !p r
  keysNodup := (List.filter_sublist.map key).nodup t.keysNodup

/-- A statement whose predicate holds of one row only changes one row. -/
theorem changed_eq_one_of_unique {t : Table ρ κ key} {p : ρ → Bool} {r : ρ} (hr : r ∈ t.rows)
    (hp : p r = true) (honly : ∀ s ∈ t.rows, p s = true → s = r) : t.changed p = 1 := by
  have hnodup : t.rows.Nodup := List.Nodup.of_map key t.keysNodup
  have hfilter : t.rows.filter p = [r] := by
    refine List.perm_singleton.mp ?_
    refine (List.perm_ext_iff_of_nodup (hnodup.filter p) (List.nodup_singleton r)).mpr ?_
    intro s
    simp only [List.mem_filter, List.mem_singleton]
    exact ⟨fun ⟨hs, hps⟩ => honly s hs hps, fun e => e ▸ ⟨hr, hp⟩⟩
  rw [changed, List.countP_eq_length_filter, hfilter, List.length_singleton]

/-- The rows after an update. -/
theorem mem_update {t : Table ρ κ key} {p : ρ → Bool} {f : ρ → ρ}
    {hf : ∀ r, key (f r) = key r} {s : ρ} :
    s ∈ (t.update p f hf).rows ↔ ∃ r ∈ t.rows, (if p r then f r else r) = s := by
  simp [update]

/-- The rows after a deletion. -/
theorem mem_delete {t : Table ρ κ key} {p : ρ → Bool} {r : ρ} :
    r ∈ (t.delete p).rows ↔ r ∈ t.rows ∧ p r = false := by
  simp [delete]

variable [DecidableEq κ]

/-- A lookup after an update. -/
theorem find?_update (t : Table ρ κ key) (p : ρ → Bool) (f : ρ → ρ)
    (hf : ∀ r, key (f r) = key r) (k : κ) :
    (t.update p f hf).find? k = (t.find? k).map fun r => if p r then f r else r := by
  rcases h : t.find? k with _ | r
  · refine find?_eq_none.mpr fun s hs => ?_
    obtain ⟨r, hr, rfl⟩ := mem_update.mp hs
    have hk := find?_eq_none.mp h r hr
    split
    · rw [hf]; exact hk
    · exact hk
  · refine find?_eq_some.mpr ⟨mem_update.mpr ⟨r, mem_of_find? h, rfl⟩, ?_⟩
    have hk := key_of_find? h
    dsimp only
    split
    · rw [hf]; exact hk
    · exact hk

/-- A lookup after a deletion. -/
theorem find?_delete (t : Table ρ κ key) (p : ρ → Bool) (k : κ) :
    (t.delete p).find? k = (t.find? k).filter fun r => !p r := by
  rcases h : t.find? k with _ | r
  · refine find?_eq_none.mpr fun s hs => ?_
    exact find?_eq_none.mp h s (mem_delete.mp hs).1
  · rcases hp : p r with _ | _
    · rw [Option.filter_some_pos (by simp [hp])]
      exact find?_eq_some.mpr ⟨mem_delete.mpr ⟨mem_of_find? h, hp⟩, key_of_find? h⟩
    · rw [Option.filter_some_neg (by simp [hp])]
      refine find?_eq_none.mpr fun s hs hk => ?_
      obtain ⟨hs, hps⟩ := mem_delete.mp hs
      have hsr := t.eq_of_key_eq hs (mem_of_find? h) (hk.trans (key_of_find? h).symm)
      rw [hsr, hp] at hps
      exact Bool.noConfusion hps

/-- A statement whose predicate pins the key changes one row exactly when the
row under that key meets the predicate. -/
theorem changed_eq_one_iff {t : Table ρ κ key} {p : ρ → Bool} {k : κ}
    (hp : ∀ r, p r = true → key r = k) :
    t.changed p = 1 ↔ ∃ r, t.find? k = some r ∧ p r = true := by
  constructor
  · intro h
    have hpos : 0 < t.rows.countP p := by rw [changed] at h; omega
    obtain ⟨r, hr, hpr⟩ := List.countP_pos_iff.mp hpos
    exact ⟨r, find?_eq_some.mpr ⟨hr, hp r hpr⟩, hpr⟩
  · rintro ⟨r, hfind, hpr⟩
    have hr := mem_of_find? hfind
    exact changed_eq_one_of_unique hr hpr fun s hs hps =>
      t.eq_of_key_eq hs hr ((hp s hps).trans (hp r hpr).symm)

/-! ## What a selection sees of a statement -/

omit [DecidableEq κ] in
/-- A selection does not see an update of other rows into other rows. -/
theorem select_update {t : Table ρ κ key} {p q : ρ → Bool} {f : ρ → ρ}
    (hf : ∀ r, key (f r) = key r)
    (h : ∀ r ∈ t.rows, p r = true → q r = false ∧ q (f r) = false) :
    (t.update p f hf).select q = t.select q := by
  show (t.rows.map fun r => if p r then f r else r).filter q = t.rows.filter q
  rw [List.filter_map]
  have hsame : t.rows.filter (q ∘ fun r => if p r then f r else r) = t.rows.filter q := by
    refine List.filter_congr fun r hr => ?_
    rw [Function.comp_apply]
    split
    · rename_i hp
      rw [(h r hr hp).1, (h r hr hp).2]
    · rfl
  rw [hsame]
  conv_rhs => rw [← List.map_id (t.rows.filter q)]
  refine List.map_congr_left fun r hr => ?_
  obtain ⟨hr, hq⟩ := List.mem_filter.mp hr
  rw [id, if_neg]
  intro hp
  rw [(h r hr hp).1] at hq
  cases hq

omit [DecidableEq κ] in
/-- A selection does not see a deletion of other rows. -/
theorem select_delete {t : Table ρ κ key} {p q : ρ → Bool}
    (h : ∀ r ∈ t.rows, p r = true → q r = false) : (t.delete p).select q = t.select q := by
  show (t.rows.filter fun r => !p r).filter q = t.rows.filter q
  rw [List.filter_filter]
  refine List.filter_congr fun r hr => ?_
  cases hp : p r with
  | false => rw [Bool.not_false, Bool.and_true]
  | true => rw [h r hr hp, Bool.false_and]

/-- A selection sees a new row at its end. -/
theorem select_insert {t t' : Table ρ κ key} {r : ρ} {q : ρ → Bool} (h : t.insert? r = some t') :
    t'.select q = t.select q ++ if q r then [r] else [] := by
  rw [select, (insert?_eq_some.mp h).2, List.filter_append]
  congr 1
  cases hq : q r with
  | false => rw [if_neg (by simp), List.filter_cons_of_neg (by simp [hq]), List.filter_nil]
  | true => rw [if_pos rfl, List.filter_cons_of_pos (by simp [hq]), List.filter_nil]

omit [DecidableEq κ] in
/-- A statement that changes no row meets none. -/
theorem changed_eq_zero {t : Table ρ κ key} {p : ρ → Bool} :
    t.changed p = 0 ↔ ∀ r ∈ t.rows, p r = false := by
  rw [changed, List.countP_eq_zero]
  exact forall₂_congr fun r _ => by rw [Bool.not_eq_true]

/-! ## Replacement -/

/-- Keys stay distinct when a row is replaced. -/
theorem put_keysNodup (t : Table ρ κ key) (r : ρ) :
    (((t.delete fun s => key s = key r).rows ++ [r]).map key).Nodup :=
  insert_keysNodup _ r (find?_eq_none.mpr fun s hs => by simpa using (mem_delete.mp hs).2)

/-- The insertion of a map: the row takes the place of the row under its key. -/
def put (t : Table ρ κ key) (r : ρ) : Table ρ κ key :=
  ⟨(t.delete fun s => key s = key r).rows ++ [r], t.put_keysNodup r⟩

/-- The rows after a replacement. -/
theorem mem_put {t : Table ρ κ key} {r s : ρ} :
    s ∈ (t.put r).rows ↔ s ∈ t.rows ∧ key s ≠ key r ∨ s = r := by
  show s ∈ (t.delete _).rows ++ [r] ↔ _
  rw [List.mem_append, List.mem_singleton, mem_delete, decide_eq_false_iff_not]

/-- A lookup after a replacement. -/
theorem find?_put (t : Table ρ κ key) (r : ρ) (k : κ) :
    (t.put r).find? k = if key r = k then some r else t.find? k := by
  split
  · rename_i hk
    exact find?_eq_some.mpr ⟨mem_put.mpr (Or.inr rfl), hk⟩
  · rename_i hk
    rcases h : t.find? k with _ | s
    · refine find?_eq_none.mpr fun s hs => ?_
      rcases mem_put.mp hs with ⟨hs, _⟩ | rfl
      · exact find?_eq_none.mp h s hs
      · exact hk
    · have hks := key_of_find? h
      exact find?_eq_some.mpr
        ⟨mem_put.mpr (Or.inl ⟨mem_of_find? h, fun e => hk (e.symm.trans hks)⟩), hks⟩

end Update

/-- The rows of a table in another order are its rows under the same keys. -/
theorem keysNodup_of_perm {t : Table ρ κ key} {rows : List ρ} (h : rows.Perm t.rows) :
    (rows.map key).Nodup := (h.map key).nodup_iff.mpr t.keysNodup

/-! ## Images -/

section Image

variable {ν : Type*} {key' : ν → κ}

/-- The table of the images of the rows, under the same keys. -/
def map (t : Table ρ κ key) (f : ρ → ν) (hf : ∀ r, key' (f r) = key r) : Table ν κ key' where
  rows := t.rows.map f
  keysNodup := by
    have hkeys : (t.rows.map f).map key' = t.rows.map key := by
      rw [List.map_map]
      exact List.map_congr_left fun r _ => hf r
    rw [hkeys]
    exact t.keysNodup

/-- A lookup in a table of images. -/
theorem find?_map [DecidableEq κ] (t : Table ρ κ key) (f : ρ → ν) (hf : ∀ r, key' (f r) = key r)
    (k : κ) : (t.map f hf).find? k = (t.find? k).map f := by
  rw [find?, find?, map, List.find?_map]
  simp only [Function.comp_def, hf]

end Image

/-! ## Tables with the same rows -/

section Same

variable [DecidableEq κ] {t u : Table ρ κ key}

/-- Every key finds the same row in both tables. -/
def Same (t u : Table ρ κ key) : Prop := ∀ k, t.find? k = u.find? k

/-- Tables that are the same have the same rows. -/
theorem Same.mem {r : ρ} (h : t.Same u) : r ∈ t.rows ↔ r ∈ u.rows := by
  have hfound : ∀ v : Table ρ κ key, r ∈ v.rows ↔ v.find? (key r) = some r := fun v =>
    ⟨find?_key, mem_of_find?⟩
  rw [hfound, hfound, h]

/-- Tables with the same rows are the same. -/
theorem Same.of_mem (h : ∀ r, r ∈ t.rows ↔ r ∈ u.rows) : t.Same u := by
  intro k
  rcases hfind : t.find? k with _ | r
  · exact (find?_eq_none.mpr fun r hr => find?_eq_none.mp hfind r ((h r).mpr hr)).symm
  · obtain ⟨hr, hk⟩ := find?_eq_some.mp hfind
    exact (find?_eq_some.mpr ⟨(h r).mp hr, hk⟩).symm

/-- Tables that are the same list their rows in some order. -/
theorem Same.perm (h : t.Same u) : t.rows.Perm u.rows :=
  (List.perm_ext_iff_of_nodup (List.Nodup.of_map key t.keysNodup)
    (List.Nodup.of_map key u.keysNodup)).mpr fun _ => h.mem

/-- Replacement in tables that are the same. -/
theorem Same.put (h : t.Same u) (r : ρ) : (t.put r).Same (u.put r) := by
  intro k
  rw [find?_put, find?_put, h k]

/-- Deletion in tables that are the same. -/
theorem Same.delete (h : t.Same u) (p : ρ → Bool) : (t.delete p).Same (u.delete p) := by
  intro k
  rw [find?_delete, find?_delete, h k]

/-- Update of tables that are the same. -/
theorem Same.update (h : t.Same u) (p : ρ → Bool) (f : ρ → ρ) (hf : ∀ r, key (f r) = key r) :
    (t.update p f hf).Same (u.update p f hf) := by
  intro k
  rw [find?_update, find?_update, h k]

/-- An order that only ties rows of one key sorts both tables into one list. -/
theorem Same.sort (h : t.Same u) (le : ρ → ρ → Prop) [DecidableRel le] [Std.Total le]
    [IsTrans ρ le] (hties : ∀ r s, le r s → le s r → key r = key s) :
    t.rows.insertionSort le = u.rows.insertionSort le := by
  have hperm : (t.rows.insertionSort le).Perm (u.rows.insertionSort le) :=
    (List.perm_insertionSort _ _).trans (h.perm.trans (List.perm_insertionSort _ _).symm)
  refine List.Perm.eq_of_pairwise (fun r s hr hs hrs hsr => ?_)
    (List.pairwise_insertionSort le t.rows) (List.pairwise_insertionSort le u.rows) hperm
  rw [List.mem_insertionSort] at hr hs
  exact t.eq_of_key_eq hr (h.mem.mpr hs) (hties r s hrs hsr)

end Same

end Table

end Relational

/-
# JSON values

JSON values whose objects are kept as lists of fields.  A map that is ordered by
its keys has one list of fields for each of its contents: its keys are strictly
increasing.
-/
import Mathlib

namespace Json

/-! ## Numbers -/

/-- A character that may stand in the text of a number. -/
def numberChar (c : Char) : Bool := c.isDigit || c == '-' || c == '+' || c == '.' || c == 'e'

/-- A floating point number, by its shortest text. -/
structure FloatText where
  chars : List Char
  all_numberChar : chars.all numberChar = true
  pointed : (chars.any fun c => c == '.' || c == 'e') = true
  deriving DecidableEq

/-- An integer that is not negative, a negative one, or a floating point number. -/
inductive Number where
  | posInt (n : ℕ)
  /-- The integer `-(n + 1)`. -/
  | negInt (n : ℕ)
  | float (text : FloatText)
  deriving DecidableEq

end Json

/-! ## Values -/

/-- A JSON value. -/
inductive Json where
  | null
  | bool (value : Bool)
  | number (value : Json.Number)
  | string (value : String)
  | array (values : List Json)
  | object (fields : List (String × Json))

namespace Json

/-- The fields by their keys; of two fields with one key, the first one stays in
front. -/
def sortByKey {α : Type*} (fields : List (String × α)) : List (String × α) :=
  fields.insertionSort fun a b => a.1 ≤ b.1

/-- The object with these fields, as a map ordered by its keys keeps them. -/
def ofFields (fields : List (String × Json)) : Json := .object (sortByKey fields)

/-- An integer, as a number. -/
def ofInt : ℤ → Json
  | .ofNat n => .number (.posInt n)
  | .negSucc n => .number (.negInt n)

/-- A natural number. -/
def ofNat (n : ℕ) : Json := .number (.posInt n)

/-- An optional value, with null for none. -/
def ofOption {α : Type*} (write : α → Json) (value : Option α) : Json := value.elim .null write

/-- The value without a field. -/
def remove (key : String) : Json → Json
  | .object fields => .object (fields.filter fun field => field.1 ≠ key)
  | value => value

/-- The value with another value in a field. -/
def modify (key : String) (f : Json → Json) : Json → Json
  | .object fields =>
      .object (fields.map fun field => if field.1 = key then (key, f field.2) else field)
  | value => value

/-- The value of a field. -/
def get? : Json → String → Option Json
  | .object fields, key => fields.lookup key
  | _, _ => none

mutual

/-- The keys of every object in the value are strictly increasing. -/
def ordered : Json → Bool
  | .array values => orderedValues values
  | .object fields => decide ((fields.map Prod.fst).Pairwise (· < ·)) && orderedFields fields
  | .null => true
  | .bool _ => true
  | .number _ => true
  | .string _ => true

/-- The values have their keys in order. -/
def orderedValues : List Json → Bool
  | [] => true
  | value :: values => ordered value && orderedValues values

/-- The values of the fields have their keys in order. -/
def orderedFields : List (String × Json) → Bool
  | [] => true
  | (_, value) :: fields => ordered value && orderedFields fields

end

/-- Values are in order when each is. -/
theorem orderedValues_iff {values : List Json} :
    orderedValues values = true ↔ ∀ value ∈ values, value.ordered = true := by
  induction values with
  | nil => simp [orderedValues]
  | cons value values ih => simp [orderedValues, ih]

/-- The values of fields are in order when each is. -/
theorem orderedFields_iff {fields : List (String × Json)} :
    orderedFields fields = true ↔ ∀ field ∈ fields, field.2.ordered = true := by
  induction fields with
  | nil => simp [orderedFields]
  | cons field fields ih => simp [orderedFields, ih]

/-- A value whose objects are ordered. -/
structure Document where
  value : Json
  ordered : value.ordered = true

/-- Induction over a value: what holds of an array when it holds of its values, and of
an object when it holds of the values of its fields, holds of every value. -/
theorem induction {motive : Json → Prop} (null : motive .null) (bool : ∀ b, motive (.bool b))
    (number : ∀ n, motive (.number n)) (string : ∀ s, motive (.string s))
    (array : ∀ values, (∀ value ∈ values, motive value) → motive (.array values))
    (object : ∀ fields, (∀ field ∈ fields, motive field.2) → motive (.object fields))
    (value : Json) : motive value :=
  Json.rec (motive_2 := fun values => ∀ value ∈ values, motive value)
    (motive_3 := fun fields => ∀ field ∈ fields, motive field.2)
    (motive_4 := fun field => motive field.2)
    null bool number string array object
    (fun _ h => absurd h List.not_mem_nil)
    (fun _ _ head tail _ h => (List.mem_cons.mp h).elim (fun h => h ▸ head) (tail _))
    (fun _ h => absurd h List.not_mem_nil)
    (fun _ _ head tail _ h => (List.mem_cons.mp h).elim (fun h => h ▸ head) (tail _))
    (fun _ _ h => h) value

/-! ## Fields by their keys -/

section Fields

variable {α : Type*} {fields : List (String × α)} {key : String}

/-- The first field under its key. -/
@[simp]
theorem lookup_cons_key (key : String) (value : α) (fields : List (String × α)) :
    ((key, value) :: fields).lookup key = some value := by
  rw [List.lookup_cons, beq_self_eq_true]

/-- A field under another key is passed. -/
theorem lookup_cons_of_ne {key other : String} (h : key ≠ other) (value : α)
    (fields : List (String × α)) : ((other, value) :: fields).lookup key = fields.lookup key := by
  rw [List.lookup_cons, beq_false_of_ne h]

/-- Inserting in order does not change lookups. -/
theorem lookup_orderedInsert (field : String × α) (fields : List (String × α)) :
    (fields.orderedInsert (fun a b => a.1 ≤ b.1) field).lookup key =
      (field :: fields).lookup key := by
  induction fields with
  | nil => rfl
  | cons other fields ih =>
    rw [List.orderedInsert_cons]
    split
    · rfl
    · rename_i hle
      have hne : field.1 ≠ other.1 := fun heq => hle heq.le
      rw [List.lookup_cons, ih, List.lookup_cons, List.lookup_cons, List.lookup_cons]
      by_cases hkey : key = other.1
      · subst hkey
        rw [beq_self_eq_true, beq_false_of_ne hne.symm]
      · rw [beq_false_of_ne hkey]

/-- Sorting does not change lookups. -/
theorem lookup_sortByKey : (sortByKey fields).lookup key = fields.lookup key := by
  induction fields with
  | nil => rfl
  | cons field fields ih =>
    show (List.orderedInsert _ field (sortByKey fields)).lookup key = _
    rw [lookup_orderedInsert, List.lookup_cons, List.lookup_cons, ih]

/-- A field of an object made of fields. -/
@[simp]
theorem get?_ofFields (fields : List (String × Json)) (key : String) :
    (ofFields fields).get? key = fields.lookup key := lookup_sortByKey

/-- Sorting permutes the fields. -/
theorem sortByKey_perm (fields : List (String × α)) : (sortByKey fields).Perm fields :=
  List.perm_insertionSort _ fields

/-- Fields whose keys are increasing stay as they are. -/
theorem sortByKey_of_pairwise (h : (fields.map Prod.fst).Pairwise (· < ·)) :
    sortByKey fields = fields := by
  refine List.Pairwise.insertionSort_eq ((List.pairwise_map.mp h).imp ?_)
  exact fun hlt => hlt.le

/-- Sorted distinct keys increase. -/
theorem pairwise_sortByKey (h : (fields.map Prod.fst).Nodup) :
    ((sortByKey fields).map Prod.fst).Pairwise (· < ·) := by
  have hle : ((sortByKey fields).map Prod.fst).Pairwise (· ≤ ·) := by
    rw [List.pairwise_map]
    exact List.pairwise_insertionSort _ fields
  have hnodup : ((sortByKey fields).map Prod.fst).Nodup :=
    ((sortByKey_perm fields).map Prod.fst).nodup_iff.mpr h
  exact (hle.and hnodup).imp fun hlt => lt_of_le_of_ne hlt.1 hlt.2

/-- An object made of fields is in order. -/
theorem ordered_ofFields {fields : List (String × Json)} (hkeys : (fields.map Prod.fst).Nodup)
    (hvalues : ∀ field ∈ fields, field.2.ordered = true) : (ofFields fields).ordered = true := by
  rw [ofFields, ordered, Bool.and_eq_true, decide_eq_true_iff, orderedFields_iff]
  refine ⟨pairwise_sortByKey hkeys, ?_⟩
  intro field hfield
  exact hvalues field ((sortByKey_perm fields).mem_iff.mp hfield)

end Fields

end Json

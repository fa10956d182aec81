/-
# JSON values with unordered objects

Two values are the same when they differ only in the order of the fields of their
objects.  The canonical text is the same for exactly these values: it is the text of the
value with the fields of every object sorted.
-/
import Mathlib
import Erabi.Json.Canonical

namespace Json

/-! ## Distinct keys -/

mutual

/-- No key occurs twice in an object. -/
def distinct : Json → Bool
  | .array values => distinctValues values
  | .object fields => decide (fields.map Prod.fst).Nodup && distinctFields fields
  | .null => true
  | .bool _ => true
  | .number _ => true
  | .string _ => true

/-- The values have distinct keys. -/
def distinctValues : List Json → Bool
  | [] => true
  | value :: values => distinct value && distinctValues values

/-- The values of the fields have distinct keys. -/
def distinctFields : List (String × Json) → Bool
  | [] => true
  | (_, value) :: fields => distinct value && distinctFields fields

end

/-- Values have distinct keys when each has. -/
theorem distinctValues_iff {values : List Json} :
    distinctValues values = true ↔ ∀ value ∈ values, value.distinct = true := by
  induction values with
  | nil => simp [distinctValues]
  | cons value values ih => simp [distinctValues, ih]

/-- The values of fields have distinct keys when each has. -/
theorem distinctFields_iff {fields : List (String × Json)} :
    distinctFields fields = true ↔ ∀ field ∈ fields, field.2.distinct = true := by
  induction fields with
  | nil => simp [distinctFields]
  | cons field fields ih => simp [distinctFields, ih]

/-- Distinct keys in an array. -/
theorem distinct_array {values : List Json} :
    (Json.array values).distinct = true ↔ ∀ value ∈ values, value.distinct = true :=
  distinctValues_iff

/-- Distinct keys in an object. -/
theorem distinct_object {fields : List (String × Json)} : (Json.object fields).distinct = true ↔
    (fields.map Prod.fst).Nodup ∧ ∀ field ∈ fields, field.2.distinct = true := by
  rw [distinct, Bool.and_eq_true, decide_eq_true_iff, distinctFields_iff]

/-- A value whose objects are maps: no key occurs twice. -/
structure Value where
  json : Json
  distinct : json.distinct = true

/-! ## Equality -/

/-- Equal as numbers: the sign of a floating point zero does not count. -/
def Number.equal : Number → Number → Bool
  | .float text, .float text' =>
      let zeros := ["0.0".toList, "-0.0".toList]
      text = text' || (zeros.contains text.chars && zeros.contains text'.chars)
  | n, n' => n = n'

section Same

variable (equal : Number → Number → Bool)

mutual

/-- The same value when the order of the fields of an object does not count; numbers are
compared as given. -/
def same : Json → Json → Bool
  | .null, .null => true
  | .bool value, .bool value' => value = value'
  | .number n, .number n' => equal n n'
  | .string s, .string s' => s = s'
  | .array values, .array values' => sameValues values values'
  | .object fields, .object fields' =>
      fields.length = fields'.length && sameFields fields fields'
  | _, _ => false

/-- Values that are the same in turn. -/
def sameValues : List Json → List Json → Bool
  | [], [] => true
  | value :: values, value' :: values' => same value value' && sameValues values values'
  | _, _ => false

/-- Every field is a field of the other object with the same value. -/
def sameFields : List (String × Json) → List (String × Json) → Bool
  | [], _ => true
  | (key, value) :: fields, fields' =>
      (fields'.lookup key).any (same value) && sameFields fields fields'

end

/-- Lists of values are the same element by element. -/
theorem sameValues_iff {values values' : List Json} : sameValues equal values values' = true ↔
    List.Forall₂ (fun value value' => same equal value value' = true) values values' := by
  induction values generalizing values' with
  | nil =>
    cases values' with
    | nil => simp [sameValues]
    | cons value' values' => simp [sameValues]
  | cons value values ih =>
    cases values' with
    | nil => simp [sameValues]
    | cons value' values' => simp [sameValues, ih]

/-- Each field has the same value under its key. -/
theorem sameFields_iff {fields fields' : List (String × Json)} :
    sameFields equal fields fields' = true ↔ ∀ field ∈ fields, ∃ value',
      fields'.lookup field.1 = some value' ∧ same equal field.2 value' = true := by
  induction fields with
  | nil => simp [sameFields]
  | cons field fields ih =>
    rw [sameFields, Bool.and_eq_true, ih, List.forall_mem_cons, Option.any_eq_true]

end Same

/-! ## Sorted values -/

mutual

/-- The value with the fields of every object sorted by their keys. -/
def sorted : Json → Json
  | .array values => .array (sortedValues values)
  | .object fields => ofFields (sortedFields fields)
  | .null => .null
  | .bool value => .bool value
  | .number n => .number n
  | .string s => .string s

/-- Values with their keys in order. -/
def sortedValues : List Json → List Json
  | [] => []
  | value :: values => sorted value :: sortedValues values

/-- Fields whose values have their keys in order. -/
def sortedFields : List (String × Json) → List (String × Json)
  | [] => []
  | (key, value) :: fields => (key, sorted value) :: sortedFields fields

end

/-- The field with its value sorted. -/
def sortedField (field : String × Json) : String × Json := (field.1, field.2.sorted)

/-- An array in order. -/
theorem sorted_array (values : List Json) :
    (Json.array values).sorted = .array (values.map sorted) := by
  have hvalues : sortedValues values = values.map sorted := by
    induction values with
    | nil => rfl
    | cons value values ih => simp [sortedValues, ih]
  rw [sorted, hvalues]

/-- An object in order. -/
theorem sorted_object (fields : List (String × Json)) :
    (Json.object fields).sorted = ofFields (fields.map sortedField) := by
  have hfields : sortedFields fields = fields.map sortedField := by
    induction fields with
    | nil => rfl
    | cons field fields ih => simp [sortedFields, sortedField, ih]
  rw [sorted, hfields]

/-- The keys stay. -/
theorem keys_map_sortedField (fields : List (String × Json)) :
    (fields.map sortedField).map Prod.fst = fields.map Prod.fst := by
  rw [List.map_map]
  rfl

/-- A value with distinct keys can be brought in order. -/
theorem ordered_sorted {v : Json} (h : v.distinct = true) : v.sorted.ordered = true := by
  induction v using Json.induction with
  | null => rfl
  | bool b => rfl
  | number n => rfl
  | string s => rfl
  | array values ih =>
    rw [sorted_array, ordered, orderedValues_iff]
    intro value hvalue
    obtain ⟨value, hmem, rfl⟩ := List.mem_map.mp hvalue
    exact ih value hmem (distinct_array.mp h value hmem)
  | object fields ih =>
    obtain ⟨hkeys, hvalues⟩ := distinct_object.mp h
    rw [sorted_object]
    apply ordered_ofFields
    · rwa [keys_map_sortedField]
    · intro field hfield
      obtain ⟨field, hmem, rfl⟩ := List.mem_map.mp hfield
      exact ih field hmem (hvalues field hmem)

/-- Values are written alike in front of and behind the sorting of their fields. -/
theorem sortByKey_map {α β : Type*} (f : α → β) (fields : List (String × α)) :
    sortByKey (fields.map fun field => (field.1, f field.2)) =
      (sortByKey fields).map fun field => (field.1, f field.2) := by
  refine (List.map_insertionSort _ _ _ _ ?_).symm
  intro a _ b _
  exact Iff.rfl

/-- Sorting twice is sorting once. -/
theorem sortByKey_sortByKey {α : Type*} (fields : List (String × α)) :
    sortByKey (sortByKey fields) = sortByKey fields :=
  List.Pairwise.insertionSort_eq (List.pairwise_insertionSort _ fields)

/-- The order of the keys does not show in the text. -/
theorem write_sorted (v : Json) : v.sorted.write = v.write := by
  induction v using Json.induction with
  | null => rfl
  | bool b => rfl
  | number n => rfl
  | string s => rfl
  | array values ih =>
    have hvalues : (values.map sorted).map write = values.map write := by
      rw [List.map_map]
      exact List.map_congr_left ih
    rw [sorted_array, write, write, writeValues_eq, writeValues_eq, hvalues]
  | object fields ih =>
    have hfields : (fields.map sortedField).map (fun field => (field.1, field.2.write)) =
        fields.map fun field => (field.1, field.2.write) := by
      rw [List.map_map]
      apply List.map_congr_left
      intro field hfield
      rw [Function.comp_apply, sortedField, ih field hfield]
    rw [sorted_object, ofFields, write, write, writeFields_eq, writeFields_eq, sortByKey_map,
      sortByKey_sortByKey, ← sortByKey_map, hfields]

/-! ## The same values have the same sorted value -/

/-- With distinct keys a lookup finds each field. -/
theorem lookup_eq_some_iff {α : Type*} {fields : List (String × α)}
    (h : (fields.map Prod.fst).Nodup) {key : String} {value : α} :
    fields.lookup key = some value ↔ (key, value) ∈ fields := by
  induction fields with
  | nil => simp
  | cons field fields ih =>
    rw [List.map_cons, List.nodup_cons] at h
    by_cases hkey : key = field.1
    · subst hkey
      constructor
      · intro hlookup
        rw [lookup_cons_key] at hlookup
        cases hlookup
        exact List.mem_cons_self
      · intro hmem
        rcases List.mem_cons.mp hmem with heq | hmem
        · rw [← heq]
          exact lookup_cons_key _ _ _
        · exact absurd (List.mem_map_of_mem (f := Prod.fst) hmem) h.1
    · rw [lookup_cons_of_ne hkey, ih h.2, List.mem_cons]
      constructor
      · exact Or.inr
      · rintro (heq | hmem)
        · exact absurd (congrArg Prod.fst heq) hkey
        · exact hmem

/-- Maps with the same fields are sorted alike. -/
theorem sortByKey_eq_iff {α : Type*} {fields fields' : List (String × α)}
    (h : (fields.map Prod.fst).Nodup) :
    sortByKey fields = sortByKey fields' ↔ fields.Perm fields' := by
  constructor
  · intro heq
    exact (sortByKey_perm fields).symm.trans (heq ▸ sortByKey_perm fields')
  · intro hperm
    have h' : (fields'.map Prod.fst).Nodup := (hperm.map Prod.fst).nodup_iff.mp h
    have hsorted := List.pairwise_map.mp (pairwise_sortByKey h)
    have hsorted' := List.pairwise_map.mp (pairwise_sortByKey h')
    have hall := (sortByKey_perm fields).trans (hperm.trans (sortByKey_perm fields').symm)
    refine hall.eq_of_pairwise ?_ hsorted hsorted'
    intro a b _ _ hlt hgt
    exact absurd (hlt.trans hgt) (lt_irrefl _)

/-- As many fields, and each of them a field of the other map. -/
theorem perm_iff_of_nodup {α : Type*} {fields fields' : List (String × α)}
    (h : (fields.map Prod.fst).Nodup) :
    fields.Perm fields' ↔ fields.length = fields'.length ∧ ∀ field ∈ fields, field ∈ fields' := by
  constructor
  · intro hperm
    exact ⟨hperm.length_eq, fun field hfield => hperm.mem_iff.mp hfield⟩
  · rintro ⟨hlength, hall⟩
    have hsub : fields.Subperm fields' := List.subperm_of_subset (h.of_map _) hall
    exact hsub.perm_of_length_le hlength.ge

/-- Values are the same when they are equal in order. -/
theorem same_iff_sorted (v : Json) : v.distinct = true → ∀ v' : Json, v'.distinct = true →
    (same (fun n n' => n = n') v v' = true ↔ v.sorted = v'.sorted) := by
  induction v using Json.induction with
  | null =>
    intro _ v' _
    cases v' with
    | _ => simp [same, sorted, ofFields]
  | bool b =>
    intro _ v' _
    cases v' with
    | _ => simp [same, sorted, ofFields]
  | number n =>
    intro _ v' _
    cases v' with
    | _ => simp [same, sorted, ofFields]
  | string s =>
    intro _ v' _
    cases v' with
    | _ => simp [same, sorted, ofFields]
  | array values ih =>
    intro h v' h'
    cases v' with
    | array values' =>
      rw [distinct_array] at h h'
      rw [sorted_array, sorted_array, Json.array.injEq, same, sameValues_iff]
      induction values generalizing values' with
      | nil =>
        cases values' with
        | nil => simp
        | cons value' values' => simp
      | cons value values ihvalues =>
        cases values' with
        | nil => simp
        | cons value' values' =>
          rw [List.forall_mem_cons] at h h' ih
          rw [List.forall₂_cons, List.map_cons, List.map_cons, List.cons.injEq,
            ih.1 h.1 value' h'.1, ihvalues ih.2 h.2 values' h'.2]
    | _ => simp [same, sorted, ofFields]
  | object fields ih =>
    intro h v' h'
    cases v' with
    | object fields' =>
      obtain ⟨hkeys, hvalues⟩ := distinct_object.mp h
      obtain ⟨hkeys', hvalues'⟩ := distinct_object.mp h'
      have hnodup : ((fields.map sortedField).map Prod.fst).Nodup := by
        rwa [keys_map_sortedField]
      rw [sorted_object, sorted_object, ofFields, ofFields, Json.object.injEq,
        sortByKey_eq_iff hnodup, perm_iff_of_nodup hnodup, same, Bool.and_eq_true,
        decide_eq_true_iff, sameFields_iff, List.length_map, List.length_map]
      apply and_congr Iff.rfl
      rw [List.forall_mem_map]
      -- The value of a field is looked up under its key.
      apply forall₂_congr
      intro field hfield
      constructor
      · rintro ⟨value', hlookup, hsame⟩
        have hmem := (lookup_eq_some_iff hkeys').mp hlookup
        rw [ih field hfield (hvalues field hfield) value' (hvalues' _ hmem)] at hsame
        rw [sortedField, hsame]
        exact List.mem_map_of_mem (f := sortedField) hmem
      · intro hmem
        obtain ⟨field', hmem', heq⟩ := List.mem_map.mp hmem
        obtain ⟨hkey, hvalue⟩ := Prod.mk.inj heq
        refine ⟨field'.2, (lookup_eq_some_iff hkeys').mpr ?_, ?_⟩
        · rw [← hkey]
          exact hmem'
        · rw [ih field hfield (hvalues field hfield) field'.2 (hvalues' _ hmem')]
          exact hvalue.symm
    | _ => simp [same, sorted, ofFields]

/-- The canonical texts of two maps are equal exactly when the maps are the same up to
the order of their fields. -/
theorem write_eq_write_iff (v v' : Value) :
    v.json.write = v'.json.write ↔ same (fun n n' => n = n') v.json v'.json = true := by
  rw [same_iff_sorted v.json v.distinct v'.json v'.distinct, ← write_sorted v.json,
    ← write_sorted v'.json]
  constructor
  · exact write_injective (ordered_sorted v.distinct) (ordered_sorted v'.distinct)
  · exact congrArg write

end Json

/-
# The size of JSON texts

Bounds on the number of bytes of a text, from the sizes of what stands in it.
-/
import Mathlib
import Erabi.Json.Unordered

namespace Json

open String (utf8Len)

/-! ## Strings -/

/-- A character of one byte that is written as it is. -/
def Plain (c : Char) : Prop := escapeChar c = [c] ∧ c.utf8Size = 1

instance (c : Char) : Decidable (Plain c) := inferInstanceAs (Decidable (_ ∧ _))

/-- Plain characters take one byte each. -/
theorem utf8Len_of_plain {text : List Char} (h : ∀ c ∈ text, Plain c) :
    utf8Len text = text.length := by
  induction text with
  | nil => rfl
  | cons c text ih =>
    rw [List.forall_mem_cons] at h
    rw [String.utf8Len_cons, ih h.2, h.1.2, List.length_cons]

/-- Plain characters are not escaped. -/
theorem escaped_of_plain {text : List Char} (h : ∀ c ∈ text, Plain c) : escaped text = text := by
  induction text with
  | nil => rfl
  | cons c text ih =>
    rw [List.forall_mem_cons] at h
    rw [escaped_cons, h.1.1, ih h.2]
    rfl

theorem utf8Len_quote {s : String} (h : ∀ c ∈ s.toList, Plain c) :
    utf8Len (quote s) = s.toList.length + 2 := by
  have hsize : '"'.utf8Size = 1 := rfl
  rw [quote, escaped_of_plain h, String.utf8Len_cons, String.utf8Len_append, utf8Len_of_plain h,
    String.utf8Len_cons, hsize]
  rfl

/-- Hexadecimal digits are plain. -/
theorem plain_hexDigit : ∀ n < 16, Plain (hexDigit n) := by decide

/-! ## Objects -/

/-- The text of an object with its fields in the order given. -/
def objectText (fields : List (String × List Char)) : List Char :=
  '{' :: (commaSeparated (fields.map fun field => quote field.1 ++ ':' :: field.2) ++ ['}'])

/-- The text of an object made of fields. -/
theorem write_ofFields (fields : List (String × Json)) : (ofFields fields).write =
    objectText (sortByKey (fields.map fun field => (field.1, write field.2))) := by
  rw [ofFields, write, writeFields_eq, sortByKey_map, sortByKey_sortByKey, ← sortByKey_map,
    objectText]

/-- The size of texts after commas. -/
theorem utf8Len_afterCommas (texts : List (List Char)) :
    utf8Len (afterCommas texts) = (texts.map utf8Len).sum + texts.length := by
  induction texts with
  | nil => rfl
  | cons text texts ih =>
    have hsize : ','.utf8Size = 1 := rfl
    rw [afterCommas, String.utf8Len_cons, String.utf8Len_append, ih, hsize, List.map_cons,
      List.sum_cons, List.length_cons]
    omega

/-- The size of texts between commas. -/
theorem utf8Len_commaSeparated_le (texts : List (List Char)) :
    utf8Len (commaSeparated texts) ≤ (texts.map utf8Len).sum + texts.length := by
  cases texts with
  | nil => exact le_rfl
  | cons text texts =>
    rw [commaSeparated, String.utf8Len_append, utf8Len_afterCommas, List.map_cons, List.sum_cons,
      List.length_cons]
    omega

/-- The size of a field with its colon and a comma. -/
def fieldSize (field : String × List Char) : ℕ :=
  utf8Len (quote field.1) + utf8Len field.2 + 2

/-- The size of an object's text. -/
theorem utf8Len_objectText_le (fields : List (String × List Char)) :
    utf8Len (objectText fields) ≤ (fields.map fieldSize).sum + 2 := by
  have hle := utf8Len_commaSeparated_le
    (fields.map fun field => quote field.1 ++ ':' :: field.2)
  have hsum : ((fields.map fun field => quote field.1 ++ ':' :: field.2).map utf8Len).sum +
      (fields.map fun field => quote field.1 ++ ':' :: field.2).length =
        (fields.map fieldSize).sum := by
    induction fields with
    | nil => rfl
    | cons field fields ih =>
      have hsize : ':'.utf8Size = 1 := rfl
      simp only [List.map_cons, List.sum_cons, List.length_cons, String.utf8Len_append,
        String.utf8Len_cons, fieldSize, hsize] at ih ⊢
      have hfields := ih (utf8Len_commaSeparated_le _)
      omega
  have hopen : '{'.utf8Size = 1 := rfl
  have hclose : utf8Len ['}'] = 1 := rfl
  rw [objectText, String.utf8Len_cons, String.utf8Len_append, hopen, hclose]
  omega

/-- The order of the fields does not matter for the size. -/
theorem utf8Len_write_ofFields_le (fields : List (String × Json)) :
    utf8Len (ofFields fields).write ≤
      (fields.map fun field => fieldSize (field.1, write field.2)).sum + 2 := by
  rw [write_ofFields]
  refine (utf8Len_objectText_le _).trans (le_of_eq ?_)
  rw [((sortByKey_perm _).map fieldSize).sum_eq, List.map_map]
  rfl

end Json

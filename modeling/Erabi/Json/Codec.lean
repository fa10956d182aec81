/-
# Values in JSON documents

A codec of a type writes its values as JSON values and reads them back.  A value
can be read from what is written, so that different values are written
differently.
-/
import Mathlib
import Erabi.Json.Value

namespace Json

/-- What can be written as a value and read back. -/
class Codec (α : Type*) where
  encode : α → Json
  decode : Json → Option α
  decode_encode : ∀ a, decode (encode a) = some a
  ordered_encode : ∀ a, (encode a).ordered = true
  /-- `null` is kept for the values that are absent. -/
  encode_ne_null : ∀ a, encode a ≠ .null

export Codec (encode decode)

variable {α β : Type*}

attribute [simp] Codec.decode_encode Codec.ordered_encode Codec.encode_ne_null

/-- What is encoded is known by its value. -/
theorem encode_injective [Codec α] : Function.Injective (encode : α → Json) := by
  intro a b h
  have hread : decode (encode a) = some b := by rw [h, Codec.decode_encode]
  rw [Codec.decode_encode] at hread
  exact Option.some.inj hread

/-! ## Fields -/

/-- A field that must be there. -/
def field [Codec α] (document : Json) (key : String) : Option α :=
  (document.get? key).bind decode

/-- The JSON value of a field that may be absent. -/
def encodeOption [Codec α] (value : Option α) : Json := value.elim .null encode

/-- Reads an optional value. -/
def decodeOption [Codec α] : Json → Option (Option α)
  | .null => some none
  | value => (decode value).map some

/-- A field that may be absent or `null`. -/
def optionalField [Codec α] (document : Json) (key : String) : Option (Option α) :=
  (document.get? key).elim (some none) decodeOption

/-- A field of an object made of fields. -/
@[simp]
theorem field_ofFields [Codec α] (fields : List (String × Json)) (key : String) :
    (field (ofFields fields) key : Option α) = (fields.lookup key).bind decode := by
  rw [field, get?_ofFields]

/-- An optional field of an object made of fields. -/
@[simp]
theorem optionalField_ofFields [Codec α] (fields : List (String × Json)) (key : String) :
    (optionalField (ofFields fields) key : Option (Option α)) =
      (fields.lookup key).elim (some none) decodeOption := by
  rw [optionalField, get?_ofFields]

/-- An optional value is read back. -/
@[simp]
theorem decodeOption_encodeOption [Codec α] (value : Option α) :
    decodeOption (encodeOption value) = some value := by
  cases value with
  | none => rfl
  | some a =>
    show decodeOption (encode a) = some (some a)
    rw [decodeOption, Codec.decode_encode]
    · rfl
    · exact Codec.encode_ne_null a

/-- An optional value is in order. -/
@[simp]
theorem ordered_encodeOption [Codec α] (value : Option α) :
    (encodeOption value).ordered = true := by
  cases value with
  | none => rfl
  | some a => exact Codec.ordered_encode a

/-! ## Codecs -/

/-- Values that are written as strings. -/
@[reducible]
def Codec.ofText (toText : α → String) (fromText : String → Option α)
    (h : ∀ a, fromText (toText a) = some a) : Codec α where
  encode a := .string (toText a)
  decode
    | .string s => fromText s
    | _ => none
  decode_encode := h
  ordered_encode _ := rfl
  encode_ne_null _ := fun heq => by cases heq

instance : Codec String := Codec.ofText (fun s => s) some fun _ => rfl

instance : Codec Bool where
  encode := .bool
  decode
    | .bool b => some b
    | _ => none
  decode_encode _ := rfl
  ordered_encode _ := rfl
  encode_ne_null _ := fun heq => by cases heq

instance : Codec UInt64 where
  encode n := .number (.posInt n.toNat)
  decode
    | .number (.posInt n) => if n < UInt64.size then some (UInt64.ofNat n) else none
    | _ => none
  decode_encode n := by simp [UInt64.toNat_lt_size]
  ordered_encode _ := rfl
  encode_ne_null _ := fun heq => by cases heq

instance : Codec UInt32 where
  encode n := .number (.posInt n.toNat)
  decode
    | .number (.posInt n) => if n < UInt32.size then some (UInt32.ofNat n) else none
    | _ => none
  decode_encode n := by simp [UInt32.toNat_lt_size]
  ordered_encode _ := rfl
  encode_ne_null _ := fun heq => by cases heq

instance : Codec UInt16 where
  encode n := .number (.posInt n.toNat)
  decode
    | .number (.posInt n) => if n < UInt16.size then some (UInt16.ofNat n) else none
    | _ => none
  decode_encode n := by simp [UInt16.toNat_lt_size]
  ordered_encode _ := rfl
  encode_ne_null _ := fun heq => by cases heq

/-- A variant without data: its name, or an object with its name and no value. -/
def unitVariant (parse : String → Option α) : Json → Option α
  | .string name => parse name
  | .object [(name, .null)] => parse name
  | _ => none

/-- A list of values is read back. -/
theorem mapM_decode_encode [Codec α] (values : List α) :
    (values.map encode).mapM (decode : Json → Option α) = some values := by
  induction values with
  | nil => rfl
  | cons a values ih => simp [List.mapM_cons, ih]

instance [Codec α] : Codec (List α) where
  encode values := .array (values.map encode)
  decode
    | .array values => values.mapM decode
    | _ => none
  decode_encode := mapM_decode_encode
  ordered_encode values := by
    rw [ordered, orderedValues_iff]
    intro value hvalue
    obtain ⟨a, -, rfl⟩ := List.mem_map.mp hvalue
    exact Codec.ordered_encode a
  encode_ne_null _ := fun heq => by cases heq

/-- The fields of an object, each one with its JSON value. -/
structure Object where
  fields : List (String × Json)
  ordered : (Json.object fields).ordered = true

instance : Codec Object where
  encode o := .object o.fields
  decode
    | .object fields => if h : (Json.object fields).ordered = true then some ⟨fields, h⟩ else none
    | _ => none
  decode_encode o := by simp [o.ordered]
  ordered_encode o := o.ordered
  encode_ne_null _ := fun heq => by cases heq

end Json

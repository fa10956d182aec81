/-
# Hashes of canonical JSON

The hash of a value is the SHA-256 digest of its canonical JSON text, written in
hexadecimal digits.  SHA-256 itself is a parameter.  Equal texts are texts of values that
are equal up to the order of the fields of their objects.
-/
import Mathlib
import Erabi.Json.Unordered

namespace Erabi.Snapshot

open Json

/-- A byte in two digits. -/
def hexByte (byte : UInt8) : List Char :=
  [hexDigit (byte.toNat >>> 4), hexDigit (byte.toNat &&& 15)]

/-- Bytes in hexadecimal digits. -/
def hexEncode (bytes : List UInt8) : String := String.ofList (bytes.flatMap hexByte)

/-- A SHA-256 hash from canonical JSON with recursively sorted object keys. -/
def canonicalSha256 (sha256 : ByteArray → List UInt8) (value : Json) : String :=
  hexEncode (sha256 (String.ofList value.write).toUTF8)

/-- A byte is known by its digits. -/
theorem hexByte_injective : Function.Injective hexByte := by
  have hbytes : ∀ n < 256, ∀ m < 256,
      hexDigit (n >>> 4) = hexDigit (m >>> 4) → hexDigit (n &&& 15) = hexDigit (m &&& 15) →
        n = m := by
    intro n hn m hm hhigh hlow
    have hvalue : ∀ k < 16, hexDigitValue (hexDigit k) = k := hexDigitValue_hexDigit
    have hand : ∀ k, k &&& 15 = k % 16 := fun k => Nat.and_two_pow_sub_one_eq_mod k 4
    have hshift : ∀ k, k >>> 4 = k / 16 := fun k => Nat.shiftRight_eq_div_pow k 4
    simp only [hand, hshift] at hhigh hlow
    have hdiv : n / 16 = m / 16 := by
      rw [← hvalue (n / 16) (by omega), hhigh, hvalue (m / 16) (by omega)]
    have hmod : n % 16 = m % 16 := by
      rw [← hvalue (n % 16) (by omega), hlow, hvalue (m % 16) (by omega)]
    omega
  intro b c h
  obtain ⟨hhigh, hlow⟩ := List.cons.inj h
  exact UInt8.toNat_inj.mp (hbytes _ b.toNat_lt _ c.toNat_lt hhigh (List.cons.inj hlow).1)

/-- Bytes are known by their digits. -/
theorem hexEncode_injective : Function.Injective hexEncode := by
  intro bytes bytes' h
  have htext : bytes.flatMap hexByte = bytes'.flatMap hexByte := by
    have hlist := congrArg String.toList h
    rwa [hexEncode, hexEncode, String.toList_ofList, String.toList_ofList] at hlist
  clear h
  induction bytes generalizing bytes' with
  | nil =>
    cases bytes' with
    | nil => rfl
    | cons c bytes' => cases htext
  | cons b bytes ih =>
    cases bytes' with
    | nil => cases htext
    | cons c bytes' =>
      rw [List.flatMap_cons, List.flatMap_cons] at htext
      obtain ⟨hbyte, htail⟩ := List.append_inj htext rfl
      rw [hexByte_injective hbyte, ih htail]

/-- Where SHA-256 does not collide, equal hashes are hashes of equal texts. -/
theorem write_eq_of_canonicalSha256_eq {sha256 : ByteArray → List UInt8}
    (hsha : Function.Injective sha256) {v v' : Json}
    (heq : canonicalSha256 sha256 v = canonicalSha256 sha256 v') : v.write = v'.write := by
  have hbytes := hsha (hexEncode_injective heq)
  rw [String.toUTF8_eq_toByteArray, String.toUTF8_eq_toByteArray, String.toByteArray_inj] at hbytes
  have htext := congrArg String.toList hbytes
  rwa [String.toList_ofList, String.toList_ofList] at htext

/-- Where SHA-256 does not collide, a value whose objects are ordered is determined by
its hash. -/
theorem canonicalSha256_injective {sha256 : ByteArray → List UInt8}
    (hsha : Function.Injective sha256) {v v' : Json} (h : v.ordered = true)
    (h' : v'.ordered = true) (heq : canonicalSha256 sha256 v = canonicalSha256 sha256 v') :
    v = v' :=
  write_injective h h' (write_eq_of_canonicalSha256_eq hsha heq)

/-! ## Writing canonical JSON -/

/-- The values one behind the other, each one but the first behind a comma. -/
def writeElements (index : ℕ) : List (List Char → List Char) → List Char → List Char
  | [], output => output
  | writeValue :: rest, output =>
      let output := if 0 < index then output ++ [','] else output
      writeElements (index + 1) rest (writeValue output)

/-- The key of an entry in front of its value. -/
def writeEntry (entry : String × (List Char → List Char)) (output : List Char) : List Char :=
  entry.2 (output ++ quote entry.1 ++ [':'])

mutual

/-- The value is written behind the output. -/
def writeCanonicalJson : Json → List Char → List Char
  | .null, output => output ++ "null".toList
  | .bool value, output => output ++ if value then "true".toList else "false".toList
  | .number value, output => output ++ value.text
  | .string value, output => output ++ quote value
  | .array values, output => writeElements 0 (valueWriters values) (output ++ ['[']) ++ [']']
  | .object values, output =>
      let entries := sortByKey (entryWriters values)
      writeElements 0 (entries.map writeEntry) (output ++ ['{']) ++ ['}']

/-- What writes the values of an array. -/
def valueWriters : List Json → List (List Char → List Char)
  | [] => []
  | value :: values => writeCanonicalJson value :: valueWriters values

/-- What writes the values of an object, with their keys. -/
def entryWriters : List (String × Json) → List (String × (List Char → List Char))
  | [] => []
  | (key, value) :: values => (key, writeCanonicalJson value) :: entryWriters values

end

/-- The canonical texts of values. -/
theorem valueWriters_eq (values : List Json) :
    valueWriters values = values.map writeCanonicalJson := by
  induction values with
  | nil => rfl
  | cons value values ih => simp [valueWriters, ih]

/-- The canonical texts of fields. -/
theorem entryWriters_eq (fields : List (String × Json)) :
    entryWriters fields = fields.map fun field => (field.1, writeCanonicalJson field.2) := by
  induction fields with
  | nil => rfl
  | cons field fields ih => simp [entryWriters, ih]

/-- Values that are written behind the output are separated by commas. -/
theorem writeElements_eq {α : Type*} {writer : α → List Char → List Char} {text : α → List Char}
    {xs : List α} (h : ∀ x ∈ xs, ∀ output, writer x output = output ++ text x)
    (index : ℕ) (output : List Char) :
    writeElements index (xs.map writer) output =
      output ++ if 0 < index then afterCommas (xs.map text) else commaSeparated (xs.map text) := by
  induction xs generalizing index output with
  | nil =>
    rw [List.map_nil, List.map_nil, writeElements, afterCommas, commaSeparated, ite_self,
      List.append_nil]
  | cons x xs ih =>
    have hrest := ih fun y hy => h y (List.mem_cons_of_mem _ hy)
    rw [List.map_cons, List.map_cons, writeElements, hrest, if_pos (Nat.succ_pos index),
      h x List.mem_cons_self]
    by_cases hindex : 0 < index
    · simp [hindex, afterCommas]
    · simp [hindex, commaSeparated]

/-- What is written behind the output is the canonical text. -/
theorem writeCanonicalJson_eq (v : Json) (output : List Char) :
    writeCanonicalJson v output = output ++ v.write := by
  induction v using Json.induction generalizing output with
  | null => rw [writeCanonicalJson, write]; rfl
  | bool b => rw [writeCanonicalJson, write]; rfl
  | number n => rw [writeCanonicalJson, write]
  | string s => rw [writeCanonicalJson, write]
  | array values ih =>
    have hvalues : ∀ value ∈ values, ∀ output,
        writeCanonicalJson value output = output ++ write value := ih
    rw [writeCanonicalJson, valueWriters_eq, writeElements_eq hvalues, write, writeValues_eq]
    simp
  | object fields ih =>
    -- The entries are sorted before they are written.
    have hentries : ∀ field ∈ sortByKey fields, ∀ output,
        writeEntry (field.1, writeCanonicalJson field.2) output =
          output ++ (quote field.1 ++ ':' :: write field.2) := by
      intro field hfield output
      have hvalue := ih field ((sortByKey_perm fields).mem_iff.mp hfield)
      simp [writeEntry, hvalue]
    simp only [writeCanonicalJson, entryWriters_eq, sortByKey_map, List.map_map]
    rw [Function.comp_def, writeElements_eq hentries, write, writeFields_eq, sortByKey_map,
      List.map_map]
    simp [Function.comp_def]

/-- The canonical encodings of two values are equal exactly when the values are equal up
to the order of the fields of their objects, and so are the hashes where SHA-256 does not
collide. -/
theorem writeCanonicalJson_eq_iff (v v' : Value) :
    (writeCanonicalJson v.json [] = writeCanonicalJson v'.json [] ↔
        same (fun n n' => n = n') v.json v'.json = true) ∧
      ∀ sha256, Function.Injective sha256 →
        (canonicalSha256 sha256 v.json = canonicalSha256 sha256 v'.json ↔
          same (fun n n' => n = n') v.json v'.json = true) := by
  constructor
  · rw [writeCanonicalJson_eq, writeCanonicalJson_eq]
    exact write_eq_write_iff v v'
  · intro sha256 hsha
    rw [← write_eq_write_iff v v']
    constructor
    · exact write_eq_of_canonicalSha256_eq hsha
    · intro heq
      rw [canonicalSha256, heq, canonicalSha256]

/-- Floating point zeros of both signs are equal numbers with different encodings. -/
theorem writeCanonicalJson_zeros : ¬ ∀ v v' : Value,
    writeCanonicalJson v.json [] = writeCanonicalJson v'.json [] ↔
      same Number.equal v.json v'.json = true := by
  intro h
  have hequal := (h ⟨.number (.float ⟨"0.0".toList, by decide, by decide⟩), by decide⟩
    ⟨.number (.float ⟨"-0.0".toList, by decide, by decide⟩), by decide⟩).mpr (by decide)
  exact absurd hequal (by decide)

end Erabi.Snapshot

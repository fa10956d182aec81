/-
# Unique identifiers

Identifiers of 32 hexadecimal digits.  They are written in small letters with
hyphens and are read in each of the forms in use, in small and capital letters.
-/
import Mathlib
import Erabi.Json.Canonical
import Erabi.Json.Codec

/-- The base of the digits. -/
instance Uuid.neZero_base : NeZero 16 := inferInstance

/-- An identifier of thirty-two hexadecimal digits. -/
structure Uuid where
  digits : List (Fin 16)
  length_digits : digits.length = 32
  deriving DecidableEq

namespace Uuid

/-- The digits as text. -/
def hexText (digits : List (Fin 16)) : List Char := digits.map fun d => Json.hexDigit d.val

/-- The groups of 8, 4, 4, 4 and 12 digits with hyphens between them. -/
def hyphenated (u : Uuid) : String :=
  String.ofList (hexText (u.digits.take 8) ++ '-' :: (hexText ((u.digits.drop 8).take 4) ++
    '-' :: (hexText ((u.digits.drop 12).take 4) ++ '-' :: (hexText ((u.digits.drop 16).take 4) ++
      '-' :: hexText (u.digits.drop 20)))))

/-- Reads one digit in either case. -/
def readHexDigit (c : Char) : Option (Fin 16) :=
  if c.isDigit then some (Fin.ofNat 16 (c.toNat - '0'.toNat))
  else if 'a' ≤ c ∧ c ≤ 'f' then some (Fin.ofNat 16 (c.toNat - 'a'.toNat + 10))
  else if 'A' ≤ c ∧ c ≤ 'F' then some (Fin.ofNat 16 (c.toNat - 'A'.toNat + 10))
  else none

/-- Reads the digits without hyphens. -/
def parseSimple (text : List Char) : Option Uuid := do
  let digits ← text.mapM readHexDigit
  if h : digits.length = 32 then some ⟨digits, h⟩ else none

/-- Reads the digits with hyphens between their groups. -/
def parseHyphenated (text : List Char) : Option Uuid :=
  if text.length = 36 ∧ [8, 13, 18, 23].all fun i => text[i]? == some '-' then
    parseSimple (text.take 8 ++ ((text.drop 9).take 4 ++ ((text.drop 14).take 4 ++
      ((text.drop 19).take 4 ++ text.drop 24))))
  else none

/-- Reads 32 digits, or digits with hyphens, which may stand in braces or behind
`urn:uuid:`. -/
def parse (s : String) : Option Uuid :=
  let text := s.toList
  if text.length = 32 then parseSimple text
  else if text.length = 36 then parseHyphenated text
  else if text.length = 38 ∧ text.head? = some '{' ∧ text.getLast? = some '}' then
    parseHyphenated ((text.drop 1).take 36)
  else if text.length = 45 ∧ text.take 9 = "urn:uuid:".toList then parseHyphenated (text.drop 9)
  else none

/-- A digit is read back. -/
theorem readHexDigit_hexDigit : ∀ d : Fin 16, readHexDigit (Json.hexDigit d) = some d := by
  decide

/-- Digits are read back. -/
theorem mapM_hexText (digits : List (Fin 16)) :
    (hexText digits).mapM readHexDigit = some digits := by
  induction digits with
  | nil => rfl
  | cons d digits ih =>
    rw [hexText, List.map_cons, List.mapM_cons, readHexDigit_hexDigit]
    show (do let rest ← (hexText digits).mapM readHexDigit; pure (d :: rest)) = some (d :: digits)
    rw [ih]
    rfl

/-- An identifier is read back without hyphens. -/
theorem parseSimple_hexText (u : Uuid) : parseSimple (hexText u.digits) = some u := by
  simp [parseSimple, mapM_hexText, u.length_digits]

/-- An identifier is read back. -/
theorem parse_hyphenated (u : Uuid) : parse u.hyphenated = some u := by
  have hlength := u.length_digits
  -- the five groups put together are the digits again
  have hdigits : hexText (u.digits.take 8) ++ (hexText ((u.digits.drop 8).take 4) ++
      (hexText ((u.digits.drop 12).take 4) ++ (hexText ((u.digits.drop 16).take 4) ++
        hexText (u.digits.drop 20)))) = hexText u.digits := by
    simp only [hexText, ← List.map_append]
    congr 1
    rw [show u.digits.drop 20 = (u.digits.drop 16).drop 4 by simp, List.take_append_drop,
      show u.digits.drop 16 = (u.digits.drop 12).drop 4 by simp, List.take_append_drop,
      show u.digits.drop 12 = (u.digits.drop 8).drop 4 by simp, List.take_append_drop,
      List.take_append_drop]
  have hread := parseSimple_hexText u
  rw [← hdigits] at hread
  generalize ha : hexText (u.digits.take 8) = a at hread
  generalize hb : hexText ((u.digits.drop 8).take 4) = b at hread
  generalize hc : hexText ((u.digits.drop 12).take 4) = c at hread
  generalize hd : hexText ((u.digits.drop 16).take 4) = d at hread
  generalize he : hexText (u.digits.drop 20) = e at hread
  have hla : a.length = 8 := by simp [← ha, hexText, hlength]
  have hlb : b.length = 4 := by simp [← hb, hexText, hlength]
  have hlc : c.length = 4 := by simp [← hc, hexText, hlength]
  have hld : d.length = 4 := by simp [← hd, hexText, hlength]
  have hle : e.length = 12 := by simp [← he, hexText, hlength]
  have htext : u.hyphenated.toList = a ++ '-' :: (b ++ '-' :: (c ++ '-' :: (d ++ '-' :: e))) := by
    rw [hyphenated, String.toList_ofList, ha, hb, hc, hd, he]
  have hlen : (a ++ '-' :: (b ++ '-' :: (c ++ '-' :: (d ++ '-' :: e)))).length = 36 := by
    simp [hla, hlb, hlc, hld, hle]
  rw [parse, htext, if_neg (by rw [hlen]; decide), if_pos hlen, parseHyphenated, if_pos]
  -- the hyphens stand where the parser takes them out
  · have hda : ∀ n, 8 ≤ n → a.drop n = [] := fun n hn => List.drop_of_length_le (by omega)
    have hdb : ∀ n, 4 ≤ n → b.drop n = [] := fun n hn => List.drop_of_length_le (by omega)
    have hdc : ∀ n, 4 ≤ n → c.drop n = [] := fun n hn => List.drop_of_length_le (by omega)
    have hdd : ∀ n, 4 ≤ n → d.drop n = [] := fun n hn => List.drop_of_length_le (by omega)
    simpa [List.take_append, List.drop_append, hla, hlb, hlc, hld, hda, hdb, hdc, hdd] using hread
  · refine ⟨hlen, ?_⟩
    simp [List.getElem?_append, hla, hlb, hlc, hld]

instance : Json.Codec Uuid := Json.Codec.ofText hyphenated parse parse_hyphenated

end Uuid

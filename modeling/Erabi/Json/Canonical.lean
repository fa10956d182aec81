/-
# The canonical text of a JSON value

The compact text of a value with the fields of every object sorted by their keys.
A text can be read in one way only: a value whose objects are ordered is
determined by its canonical text, and so is what follows that text.
-/
import Mathlib
import Erabi.Json.Value

namespace Json

/-! ## Strings -/

/-- A digit as a character. -/
def hexDigit (n : ℕ) : Char := "0123456789abcdef".toList.getD n '0'

/-- A character as it is written between quotes. -/
def escapeChar (c : Char) : List Char :=
  if c = '"' then ['\\', '"']
  else if c = '\\' then ['\\', '\\']
  else if c = '\x08' then ['\\', 'b']
  else if c = '\t' then ['\\', 't']
  else if c = '\n' then ['\\', 'n']
  else if c = '\x0c' then ['\\', 'f']
  else if c = '\r' then ['\\', 'r']
  else if c.toNat < 32 then ['\\', 'u', '0', '0', hexDigit (c.toNat / 16), hexDigit (c.toNat % 16)]
  else [c]

/-- The text of a string between its quotes. -/
def escaped (text : List Char) : List Char := text.flatMap escapeChar

/-- A string with its quotes. -/
def quote (s : String) : List Char := '"' :: (escaped s.toList ++ ['"'])

/-- The value of a digit. -/
def hexDigitValue (c : Char) : ℕ := "0123456789abcdef".toList.idxOf c

/-- The character that an escape sequence of one letter stands for. -/
def unescape (c : Char) : Char :=
  if c = 'b' then '\x08'
  else if c = 't' then '\t'
  else if c = 'n' then '\n'
  else if c = 'f' then '\x0c'
  else if c = 'r' then '\r'
  else c

/-- The first character that is written in front of a text, with what is left of the
text. -/
def readChar : List Char → Option (Char × List Char)
  | [] => none
  | '\\' :: text =>
      if text.take 3 = ['u', '0', '0'] then
        some (Char.ofNat (16 * hexDigitValue (text.getD 3 '0') + hexDigitValue (text.getD 4 '0')),
          text.drop 5)
      else text.head?.map fun c => (unescape c, text.drop 1)
  | c :: text => if c = '"' then none else some (c, text)

/-! ## Numbers -/

/-- The text of a number. -/
def Number.text : Number → List Char
  | .posInt n => Nat.toDigits 10 n
  | .negInt n => '-' :: Nat.toDigits 10 (n + 1)
  | .float text => text.chars

/-! ## Values -/

/-- The texts, each one behind a comma. -/
def afterCommas : List (List Char) → List Char
  | [] => []
  | text :: texts => ',' :: (text ++ afterCommas texts)

/-- Texts with commas between them. -/
def commaSeparated : List (List Char) → List Char
  | [] => []
  | text :: texts => text ++ afterCommas texts

mutual

/-- The canonical text of a value. -/
def write : Json → List Char
  | .null => ['n', 'u', 'l', 'l']
  | .bool value => if value then ['t', 'r', 'u', 'e'] else ['f', 'a', 'l', 's', 'e']
  | .number n => n.text
  | .string s => quote s
  | .array values => '[' :: (commaSeparated (writeValues values) ++ [']'])
  | .object fields =>
      '{' :: (commaSeparated ((sortByKey (writeFields fields)).map fun field =>
        quote field.1 ++ ':' :: field.2) ++ ['}'])

/-- The texts of values. -/
def writeValues : List Json → List (List Char)
  | [] => []
  | value :: values => write value :: writeValues values

/-- The fields with the texts of their values. -/
def writeFields : List (String × Json) → List (String × List Char)
  | [] => []
  | (key, value) :: fields => (key, write value) :: writeFields fields

end

/-- The texts of values, as a map. -/
theorem writeValues_eq (values : List Json) : writeValues values = values.map write := by
  induction values with
  | nil => rfl
  | cons value values ih => simp [writeValues, ih]

/-- The texts of fields, as a map. -/
theorem writeFields_eq (fields : List (String × Json)) :
    writeFields fields = fields.map fun field => (field.1, write field.2) := by
  induction fields with
  | nil => rfl
  | cons field fields ih => simp [writeFields, ih]

/-- The canonical text of an object whose keys are increasing keeps their order. -/
theorem write_object {fields : List (String × Json)}
    (h : (fields.map Prod.fst).Pairwise (· < ·)) :
    write (.object fields) =
      '{' :: (commaSeparated (fields.map fun field => quote field.1 ++ ':' :: write field.2) ++
        ['}']) := by
  have hkeys : ((writeFields fields).map Prod.fst).Pairwise (· < ·) := by
    rw [writeFields_eq, List.map_map]
    exact h
  rw [write, sortByKey_of_pairwise hkeys, writeFields_eq, List.map_map]
  rfl

/-! ## Reading strings -/

/-- A digit is read back. -/
theorem hexDigitValue_hexDigit : ∀ n < 16, hexDigitValue (hexDigit n) = n := by decide

/-- An escaped character is read back. -/
theorem readChar_escapeChar (c : Char) (text : List Char) :
    readChar (escapeChar c ++ text) = some (c, text) := by
  unfold escapeChar
  repeat' split
  case isFalse.isFalse.isFalse.isFalse.isFalse.isFalse.isFalse.isTrue hcontrol =>
    have hhigh := hexDigitValue_hexDigit (c.toNat / 16) (by omega)
    have hlow := hexDigitValue_hexDigit (c.toNat % 16) (by omega)
    simp [readChar, hhigh, hlow, Nat.div_add_mod]
  case isFalse.isFalse.isFalse.isFalse.isFalse.isFalse.isFalse.isFalse hquote _ _ _ _ _ _ _ =>
    simp [readChar, hquote]
  all_goals
    subst c
    simp [readChar, unescape]

/-- Strings are escaped character by character. -/
theorem escaped_cons (c : Char) (text : List Char) :
    escaped (c :: text) = escapeChar c ++ escaped text := List.flatMap_cons

/-- A quote ends a string. -/
theorem readChar_quote (text : List Char) : readChar ('"' :: text) = none := by
  simp [readChar]

/-- What follows a closing quote can be told from what is written in front of it. -/
theorem escaped_quote_inj {text text' rest rest' : List Char}
    (h : escaped text ++ '"' :: rest = escaped text' ++ '"' :: rest') :
    text = text' ∧ rest = rest' := by
  induction text generalizing text' with
  | nil =>
    cases text' with
    | nil => exact ⟨rfl, by simpa [escaped] using h⟩
    | cons c' text' =>
      have hread := congrArg readChar h
      rw [escaped_cons, List.append_assoc, readChar_escapeChar] at hread
      exact absurd hread (by simp [escaped, readChar_quote])
  | cons c text ih =>
    have hread := congrArg readChar h
    rw [escaped_cons, List.append_assoc, readChar_escapeChar] at hread
    cases text' with
    | nil => exact absurd hread (by simp [escaped, readChar_quote])
    | cons c' text' =>
      rw [escaped_cons, List.append_assoc, readChar_escapeChar] at hread
      obtain ⟨hchar, hrest⟩ := Prod.mk.inj (Option.some.inj hread)
      obtain ⟨htext, hend⟩ := ih hrest
      exact ⟨by rw [hchar, htext], hend⟩

/-- A quoted string is found at the front of a text. -/
theorem quote_inj {s s' : String} {rest rest' : List Char}
    (h : quote s ++ rest = quote s' ++ rest') : s = s' ∧ rest = rest' := by
  simp only [quote, List.cons_append, List.append_assoc, List.cons.injEq, true_and,
    List.nil_append] at h
  obtain ⟨hs, hrest⟩ := escaped_quote_inj h
  exact ⟨String.toList_injective hs, hrest⟩

/-! ## Reading numbers -/

/-- No number goes on with these characters. -/
def Delimited (rest : List Char) : Prop := ∀ c ∈ rest.head?, numberChar c = false

/-- At the end of a text a number ends. -/
theorem delimited_nil : Delimited [] := by simp [Delimited]

/-- In front of other characters a number ends. -/
theorem delimited_cons {c : Char} {rest : List Char} (h : numberChar c = false) :
    Delimited (c :: rest) := by
  intro d hd
  cases hd
  exact h

/-- A decimal text consists of digits. -/
theorem isDigit_of_mem {n : ℕ} {c : Char} (h : c ∈ Nat.toDigits 10 n) : c.isDigit = true :=
  Nat.isDigit_of_mem_toDigits (by omega) (by omega) h

/-- A number is known by its digits. -/
theorem toDigits_inj {n n' : ℕ} (h : Nat.toDigits 10 n = Nat.toDigits 10 n') : n = n' := by
  have hread := congrArg (fun digits => Nat.ofDigitChars 10 digits 0) h
  simpa [Nat.ofDigitChars_ten_toDigits] using hread

/-- The text of a number consists of its characters. -/
theorem Number.numberChar_of_mem {n : Number} {c : Char} (h : c ∈ n.text) :
    numberChar c = true := by
  cases n with
  | posInt n => simp [numberChar, isDigit_of_mem h]
  | negInt n =>
    rcases List.mem_cons.mp h with rfl | h
    · decide
    · simp [numberChar, isDigit_of_mem h]
  | float text => exact List.all_eq_true.mp text.all_numberChar c h

/-- No number is written as nothing. -/
theorem Number.text_ne_nil (n : Number) : n.text ≠ [] := by
  cases n with
  | posInt n => exact Nat.toDigits_ne_nil
  | negInt n => exact List.cons_ne_nil _ _
  | float text =>
    intro hnil
    have hpointed := text.pointed
    rw [show text.chars = [] from hnil] at hpointed
    exact absurd hpointed (by simp)

/-- Digits have neither a point nor an exponent. -/
theorem not_pointed_of_mem {n : ℕ} {c : Char} (h : c ∈ Nat.toDigits 10 n) :
    (c == '.' || c == 'e') = false := by
  have hdigit := isDigit_of_mem h
  rw [Bool.or_eq_false_iff]
  constructor <;> refine beq_false_of_ne ?_ <;> rintro rfl <;> exact absurd hdigit (by decide)

/-- A number is known by its text. -/
theorem Number.text_injective : Function.Injective Number.text := by
  -- the three kinds of numbers are told apart by a dash and by a point
  have hdash : ∀ n m, Nat.toDigits 10 n ≠ '-' :: Nat.toDigits 10 m := by
    intro n m heq
    have hdigit := isDigit_of_mem (n := n) (c := '-') (by rw [heq]; exact List.mem_cons_self)
    exact absurd hdigit (by decide)
  have hpos : ∀ n (text : FloatText), Nat.toDigits 10 n ≠ text.chars := by
    intro n text heq
    obtain ⟨c, hc, hpoint⟩ := List.any_eq_true.mp text.pointed
    exact absurd hpoint (by rw [not_pointed_of_mem (n := n) (heq ▸ hc)]; decide)
  have hneg : ∀ n (text : FloatText), '-' :: Nat.toDigits 10 n ≠ text.chars := by
    intro n text heq
    obtain ⟨c, hc, hpoint⟩ := List.any_eq_true.mp text.pointed
    rw [← heq] at hc
    rcases List.mem_cons.mp hc with rfl | hc
    · exact absurd hpoint (by decide)
    · exact absurd hpoint (by rw [not_pointed_of_mem hc]; decide)
  intro n n' h
  cases n with
  | posInt n =>
    cases n' with
    | posInt n' => rw [toDigits_inj h]
    | negInt n' => exact absurd h (hdash n (n' + 1))
    | float text' => exact absurd h (hpos n text')
  | negInt n =>
    cases n' with
    | posInt n' => exact absurd h.symm (hdash n' (n + 1))
    | negInt n' =>
      have hn := toDigits_inj (List.cons.inj h).2
      rw [Nat.succ.inj hn]
    | float text' => exact absurd h (hneg (n + 1) text')
  | float text =>
    cases n' with
    | posInt n' => exact absurd h.symm (hpos n' text)
    | negInt n' => exact absurd h.symm (hneg (n' + 1) text)
    | float text' =>
      cases text
      cases text'
      cases h
      rfl

/-- A number is read up to a delimiter. -/
theorem Number.takeWhile_text (n : Number) {rest : List Char} (h : Delimited rest) :
    (n.text ++ rest).takeWhile numberChar = n.text := by
  rw [List.takeWhile_append_of_pos fun c hc => Number.numberChar_of_mem hc]
  cases rest with
  | nil => simp
  | cons c rest => simp [h c rfl]

/-- A number is found at the front of a delimited text. -/
theorem Number.text_inj {n n' : Number} {rest rest' : List Char} (hrest : Delimited rest)
    (hrest' : Delimited rest') (h : n.text ++ rest = n'.text ++ rest') :
    n = n' ∧ rest = rest' := by
  have htext : n.text = n'.text := by
    rw [← n.takeWhile_text hrest, h, n'.takeWhile_text hrest']
  refine ⟨Number.text_injective htext, ?_⟩
  rw [htext] at h
  exact List.append_cancel_left h

/-! ## Reading values between commas -/

section Commas

variable {α : Type*} {text : α → List Char} {close : Char} {xs ys : List α}
  {rest rest' : List Char}

/-- One value can be read in front of a delimiter. -/
def ReadsOnce (text : α → List Char) (x y : α) : Prop :=
  ∀ rest rest', Delimited rest → Delimited rest' → text x ++ rest = text y ++ rest' →
    x = y ∧ rest = rest'

/-- What follows an element delimits numbers. -/
theorem delimited_afterCommas (hclose : numberChar close = false) (texts : List (List Char)) :
    Delimited (afterCommas texts ++ close :: rest) := by
  cases texts with
  | nil => exact delimited_cons hclose
  | cons t texts => exact delimited_cons (by decide)

/-- Elements after commas are known by their text. -/
theorem afterCommas_inj (hclose : numberChar close = false) (hcomma : close ≠ ',')
    (hread : ∀ x ∈ xs, ∀ y ∈ ys, ReadsOnce text x y)
    (h : afterCommas (xs.map text) ++ close :: rest =
      afterCommas (ys.map text) ++ close :: rest') : xs = ys ∧ rest = rest' := by
  induction xs generalizing ys with
  | nil =>
    cases ys with
    | nil => exact ⟨rfl, (List.cons.inj h).2⟩
    | cons y ys => exact absurd (List.cons.inj h).1 hcomma
  | cons x xs ih =>
    cases ys with
    | nil => exact absurd (List.cons.inj h).1.symm hcomma
    | cons y ys =>
      simp only [List.map_cons, afterCommas, List.cons_append, List.append_assoc,
        List.cons.injEq, true_and] at h
      obtain ⟨hxy, htail⟩ := hread x List.mem_cons_self y List.mem_cons_self _ _
        (delimited_afterCommas hclose _) (delimited_afterCommas hclose _) h
      obtain ⟨hxs, hrest⟩ := ih (fun x hx y hy => hread x (List.mem_cons_of_mem _ hx) y
        (List.mem_cons_of_mem _ hy)) htail
      exact ⟨by rw [hxy, hxs], hrest⟩

/-- Elements between commas are known by their text. -/
theorem commaSeparated_inj (hclose : numberChar close = false) (hcomma : close ≠ ',')
    (hopen : ∀ x, (text x).head? ≠ some close ∧ text x ≠ [])
    (hread : ∀ x ∈ xs, ∀ y ∈ ys, ReadsOnce text x y)
    (h : commaSeparated (xs.map text) ++ close :: rest =
      commaSeparated (ys.map text) ++ close :: rest') : xs = ys ∧ rest = rest' := by
  have hfront : ∀ x tail,
      text x ++ tail ≠ close :: rest ∧ text x ++ tail ≠ close :: rest' := by
    intro x tail
    obtain ⟨hhead, hne⟩ := hopen x
    cases htext : text x with
    | nil => exact absurd htext hne
    | cons c t =>
      rw [htext] at hhead
      constructor <;> intro heq <;> exact hhead (congrArg some (List.cons.inj heq).1)
  cases xs with
  | nil =>
    cases ys with
    | nil => exact ⟨rfl, (List.cons.inj h).2⟩
    | cons y ys =>
      simp only [List.map_cons, commaSeparated, List.append_assoc] at h
      exact absurd h.symm (hfront y _).1
  | cons x xs =>
    cases ys with
    | nil =>
      simp only [List.map_cons, commaSeparated, List.append_assoc] at h
      exact absurd h (hfront x _).2
    | cons y ys =>
      simp only [List.map_cons, commaSeparated, List.append_assoc] at h
      obtain ⟨hxy, htail⟩ := hread x List.mem_cons_self y List.mem_cons_self _ _
        (delimited_afterCommas hclose _) (delimited_afterCommas hclose _) h
      obtain ⟨hxs, hrest⟩ := afterCommas_inj hclose hcomma (fun x hx y hy =>
        hread x (List.mem_cons_of_mem _ hx) y (List.mem_cons_of_mem _ hy)) htail
      exact ⟨by rw [hxy, hxs], hrest⟩

end Commas

/-! ## Reading values -/

/-- What a value is, apart from its contents. -/
def kind : Json → ℕ
  | .null => 0
  | .bool _ => 1
  | .number _ => 2
  | .string _ => 3
  | .array _ => 4
  | .object _ => 5

/-- What the first character of a text says about the value that is written. -/
def kindOf (c : Char) : ℕ :=
  if c = 'n' then 0
  else if c = 't' ∨ c = 'f' then 1
  else if c = '"' then 3
  else if c = '[' then 4
  else if c = '{' then 5
  else 2

/-- The characters of a number tell that it is one. -/
theorem kindOf_numberChar {c : Char} (h : numberChar c = true) : kindOf c = 2 := by
  unfold kindOf
  repeat' split
  case isFalse.isTrue hletter =>
    rcases hletter with rfl | rfl <;> exact absurd h (by decide)
  case isFalse.isFalse.isFalse.isFalse.isFalse => rfl
  all_goals
    subst c
    exact absurd h (by decide)

/-- The first character of a value tells its kind. -/
theorem write_head (v : Json) : ∃ c text, v.write = c :: text ∧ kindOf c = v.kind := by
  cases v with
  | null => exact ⟨'n', _, rfl, rfl⟩
  | bool b => cases b <;> exact ⟨_, _, rfl, rfl⟩
  | number n =>
    cases htext : n.text with
    | nil => exact absurd htext n.text_ne_nil
    | cons c text =>
      have hc : numberChar c = true :=
        Number.numberChar_of_mem (n := n) (by rw [htext]; exact List.mem_cons_self)
      exact ⟨c, text, htext, kindOf_numberChar hc⟩
  | string s => exact ⟨'"', _, rfl, rfl⟩
  | array values => exact ⟨'[', _, rfl, rfl⟩
  | object fields => exact ⟨'{', _, rfl, rfl⟩

/-- No value begins as an array ends. -/
theorem write_head_ne (v : Json) : v.write.head? ≠ some ']' ∧ v.write ≠ [] := by
  obtain ⟨c, text, htext, hc⟩ := v.write_head
  rw [htext]
  refine ⟨?_, List.cons_ne_nil _ _⟩
  intro hclose
  cases hclose
  cases v
  case number n =>
    have hmem : ']' ∈ n.text := by
      rw [show n.text = _ from htext]
      exact List.mem_cons_self
    have hnumber : numberChar ']' = true := Number.numberChar_of_mem hmem
    exact absurd hnumber (by decide)
  all_goals exact absurd hc (by simp [kind, kindOf])

/-- The text of a value tells its kind. -/
theorem kind_eq_of_write {v v' : Json} {rest rest' : List Char}
    (h : v.write ++ rest = v'.write ++ rest') : v.kind = v'.kind := by
  obtain ⟨c, text, htext, hc⟩ := v.write_head
  obtain ⟨c', text', htext', hc'⟩ := v'.write_head
  rw [htext, htext'] at h
  rw [← hc, ← hc', (List.cons.inj h).1]

/-- The fields of an object can be read when its values can. -/
theorem readsOnce_field {field field' : String × Json} (h : ReadsOnce write field.2 field'.2) :
    ReadsOnce (fun field : String × Json => quote field.1 ++ ':' :: write field.2) field
      field' := by
  intro rest rest' hrest hrest' heq
  simp only [List.append_assoc, List.cons_append] at heq
  obtain ⟨hkey, htail⟩ := quote_inj heq
  obtain ⟨hvalue, hend⟩ := h rest rest' hrest hrest' (List.cons.inj htail).2
  exact ⟨Prod.ext hkey hvalue, hend⟩

/-- A value whose objects are ordered can be told from its canonical text. -/
theorem readsOnce_write (v : Json) : v.ordered = true → ∀ v' : Json, v'.ordered = true →
    ReadsOnce write v v' := by
  -- by the structure of the first value; the first character tells the kind of the second
  induction v using Json.induction with
  | null =>
    intro _ v' _ rest rest' _ _ heq
    have hkind := kind_eq_of_write heq
    cases v' with
    | null =>
      exact ⟨rfl, List.append_cancel_left heq⟩
    | _ => exact absurd hkind (by simp [kind])
  | bool b =>
    intro _ v' _ rest rest' _ _ heq
    have hkind := kind_eq_of_write heq
    cases v' with
    | bool b' =>
      cases b <;> cases b' <;> simp [write] at heq ⊢
      all_goals exact heq
    | _ => exact absurd hkind (by simp [kind])
  | number n =>
    intro _ v' _ rest rest' hrest hrest' heq
    have hkind := kind_eq_of_write heq
    cases v' with
    | number n' =>
      obtain ⟨hn, hend⟩ := Number.text_inj hrest hrest' heq
      exact ⟨by rw [hn], hend⟩
    | _ => exact absurd hkind (by simp [kind])
  | string s =>
    intro _ v' _ rest rest' _ _ heq
    have hkind := kind_eq_of_write heq
    cases v' with
    | string s' =>
      obtain ⟨hs, hend⟩ := quote_inj heq
      exact ⟨by rw [hs], hend⟩
    | _ => exact absurd hkind (by simp [kind])
  | array values ih =>
    intro hordered v' hordered' rest rest' _ _ heq
    have hkind := kind_eq_of_write heq
    cases v' with
    | array values' =>
      -- elements are separated by a comma, which no element begins with
      rw [ordered, orderedValues_iff] at hordered hordered'
      simp only [write, writeValues_eq, List.cons_append, List.append_assoc, List.cons.injEq,
        true_and, List.nil_append] at heq
      obtain ⟨hvalues, hend⟩ := commaSeparated_inj (by decide) (by decide) write_head_ne
        (fun x hx y hy => ih x hx (hordered x hx) y (hordered' y hy)) heq
      exact ⟨by rw [hvalues], hend⟩
    | _ => exact absurd hkind (by simp [kind])
  | object fields ih =>
    intro hordered v' hordered' rest rest' _ _ heq
    have hkind := kind_eq_of_write heq
    cases v' with
    | object fields' =>
      rw [ordered, Bool.and_eq_true, decide_eq_true_iff, orderedFields_iff] at hordered hordered'
      rw [write_object hordered.1, write_object hordered'.1] at heq
      simp only [List.cons_append, List.append_assoc, List.cons.injEq, true_and,
        List.nil_append] at heq
      obtain ⟨hfields, hend⟩ := commaSeparated_inj (by decide) (by decide)
        (fun field => ⟨by simp [quote], by simp [quote]⟩)
        (fun x hx y hy => readsOnce_field (ih x hx (hordered.2 x hx) y.2 (hordered'.2 y hy))) heq
      exact ⟨by rw [hfields], hend⟩
    | _ => exact absurd hkind (by simp [kind])

/-- A value in order is known by its text. -/
theorem write_injective {v v' : Json} (h : v.ordered = true) (h' : v'.ordered = true)
    (heq : v.write = v'.write) : v = v' := by
  have hread := readsOnce_write v h v' h' [] [] delimited_nil delimited_nil
  exact (hread (by rw [heq])).1

end Json

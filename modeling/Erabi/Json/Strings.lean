/-
# The strings of a JSON value

The strings of a value are listed or replaced one by one, by a function or by a traversal
that carries a state along.  Keys are not among them.
-/
import Mathlib
import Erabi.Json.Value

namespace Json

/-! ## Replacing strings -/

mutual

/-- The value with every string replaced. -/
def mapStrings (f : String → String) : Json → Json
  | .string s => .string (f s)
  | .array values => .array (mapStringsValues f values)
  | .object fields => .object (mapStringsFields f fields)
  | .null => .null
  | .bool b => .bool b
  | .number n => .number n

/-- The strings of values, mapped. -/
def mapStringsValues (f : String → String) : List Json → List Json
  | [] => []
  | value :: values => mapStrings f value :: mapStringsValues f values

/-- The strings of fields, mapped. -/
def mapStringsFields (f : String → String) : List (String × Json) → List (String × Json)
  | [] => []
  | (key, value) :: fields => (key, mapStrings f value) :: mapStringsFields f fields

end

mutual

/-- The strings of a value in the order of a traversal.  Keys are not among them. -/
def strings : Json → List String
  | .string s => [s]
  | .array values => stringsOfValues values
  | .object fields => stringsOfFields fields
  | .null => []
  | .bool _ => []
  | .number _ => []

/-- The strings in values. -/
def stringsOfValues : List Json → List String
  | [] => []
  | value :: values => strings value ++ stringsOfValues values

/-- The strings in fields. -/
def stringsOfFields : List (String × Json) → List String
  | [] => []
  | (_, value) :: fields => strings value ++ stringsOfFields fields

end

/-! ## Traversals -/

section Traversal

variable {σ : Type*} (step : σ → String → String × σ)

mutual

/-- Replaces the strings of a value in the order of a traversal. -/
def traverseStrings (st : σ) : Json → Json × σ
  | .string s => (.string (step st s).1, (step st s).2)
  | .array values => (.array (traverseValues st values).1, (traverseValues st values).2)
  | .object fields => (.object (traverseFields st fields).1, (traverseFields st fields).2)
  | .null => (.null, st)
  | .bool b => (.bool b, st)
  | .number n => (.number n, st)

/-- The strings of values, mapped with a state. -/
def traverseValues (st : σ) : List Json → List Json × σ
  | [] => ([], st)
  | value :: values =>
      let first := traverseStrings st value
      let rest := traverseValues first.2 values
      (first.1 :: rest.1, rest.2)

/-- The strings of fields, mapped with a state. -/
def traverseFields (st : σ) : List (String × Json) → List (String × Json) × σ
  | [] => ([], st)
  | (key, value) :: fields =>
      let first := traverseStrings st value
      let rest := traverseFields first.2 fields
      ((key, first.1) :: rest.1, rest.2)

end

end Traversal

end Json

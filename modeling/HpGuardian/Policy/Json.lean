import HpGuardian.Policy.Models

/-!
# Decoded JSON values

Traces, requests and log lines are decoded by `serde_json` before they are checked.  What is
checked is a decoded value, so the checks of the program are functions on `Json`, and the decoder
is a parameter wherever a text comes in.

A number that `serde_json` holds as an integer is an unbounded integer here, its accessors being
partial as the library's are; any other number is its IEEE 754 bit pattern, which no check looks
inside.  An object keeps its entries as a list with one entry for each key.

The helper functions at the end are those that the readers of traces and of requests share; where a
source file has its own copy with errors of its own, so has its module.
-/

namespace HpGuardian

/-- A decoded JSON value. -/
inductive Json where
  | null
  | bool (value : Bool)
  | int (value : ℤ)
  | float (bits : UInt64)
  | string (value : String)
  | array (items : List Json)
  | object (entries : List (String × Json))

/-- The entries of an object. -/
abbrev JsonFields := List (String × Json)

namespace Json

/-- `Value::as_object`. -/
def asObject : Json → Option JsonFields
  | .object entries => some entries
  | _ => none

/-- `Value::as_array`. -/
def asArray : Json → Option (List Json)
  | .array items => some items
  | _ => none

/-- `Value::as_str`. -/
def asStr : Json → Option String
  | .string value => some value
  | _ => none

/-- `Value::as_i64`: an integer in the range of `i64`. -/
def asI64 : Json → Option ℤ
  | .int value => if -2 ^ 63 ≤ value ∧ value < 2 ^ 63 then some value else none
  | _ => none

/-- `Value::as_u64`: an integer in the range of `u64`. -/
def asU64 : Json → Option ℕ
  | .int value => if 0 ≤ value ∧ value < 2 ^ 64 then some value.toNat else none
  | _ => none

end Json

/-- `Map::get`. -/
def JsonFields.get (fields : JsonFields) (name : String) : Option Json := fields.lookup name

/-- `fields.get(name).expect(..)`: the value of a field whose presence was checked before. -/
def JsonFields.required (fields : JsonFields) (name : String) : Json :=
  (JsonFields.get fields name).getD .null

/-- `require_exact_fields`: every required field is there, and every field is known. -/
def requireExactFields (fields : JsonFields) (required optional : List String) : Bool :=
  required.all (fun field => (JsonFields.get fields field).isSome) &&
    (fields.map Prod.fst).all (fun field => required.contains field || optional.contains field)

/-- `nullable_string`: null or a string; another value is refused. -/
def nullableString : Json → Option (Option String)
  | .null => some none
  | .string value => some (some value)
  | _ => none

/-- An array of strings. -/
def stringArray (value : Json) : Option (List String) := do
  let values ← value.asArray
  values.mapM Json.asStr

/-- An object of strings, collected into a map. -/
def stringObject (value : Json) : Option StringMap := do
  let values ← value.asObject
  values.foldlM (fun parsed entry => entry.2.asStr.map (parsed.insert entry.1)) ∅

end HpGuardian

import Mathlib.Algebra.Group.Int.Defs
import Mathlib.Data.Nat.Notation

/-!
# Decoded YAML documents

A policy text is decoded by the runtime's YAML library before it is validated; both validators work
on the decoded tree.  The decoders are not part of the repository, and where a text comes in, the
decoder is a parameter.

Integers are unbounded, a float is its IEEE 754 bit pattern (no validator looks inside it), and a
mapping keeps its entries in document order.  Keys may be any values, as they may in YAML; a
validator looks for texts among them.  What becomes of two equal keys is up to the decoder, so a
mapping may have them here, and `Fields.DistinctKeys` says that it has not.
-/

namespace HpGuardian

/-- A decoded YAML value. A mapping keeps its entries in document order, since some of the checks
depend on the order; a repeated key is left to whoever reads the mapping. -/
inductive Yaml where
  | null
  | bool (value : Bool)
  | int (value : ℤ)
  | float (bits : UInt64)
  | string (value : String)
  | sequence (items : List Yaml)
  | mapping (entries : List (Yaml × Yaml))

/-- The entries of a mapping, in document order. -/
abbrev Fields := List (Yaml × Yaml)

namespace Yaml

/-- `Value::as_str`. -/
def asStr : Yaml → Option String
  | .string value => some value
  | _ => none

/-- `Value::as_i64`: an integer in the range of `i64`. -/
def asI64 : Yaml → Option ℤ
  | .int value => if -2 ^ 63 ≤ value ∧ value < 2 ^ 63 then some value else none
  | _ => none

/-- `Value::as_u64`: an integer in the range of `u64`. -/
def asU64 : Yaml → Option ℕ
  | .int value => if 0 ≤ value ∧ value < 2 ^ 64 then some value.toNat else none
  | _ => none

/-- `Value::as_sequence`. -/
def asSequence : Yaml → Option (List Yaml)
  | .sequence items => some items
  | _ => none

/-- `Value::as_mapping`. -/
def asMapping : Yaml → Option Fields
  | .mapping entries => some entries
  | _ => none

@[simp] theorem asStr_eq_some {value : Yaml} {s : String} :
    value.asStr = some s ↔ value = .string s := by
  cases value <;> simp [asStr]

@[simp] theorem asMapping_eq_some {value : Yaml} {entries : Fields} :
    value.asMapping = some entries ↔ value = .mapping entries := by
  cases value <;> simp [asMapping]

@[simp] theorem asSequence_eq_some {value : Yaml} {items : List Yaml} :
    value.asSequence = some items ↔ value = .sequence items := by
  cases value <;> simp [asSequence]

end Yaml

/-- The value of the field with a string key. -/
def Fields.get (fields : Fields) (name : String) : Option Yaml :=
  (fields.find? (fun entry => entry.1.asStr == some name)).map Prod.snd

/-- No two entries have equal string keys; other keys are never accepted. -/
def Fields.DistinctKeys (fields : Fields) : Prop :=
  (fields.filterMap (fun entry => entry.1.asStr)).Nodup

end HpGuardian

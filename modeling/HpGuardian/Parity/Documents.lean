import HpGuardian.Policy.Fields
import HpGuardian.Python.Parser

/-!
# Documents that both parsers read alike

The parsers reject strings that look like another scalar, and the two runtimes class different
strings that way: each has its own table of digits, and its own idea of what a number looks like.
They also read a mapping differently, the one entry by entry and the other by name, so two equal
keys would not mean the same to both.

`Plain` says that a document has neither: no string that one of the runtimes takes for an ambiguous
scalar, outside the timestamps of its time windows, and no mapping with two equal string keys.  On
plain documents the parsers can be compared; which strings the runtimes class differently is the
subject of `Scalars`.

The Rust parser reads a mapping in one loop over its entries and the Python parser looks the fields
up; `Fields.foldlM_slot` (`Policy/Fields.lean`) turns the first into the second.
-/

namespace HpGuardian

open Framework

/-! ## Plain documents

The predicate follows the tree of the document.  A `Place` says whether a value is part of a time
window, where any text may stand for a timestamp. -/

/-- Neither runtime classes the string as an ambiguous scalar. Which strings only one of them
classes so is a question of its own. -/
def Unambiguous (text : String) : Prop :=
  isAmbiguousYamlScalar text = false ∧ Python.isAmbiguousScalar text = false

/-- Where a value stands: anywhere in a document, as a `time_window`, or as one of its ends. -/
inductive Place where
  | document
  | window
  | timestamp

/-- The place of the value under a key. -/
def Place.child (place : Place) (key : Yaml) : Place :=
  match place, key with
  | .window, .string name =>
      if name = "start" ∨ name = "end" then .timestamp
      else if name = "time_window" then .window
      else .document
  | _, .string name => if name = "time_window" then .window else .document
  | _, _ => .document

mutual

/-- No mapping has two equal string keys, and no string other than the timestamps of a time window
is ambiguous in either runtime. It says nothing about what the document means as a policy. -/
def Plain (place : Place) (value : Yaml) : Prop :=
  match value with
  | .string text =>
      match place with
      | .timestamp => True
      | _ => Unambiguous text
  | .sequence items => PlainItems items
  | .mapping entries => Fields.DistinctKeys entries ∧ PlainEntries place entries
  | _ => True

/-- All items of a sequence are plain. -/
def PlainItems (items : List Yaml) : Prop :=
  match items with
  | [] => True
  | item :: items => Plain .document item ∧ PlainItems items

/-- All keys and values of a mapping are plain. -/
def PlainEntries (place : Place) (entries : List (Yaml × Yaml)) : Prop :=
  match entries with
  | [] => True
  | (key, value) :: entries =>
      Plain .document key ∧ Plain (place.child key) value ∧ PlainEntries place entries

end

theorem plainItems_iff {items : List Yaml} :
    PlainItems items ↔ ∀ item ∈ items, Plain .document item := by
  induction items with
  | nil => simp [PlainItems]
  | cons item items ih => simp [PlainItems, ih]

theorem plainEntries_iff {place : Place} {entries : List (Yaml × Yaml)} :
    PlainEntries place entries ↔
      ∀ entry ∈ entries, Plain .document entry.1 ∧ Plain (place.child entry.1) entry.2 := by
  induction entries with
  | nil => simp [PlainEntries]
  | cons entry entries ih => simp [PlainEntries, ih, and_assoc]

theorem Plain.items {place : Place} {items : List Yaml} (h : Plain place (.sequence items)) :
    ∀ item ∈ items, Plain .document item := by
  rw [Plain] at h
  exact plainItems_iff.1 h

section

variable {place : Place} {fields : Fields} {name : String} {value : Yaml}

theorem Plain.distinctKeys (h : Plain place (.mapping fields)) : fields.DistinctKeys := by
  rw [Plain] at h
  exact h.1

theorem Plain.entry (h : Plain place (.mapping fields)) {entry : Yaml × Yaml}
    (hentry : entry ∈ fields) :
    Plain .document entry.1 ∧ Plain (place.child entry.1) entry.2 := by
  rw [Plain] at h
  exact plainEntries_iff.1 h.2 entry hentry

theorem Place.child_document_ne (key : Yaml) : Place.child .document key ≠ .timestamp := by
  cases key with
  | string name =>
      by_cases hname : name = "time_window"
      · simp [Place.child, hname]
      · simp [Place.child, hname]
  | _ => simp [Place.child]

theorem Plain.unambiguous {text : String} (h : Plain place (.string text))
    (hplace : place ≠ .timestamp) : Unambiguous text := by
  rwa [Plain] at h
  exact hplace

/-- The value of a field that is no part of a time window is plain. -/
theorem Plain.field (h : Plain place (.mapping fields))
    (hname : name ∉ ["start", "end", "time_window"])
    (hentry : (.string name, value) ∈ fields) : Plain .document value := by
  have hchild := (h.entry hentry).2
  simp only [List.mem_cons, List.not_mem_nil, or_false, not_or] at hname
  have hplace : Place.child place (.string name) = .document := by
    cases place <;> simp [Place.child, hname]
  rwa [hplace] at hchild

end

/-! ## Strings -/

/-- On a plain value the two scalar checks accept the same strings. -/
theorem sameOutcome_string {place : Place} {value : Yaml} (h : Plain place value)
    (hplace : place ≠ .timestamp) (rt : Python.YamlRuntime) (notString ambiguous : PolicyError)
    (name code : String) :
    SameOutcome Eq (unambiguousStringOr value notString ambiguous)
      (Python.unambiguousString rt value name code) := by
  cases value with
  | string text =>
      obtain ⟨hrust, hpython⟩ := h.unambiguous hplace
      simp only [unambiguousStringOr, stringOr, Python.unambiguousString, Python.stringOf,
        Yaml.asStr, bind, Except.bind, hrust, hpython]
      exact .ok rfl
  | _ => exact .error

end HpGuardian

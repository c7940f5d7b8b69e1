import HpGuardian.Policy.Fields
import HpGuardian.Policy.Json
import HpGuardian.Policy.WellFormed

/-!
# The JSON form of a call

Trace events and enforcement requests hold a call as the same JSON object: five fields and no
others, nullable strings, an array of strings, and an object of strings.  `IsCall` is that form,
stated without a decoder: a JSON value holds at most one call, and its context is the map of its
entries.

Several decoders read this form, each with checks of its own in an order of its own and with other
errors.  Each is shown to accept exactly the values that hold a call, so two of them read the same
calls without being compared with each other.

`callForm` writes a call in the form, with the context in the order of its keys.  What is written
holds the call again (`isCall_callForm`).
-/

namespace HpGuardian

/-! ## Forms of the fields -/

/-- Every field has one of the names. -/
def OnlyFields (fields : JsonFields) (names : List String) : Prop :=
  ∀ entry ∈ fields, entry.1 ∈ names

/-- A string, or null. -/
def nullableForm : Option String → Json
  | none => .null
  | some text => .string text

/-- An array of strings. -/
def arrayForm (texts : List String) : Json := .array (texts.map .string)

/-- An object of strings. -/
def objectForm (entries : List (String × String)) : Json :=
  .object (entries.map (fun entry => (entry.1, .string entry.2)))

/-- The map that entries are collected into. -/
def collected (entries : List (String × String)) : StringMap :=
  entries.foldl (fun parsed entry => parsed.insert entry.1 entry.2) ∅

/-- The names of the fields of a call. -/
def callFields : List String := ["agent", "tool", "args", "user", "context"]

/-- A JSON value holds a call: an object with the five fields of a call and no others. -/
inductive IsCall : Json → PolicyCall → Prop
  | object {fields : JsonFields} {call : PolicyCall} {entries : List (String × String)}
      (only : OnlyFields fields callFields)
      (agent : JsonFields.get fields "agent" = some (nullableForm call.agent))
      (tool : JsonFields.get fields "tool" = some (nullableForm call.tool))
      (args : JsonFields.get fields "args" = some (arrayForm call.args))
      (user : JsonFields.get fields "user" = some (nullableForm call.user))
      (context : JsonFields.get fields "context" = some (objectForm entries))
      (collects : collected entries = call.context) : IsCall (.object fields) call

/-! ## Reading the fields

The accessors of a decoded value, each as the form of a value that it accepts. -/

section

variable {fields : JsonFields} {value : Json}

theorem asObject_eq_some : value.asObject = some fields ↔ value = .object fields := by
  cases value <;> simp [Json.asObject]

theorem asStr_eq_some {text : String} : value.asStr = some text ↔ value = .string text := by
  cases value <;> simp [Json.asStr]

theorem asArray_eq_some {items : List Json} :
    value.asArray = some items ↔ value = .array items := by
  cases value <;> simp [Json.asArray]

theorem asU64_iff {n : ℕ} : value.asU64 = some n ↔ value = .int n ∧ n < 2 ^ 64 := by
  cases value with
  | int m =>
      simp only [Json.asU64, Json.int.injEq]
      constructor
      · intro h
        split_ifs at h with hrange
        obtain rfl := Option.some.inj h
        exact ⟨(Int.toNat_of_nonneg hrange.1).symm, by omega⟩
      · rintro ⟨rfl, hn⟩
        rw [if_pos ⟨by omega, by exact_mod_cast hn⟩, Int.toNat_natCast]
  | _ => simp [Json.asU64]

theorem asU64s_iff {items : List Json} {numbers : List ℕ} :
    items.mapM Json.asU64 = some numbers ↔
      items = numbers.map (fun n : ℕ => .int n) ∧ ∀ n ∈ numbers, n < 2 ^ 64 := by
  induction items generalizing numbers with
  | nil =>
      constructor
      · intro h
        obtain rfl := Option.some.inj h
        exact ⟨rfl, by simp⟩
      · rintro ⟨hnil, -⟩
        rw [List.map_eq_nil_iff.1 hnil.symm]
        rfl
  | cons item items ih =>
      simp only [List.mapM_cons, Option.bind_eq_bind, Option.bind_eq_some_iff,
        asU64_iff, Option.pure_def, Option.some.injEq]
      constructor
      · rintro ⟨n, ⟨rfl, hn⟩, rest, hrest, rfl⟩
        obtain ⟨rfl, hfits⟩ := ih.1 hrest
        exact ⟨rfl, List.forall_mem_cons.2 ⟨hn, hfits⟩⟩
      · rintro ⟨hitems, hfits⟩
        cases numbers with
        | nil => simp at hitems
        | cons n numbers =>
            obtain ⟨rfl, hrest⟩ := List.cons.inj hitems
            obtain ⟨hn, hfits⟩ := List.forall_mem_cons.1 hfits
            exact ⟨n, ⟨rfl, hn⟩, numbers, ih.2 ⟨hrest, hfits⟩, rfl⟩

/-- The required fields are there, and all fields are known. -/
theorem requireExactFields_iff {required optional : List String} :
    requireExactFields fields required optional = true ↔
      (∀ name ∈ required, ∃ value, JsonFields.get fields name = some value) ∧
        OnlyFields fields (required ++ optional) := by
  simp [requireExactFields, OnlyFields, Option.isSome_iff_exists]

theorem required_of_get {name : String} (h : JsonFields.get fields name = some value) :
    JsonFields.required fields name = value := by
  rw [JsonFields.required, h, Option.getD_some]

/-- A field whose presence was checked. -/
theorem required_eq_iff {name : String}
    (h : ∃ found, JsonFields.get fields name = some found) :
    JsonFields.required fields name = value ↔ JsonFields.get fields name = some value := by
  obtain ⟨found, hfound⟩ := h
  rw [required_of_get hfound, hfound, Option.some.injEq]

theorem nullableString_iff {text : Option String} :
    nullableString value = some text ↔ value = nullableForm text := by
  cases value <;> cases text <;> simp [nullableString, nullableForm]

theorem stringArray_iff {texts : List String} :
    stringArray value = some texts ↔ value = arrayForm texts := by
  have hitems : ∀ items : List Json, items.mapM Json.asStr = some texts ↔
      items = texts.map Json.string := by
    intro items
    induction items generalizing texts with
    | nil => simp [eq_comm]
    | cons item items ih =>
        simp only [List.mapM_cons, Option.bind_eq_bind, Option.bind_eq_some_iff, asStr_eq_some,
          Option.pure_def, Option.some.injEq]
        constructor
        · rintro ⟨text, rfl, rest, hrest, rfl⟩
          rw [List.map_cons, (@ih rest).1 hrest]
        · cases texts with
          | nil => simp
          | cons text texts =>
              rw [List.map_cons, List.cons.injEq]
              rintro ⟨rfl, hrest⟩
              exact ⟨text, rfl, texts, (@ih texts).2 hrest, rfl⟩
  cases value with
  | array items => simpa [stringArray, Json.asArray, arrayForm] using hitems items
  | _ => simp [stringArray, Json.asArray, arrayForm]

theorem stringObject_iff {context : StringMap} :
    stringObject value = some context ↔
      ∃ entries, value = objectForm entries ∧ collected entries = context := by
  have hentries : ∀ (items : JsonFields) (start : StringMap),
      items.foldlM (fun parsed entry => entry.2.asStr.map (parsed.insert entry.1)) start =
          some context ↔
        ∃ entries : List (String × String),
          items = entries.map (fun entry => (entry.1, Json.string entry.2)) ∧
            entries.foldl (fun parsed entry => parsed.insert entry.1 entry.2) start = context := by
    intro items
    induction items with
    | nil =>
        intro start
        constructor
        · intro h
          exact ⟨[], rfl, Option.some.inj h⟩
        · rintro ⟨entries, hnil, rfl⟩
          rw [List.map_eq_nil_iff.1 hnil.symm]
          rfl
    | cons item items ih =>
        intro start
        obtain ⟨key, item⟩ := item
        simp only [List.foldlM_cons, Option.bind_eq_bind, Option.bind_eq_some_iff,
          Option.map_eq_some_iff, asStr_eq_some]
        constructor
        · rintro ⟨parsed, ⟨text, rfl, rfl⟩, hrest⟩
          obtain ⟨entries, rfl, hcollects⟩ := (ih _).1 hrest
          exact ⟨(key, text) :: entries, rfl, hcollects⟩
        · rintro ⟨entries, hitems, hcollects⟩
          cases entries with
          | nil => simp at hitems
          | cons entry entries =>
              rw [List.map_cons, List.cons.injEq, Prod.mk.injEq] at hitems
              obtain ⟨⟨rfl, rfl⟩, hrest⟩ := hitems
              exact ⟨_, ⟨entry.2, rfl, rfl⟩, (ih _).2 ⟨entries, hrest, hcollects⟩⟩
  cases value with
  | object items =>
      simpa [stringObject, Json.asObject, objectForm, collected] using hentries items ∅
  | _ => simp [stringObject, Json.asObject, objectForm]

end

/-! ## Writing a call

A map is written in the order of its keys and collected again when it is read. -/

/-- The entries of a map in the order of their keys, as an ordered map is written; the entries of a
target are taken in the same order. -/
def entriesInOrder (texts : StringMap) : List (String × String) := Strict.targetEntries texts

/-- A call as a JSON object. -/
def callForm (call : PolicyCall) : Json :=
  .object [
    ("agent", nullableForm call.agent),
    ("tool", nullableForm call.tool),
    ("args", arrayForm call.args),
    ("user", nullableForm call.user),
    ("context", objectForm (entriesInOrder call.context))]

theorem collected_append (entries : List (String × String)) (entry : String × String) :
    collected (entries ++ [entry]) = (collected entries).insert entry.1 entry.2 := by
  rw [collected, List.foldl_append]
  rfl

/-- Entries of a map collect into a map without other entries. -/
theorem lookup_collected {texts : StringMap} {entries : List (String × String)}
    (h : ∀ entry ∈ entries, texts.lookup entry.1 = some entry.2) (key : String) :
    (collected entries).lookup key =
      if key ∈ entries.map Prod.fst then texts.lookup key else none := by
  induction entries using List.reverseRecOn with
  | nil => simp [collected]
  | append_singleton entries entry ih =>
      have hentries := ih fun entry' hentry' => h entry' (List.mem_append_left _ hentry')
      rw [collected_append, List.map_append]
      by_cases hkey : key = entry.1
      · subst hkey
        rw [Finmap.lookup_insert, if_pos (by simp), h entry (by simp)]
      · rw [Finmap.lookup_insert_of_ne _ hkey, hentries]
        refine if_congr ?_ rfl rfl
        rw [List.mem_append, List.map_singleton, List.mem_singleton, or_iff_left hkey]

theorem collected_entriesInOrder (texts : StringMap) :
    collected (entriesInOrder texts) = texts := by
  refine Finmap.ext_lookup fun key => ?_
  have hentries : ∀ entry ∈ entriesInOrder texts, texts.lookup entry.1 = some entry.2 :=
    fun _ => mem_targetEntries.1
  rw [lookup_collected hentries]
  split
  · rfl
  · rename_i habsent
    symm
    rw [Finmap.lookup_eq_none]
    intro hkey
    obtain ⟨text, htext⟩ := Finmap.mem_iff.1 hkey
    have hentry : (key, text) ∈ entriesInOrder texts := mem_targetEntries.2 htext
    exact habsent (List.mem_map_of_mem hentry)

/-- A written call holds the call. -/
theorem isCall_callForm (call : PolicyCall) : IsCall (callForm call) call := by
  refine .object ?_ rfl rfl rfl rfl rfl (collected_entriesInOrder call.context)
  simp [OnlyFields, callFields]

end HpGuardian

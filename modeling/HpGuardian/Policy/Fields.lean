import HpGuardian.Framework.Outcomes
import HpGuardian.Policy.Parser

/-!
# The fields of a mapping

The Rust parser reads a mapping in one loop over its entries: a match on the key, a check of the
value, and an assignment to a field of a record.  A specification of the parser speaks of the
fields by name.  The lemmas here say what such a loop leaves behind, and what the parser's checks
of single fields accept.

A part of the loop's state that only one field touches ends up as that field left it.  There are
two forms of this.  Where the keys of a mapping are distinct, it is the one entry with the key
(`Fields.foldlM_slot`); in general, it is the last one (`Fields.last`, `Fields.foldlM_last`).  The
decoder refuses equal keys, so the second form is only more general than needed, but it needs no
hypothesis about the document.

The rest of the module applies this to the two mappings whose fields are read in a loop of their
own in several other modules, the rule and the target.
-/

namespace HpGuardian

open Framework

/-! ## Fields of a mapping

Mappings with distinct and known keys, and the loop over them. -/

/-- Every key is one of the given names. -/
def Fields.KnownKeys (fields : Fields) (names : List String) : Prop :=
  ∀ entry ∈ fields, ∃ name ∈ names, entry.1 = .string name

section Fields

variable {fields : Fields} {name : String} {names : List String} {value : Yaml}

theorem asStr_beq (key : Yaml) (name : String) :
    (key.asStr == some name) = true ↔ key = .string name := by
  rw [beq_iff_eq, Yaml.asStr_eq_some]

theorem Fields.mem_of_get (h : fields.get name = some value) : (.string name, value) ∈ fields := by
  obtain ⟨entry, hfind, rfl⟩ := Option.map_eq_some_iff.1 h
  have htest := List.find?_some hfind
  have hkey : entry.1 = .string name := (asStr_beq _ _).1 htest
  rw [← hkey]
  exact List.mem_of_find?_eq_some hfind

theorem Fields.get_eq_none :
    fields.get name = none ↔ ∀ entry ∈ fields, entry.1 ≠ .string name := by
  rw [Fields.get, Option.map_eq_none_iff, List.find?_eq_none]
  simp only [asStr_beq, ne_eq]

theorem Fields.DistinctKeys.tail {head : Yaml × Yaml}
    (h : Fields.DistinctKeys (head :: fields)) : fields.DistinctKeys :=
  h.sublist ((List.sublist_cons_self head fields).filterMap _)

/-- The key of the first entry does not come again. -/
theorem Fields.DistinctKeys.head_new
    (h : Fields.DistinctKeys ((.string name, value) :: fields)) :
    ∀ entry ∈ fields, entry.1 ≠ .string name := by
  intro entry hentry hkey
  have hagain : name ∈ fields.filterMap (fun entry => entry.1.asStr) :=
    List.mem_filterMap.2 ⟨entry, hentry, Yaml.asStr_eq_some.2 hkey⟩
  exact (List.nodup_cons.1 h).1 hagain

theorem Fields.get_of_mem (hdistinct : fields.DistinctKeys)
    (hmem : (Yaml.string name, value) ∈ fields) : fields.get name = some value := by
  induction fields with
  | nil => simp at hmem
  | cons head fields ih =>
      obtain ⟨key, first⟩ := head
      by_cases hkey : key = .string name
      · subst hkey
        rcases List.mem_cons.1 hmem with heq | hmem
        · cases heq
          simp [Fields.get, Yaml.asStr]
        · exact absurd rfl (hdistinct.head_new _ hmem)
      · have hmem : (Yaml.string name, value) ∈ fields := by
          rcases List.mem_cons.1 hmem with heq | hmem
          · cases heq
            exact absurd rfl hkey
          · exact hmem
        have hbeq : (key.asStr == some name) = false := by
          rw [← Bool.not_eq_true, asStr_beq]
          exact hkey
        have hget := ih hdistinct.tail hmem
        rw [Fields.get] at hget ⊢
        rwa [List.find?_cons_of_neg (by simp [hbeq])]

/-- With distinct known keys that are all present, a mapping has one entry for each name. -/
theorem Fields.length_eq (hdistinct : fields.DistinctKeys) (hknown : fields.KnownKeys names)
    (hnames : names.Nodup) (hpresent : ∀ name ∈ names, (fields.get name).isSome) :
    fields.length = names.length := by
  have hperm : (fields.filterMap (fun entry => entry.1.asStr)).Perm names := by
    refine (List.perm_ext_iff_of_nodup hdistinct hnames).2 (fun name => ?_)
    simp only [List.mem_filterMap, Yaml.asStr_eq_some]
    constructor
    · rintro ⟨entry, hentry, hkey⟩
      obtain ⟨known, hmem, hknown⟩ := hknown entry hentry
      rw [hkey] at hknown
      cases hknown
      exact hmem
    · intro hname
      obtain ⟨value, hvalue⟩ := Option.isSome_iff_exists.1 (hpresent name hname)
      exact ⟨_, Fields.mem_of_get hvalue, rfl⟩
  have hkeys : (fields.filterMap (fun entry => entry.1.asStr)).length = fields.length := by
    rw [List.length_filterMap_eq_countP, List.countP_eq_length]
    intro entry hentry
    obtain ⟨known, -, hkey⟩ := hknown entry hentry
    simp [hkey, Yaml.asStr]
  rw [← hkeys, hperm.length_eq]

/-- The fields with the given names that are present, in the order of the names. -/
def Fields.inOrder (fields : Fields) (names : List String) : Fields :=
  names.filterMap (fun name => (fields.get name).map (fun value => (.string name, value)))

theorem Fields.nodup (hdistinct : fields.DistinctKeys) (hknown : fields.KnownKeys names) :
    List.Nodup fields := by
  induction fields with
  | nil => exact List.nodup_nil
  | cons head fields ih =>
      obtain ⟨key, first⟩ := head
      obtain ⟨name, -, hkey⟩ := hknown (key, first) (by simp)
      obtain rfl : key = .string name := hkey
      refine List.nodup_cons.2 ⟨fun hmem => hdistinct.head_new _ hmem rfl, ?_⟩
      exact ih hdistinct.tail (fun entry hentry => hknown entry (List.mem_cons_of_mem _ hentry))

/-- A mapping with distinct known keys is its fields in any fixed order. -/
theorem Fields.perm_inOrder (hdistinct : fields.DistinctKeys) (hknown : fields.KnownKeys names)
    (hnames : names.Nodup) : List.Perm fields (fields.inOrder names) := by
  refine (List.perm_ext_iff_of_nodup (Fields.nodup hdistinct hknown) ?_).2 (fun entry => ?_)
  · refine hnames.filterMap (fun name name' entry hname hname' => ?_)
    obtain ⟨_, -, rfl⟩ := Option.map_eq_some_iff.1 hname
    obtain ⟨_, -, heq⟩ := Option.map_eq_some_iff.1 hname'
    cases heq
    rfl
  · simp only [Fields.inOrder, List.mem_filterMap, Option.map_eq_some_iff]
    constructor
    · intro hentry
      obtain ⟨name, hname, hkey⟩ := hknown entry hentry
      obtain ⟨key, value⟩ := entry
      obtain rfl : key = .string name := hkey
      exact ⟨name, hname, value, Fields.get_of_mem hdistinct hentry, rfl⟩
    · rintro ⟨name, -, value, hvalue, rfl⟩
      exact Fields.mem_of_get hvalue

/-- A part of the loop's state that only one field touches ends up as that field left it. -/
theorem Fields.foldlM_slot {ε σ τ : Type*} {f : σ → Yaml × Yaml → Except ε σ} (slot : σ → τ)
    (name : String) (update : Yaml → τ → τ) (hdistinct : fields.DistinctKeys)
    (hother : ∀ s s' entry, entry.1 ≠ .string name → f s entry = .ok s' → slot s' = slot s)
    (hkey : ∀ s s' value, f s (.string name, value) = .ok s' → slot s' = update value (slot s))
    {s s' : σ} (hrun : fields.foldlM f s = .ok s') :
    slot s' = match fields.get name with
      | some value => update value (slot s)
      | none => slot s := by
  obtain ⟨hpresent, habsent⟩ := Framework.foldlM_slot slot
    (fun entry : Yaml × Yaml => entry.1.asStr) name (fun entry => update entry.2) hdistinct
    (fun s s' entry hentry => hother s s' entry (fun h => hentry (Yaml.asStr_eq_some.2 h)))
    (fun s s' entry hentry => by
      obtain ⟨key, value⟩ := entry
      obtain rfl := Yaml.asStr_eq_some.1 hentry
      exact hkey s s' value) hrun
  cases hget : fields.get name with
  | some value => exact hpresent _ (Fields.mem_of_get hget) rfl
  | none =>
      refine habsent (fun entry hentry h => ?_)
      exact Fields.get_eq_none.1 hget entry hentry (Yaml.asStr_eq_some.1 h)

end Fields

/-! ## Checks of single values

The checks that the parser is made of, each as the form of a value that passes it. -/

theorem okOr_ok {ε α : Type} {value : Option α} {error : ε} {found : α} :
    okOr value error = .ok found ↔ value = some found := by
  cases value <;> simp [okOr]

theorem mappingOf_ok {value : Yaml} {description : String} {fields : Fields} :
    mappingOf value description = .ok fields ↔ value = .mapping fields := by
  cases value <;> simp [mappingOf, Yaml.asMapping]

theorem fieldName_ok {field : Yaml} {scope name : String} :
    fieldName field scope = .ok name ↔ field = .string name := by
  cases field <;> simp [fieldName, Yaml.asStr]

theorem orElseError_ok {α : Type} {result : Except PolicyError α} {error : PolicyError}
    {a : α} : orElseError result error = .ok a ↔ result = .ok a := by
  cases result <;> simp [orElseError, Except.mapError]

theorem stringOr_ok {value : Yaml} {error : PolicyError} {text : String} :
    stringOr value error = .ok text ↔ value = .string text := by
  cases value <;> simp [stringOr, Yaml.asStr]

theorem unambiguousStringOr_ok {value : Yaml} {notString ambiguous : PolicyError}
    {text : String} :
    unambiguousStringOr value notString ambiguous = .ok text ↔
      value = .string text ∧ isAmbiguousYamlScalar text = false := by
  cases value with
  | string s =>
      simp only [unambiguousStringOr, stringOr, Yaml.asStr, ok_bind, Yaml.string.injEq]
      split
      · next h =>
          simp only [reduceCtorEq, false_iff, not_and, Bool.not_eq_false]
          rintro rfl
          exact h
      · next h =>
          simp only [Except.ok.injEq, iff_self_and]
          rintro rfl
          simpa using h
  | _ => simp [unambiguousStringOr, stringOr, Yaml.asStr]

/-! ## The last entry with a key

What is kept where a key might come twice. -/

/-- The value of the last entry with a string key.  A decoded mapping holds a key once; were it to
hold it twice, this is the value that the parser keeps. -/
def Fields.last (fields : Fields) (name : String) : Option Yaml :=
  Fields.get fields.reverse name

theorem Fields.get_of_all {fields : Fields} {name : String}
    (h : ∀ entry ∈ fields, entry.1 = .string name) :
    fields.get name = fields.head?.map Prod.snd := by
  cases fields with
  | nil => rfl
  | cons entry rest =>
      have hkey := h entry (by simp)
      simp [Fields.get, hkey, Yaml.asStr]

theorem Fields.last_nil (name : String) : Fields.last [] name = none := rfl

theorem Fields.last_concat (fields : Fields) (entry : Yaml × Yaml) (name : String) :
    Fields.last (fields ++ [entry]) name =
      if entry.1.asStr = some name then some entry.2 else fields.last name := by
  rw [Fields.last, List.reverse_append, List.reverse_singleton, List.singleton_append, Fields.get,
    List.find?_cons]
  by_cases hkey : entry.1.asStr = some name
  · rw [if_pos hkey, hkey, beq_self_eq_true]
    rfl
  · rw [if_neg hkey, beq_eq_false_iff_ne.2 hkey]
    rfl

theorem Fields.mem_of_last {fields : Fields} {name : String} {value : Yaml}
    (h : fields.last name = some value) : (.string name, value) ∈ fields :=
  List.mem_reverse.1 (Fields.mem_of_get h)

theorem Fields.last_eq_none {fields : Fields} {name : String} :
    fields.last name = none ↔ ∀ entry ∈ fields, entry.1 ≠ .string name := by
  rw [Fields.last, Fields.get_eq_none]
  simp only [List.mem_reverse]

/-- With distinct keys the last entry with a key is the only one. -/
theorem Fields.last_eq_get {fields : Fields} (hdistinct : fields.DistinctKeys) (name : String) :
    fields.last name = fields.get name := by
  cases hget : fields.get name with
  | some value =>
      have hreverse : Fields.DistinctKeys fields.reverse := by
        rw [Fields.DistinctKeys, List.filterMap_reverse, List.nodup_reverse]
        exact hdistinct
      exact Fields.get_of_mem hreverse (List.mem_reverse.2 (Fields.mem_of_get hget))
  | none =>
      rw [Fields.last_eq_none]
      exact Fields.get_eq_none.1 hget

/-- A part of the loop's state that the entries with one key overwrite holds at the end what the
last of them wrote. -/
theorem Fields.foldlM_last {ε σ τ : Type*} {f : σ → Yaml × Yaml → Except ε σ} (slot : σ → τ)
    (name : String) (written : Yaml → τ)
    (hother : ∀ s s' entry, entry.1 ≠ .string name → f s entry = .ok s' → slot s' = slot s)
    (hkey : ∀ s s' value, f s (.string name, value) = .ok s' → slot s' = written value)
    {fields : Fields} {s s' : σ} (hrun : fields.foldlM f s = .ok s') :
    slot s' = ((fields.last name).map written).getD (slot s) := by
  induction fields using List.reverseRecOn generalizing s' with
  | nil =>
      obtain rfl := Except.ok.inj hrun
      rfl
  | append_singleton fields entry ih =>
      rw [List.foldlM_append, bind_ok_iff] at hrun
      obtain ⟨t, hfields, hlast⟩ := hrun
      rw [List.foldlM_cons, bind_ok_iff] at hlast
      obtain ⟨t', hround, hdone⟩ := hlast
      obtain rfl := Except.ok.inj hdone
      rw [Fields.last_concat]
      by_cases hname : entry.1.asStr = some name
      · obtain ⟨key, value⟩ := entry
        obtain rfl : key = .string name := Yaml.asStr_eq_some.1 hname
        rw [if_pos hname, hkey t t' value hround]
        rfl
      · rw [if_neg hname, hother t t' entry (fun h => hname (Yaml.asStr_eq_some.2 h)) hround,
          ih hfields]

/-! ## Setting a field of a mapping

A change of a document at one key, and what it does to the other keys. -/

/-- A field set in a mapping: in its place if the mapping has it, and else at the end. -/
def Fields.put (fields : Fields) (name : String) (value : Yaml) : Fields :=
  if ∃ entry ∈ fields, entry.1.asStr = some name then
    fields.map (fun entry => if entry.1.asStr = some name then (entry.1, value) else entry)
  else
    fields ++ [(.string name, value)]

theorem Fields.forall_mem_put {fields : Fields} {name : String} {value : Yaml}
    {P : Yaml × Yaml → Prop} :
    (∀ entry ∈ Fields.put fields name value, P entry) ↔
      (∀ entry ∈ fields, entry.1.asStr ≠ some name → P entry) ∧ P (.string name, value) := by
  unfold Fields.put
  split
  · rename_i hpresent
    obtain ⟨found, hfound, hkey⟩ := hpresent
    simp only [List.forall_mem_map]
    constructor
    · intro h
      refine ⟨fun entry hentry hne => ?_, ?_⟩
      · have hold := h entry hentry
        rwa [if_neg hne] at hold
      · have hnew := h found hfound
        rwa [if_pos hkey, Yaml.asStr_eq_some.1 hkey] at hnew
    · rintro ⟨hold, hnew⟩ entry hentry
      by_cases hname : entry.1.asStr = some name
      · rw [if_pos hname, Yaml.asStr_eq_some.1 hname]
        exact hnew
      · rw [if_neg hname]
        exact hold entry hentry hname
  · rename_i habsent
    simp only [List.forall_mem_append, List.mem_singleton, forall_eq]
    refine and_congr_left fun _ =>
      ⟨fun h entry hentry _ => h entry hentry, fun h entry hentry => ?_⟩
    exact h entry hentry fun hname => habsent ⟨entry, hentry, hname⟩

theorem Fields.last_map {fields : Fields} {change : Yaml × Yaml → Yaml}
    (name : String) :
    Fields.last (fields.map (fun entry => (entry.1, change entry))) name =
      (fields.reverse.find? (fun entry => entry.1.asStr == some name)).map change := by
  rw [Fields.last, Fields.get, ← List.map_reverse, List.find?_map, Option.map_map]
  rfl

theorem Fields.last_put (fields : Fields) (name : String) (value : Yaml) (other : String) :
    (Fields.put fields name value).last other =
      if other = name then some value else fields.last other := by
  unfold Fields.put
  split
  · rename_i hpresent
    have hmap : fields.map (fun entry => if entry.1.asStr = some name then (entry.1, value)
        else entry) = fields.map (fun entry =>
          (entry.1, if entry.1.asStr = some name then value else entry.2)) := by
      refine List.map_congr_left fun entry _ => ?_
      split <;> rfl
    rw [hmap, Fields.last_map]
    cases hfind : fields.reverse.find? (fun entry => entry.1.asStr == some other) with
    | none =>
        have hnone : fields.last other = none := by rw [Fields.last, Fields.get, hfind]; rfl
        have hne : other ≠ name := by
          rintro rfl
          obtain ⟨entry, hentry, hkey⟩ := hpresent
          exact Fields.last_eq_none.1 hnone entry hentry (Yaml.asStr_eq_some.1 hkey)
        rw [if_neg hne, hnone]
        rfl
    | some entry =>
        have htest := List.find?_some hfind
        have hkey : entry.1.asStr = some other := beq_iff_eq.1 htest
        rw [Fields.last, Fields.get, hfind, Option.map_some, Option.map_some]
        simp only [hkey, Option.some.injEq]
        split <;> rfl
  · rename_i habsent
    rw [Fields.last_concat]
    simp only [Yaml.asStr, Option.some.injEq, eq_comm]

/-! ## Fields of a rule

The loop over a rule mapping, and the record it fills. -/

section

variable {rt : YamlRuntime}

/-- The fields a rule may have. -/
def ruleNames (allowRateLimit : Bool) : List String :=
  ["id", "action", "target", "condition"] ++ if allowRateLimit then ["rate_limit"] else []

/-- One field of a rule mapping, stored. -/
def RuleFields.set (acc : RuleFields) (name : String) (value : Yaml) : RuleFields :=
  if name = "action" then { acc with action := value.asStr }
  else if name = "target" then { acc with target := some value }
  else if name = "condition" then { acc with condition := some value }
  else if name = "id" then { acc with id := value.asStr }
  else { acc with rateLimit := (parseRateLimit value).toOption }

/-- A value that a field of a rule may have, as far as it is checked while the fields are read. The
target and the condition are read later, once all fields are known. -/
def RuleValue (name : String) (value : Yaml) : Prop :=
  (name = "action" → ∃ text, value = .string text) ∧
    (name = "id" → ∃ text, value = .string text ∧ isAmbiguousYamlScalar text = false) ∧
    (name = "rate_limit" → ∃ rateLimit, parseRateLimit value = .ok rateLimit)

/-- What one field of a rule mapping does. -/
theorem ruleField_ok {allow : Bool} {acc acc' : RuleFields} {name : String} {value : Yaml} :
    ruleField rt allow acc (.string name, value) = .ok acc' ↔
      name ∈ ruleNames allow ∧ RuleValue name value ∧ acc' = acc.set name value := by
  have hname : name ∈ ruleNames allow ↔ name ∈ ["id", "action", "target", "condition"] ∨
      name = "rate_limit" ∧ allow = true := by
    cases allow <;> simp [ruleNames, or_assoc]
  rw [hname]
  simp only [ruleField, fieldName, Yaml.asStr, ok_bind, RuleFields.set, RuleValue]
  by_cases haction : name = "action"
  · subst haction
    simp [bind_ok_iff, stringOr_ok]
    constructor
    · rintro ⟨text, rfl, rfl⟩
      exact ⟨⟨text, rfl⟩, rfl⟩
    · rintro ⟨⟨text, rfl⟩, rfl⟩
      exact ⟨text, rfl, rfl⟩
  by_cases htarget : name = "target"
  · subst htarget
    simp
    exact eq_comm
  by_cases hcondition : name = "condition"
  · subst hcondition
    simp
    exact eq_comm
  by_cases hid : name = "id"
  · subst hid
    simp [bind_ok_iff, unambiguousStringOr_ok]
    constructor
    · rintro ⟨text, ⟨rfl, htext⟩, rfl⟩
      exact ⟨⟨text, rfl, htext⟩, rfl⟩
    · rintro ⟨⟨text, rfl, htext⟩, rfl⟩
      exact ⟨text, ⟨rfl, htext⟩, rfl⟩
  by_cases hrate : name = "rate_limit"
  · subst hrate
    cases allow
    · simp
    · simp [bind_ok_iff]
      constructor
      · rintro ⟨rateLimit, hparse, rfl⟩
        exact ⟨⟨rateLimit, hparse⟩, by rw [hparse]; rfl⟩
      · rintro ⟨⟨rateLimit, hparse⟩, rfl⟩
        exact ⟨rateLimit, hparse, by rw [hparse]; rfl⟩
  · simp [haction, htarget, hcondition, hid, hrate]

theorem ruleField_key {allow : Bool} {acc acc' : RuleFields} {entry : Yaml × Yaml}
    (h : ruleField rt allow acc entry = .ok acc') :
    ∃ name, entry.1 = .string name ∧ name ∈ ruleNames allow ∧ RuleValue name entry.2 ∧
      acc' = acc.set name entry.2 := by
  obtain ⟨key, value⟩ := entry
  cases key with
  | string name => exact ⟨name, rfl, ruleField_ok.1 h⟩
  | _ => simp [ruleField, fieldName, Yaml.asStr] at h

/-- The names a rule may have, apart from those of another slot. -/
theorem ruleName_cases {allow : Bool} {name : String} (h : name ∈ ruleNames allow) :
    name = "action" ∨ name = "target" ∨ name = "condition" ∨ name = "id" ∨ name = "rate_limit" := by
  cases allow <;> simp [ruleNames] at h <;> tauto

/-- The loop over a rule mapping succeeds iff every known field has an admissible value. -/
theorem ruleFields_isOk {allow : Bool} (fields : Fields) (acc : RuleFields) :
    (∃ rule, fields.foldlM (ruleField rt allow) acc = .ok rule) ↔
      ∀ entry ∈ fields, ∃ name, entry.1 = .string name ∧ name ∈ ruleNames allow ∧
        RuleValue name entry.2 := by
  refine foldlM_isOk_iff (fun acc entry => ?_) fields acc
  constructor
  · rintro ⟨rule, h⟩
    obtain ⟨name, hkey, hname, hvalue, -⟩ := ruleField_key h
    exact ⟨name, hkey, hname, hvalue⟩
  · obtain ⟨key, value⟩ := entry
    rintro ⟨name, rfl, hname, hvalue⟩
    exact ⟨_, ruleField_ok.2 ⟨hname, hvalue, rfl⟩⟩

/-- A field that a rule may have, with an admissible value. -/
def RuleFieldValid (allowRateLimit : Bool) (entry : Yaml × Yaml) : Prop :=
  ∃ name, entry.1 = .string name ∧ name ∈ ruleNames allowRateLimit ∧ RuleValue name entry.2

/-- What the fields of a rule mapping hold. -/
def RuleFields.ofFields (fields : Fields) : RuleFields where
  action := (fields.last "action").bind Yaml.asStr
  target := fields.last "target"
  condition := fields.last "condition"
  id := (fields.last "id").bind Yaml.asStr
  rateLimit := (fields.last "rate_limit").bind (fun value => (parseRateLimit value).toOption)

/-- A part of what is read from a rule mapping comes from the last entry with its key. -/
theorem ruleFields_slot {allow : Bool} {τ : Type} (slot : RuleFields → Option τ) (name : String)
    (written : Yaml → Option τ)
    (hset : ∀ (acc : RuleFields) (key : String) (value : Yaml), key ∈ ruleNames true →
      slot (acc.set key value) = if key = name then written value else slot acc)
    {fields : Fields} {acc rule : RuleFields} (hnone : slot acc = none)
    (hrun : fields.foldlM (ruleField rt allow) acc = .ok rule) :
    slot rule = (fields.last name).bind written := by
  have hknown : ∀ key, key ∈ ruleNames allow → key ∈ ruleNames true := by
    cases allow <;> simp [ruleNames]
  have hlast := Fields.foldlM_last slot name written
    (fun acc acc' entry hkey h => by
      obtain ⟨key, hentry, hmem, -, rfl⟩ := ruleField_key h
      rw [hset acc key _ (hknown key hmem), if_neg]
      rintro rfl
      exact hkey hentry)
    (fun acc acc' value h => by
      obtain ⟨key, hentry, hmem, -, rfl⟩ := ruleField_key h
      obtain rfl := Yaml.string.inj hentry
      rw [hset acc name _ (hknown name hmem), if_pos rfl]) hrun
  rw [hlast, hnone]
  cases fields.last name <;> rfl

theorem ruleFields_ofFields {allow : Bool} {fields : Fields} {rule : RuleFields}
    (hrun : fields.foldlM (ruleField rt allow) ⟨none, none, none, none, none⟩ = .ok rule) :
    rule = RuleFields.ofFields fields := by
  have hnames : ∀ key, key ∈ ruleNames true → key = "action" ∨ key = "target" ∨
      key = "condition" ∨ key = "id" ∨ key = "rate_limit" := fun key hkey => ruleName_cases hkey
  have haction := ruleFields_slot RuleFields.action "action" Yaml.asStr
    (fun acc key value hkey => by
      rcases hnames key hkey with rfl | rfl | rfl | rfl | rfl <;> rfl) rfl hrun
  have htarget := ruleFields_slot RuleFields.target "target" some
    (fun acc key value hkey => by
      rcases hnames key hkey with rfl | rfl | rfl | rfl | rfl <;> rfl) rfl hrun
  have hcondition := ruleFields_slot RuleFields.condition "condition" some
    (fun acc key value hkey => by
      rcases hnames key hkey with rfl | rfl | rfl | rfl | rfl <;> rfl) rfl hrun
  have hid := ruleFields_slot RuleFields.id "id" Yaml.asStr
    (fun acc key value hkey => by
      rcases hnames key hkey with rfl | rfl | rfl | rfl | rfl <;> rfl) rfl hrun
  have hrate := ruleFields_slot RuleFields.rateLimit "rate_limit"
    (fun value => (parseRateLimit value).toOption)
    (fun acc key value hkey => by
      rcases hnames key hkey with rfl | rfl | rfl | rfl | rfl <;> rfl) rfl hrun
  rw [Option.bind_fun_some] at htarget hcondition
  rw [RuleFields.ofFields, ← haction, ← htarget, ← hcondition, ← hid, ← hrate]

/-- The loop over a rule mapping accepts known fields with admissible values, and keeps the last
value of each. -/
theorem ruleFields_ok_iff_last {allow : Bool} {fields : Fields} {rule : RuleFields} :
    fields.foldlM (ruleField rt allow) ⟨none, none, none, none, none⟩ = .ok rule ↔
      (∀ entry ∈ fields, RuleFieldValid allow entry) ∧ rule = RuleFields.ofFields fields := by
  constructor
  · intro hrun
    exact ⟨(ruleFields_isOk fields _).1 ⟨rule, hrun⟩, ruleFields_ofFields hrun⟩
  · rintro ⟨hvalid, rfl⟩
    have hok : ∃ rule,
        fields.foldlM (ruleField rt allow) ⟨none, none, none, none, none⟩ = .ok rule :=
      (ruleFields_isOk fields _).2 hvalid
    obtain ⟨rule, hrun⟩ := hok
    rw [hrun, ruleFields_ofFields hrun]

end

/-! ## Fields of a target

The loop over a target mapping fills a map instead of a record. -/

theorem context_ne {key : String} (hkey : key ∈ ["agent", "tool", "user"]) (k : String) :
    "context." ++ k ≠ key := by
  intro h
  have hhead := congrArg (fun s : String => s.toList.head?) h
  simp only [String.toList_append] at hhead
  simp only [List.mem_cons, List.not_mem_nil, or_false] at hkey
  rcases hkey with rfl | rfl | rfl <;> simp at hhead

/-- One of the fields `agent`, `tool` and `user` of a target. -/
theorem targetField_string {key : String} (hkey : key ∈ ["agent", "tool", "user"])
    (parsed : StringMap) (value : Yaml) :
    targetField parsed (.string key, value) =
      (unambiguousStringOr value (.invalidTarget key) (.invalidTarget key)).map
        (fun text => parsed.insert key text) := by
  simp only [List.mem_cons, List.not_mem_nil, or_false] at hkey
  exact if_pos hkey

/-- The `context` of a target. -/
theorem targetField_context (parsed : StringMap) (value : Yaml) :
    targetField parsed (.string "context", value) =
      (orElseError (mappingOf value "target.context") (.invalidTarget "context")).bind
        (fun context => context.foldlM contextEntry parsed) := rfl

theorem targetField_key {parsed parsed' : StringMap} {entry : Yaml × Yaml}
    (h : targetField parsed entry = .ok parsed') :
    ∃ name ∈ ["agent", "tool", "user", "context"], entry.1 = .string name := by
  obtain ⟨key, value⟩ := entry
  cases key with
  | string name =>
      refine ⟨name, ?_, rfl⟩
      by_contra hname
      simp only [List.mem_cons, List.not_mem_nil, or_false, not_or] at hname
      simp [targetField, fieldName, Yaml.asStr, orElseError, Except.mapError, bind, Except.bind,
        hname] at h
  | _ => simp [targetField, fieldName, Yaml.asStr, orElseError, Except.mapError, bind,
      Except.bind] at h

end HpGuardian

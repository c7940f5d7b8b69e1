import HpGuardian.Policy.ReadRules
import Mathlib.Data.Set.Card

/-!
# What a target means

A parsed target is flat: one map from `agent`, `tool`, `user` and `context.KEY` to values.
`TargetField` names the fields that such keys stand for, and different fields have different keys,
whatever the context keys are (`TargetField.key_injective`).

The parser stores what the document declares for each field, the enclosing scope included
(`ReadsAs.lookup`).  A scope is added to the target of a nested rule unless the target already says
otherwise, which makes the document invalid.  So what a rule *demands* of a call's field is the
value of its scope, or else the declared one, and `targets_as_declared` says what this makes of
matching and of specificity: a rule matches the calls that agree with all that is demanded, and its
specificity is the number of fields so constrained.

The statement is about every entry of every accepted document.  It needs the loop over a target
mapping only through what it stores (`Stores`), and the parsed target only through lookups
(`FieldKeys.ext`).
-/

namespace HpGuardian

open Framework

/-! ## Fields of a call

Fields, their keys, and the matcher in terms of fields. -/

/-- A field of a call that a target can constrain. -/
inductive TargetField where
  | agent
  | tool
  | user
  | context (key : String)
  deriving DecidableEq

/-- The key of a field in a parsed target. -/
def TargetField.key : TargetField → String
  | .agent => "agent"
  | .tool => "tool"
  | .user => "user"
  | .context key => "context." ++ key

/-- The value of a field in a call. -/
def PolicyCall.field (call : PolicyCall) : TargetField → Option String
  | .agent => call.agent
  | .tool => call.tool
  | .user => call.user
  | .context key => call.context.lookup key

theorem contextKey_injective : Function.Injective (fun key : String => "context." ++ key) := by
  intro key key' h
  have hlist := congrArg String.toList h
  simp only [String.toList_append, List.append_cancel_left_eq] at hlist
  exact String.toList_injective hlist

/-- Different fields have different keys, whatever the context keys are. -/
theorem TargetField.key_injective : Function.Injective TargetField.key := by
  have hcontext : ∀ {name : String} (_ : name ∈ ["agent", "tool", "user"]) (k : String),
      "context." ++ k ≠ name := fun hname k => context_ne hname k
  intro field field' h
  cases field <;> cases field' <;> simp only [TargetField.key] at h
  case context.context key key' => rw [contextKey_injective h]
  all_goals first
    | rfl
    | exact absurd h (by simp)
    | exact absurd h (hcontext (by simp) _)
    | exact absurd h.symm (hcontext (by simp) _)

theorem stripContextPrefix_context (key : String) :
    stripContextPrefix ("context." ++ key) = some key := by
  rw [stripContextPrefix, String.toList_append, if_pos (List.prefix_append _ _),
    List.drop_left, String.ofList_toList]

/-- The matcher compares the field that the key stands for. -/
theorem targetEntryMatches_key (call : PolicyCall) (field : TargetField) (value : String) :
    targetEntryMatches call field.key value = true ↔ call.field field = some value := by
  have hplain : ∀ own : Option String, callFieldIs own value = true ↔ own = some value := by
    intro own
    cases own <;> simp [callFieldIs]
  cases field with
  | agent => exact hplain _
  | tool => exact hplain _
  | user => exact hplain _
  | context key =>
      have hagent := @context_ne "agent" (by simp) key
      have htool := @context_ne "tool" (by simp) key
      have huser := @context_ne "user" (by simp) key
      simp [targetEntryMatches, TargetField.key, hagent, htool, huser,
        stripContextPrefix_context, PolicyCall.field]

/-! ## Declared fields

What a document says about a field, as a function of the document. -/

/-- The entries of `target.context`. -/
def contextFields (target : Fields) : Fields :=
  (target.filter (fun entry => entry.1.asStr == some "context")).flatMap
    (fun entry => entry.2.asMapping.getD [])

/-- What a target mapping declares for a field. -/
def declaredIn (target : Fields) : TargetField → Option Yaml
  | .agent => target.last "agent"
  | .tool => target.last "tool"
  | .user => target.last "user"
  | .context key => (contextFields target).last key

/-- The mapping under `target`. -/
def RuleEntry.targetFields (entry : RuleEntry) : Fields :=
  ((Fields.last (entry.value.asMapping.getD []) "target").bind Yaml.asMapping).getD []

/-- The entry's target declares a value for the field. -/
def RuleEntry.Declares (entry : RuleEntry) (field : TargetField) (value : Yaml) : Prop :=
  declaredIn entry.targetFields field = some value

/-- The value that an entry demands of a field: that of its scope, or else the declared one. -/
def RuleEntry.demanded (entry : RuleEntry) (field : TargetField) : Option String :=
  match entry.scope, field with
  | some (agentName, _), .agent => some agentName
  | some (_, toolName), .tool => some toolName
  | _, field => (declaredIn entry.targetFields field).bind Yaml.asStr

/-- An entry constrains the fields it declares and, in a scope, the agent and the tool. A rule
applies to a call only if the call has the declared value in every constrained field. -/
def RuleEntry.Constrains (entry : RuleEntry) (field : TargetField) : Prop :=
  (∃ value, entry.Declares field value) ∨
    entry.scope.isSome ∧ (field = .agent ∨ field = .tool)

/-! ## Parsing a target

The loop over a target mapping stores what the mapping declares, under keys of fields. -/

theorem Fields.last_append (fields fields' : Fields) (name : String) :
    Fields.last (fields ++ fields') name = (fields'.last name).or (fields.last name) := by
  simp only [Fields.last, Fields.get, List.reverse_append, List.find?_append, Option.map_or]

theorem contextFields_append (target target' : Fields) :
    contextFields (target ++ target') = contextFields target ++ contextFields target' := by
  simp only [contextFields, List.filter_append, List.flatMap_append]

/-- What one entry of `target.context` does. -/
theorem contextEntry_ok_iff {parsed parsed' : StringMap} {entry : Yaml × Yaml} :
    contextEntry parsed entry = .ok parsed' ↔
      ∃ key text, entry = (.string key, .string text) ∧ isAmbiguousYamlScalar text = false ∧
        parsed' = parsed.insert ("context." ++ key) text := by
  obtain ⟨name, value⟩ := entry
  unfold contextEntry
  simp only [bind_ok_iff, orElseError_ok, fieldName_ok, unambiguousStringOr_ok, Prod.mk.injEq]
  constructor
  · rintro ⟨key, rfl, text, ⟨rfl, htext⟩, hinsert⟩
    exact ⟨key, text, ⟨rfl, rfl⟩, htext, (Except.ok.inj hinsert).symm⟩
  · rintro ⟨key, text, ⟨rfl, rfl⟩, htext, rfl⟩
    exact ⟨key, rfl, text, ⟨rfl, htext⟩, rfl⟩

/-- What one field of a target mapping does. -/
theorem targetField_cases {parsed parsed' : StringMap} {entry : Yaml × Yaml}
    (h : targetField parsed entry = .ok parsed') :
    (∃ field text, field ∈ [TargetField.agent, .tool, .user] ∧
        entry = (.string field.key, .string text) ∧ isAmbiguousYamlScalar text = false ∧
        parsed' = parsed.insert field.key text) ∨
      ∃ context, entry = (.string "context", .mapping context) ∧
        context.foldlM contextEntry parsed = .ok parsed' := by
  obtain ⟨key, value⟩ := entry
  obtain ⟨name, hname, rfl⟩ := targetField_key h
  by_cases hcontext : name = "context"
  · subst hcontext
    rw [targetField_context] at h
    obtain ⟨context, hmapping, hrun⟩ := bind_ok_iff.1 h
    rw [orElseError_ok, mappingOf_ok] at hmapping
    exact .inr ⟨context, by rw [hmapping], hrun⟩
  · have hplain : name ∈ ["agent", "tool", "user"] := by
      simp only [List.mem_cons, List.not_mem_nil, or_false] at hname ⊢
      tauto
    have hfield : ∃ field ∈ [TargetField.agent, .tool, .user], field.key = name := by
      simp only [List.mem_cons, List.not_mem_nil, or_false] at hplain
      rcases hplain with rfl | rfl | rfl
      · exact ⟨.agent, by simp, rfl⟩
      · exact ⟨.tool, by simp, rfl⟩
      · exact ⟨.user, by simp, rfl⟩
    obtain ⟨field, hmem, rfl⟩ := hfield
    rw [targetField_string hplain] at h
    cases hvalue : unambiguousStringOr value (.invalidTarget field.key)
      (.invalidTarget field.key) with
    | error e => simp [hvalue, Except.map] at h
    | ok text =>
        obtain ⟨rfl, hunambiguous⟩ := unambiguousStringOr_ok.1 hvalue
        simp only [hvalue, Except.map] at h
        exact .inl ⟨field, text, hmem, rfl, hunambiguous, (Except.ok.inj h).symm⟩

/-- A parsed target holds what is declared, and what it held before where nothing is. Each field of
the target mapping adds to what the ones before it have stored. -/
def Stores (parsed parsed' : StringMap) (declared : TargetField → Option Yaml) : Prop :=
  ∀ field : TargetField,
    parsed'.lookup field.key = ((declared field).map Yaml.asStr).getD (parsed.lookup field.key)

theorem stores_context {context : Fields} {parsed parsed' : StringMap}
    (hrun : context.foldlM contextEntry parsed = .ok parsed') :
    Stores parsed parsed' (declaredIn [(.string "context", .mapping context)]) := by
  have hplain : ∀ field ∈ [TargetField.agent, .tool, .user],
      parsed'.lookup field.key = parsed.lookup field.key := by
    intro field hfield
    refine foldlM_invariant (P := fun p : StringMap => p.lookup field.key = parsed.lookup field.key)
      (fun p entry p' hp hround => ?_) rfl hrun
    obtain ⟨key, text, -, -, rfl⟩ := contextEntry_ok_iff.1 hround
    rw [Finmap.lookup_insert_of_ne, hp]
    refine fun hkey => ?_
    have hne := @TargetField.key_injective field (.context key) hkey
    simp [hne] at hfield
  intro field
  cases field with
  | context name =>
      have hlast := Fields.foldlM_last
        (fun p : StringMap => p.lookup (TargetField.context name).key) name Yaml.asStr
        (fun p p' entry hkey hround => by
          obtain ⟨key, text, rfl, -, rfl⟩ := contextEntry_ok_iff.1 hround
          refine Finmap.lookup_insert_of_ne _ fun heq => hkey ?_
          rw [contextKey_injective heq])
        (fun p p' value hround => by
          obtain ⟨key, text, hentry, -, rfl⟩ := contextEntry_ok_iff.1 hround
          obtain ⟨hkey, rfl⟩ := Prod.mk.inj hentry
          obtain rfl := Yaml.string.inj hkey
          exact Finmap.lookup_insert _) hrun
      rw [hlast]
      simp [declaredIn, contextFields, Yaml.asStr, Yaml.asMapping]
  | agent => exact hplain .agent (by simp)
  | tool => exact hplain .tool (by simp)
  | user => exact hplain .user (by simp)

theorem stores_targetField {parsed parsed' : StringMap} {entry : Yaml × Yaml}
    (h : targetField parsed entry = .ok parsed') :
    Stores parsed parsed' (declaredIn [entry]) := by
  rcases targetField_cases h with ⟨field, text, hfield, rfl, -, rfl⟩ | ⟨context, rfl, hrun⟩
  · intro other
    by_cases hother : other = field
    · subst hother
      rw [Finmap.lookup_insert]
      simp only [List.mem_cons, List.not_mem_nil, or_false] at hfield
      rcases hfield with rfl | rfl | rfl <;> rfl
    · rw [Finmap.lookup_insert_of_ne _ (mt (fun h => TargetField.key_injective h) hother)]
      have hnone : declaredIn [(.string field.key, .string text)] other = none := by
        simp only [List.mem_cons, List.not_mem_nil, or_false] at hfield
        rcases hfield with rfl | rfl | rfl <;> cases other <;>
          simp_all [declaredIn, contextFields, Fields.last, Fields.get, TargetField.key, Yaml.asStr]
      rw [hnone]
      rfl
  · exact stores_context hrun

theorem declaredIn_append (target target' : Fields) (field : TargetField) :
    declaredIn (target ++ target') field =
      (declaredIn target' field).or (declaredIn target field) := by
  cases field <;> simp only [declaredIn, contextFields_append, Fields.last_append]

/-- The loop over a target mapping stores what the mapping declares. -/
theorem stores_targetFields {target : Fields} {parsed parsed' : StringMap}
    (hrun : target.foldlM targetField parsed = .ok parsed') :
    Stores parsed parsed' (declaredIn target) := by
  induction target using List.reverseRecOn generalizing parsed' with
  | nil =>
      obtain rfl := Except.ok.inj hrun
      intro field
      cases field <;> rfl
  | append_singleton target entry ih =>
      rw [List.foldlM_append, bind_ok_iff] at hrun
      obtain ⟨middle, htarget, hlast⟩ := hrun
      rw [List.foldlM_cons, bind_ok_iff] at hlast
      obtain ⟨last, hround, hdone⟩ := hlast
      obtain rfl := Except.ok.inj hdone
      intro field
      rw [stores_targetField hround field, ih htarget field, declaredIn_append]
      cases declaredIn [entry] field <;> rfl

/-- Every key of a parsed target stands for a field. -/
def FieldKeys (parsed : StringMap) : Prop :=
  ∀ key ∈ parsed, ∃ field : TargetField, key = field.key

theorem FieldKeys.insert {parsed : StringMap} (h : FieldKeys parsed) (field : TargetField)
    (value : String) : FieldKeys (parsed.insert field.key value) := by
  intro key hkey
  rcases Finmap.mem_insert.1 hkey with rfl | hkey
  · exact ⟨field, rfl⟩
  · exact h key hkey

theorem fieldKeys_targetFields {target : Fields} {parsed : StringMap}
    (hrun : target.foldlM targetField ∅ = .ok parsed) : FieldKeys parsed := by
  refine foldlM_invariant (P := FieldKeys) (fun p entry p' hp hround => ?_) ?_ hrun
  · rcases targetField_cases hround with ⟨field, text, -, -, -, rfl⟩ | ⟨context, -, hcontext⟩
    · exact hp.insert field text
    · refine foldlM_invariant (P := FieldKeys) (fun q entry q' hq hentry => ?_) hp hcontext
      obtain ⟨key, text, -, -, rfl⟩ := contextEntry_ok_iff.1 hentry
      exact hq.insert (.context key) text
  · intro key hkey
    exact absurd hkey Finmap.notMem_empty

/-- An entry of a target mapping that is accepted: one of the three plain fields with an
unambiguous string, or a context all of whose values are unambiguous strings. -/
def TargetEntryValid (entry : Yaml × Yaml) : Prop :=
  (∃ field ∈ [TargetField.agent, .tool, .user], ∃ text,
      entry = (.string field.key, .string text) ∧ isAmbiguousYamlScalar text = false) ∨
    ∃ context, entry = (.string "context", .mapping context) ∧
      ∀ inner ∈ context, ∃ key text, inner = (.string key, .string text) ∧
        isAmbiguousYamlScalar text = false

theorem contextFold_isOk (context : Fields) (parsed : StringMap) :
    (∃ parsed', context.foldlM contextEntry parsed = .ok parsed') ↔
      ∀ inner ∈ context, ∃ key text, inner = (.string key, .string text) ∧
        isAmbiguousYamlScalar text = false := by
  refine foldlM_isOk_iff (fun parsed inner => ?_) context parsed
  simp only [contextEntry_ok_iff]
  constructor
  · rintro ⟨-, key, text, hinner, htext, -⟩
    exact ⟨key, text, hinner, htext⟩
  · rintro ⟨key, text, hinner, htext⟩
    exact ⟨_, key, text, hinner, htext, rfl⟩

/-- An entry of a target mapping is accepted or not, whatever was read before. -/
theorem targetField_isOk (parsed : StringMap) (entry : Yaml × Yaml) :
    (∃ parsed', targetField parsed entry = .ok parsed') ↔ TargetEntryValid entry := by
  constructor
  · rintro ⟨parsed', h⟩
    rcases targetField_cases h with ⟨field, text, hfield, rfl, htext, -⟩ | ⟨context, rfl, hrun⟩
    · exact .inl ⟨field, hfield, text, rfl, htext⟩
    · exact .inr ⟨context, rfl, (contextFold_isOk context parsed).1 ⟨parsed', hrun⟩⟩
  · rintro (⟨field, hfield, text, rfl, htext⟩ | ⟨context, rfl, hcontext⟩)
    · have hkey : field.key ∈ ["agent", "tool", "user"] := by
        simp only [List.mem_cons, List.not_mem_nil, or_false] at hfield
        rcases hfield with rfl | rfl | rfl <;> simp [TargetField.key]
      have hvalue : unambiguousStringOr (.string text) (.invalidTarget field.key)
          (.invalidTarget field.key) = .ok text := unambiguousStringOr_ok.2 ⟨rfl, htext⟩
      exact ⟨_, by rw [targetField_string hkey, hvalue]; rfl⟩
    · obtain ⟨parsed', hrun⟩ := (contextFold_isOk context parsed).2 hcontext
      exact ⟨parsed', by rw [targetField_context]; exact hrun⟩

/-- A parsed target holds what the mapping under `target` declares, under keys of fields. -/
theorem parseTarget_lookup {target : Option Yaml} {parsed : StringMap}
    (h : parseTarget target = .ok parsed) :
    FieldKeys parsed ∧ ∀ field : TargetField, parsed.lookup field.key =
      (declaredIn ((target.bind Yaml.asMapping).getD []) field).bind Yaml.asStr := by
  cases target with
  | none =>
      obtain rfl := Except.ok.inj h
      refine ⟨fun key hkey => absurd hkey Finmap.notMem_empty, fun field => ?_⟩
      rw [Finmap.lookup_empty]
      cases field <;> rfl
  | some target =>
      obtain ⟨fields, hfields, hrun⟩ := bind_ok_iff.1 h
      rw [orElseError_ok, mappingOf_ok] at hfields
      subst hfields
      refine ⟨fieldKeys_targetFields hrun, fun field => ?_⟩
      rw [stores_targetFields hrun field, Option.bind_some, Yaml.asMapping, Option.getD_some,
        Finmap.lookup_empty]
      cases declaredIn fields field <;> rfl

/-- A target with the keys of fields is determined by their values. -/
theorem FieldKeys.ext {parsed parsed' : StringMap} (h : FieldKeys parsed)
    (h' : FieldKeys parsed')
    (hlookup : ∀ field : TargetField, parsed.lookup field.key = parsed'.lookup field.key) :
    parsed = parsed' := by
  refine Finmap.ext_lookup fun key => ?_
  by_cases hkey : ∃ field : TargetField, key = field.key
  · obtain ⟨field, rfl⟩ := hkey
    exact hlookup field
  · rw [Finmap.lookup_eq_none.2 (mt (h key) hkey), Finmap.lookup_eq_none.2 (mt (h' key) hkey)]

/-- Whether a target is accepted is decided entry by entry. -/
theorem parseTarget_isOk {target : Option Yaml} :
    (∃ parsed, parseTarget target = .ok parsed) ↔ ∀ value ∈ target, ∃ fields,
      value = .mapping fields ∧ ∀ entry ∈ fields, TargetEntryValid entry := by
  cases target with
  | none => exact ⟨fun _ value hvalue => absurd hvalue (by simp), fun _ => ⟨_, rfl⟩⟩
  | some value =>
      simp only [parseTarget, bind_ok_iff, orElseError_ok, mappingOf_ok, Option.mem_def,
        Option.some.injEq, forall_eq']
      constructor
      · rintro ⟨parsed', fields, rfl, hrun⟩
        exact ⟨fields, rfl, (foldlM_isOk_iff targetField_isOk fields ∅).1 ⟨parsed', hrun⟩⟩
      · rintro ⟨fields, rfl, hvalid⟩
        obtain ⟨parsed', hrun⟩ := (foldlM_isOk_iff targetField_isOk fields ∅).2 hvalid
        exact ⟨parsed', fields, rfl, hrun⟩

/-- What the parser accepts as a target. -/
theorem parseTarget_ok_iff {target : Option Yaml} {parsed : StringMap} :
    parseTarget target = .ok parsed ↔
      (∀ value ∈ target, ∃ fields, value = .mapping fields ∧
          ∀ entry ∈ fields, TargetEntryValid entry) ∧
        FieldKeys parsed ∧ ∀ field : TargetField, parsed.lookup field.key =
          (declaredIn ((target.bind Yaml.asMapping).getD []) field).bind Yaml.asStr := by
  constructor
  · intro h
    exact ⟨parseTarget_isOk.1 ⟨parsed, h⟩, parseTarget_lookup h⟩
  · rintro ⟨hvalid, hkeys, hlookup⟩
    obtain ⟨parsed', h⟩ := parseTarget_isOk.2 hvalid
    obtain ⟨hkeys', hlookup'⟩ := parseTarget_lookup h
    rw [h, hkeys'.ext hkeys fun field => (hlookup' field).trans (hlookup field).symm]

/-! ## The enclosing scope

The scope of a nested rule, added to what its target declares. -/

theorem addEnclosingTarget_ok_iff {target merged : StringMap} {key value : String} :
    addEnclosingTarget target (key, value) = .ok merged ↔
      (∀ own ∈ target.lookup key, own = value) ∧ merged = target.insert key value := by
  unfold addEnclosingTarget
  dsimp only
  cases hlookup : target.lookup key with
  | none => simp [eq_comm]
  | some own =>
      by_cases hown : own = value
      · simp [hown, eq_comm]
      · simp [hown]

/-- A scope is added iff the target has the same agent and tool, or none. -/
theorem enclosing_ok_iff {entry : RuleEntry} {target merged : StringMap} :
    entry.enclosingTarget.foldlM addEnclosingTarget target = .ok merged ↔
      match entry.scope with
      | none => merged = target
      | some (agentName, toolName) =>
          (∀ own ∈ target.lookup "agent", own = agentName) ∧
            (∀ own ∈ target.lookup "tool", own = toolName) ∧
            merged = (target.insert "agent" agentName).insert "tool" toolName := by
  unfold RuleEntry.enclosingTarget
  cases entry.scope with
  | none => simp [pure, Except.pure, eq_comm]
  | some scope =>
      obtain ⟨agentName, toolName⟩ := scope
      simp only [List.foldlM_cons, List.foldlM_nil, bind_ok_iff, addEnclosingTarget_ok_iff]
      constructor
      · rintro ⟨-, ⟨hagent, rfl⟩, -, ⟨htool, rfl⟩, hmerged⟩
        rw [Finmap.lookup_insert_of_ne _ (by simp)] at htool
        exact ⟨hagent, htool, (Except.ok.inj hmerged).symm⟩
      · rintro ⟨hagent, htool, rfl⟩
        refine ⟨_, ⟨hagent, rfl⟩, _, ⟨?_, rfl⟩, rfl⟩
        rwa [Finmap.lookup_insert_of_ne _ (by simp)]

section

variable {rt : YamlRuntime} {allowRateLimit : Bool} {entry : RuleEntry} {fields : Fields}
  {read : ReadRule}

theorem ReadsAs.targetFields (h : ReadsAs rt allowRateLimit entry fields read) :
    entry.targetFields = ((fields.last "target").bind Yaml.asMapping).getD [] := by
  rw [RuleEntry.targetFields, h.value, Yaml.asMapping, Option.getD_some]

/-- The target that is read from an entry demands of each field what the entry demands. -/
theorem ReadsAs.lookup (h : ReadsAs rt allowRateLimit entry fields read) :
    FieldKeys read.target ∧ ∀ field : TargetField,
      read.target.lookup field.key = entry.demanded field := by
  obtain ⟨own, hown, hmerged⟩ := h.target
  obtain ⟨hkeys, hlookup⟩ := parseTarget_lookup hown
  rw [← h.targetFields] at hlookup
  rw [enclosing_ok_iff] at hmerged
  obtain ⟨scope, value⟩ := entry
  cases scope with
  | none =>
      dsimp only at hmerged
      rw [hmerged]
      exact ⟨hkeys, hlookup⟩
  | some scope =>
      obtain ⟨agentName, toolName⟩ := scope
      obtain ⟨-, -, hmerged⟩ := hmerged
      rw [hmerged]
      refine ⟨(hkeys.insert .agent agentName).insert .tool toolName, fun field => ?_⟩
      have htool : ∀ other : TargetField, other ≠ .tool → other.key ≠ "tool" :=
        fun other hother hkey => hother (@TargetField.key_injective other .tool hkey)
      have hagent : ∀ other : TargetField, other ≠ .agent → other.key ≠ "agent" :=
        fun other hother hkey => hother (@TargetField.key_injective other .agent hkey)
      cases field with
      | tool => exact Finmap.lookup_insert _
      | agent =>
          rw [Finmap.lookup_insert_of_ne _ (htool _ (by simp))]
          exact Finmap.lookup_insert _
      | user =>
          rw [Finmap.lookup_insert_of_ne _ (htool _ (by simp)),
            Finmap.lookup_insert_of_ne _ (hagent _ (by simp))]
          exact hlookup .user
      | context key =>
          rw [Finmap.lookup_insert_of_ne _ (htool _ (by simp)),
            Finmap.lookup_insert_of_ne _ (hagent _ (by simp))]
          exact hlookup (.context key)

/-! ## What an accepted target declares

Matching and specificity of a rule that was read, in terms of what its entry declares. -/

/-- The values that an accepted target declares are unambiguous strings. -/
theorem declared_isString {target : Option Yaml} {parsed : StringMap}
    (h : parseTarget target = .ok parsed) {field : TargetField} {value : Yaml}
    (hdeclared : declaredIn ((target.bind Yaml.asMapping).getD []) field = some value) :
    ∃ text, value = .string text ∧ isAmbiguousYamlScalar text = false := by
  cases target with
  | none => cases field <;> simp [declaredIn, contextFields, Fields.last_nil] at hdeclared
  | some target =>
      obtain ⟨fields, rfl, hvalid⟩ := (parseTarget_ok_iff.1 h).1 target rfl
      rw [Option.bind_some, Yaml.asMapping, Option.getD_some] at hdeclared
      have hplain : ∀ {name : String}, name ≠ "context" → Fields.last fields name = some value →
          ∃ text, value = .string text ∧ isAmbiguousYamlScalar text = false := by
        intro name hname hlast
        rcases hvalid _ (Fields.mem_of_last hlast) with
          ⟨_, -, text, hentry, htext⟩ | ⟨_, hentry, -⟩
        · exact ⟨text, (Prod.mk.inj hentry).2, htext⟩
        · exact absurd (Yaml.string.inj (Prod.mk.inj hentry).1) hname
      cases field with
      | agent => exact hplain (by simp) hdeclared
      | tool => exact hplain (by simp) hdeclared
      | user => exact hplain (by simp) hdeclared
      | context key =>
          obtain ⟨entry, hentry, hinner⟩ := List.mem_flatMap.1 (Fields.mem_of_last hdeclared)
          rcases hvalid _ (List.mem_filter.1 hentry).1 with
            ⟨_, -, text, rfl, -⟩ | ⟨context, rfl, hcontext⟩
          · simp [Yaml.asMapping] at hinner
          · obtain ⟨_, text, heq, htext⟩ := hcontext _ hinner
            exact ⟨text, (Prod.mk.inj heq).2, htext⟩

theorem ReadsAs.declares_isString (h : ReadsAs rt allowRateLimit entry fields read)
    {field : TargetField} {value : Yaml} (hdeclared : entry.Declares field value) :
    ∃ text, value = .string text ∧ isAmbiguousYamlScalar text = false := by
  obtain ⟨own, hown, -⟩ := h.target
  rw [RuleEntry.Declares, h.targetFields] at hdeclared
  exact declared_isString hown hdeclared

/-- A nested entry that is accepted declares no other agent or tool than its scope. -/
theorem ReadsAs.declares_scope (h : ReadsAs rt allowRateLimit entry fields read)
    {agentName toolName : String} (hscope : entry.scope = some (agentName, toolName)) :
    (∀ value, entry.Declares .agent value → value = .string agentName) ∧
      ∀ value, entry.Declares .tool value → value = .string toolName := by
  obtain ⟨own, hown, hmerged⟩ := h.target
  rw [enclosing_ok_iff, hscope] at hmerged
  obtain ⟨hagent, htool, -⟩ := hmerged
  have hlookup := (parseTarget_lookup hown).2
  rw [← h.targetFields] at hlookup
  have hown : ∀ field value, entry.Declares field value →
      ∃ text, value = .string text ∧ own.lookup field.key = some text := by
    intro field value hdeclared
    obtain ⟨text, rfl, -⟩ := h.declares_isString hdeclared
    refine ⟨text, rfl, ?_⟩
    rw [hlookup field, hdeclared]
    rfl
  constructor
  · intro value hdeclared
    obtain ⟨text, rfl, hlookup⟩ := hown _ _ hdeclared
    rw [hagent text hlookup]
  · intro value hdeclared
    obtain ⟨text, rfl, hlookup⟩ := hown _ _ hdeclared
    rw [htool text hlookup]

/-- What an accepted entry demands is what it declares, and the agent and tool of its scope. -/
theorem ReadsAs.demanded_iff (h : ReadsAs rt allowRateLimit entry fields read)
    (field : TargetField) (value : String) :
    entry.demanded field = some value ↔
      entry.Declares field (.string value) ∨
        ∃ scope ∈ entry.scope, (field = .agent ∧ value = scope.1) ∨
          (field = .tool ∧ value = scope.2) := by
  have hbind : (declaredIn entry.targetFields field).bind Yaml.asStr = some value ↔
      entry.Declares field (.string value) := by
    simp [RuleEntry.Declares, Option.bind_eq_some_iff]
  cases hscope : entry.scope with
  | none =>
      obtain ⟨scope, yaml⟩ := entry
      obtain rfl : scope = none := hscope
      cases field <;> simpa [RuleEntry.demanded] using hbind
  | some scope =>
      obtain ⟨agentName, toolName⟩ := scope
      obtain ⟨hagent, htool⟩ := h.declares_scope hscope
      obtain ⟨scope, yaml⟩ := entry
      obtain rfl : scope = some (agentName, toolName) := hscope
      simp only [Option.mem_def, Option.some.injEq, exists_eq_left']
      cases field with
      | agent =>
          simp only [RuleEntry.demanded, Option.some.injEq, true_and, reduceCtorEq, false_and,
            or_false]
          constructor
          · rintro rfl
            exact .inr rfl
          · rintro (hdeclared | rfl)
            · exact (Yaml.string.inj (hagent _ hdeclared)).symm
            · rfl
      | tool =>
          simp only [RuleEntry.demanded, Option.some.injEq, true_and, reduceCtorEq, false_and,
            false_or]
          constructor
          · rintro rfl
            exact .inr rfl
          · rintro (hdeclared | rfl)
            · exact (Yaml.string.inj (htool _ hdeclared)).symm
            · rfl
      | user => simpa [RuleEntry.demanded] using hbind
      | context key => simpa [RuleEntry.demanded] using hbind

theorem ReadsAs.constrains_iff (h : ReadsAs rt allowRateLimit entry fields read)
    (field : TargetField) : entry.Constrains field ↔ (entry.demanded field).isSome := by
  rw [Option.isSome_iff_exists]
  simp only [h.demanded_iff, RuleEntry.Constrains, Option.isSome_iff_exists]
  constructor
  · rintro (⟨value, hdeclared⟩ | ⟨⟨scope, hscope⟩, rfl | rfl⟩)
    · obtain ⟨text, rfl, -⟩ := h.declares_isString hdeclared
      exact ⟨text, .inl hdeclared⟩
    · exact ⟨scope.1, .inr ⟨scope, hscope, .inl ⟨rfl, rfl⟩⟩⟩
    · exact ⟨scope.2, .inr ⟨scope, hscope, .inr ⟨rfl, rfl⟩⟩⟩
  · rintro ⟨value, hdeclared | ⟨scope, hscope, ⟨rfl, -⟩ | ⟨rfl, -⟩⟩⟩
    · exact .inl ⟨_, hdeclared⟩
    · exact .inr ⟨⟨scope, hscope⟩, .inl rfl⟩
    · exact .inr ⟨⟨scope, hscope⟩, .inr rfl⟩

/-- The rule of an accepted entry matches the calls that have everything the entry demands. -/
theorem ReadsAs.ruleMatchesRule_iff (h : ReadsAs rt allowRateLimit entry fields read)
    (index : ℕ) (call : PolicyCall) :
    ruleMatchesRule (read.rule index) call = true ↔
      (∀ field value, entry.Declares field (.string value) → call.field field = some value) ∧
        ∀ agentName toolName, entry.scope = some (agentName, toolName) →
          call.agent = some agentName ∧ call.tool = some toolName := by
  obtain ⟨hkeys, hlookup⟩ := h.lookup
  have hdemanded : ruleMatchesRule (read.rule index) call = true ↔
      ∀ field value, entry.demanded field = some value → call.field field = some value := by
    rw [ruleMatchesRule, Finmap.everyEntry_iff, ReadRule.rule]
    constructor
    · intro hevery field value hfield
      rw [← hlookup field] at hfield
      exact (targetEntryMatches_key call field value).1 (hevery _ _ hfield)
    · intro hevery key value hkey
      obtain ⟨field, rfl⟩ := hkeys key (Finmap.mem_of_lookup_eq_some hkey)
      rw [hlookup field] at hkey
      exact (targetEntryMatches_key call field value).2 (hevery field value hkey)
  rw [hdemanded]
  simp only [h.demanded_iff]
  constructor
  · intro hall
    refine ⟨fun field value hdeclared => hall field value (.inl hdeclared), ?_⟩
    intro agentName toolName hscope
    exact ⟨hall .agent _ (.inr ⟨_, hscope, .inl ⟨rfl, rfl⟩⟩),
      hall .tool _ (.inr ⟨_, hscope, .inr ⟨rfl, rfl⟩⟩)⟩
  · rintro ⟨hdeclared, hscoped⟩ field value (hfield | ⟨scope, hscope, ⟨rfl, rfl⟩ | ⟨rfl, rfl⟩⟩)
    · exact hdeclared field value hfield
    · exact (hscoped _ _ hscope).1
    · exact (hscoped _ _ hscope).2

/-- The specificity of the rule of an accepted entry is the number of fields it constrains. -/
theorem ReadsAs.ruleSpecificity_eq (h : ReadsAs rt allowRateLimit entry fields read)
    (index : ℕ) :
    (ruleSpecificity (read.rule index) : ℕ∞) = Set.encard {field | entry.Constrains field} := by
  obtain ⟨hkeys, hlookup⟩ := h.lookup
  have himage : (read.target.keys : Set String) =
      TargetField.key '' {field | entry.Constrains field} := by
    ext key
    simp only [Finset.mem_coe, Finmap.mem_keys, Set.mem_image, Set.mem_ofPred_eq, h.constrains_iff,
      ← hlookup, ← Finmap.lookup_isSome]
    constructor
    · intro hkey
      obtain ⟨field, rfl⟩ := hkeys key (Finmap.lookup_isSome.1 hkey)
      exact ⟨field, hkey, rfl⟩
    · rintro ⟨field, hfield, rfl⟩
      exact hfield
  rw [← TargetField.key_injective.encard_image, ← himage, Set.encard_coe_eq_coe_finsetCard]
  rfl

/-! ## Documents

The same for the rules of an accepted document, and the rejection of contradictions. -/

/-- A conflicting entry cannot be read. -/
theorem not_readsAs_of_conflict {agentName toolName : String}
    (hscope : entry.scope = some (agentName, toolName))
    (hconflict : (∃ value, entry.Declares .agent value ∧ value ≠ .string agentName) ∨
      ∃ value, entry.Declares .tool value ∧ value ≠ .string toolName) :
    ¬ ReadsAs rt allowRateLimit entry fields read := by
  intro h
  obtain ⟨hagent, htool⟩ := h.declares_scope hscope
  rcases hconflict with ⟨value, hdeclared, hne⟩ | ⟨value, hdeclared, hne⟩
  · exact hne (hagent value hdeclared)
  · exact hne (htool value hdeclared)

/-- The rules of an accepted document are what is read from its entries, in the same order. -/
theorem parseVersion_rules {policy : Yaml} {version : ℤ} {engine : Engine}
    (h : parseVersion rt policy version allowRateLimit = .ok engine) {index : ℕ}
    (hentry : (ruleEntries policy)[index]? = some entry) :
    ∃ fields read, ReadsAs rt allowRateLimit entry fields read ∧
      engine.rules[index]? = some (read.rule index) := by
  obtain ⟨-, reads, hreads, -, rfl⟩ := parseVersion_ok_iff_reads.1 h
  obtain ⟨hindex, rfl⟩ := List.getElem?_eq_some_iff.1 hentry
  have hread := (List.forall₂_iff_get.1 hreads).2 index hindex (hreads.length_eq ▸ hindex)
  obtain ⟨fields, hreadsAs⟩ := readRule_ok_iff.1 hread
  refine ⟨fields, _, hreadsAs, ?_⟩
  rw [engineOf, stateAfter_rules, List.getElem?_mapIdx,
    List.getElem?_eq_getElem (hreads.length_eq ▸ hindex)]
  rfl

/-- A document with a conflicting entry is rejected. -/
theorem parseVersion_conflict {policy : Yaml} (version : ℤ) {agentName toolName : String}
    (hentry : entry ∈ ruleEntries policy) (hscope : entry.scope = some (agentName, toolName))
    (hconflict : (∃ value, entry.Declares .agent value ∧ value ≠ .string agentName) ∨
      ∃ value, entry.Declares .tool value ∧ value ≠ .string toolName) :
    ∃ error, parseVersion rt policy version allowRateLimit = .error error := by
  refine exists_error fun engine hparse => ?_
  obtain ⟨index, hindex⟩ := List.getElem?_of_mem hentry
  obtain ⟨fields, read, hreads, -⟩ := parseVersion_rules hparse hindex
  exact not_readsAs_of_conflict hscope hconflict hreads

/-- **Targets mean what the document says.**  The rule of an entry matches the calls that agree
with every field the entry's target declares and, if the entry is nested, with the agent and the
tool it is nested under; its specificity is the number of fields so constrained.  A nested entry
that declares a different agent or tool makes the document rejected. -/
theorem targets_as_declared (rt : YamlRuntime) (policy : Yaml) :
    (∀ engine : Engine, parseV1 rt policy = .ok engine ∨ parseV2 rt policy = .ok engine →
      ∀ (index : ℕ) (entry : RuleEntry), (ruleEntries policy)[index]? = some entry →
        ∃ rule, engine.rules[index]? = some rule ∧
          (∀ call, ruleMatchesRule rule call = true ↔
            (∀ field value, entry.Declares field (.string value) →
              call.field field = some value) ∧
            ∀ agentName toolName, entry.scope = some (agentName, toolName) →
              call.agent = some agentName ∧ call.tool = some toolName) ∧
          (ruleSpecificity rule : ℕ∞) = Set.encard {field | entry.Constrains field}) ∧
    ∀ entry ∈ ruleEntries policy, ∀ agentName toolName,
      entry.scope = some (agentName, toolName) →
      ((∃ value, entry.Declares .agent value ∧ value ≠ .string agentName) ∨
        ∃ value, entry.Declares .tool value ∧ value ≠ .string toolName) →
      (∃ error, parseV1 rt policy = .error error) ∧ ∃ error, parseV2 rt policy = .error error := by
  constructor
  · intro engine hparse index entry hentry
    have hread : ∃ allowRateLimit fields read, ReadsAs rt allowRateLimit entry fields read ∧
        engine.rules[index]? = some (read.rule index) := by
      rcases hparse with hparse | hparse
      · exact ⟨_, parseVersion_rules hparse hentry⟩
      · exact ⟨_, parseVersion_rules hparse hentry⟩
    obtain ⟨allowRateLimit, fields, read, hreads, hrule⟩ := hread
    exact ⟨_, hrule, hreads.ruleMatchesRule_iff index, hreads.ruleSpecificity_eq index⟩
  · intro entry hentry agentName toolName hscope hconflict
    exact ⟨parseVersion_conflict 1 hentry hscope hconflict,
      parseVersion_conflict 2 hentry hscope hconflict⟩

/-- A rule for this agent and one user, nested under the agent `builder` and the tool `shell`. -/
def nestedPolicy (agentName : String) : Yaml :=
  .mapping [
    (.string "version", .int 1),
    (.string "agents", .mapping [(.string "builder", .mapping [(.string "tools", .mapping [
      (.string "shell", .mapping [(.string "rules", .sequence [.mapping [
        (.string "action", .string "allow"),
        (.string "target", .mapping [
          (.string "agent", .string agentName),
          (.string "user", .string "alice")])]])])])])])]

theorem targets_as_declared_sample :
    let rt : YamlRuntime := ⟨fun _ => "", fun _ => none⟩
    (∃ engine rule, parseV1 rt (nestedPolicy "builder") = .ok engine ∧
      engine.rules[0]? = some rule ∧
      ∀ call, ruleMatchesRule rule call = true →
        call.user = some "alice" ∧ call.agent = some "builder" ∧ call.tool = some "shell") ∧
    ∃ error, parseV1 rt (nestedPolicy "tester") = .error error := by
  intro rt
  obtain ⟨engine, hparse⟩ : ∃ engine, parseV1 rt (nestedPolicy "builder") = .ok engine := ⟨_, rfl⟩
  constructor
  · obtain ⟨rule, hrule, hmatches, -⟩ :=
      (targets_as_declared rt (nestedPolicy "builder")).1 engine (.inl hparse) 0 _ rfl
    refine ⟨engine, rule, hparse, hrule, fun call hcall => ?_⟩
    obtain ⟨hdeclared, hscope⟩ := (hmatches call).1 hcall
    exact ⟨hdeclared .user "alice" rfl, hscope "builder" "shell" rfl⟩
  · exact ((targets_as_declared rt (nestedPolicy "tester")).2 _ (List.mem_singleton.2 rfl) "builder"
      "shell" rfl (.inl ⟨.string "tester", rfl, by simp⟩)).1

end

end HpGuardian

import HpGuardian.Parity.ConditionCodes
import HpGuardian.Policy.Targets

/-!
# The codes of refused rules

A rule of version 1 may have five kinds of defect: an unknown or ill-typed field, an id that is
taken, an unknown action, a target that is ill formed or contradicts the enclosing scope, and a
refused condition.  `ValidRuleField` and the four predicates after it say of a rule mapping, without
either parser, that it lacks the defect.

For each parser, an inversion lemma then lists where it can stop in a rule mapping that it refuses,
with what was accepted before (`addRule_refused`, `python_addRule_refused`).  The two lists differ
in their order: Rust reads the fields in document order and the action before the target and the
condition, and Python looks for unknown fields first, asks for an action next and reads it last.
Comparing them gives exactly when the codes are equal (`rule_code_iff`).  The same is done for the
`global` mapping, which has only one field.
-/

namespace HpGuardian

open Framework

/-! ## The defects of a rule

One predicate for each kind of defect, on the fields of the mapping and on what encloses it. -/

/-- A field that a rule of version 1 may have, with an admissible value.  What is inside a target or
a condition is looked at later. -/
inductive ValidRuleField : Yaml × Yaml → Prop
  | action (text : String) : ValidRuleField (.string "action", .string text)
  | id {text : String} (hunambiguous : isAmbiguousYamlScalar text = false) :
      ValidRuleField (.string "id", .string text)
  | target (value : Yaml) : ValidRuleField (.string "target", value)
  | condition (value : Yaml) : ValidRuleField (.string "condition", value)

/-- The id of a rule, if there is one, is an unambiguous text that no earlier rule has. -/
def IdAccepted (ruleIds : Finset String) (fields : Fields) : Prop :=
  ∀ value ∈ fields.get "id",
    ∃ text, value = .string text ∧ isAmbiguousYamlScalar text = false ∧ text ∉ ruleIds

/-- A rule has one of the known actions. -/
def ActionAccepted (fields : Fields) : Prop :=
  ∃ action : Action, fields.get "action" = some (.string action.asStr)

/-- The target of a rule, if there is one, is well formed and demands no other agent or tool than
those the rule is nested under. -/
structure TargetAccepted (scope : Option (String × String)) (fields : Fields) : Prop where
  valid : ∀ value ∈ fields.get "target", ∃ target, value = .mapping target ∧
    ∀ entry ∈ target, TargetEntryValid entry
  scope : ∀ target : Fields, fields.get "target" = some (.mapping target) →
    ∀ agentName toolName, scope = some (agentName, toolName) →
      (∀ own ∈ target.get "agent", own = .string agentName) ∧
        ∀ own ∈ target.get "tool", own = .string toolName

/-- The condition of a rule, if there is one, is valid throughout and keeps within the bounds. -/
def ConditionAccepted (rt : YamlRuntime) (fields : Fields) : Prop :=
  ∀ value ∈ fields.get "condition", ∃ condition, Denotes rt value condition ∧
    condition.levels ≤ maxConditionDepth ∧ condition.nodes ≤ maxConditionNodes

/-! ## When the codes for a rule are equal

The condition, in terms of these predicates.  The entry that counts is the first field that is not
valid, if there is one. -/

section Rules

variable (rt : YamlRuntime) (scope : Option (String × String)) (ruleIds : Finset String)
  (fields : Fields)

/-- Nothing about a rule but its action can be wrong: its fields are known, and its id, target and
condition are accepted. -/
structure AcceptedButAction : Prop where
  known : fields.KnownKeys (ruleNames false)
  id : IdAccepted ruleIds fields
  target : TargetAccepted scope fields
  condition : ConditionAccepted rt fields

/-- What the rest of a rule must be like if one of its fields is the first that is not valid. For
an ill-typed action or id it must not contain what the Python parser reports before that field. -/
def RuleFieldAgrees (field : Yaml × Yaml) : Prop :=
  if field.1.asStr = some "action" then
    AcceptedButAction rt scope ruleIds fields
  else if field.1.asStr = some "id" then
    fields.KnownKeys (ruleNames false) → (fields.get "action").isSome
  else
    True

/-- What a refused rule must be like for both parsers to report the same code. -/
structure RuleAgrees : Prop where
  /-- The first field that is not valid. -/
  field : AtFirstRefused (fun _ => ValidRuleField)
    (fun _ => RuleFieldAgrees rt scope ruleIds fields) fields
  /-- An action that no parser knows is the only defect. -/
  action : (∀ field ∈ fields, ValidRuleField field) → IdAccepted ruleIds fields →
    (fields.get "action").isSome → ¬ ActionAccepted fields →
      AcceptedButAction rt scope ruleIds fields
  /-- A refused condition has no unknown field behind a pattern. -/
  condition : (∀ field ∈ fields, ValidRuleField field) → IdAccepted ruleIds fields →
    ActionAccepted fields → TargetAccepted scope fields →
      ConditionAgrees rt (fields.get "condition")

end Rules

/-- The first defect of a rule in the order of the Rust parser is a field that is not its action,
or its id. -/
structure RuleRefusedAsField (ruleIds : Finset String) (fields : Fields) : Prop where
  field : AtFirstRefused (fun _ => ValidRuleField)
    (fun _ field => field.1.asStr ≠ some "action") fields
  id : (∀ field ∈ fields, ValidRuleField field) →
    (fields.get "action").isSome ∧ ¬ IdAccepted ruleIds fields

/-! ## The checks of the parsers

Each check accepts what the predicate for it describes. -/

/-- The target of a rule, with the enclosing scopes. -/
def readTarget (enclosing : List (String × String)) (fields : Fields) :
    Except PolicyError StringMap := do
  let target ← parseTarget (fields.get "target")
  enclosing.foldlM addEnclosingTarget target

/-- The target of a rule, with the enclosing scopes. -/
def Python.readTarget (prt : Python.YamlRuntime) (enclosing : List (String × String))
    (fields : Fields) : Except Python.PolicyError StringMap := do
  let target ← Python.parseTarget prt ((fields.get "target").getD (.mapping []))
  enclosing.foldlM Python.addEnclosingTarget target

section Checks

variable {rt : YamlRuntime} {fields : Fields}

/-- A field is accepted or not, whatever was read before. -/
theorem ruleField_isOk (acc : RuleFields) (entry : Yaml × Yaml) :
    (∃ acc', ruleField rt false acc entry = .ok acc') ↔ ValidRuleField entry := by
  obtain ⟨key, value⟩ := entry
  constructor
  · rintro ⟨acc', h⟩
    obtain ⟨name, hkey, hname, hvalue, -⟩ := ruleField_key h
    obtain rfl : key = .string name := hkey
    simp only [ruleNames, Bool.false_eq_true, if_false, List.append_nil, List.mem_cons,
      List.not_mem_nil, or_false] at hname
    rcases hname with rfl | rfl | rfl | rfl
    · obtain ⟨text, rfl, htext⟩ := hvalue.2.1 rfl
      exact .id htext
    · obtain ⟨text, rfl⟩ := hvalue.1 rfl
      exact .action text
    · exact .target value
    · exact .condition value
  · intro h
    cases h with
    | action text => exact ⟨_, ruleField_ok.2 ⟨by simp [ruleNames], by simp [RuleValue], rfl⟩⟩
    | id htext => exact ⟨_, ruleField_ok.2 ⟨by simp [ruleNames], by simp [RuleValue, htext], rfl⟩⟩
    | target => exact ⟨_, ruleField_ok.2 ⟨by simp [ruleNames], by simp [RuleValue], rfl⟩⟩
    | condition => exact ⟨_, ruleField_ok.2 ⟨by simp [ruleNames], by simp [RuleValue], rfl⟩⟩

theorem ValidRuleField.known {entry : Yaml × Yaml} (h : ValidRuleField entry) :
    ∃ name ∈ ruleNames false, entry.1 = .string name := by
  cases h with
  | action => exact ⟨"action", by simp [ruleNames], rfl⟩
  | id => exact ⟨"id", by simp [ruleNames], rfl⟩
  | target => exact ⟨"target", by simp [ruleNames], rfl⟩
  | condition => exact ⟨"condition", by simp [ruleNames], rfl⟩

/-- A valid action is a text. -/
theorem ValidRuleField.action_string {entry : Yaml × Yaml} (h : ValidRuleField entry)
    (hkey : entry.1 = .string "action") : ∃ text, entry.2 = .string text := by
  cases h with
  | action text => exact ⟨text, rfl⟩
  | _ => simp at hkey

/-- A valid id is an unambiguous text. -/
theorem ValidRuleField.id_string {entry : Yaml × Yaml} (h : ValidRuleField entry)
    (hkey : entry.1 = .string "id") :
    ∃ text, entry.2 = .string text ∧ isAmbiguousYamlScalar text = false := by
  cases h with
  | id htext => exact ⟨_, rfl, htext⟩
  | _ => simp at hkey

theorem knownKeys_of_valid (h : ∀ field ∈ fields, ValidRuleField field) :
    fields.KnownKeys (ruleNames false) := fun field hfield => (h field hfield).known

/-- The loop over a rule mapping accepts valid fields and keeps them by name. -/
theorem ruleFields_valid (hdistinct : fields.DistinctKeys) {rule : RuleFields} :
    fields.foldlM (ruleField rt false) ⟨none, none, none, none, none⟩ = .ok rule ↔
      (∀ field ∈ fields, ValidRuleField field) ∧ rule = RuleFields.read fields := by
  rw [← foldlM_isOk_iff (@ruleField_isOk rt) fields ⟨none, none, none, none, none⟩]
  constructor
  · intro hrun
    exact ⟨⟨rule, hrun⟩, ruleFields_eq hdistinct hrun⟩
  · rintro ⟨⟨rule', hrun⟩, rfl⟩
    rw [hrun, ruleFields_eq hdistinct hrun]

/-- The known actions are the texts of the actions. -/
theorem parseAction_ok {text : String} {action : Action} :
    parseAction text = .ok action ↔ text = action.asStr := by
  constructor
  · intro h
    unfold parseAction at h
    split at h <;> cases h <;> rfl
  · rintro rfl
    cases action <;> rfl

theorem readAction_isOk : (∃ action, readAction fields = .ok action) ↔ ActionAccepted fields := by
  simp only [readAction_ok, parseAction_ok, exists_eq_right]
  rfl

theorem readRuleIds_isOk {ruleIds : Finset String} :
    (∃ ruleIds', readRuleIds ruleIds fields = .ok ruleIds') ↔ IdAccepted ruleIds fields := by
  simp only [readRuleIds_ok, insertRuleId_ok_iff, IdAccepted]
  constructor
  · rintro ⟨-, hvalue, hnew, -⟩ value hget
    obtain ⟨text, rfl, htext⟩ := hvalue value hget
    rw [Option.mem_def] at hget
    exact ⟨text, rfl, htext, hnew text (by simp [hget, Yaml.asStr])⟩
  · intro h
    refine ⟨_, fun value hget => ?_, fun text htext => ?_, rfl⟩
    · obtain ⟨text, rfl, hplain, -⟩ := h value hget
      exact ⟨text, rfl, hplain⟩
    · obtain ⟨value, hget, hvalue⟩ := Option.bind_eq_some_iff.1 htext
      obtain ⟨text', rfl, -, hnew⟩ := h value hget
      obtain rfl := Option.some.inj hvalue
      exact hnew

theorem readTarget_isOk (hplain : Plain .document (.mapping fields)) {entry : RuleEntry} :
    (∃ target, readTarget entry.enclosingTarget fields = .ok target) ↔
      TargetAccepted entry.scope fields := by
  -- what the parsed target holds is what the mapping says
  have hlookup : ∀ {target own}, fields.get "target" = some (.mapping target) →
      parseTarget (fields.get "target") = .ok own → ∀ name ∈ ["agent", "tool"],
        own.lookup name = (Fields.get target name).bind Yaml.asStr := by
    intro target own hget hown name hname
    have hdistinct := (hplain.field (by decide) (Fields.mem_of_get hget)).distinctKeys
    have hfields := (parseTarget_lookup hown).2
    rw [hget, Option.bind_some, Yaml.asMapping, Option.getD_some] at hfields
    rw [← Fields.last_eq_get hdistinct]
    simp only [List.mem_cons, List.not_mem_nil, or_false] at hname
    rcases hname with rfl | rfl
    · exact hfields .agent
    · exact hfields .tool
  have hstring : ∀ {target name value}, (∀ entry ∈ target, TargetEntryValid entry) →
      name ∈ ["agent", "tool"] → Fields.get target name = some value →
        ∃ text, value = .string text := by
    intro target name value hvalid hname hget
    rcases hvalid _ (Fields.mem_of_get hget) with ⟨_, -, text, heq, -⟩ | ⟨_, heq, -⟩
    · exact ⟨text, (Prod.mk.inj heq).2⟩
    · obtain rfl := Yaml.string.inj (Prod.mk.inj heq).1
      simp at hname
  unfold readTarget
  simp only [bind_ok_iff, enclosing_ok_iff]
  constructor
  · rintro ⟨merged, own, hown, hmerged⟩
    have hvalid := parseTarget_isOk.1 ⟨own, hown⟩
    refine ⟨hvalid, fun target hget agentName toolName hscope => ?_⟩
    obtain ⟨_, heq, htarget⟩ := hvalid _ hget
    obtain rfl := Yaml.mapping.inj heq
    rw [hscope] at hmerged
    obtain ⟨hagent, htool, -⟩ := hmerged
    constructor
    · intro value hvalue
      obtain ⟨text, rfl⟩ := hstring htarget (by simp) hvalue
      rw [hagent text (by rw [hlookup hget hown "agent" (by simp), hvalue]; rfl)]
    · intro value hvalue
      obtain ⟨text, rfl⟩ := hstring htarget (by simp) hvalue
      rw [htool text (by rw [hlookup hget hown "tool" (by simp), hvalue]; rfl)]
  · intro h
    obtain ⟨own, hown⟩ := parseTarget_isOk.2 h.valid
    cases hscope : entry.scope with
    | none => exact ⟨own, own, hown, rfl⟩
    | some scope =>
        obtain ⟨agentName, toolName⟩ := scope
        -- what the target holds for the agent or the tool comes from the mapping
        have hdeclared : ∀ name ∈ ["agent", "tool"], ∀ text ∈ own.lookup name, ∃ target,
            fields.get "target" = some (.mapping target) ∧
              Fields.get target name = some (.string text) := by
          intro name hname text htext
          cases hget : fields.get "target" with
          | none =>
              rw [hget] at hown
              obtain rfl := Except.ok.inj hown
              simp at htext
          | some value =>
              obtain ⟨target, rfl, -⟩ := h.valid value hget
              rw [hlookup hget hown name hname] at htext
              obtain ⟨value, hvalue, hstr⟩ := Option.bind_eq_some_iff.1 htext
              obtain rfl := Yaml.asStr_eq_some.1 hstr
              exact ⟨target, rfl, hvalue⟩
        refine ⟨_, own, hown, fun text htext => ?_, fun text htext => ?_, rfl⟩
        · obtain ⟨target, hget, hvalue⟩ := hdeclared "agent" (by simp) text htext
          exact Yaml.string.inj ((h.scope target hget agentName toolName hscope).1 _ hvalue)
        · obtain ⟨target, hget, hvalue⟩ := hdeclared "tool" (by simp) text htext
          exact Yaml.string.inj ((h.scope target hget agentName toolName hscope).2 _ hvalue)

theorem parseConditions_isOk :
    (∃ condition, parseConditions rt (fields.get "condition") = .ok condition) ↔
      ConditionAccepted rt fields := by
  rw [ConditionAccepted]
  cases fields.get "condition" with
  | none => simp [parseConditions]
  | some value => simp [parseConditions_ok_iff]

end Checks

/-! ## Where the parsers stop

The inversion of the two parsers on a rule that they refuse: which check it is, and that all checks
before it were passed. -/

/-- Where the Rust parser stops in a rule mapping that it refuses: at a field, for want of an
action, at the id, the action, the target or the condition, with everything before it accepted. -/
inductive RuleRefusal (rt : YamlRuntime) (entry : RuleEntry) (ruleIds : Finset String)
    (fields : Fields) : PolicyError → Prop
  | field {e : PolicyError} (acc : RuleFields) (field : Yaml × Yaml) (hfield : field ∈ fields)
      (hround : ruleField rt false acc field = .error e)
      (hat : ∀ rejected : Yaml × Yaml → Prop,
        AtFirstRefused (fun _ => ValidRuleField) (fun _ => rejected) fields ↔ rejected field) :
      RuleRefusal rt entry ruleIds fields e
  | missing {e : PolicyError} (hfields : ∀ field ∈ fields, ValidRuleField field)
      (haction : fields.get "action" = none) (hcode : e.code = "invalid_action") :
      RuleRefusal rt entry ruleIds fields e
  | id {e : PolicyError} (hfields : ∀ field ∈ fields, ValidRuleField field)
      (haction : (fields.get "action").isSome) (hid : ¬ IdAccepted ruleIds fields)
      (hcode : e.code = "invalid_field") : RuleRefusal rt entry ruleIds fields e
  | action {e : PolicyError} (hfields : ∀ field ∈ fields, ValidRuleField field)
      (hid : IdAccepted ruleIds fields) (haction : (fields.get "action").isSome)
      (hunknown : ¬ ActionAccepted fields) (hcode : e.code = "invalid_action") :
      RuleRefusal rt entry ruleIds fields e
  | target {e : PolicyError} (hfields : ∀ field ∈ fields, ValidRuleField field)
      (hid : IdAccepted ruleIds fields) (haction : ActionAccepted fields)
      (hrefused : ¬ TargetAccepted entry.scope fields)
      (htarget : readTarget entry.enclosingTarget fields = .error e) :
      RuleRefusal rt entry ruleIds fields e
  | condition {e : PolicyError} (hfields : ∀ field ∈ fields, ValidRuleField field)
      (hid : IdAccepted ruleIds fields) (haction : ActionAccepted fields)
      (htarget : TargetAccepted entry.scope fields) (hrefused : ¬ ConditionAccepted rt fields)
      (hcondition : parseConditions rt (fields.get "condition") = .error e) :
      RuleRefusal rt entry ruleIds fields e

section Rules

variable {rt : YamlRuntime} {prt : Python.YamlRuntime} {entry : RuleEntry}
  {ruleIds : Finset String} {fields : Fields}

/-- The code of a refused field of a rule. -/
theorem ruleField_code (acc : RuleFields) (entry : Yaml × Yaml) :
    HasCode (if entry.1.asStr = some "action" then "invalid_action" else "invalid_field")
      (ruleField rt false acc entry) := by
  obtain ⟨key, value⟩ := entry
  cases key with
  | string name =>
      simp only [ruleField, fieldName, Yaml.asStr, ok_bind, Option.some.injEq]
      by_cases haction : name = "action"
      · rw [if_pos haction, if_pos haction]
        exact (stringOr_code value (.invalidAction (rt.describe value))).bind (fun _ => .ok _)
      rw [if_neg haction, if_neg haction]
      by_cases htarget : name = "target"
      · rw [if_pos htarget]
        exact .ok _
      rw [if_neg htarget]
      by_cases hcondition : name = "condition"
      · rw [if_pos hcondition]
        exact .ok _
      rw [if_neg hcondition]
      by_cases hid : name = "id"
      · rw [if_pos hid]
        exact (unambiguousStringOr_code value (.invalidField "rule.id")
          (.invalidField "rule.id must not be an ambiguous YAML scalar") rfl).bind (fun _ => .ok _)
      rw [if_neg hid, if_neg (by simp)]
      exact .error rfl
  | _ => exact .error rfl

/-- Rules of version 1 have no quota. -/
theorem rateLimit_eq_none (hknown : fields.KnownKeys (ruleNames false)) :
    fields.get "rate_limit" = none := by
  rw [Fields.get_eq_none]
  intro entry hentry hkey
  obtain ⟨name, hname, hkey'⟩ := hknown entry hentry
  obtain rfl := Yaml.string.inj (hkey'.symm.trans hkey)
  simp [ruleNames] at hname

theorem addRule_refused {state : ParseState} {e : PolicyError}
    (hplain : Plain .document (.mapping fields))
    (h : addRule rt false entry.enclosingTarget state (.mapping fields) = .error e) :
    RuleRefusal rt entry state.ruleIds fields e := by
  have hdistinct := hplain.distinctKeys
  simp only [addRule, mappingOf, Yaml.asMapping, ok_bind] at h
  rcases bind_error_iff.1 h with hrun | ⟨rule, hrun, h⟩
  · obtain ⟨acc, field, hfield, hround, hat⟩ := exists_first_error hrun
    refine .field acc field hfield hround (fun rejected => ?_)
    rw [← atFirstError_iff_of_isOk ruleField_isOk]
    exact hat _
  -- every field is valid, so the record holds the fields by name
  obtain ⟨hfields, rfl⟩ := (ruleFields_valid hdistinct).1 hrun
  have hknown := knownKeys_of_valid hfields
  simp only [RuleFields.read, rateLimit_eq_none hknown, Option.bind_none,
    Option.isSome_none, Bool.false_eq_true, false_and, if_false] at h
  cases hget : fields.get "action" with
  | none =>
      rw [hget] at h
      obtain rfl := Except.error.inj h
      exact .missing hfields hget rfl
  | some value =>
      obtain ⟨text, rfl⟩ := (hfields _ (Fields.mem_of_get hget)).action_string rfl
      have hpresent : (fields.get "action").isSome := by simp [hget]
      have hidString : ∀ value ∈ fields.get "id",
          ∃ text, value = .string text ∧ isAmbiguousYamlScalar text = false :=
        fun value hvalue => (hfields _ (Fields.mem_of_get hvalue)).id_string rfl
      rw [hget] at h
      simp only [Option.bind_some, Yaml.asStr, okOr, ok_bind] at h
      rcases bind_error_iff.1 h with hinsert | ⟨ruleIds', hinsert, h⟩
      · refine .id hfields hpresent (fun hid => ?_) (insertRuleId_code _ _ _ hinsert)
        obtain ⟨ruleIds', hread⟩ := readRuleIds_isOk.2 hid
        have hok := (readRuleIds_ok.1 hread).2
        rw [hinsert] at hok
        cases hok
      have hid := readRuleIds_isOk.1 ⟨ruleIds', readRuleIds_ok.2 ⟨hidString, hinsert⟩⟩
      rcases bind_error_iff.1 h with hparse | ⟨action, hparse, h⟩
      · refine .action hfields hid hpresent (fun haction => ?_) (parseAction_code _ _ hparse)
        obtain ⟨action, hread⟩ := readAction_isOk.2 haction
        obtain ⟨text', hget', hparse'⟩ := readAction_ok.1 hread
        obtain rfl := Yaml.string.inj (Option.some.inj (hget.symm.trans hget'))
        rw [hparse'] at hparse
        cases hparse
      have haction := readAction_isOk.1 ⟨action, readAction_ok.2 ⟨text, hget, hparse⟩⟩
      rw [← bind_assoc] at h
      rcases bind_error_iff.1 h with htarget | ⟨target, htarget, h⟩
      · exact .target hfields hid haction
          (fun hok => ok_not_error ((readTarget_isOk hplain).2 hok) ⟨_, htarget⟩) htarget
      rcases bind_error_iff.1 h with hcondition | ⟨condition, -, h⟩
      · exact .condition hfields hid haction ((readTarget_isOk hplain).1 ⟨target, htarget⟩)
          (fun hok => ok_not_error (parseConditions_isOk.2 hok) ⟨_, hcondition⟩) hcondition
      · cases h

theorem sameOutcome_readTarget (hplain : Plain .document (.mapping fields))
    (enclosing : List (String × String)) :
    SameOutcome Eq (readTarget enclosing fields) (Python.readTarget prt enclosing fields) := by
  refine SameOutcome.bind (R := Eq) (sameOutcome_target hplain) ?_
  rintro target - rfl
  exact sameOutcome_enclosing enclosing target

/-- Where the Python parser stops in a rule mapping that it refuses, with everything before it
accepted. The order of its checks is another one. -/
inductive PythonRuleRefusal (rt : YamlRuntime) (prt : Python.YamlRuntime) (entry : RuleEntry)
    (ruleIds : Finset String) (fields : Fields) : Python.PolicyError → Prop
  | unknown {e : Python.PolicyError} (hunknown : ¬ fields.KnownKeys (ruleNames false))
      (hcode : e.code = "invalid_field") : PythonRuleRefusal rt prt entry ruleIds fields e
  | missing {e : Python.PolicyError} (hknown : fields.KnownKeys (ruleNames false))
      (haction : fields.get "action" = none) (hcode : e.code = "invalid_action") :
      PythonRuleRefusal rt prt entry ruleIds fields e
  | id {e : Python.PolicyError} (hknown : fields.KnownKeys (ruleNames false))
      (haction : (fields.get "action").isSome) (hid : ¬ IdAccepted ruleIds fields)
      (hcode : e.code = "invalid_field") : PythonRuleRefusal rt prt entry ruleIds fields e
  | target {e : Python.PolicyError} (hknown : fields.KnownKeys (ruleNames false))
      (haction : (fields.get "action").isSome) (hid : IdAccepted ruleIds fields)
      (hrefused : ¬ TargetAccepted entry.scope fields)
      (htarget : Python.readTarget prt entry.enclosingTarget fields = .error e) :
      PythonRuleRefusal rt prt entry ruleIds fields e
  | condition {e : Python.PolicyError} (hknown : fields.KnownKeys (ruleNames false))
      (haction : (fields.get "action").isSome) (hid : IdAccepted ruleIds fields)
      (htarget : TargetAccepted entry.scope fields) (hrefused : ¬ ConditionAccepted rt fields)
      (hcondition : Python.parseCondition prt ((fields.get "condition").getD (.mapping [])) =
        .error e) : PythonRuleRefusal rt prt entry ruleIds fields e
  | action {e : Python.PolicyError} (honly : AcceptedButAction rt entry.scope ruleIds fields)
      (hcode : e.code = "invalid_action") : PythonRuleRefusal rt prt entry ruleIds fields e

theorem python_addRule_refused (hts : prt.utcTimestamp = rt.utcTimestamp)
    (hplain : Plain .document (.mapping fields)) {state : Python.ParseState}
    {e : Python.PolicyError}
    (h : Python.addRule prt false entry.enclosingTarget state (.mapping fields) = .error e) :
    PythonRuleRefusal rt prt entry state.seenIds fields e := by
  have hids := (@sameOutcome_ruleIds prt fields hplain state.seenIds).isOk_iff.symm.trans
    readRuleIds_isOk
  have htargets := (@sameOutcome_readTarget prt fields hplain entry.enclosingTarget).isOk_iff.symm
    |>.trans (readTarget_isOk hplain)
  have hconditions := (sameOutcome_conditions hts hplain).isOk_iff.symm.trans parseConditions_isOk
  simp only [Python.addRule, Python.mappingOf, Yaml.asMapping, ok_bind] at h
  rcases rejectUnknownFields_cases prt fields (ruleNames false) "rule" "invalid_field" with
    ⟨hknown, hcheck⟩ | ⟨hunknown, d, hcheck⟩
  · rw [ruleNames] at hcheck
    rw [hcheck, ok_bind] at h
    cases hget : fields.get "action" with
    | none =>
        rw [hget] at h
        obtain rfl := Except.error.inj h
        exact .missing hknown hget rfl
    | some value =>
        have hpresent : (fields.get "action").isSome := by simp [hget]
        rw [hget] at h
        simp only [Python.required, ok_bind] at h
        rcases bind_error_iff.1 h with hadd | ⟨seenIds, hadd, h⟩
        · exact .id hknown hpresent (fun hok => ok_not_error (hids.2 hok) ⟨_, hadd⟩)
            (python_addRuleId_code _ _ _ hadd)
        have hid := hids.1 ⟨_, hadd⟩
        rw [← bind_assoc] at h
        rcases bind_error_iff.1 h with htarget | ⟨target, htarget, h⟩
        · exact .target hknown hpresent hid
            (fun hok => ok_not_error (htargets.2 hok) ⟨_, htarget⟩) htarget
        have htarget := htargets.1 ⟨_, htarget⟩
        rcases bind_error_iff.1 h with hcondition | ⟨condition, hcondition, h⟩
        · exact .condition hknown hpresent hid htarget
            (fun hok => ok_not_error (hconditions.2 hok) ⟨_, hcondition⟩) hcondition
        have hcondition := hconditions.1 ⟨_, hcondition⟩
        rcases bind_error_iff.1 h with hparse | ⟨action, -, h⟩
        · exact .action ⟨hknown, hid, htarget, hcondition⟩ (python_parseAction_code _ _ hparse)
        · simp [rateLimit_eq_none hknown, Python.optionalRateLimit] at h
  · rw [ruleNames] at hcheck
    rw [hcheck] at h
    obtain rfl := Except.error.inj h
    exact .unknown hunknown (python_rejectUnknownFields_code _ _ _ _ _ hcheck)

/-! ## The codes for a rule

The two lists of places compared. -/

theorem readTarget_code (enclosing : List (String × String)) :
    ErrorsAre (fun e : PolicyError => e.code = "invalid_target" ∨ e.code = "conflicting_target")
      (readTarget enclosing fields) :=
  ((parseTarget_code _).mono (fun _ => .inl)).bind (fun target =>
    (ErrorsAre.foldlM addEnclosingTarget_code enclosing target).mono (fun _ => .inr))

theorem parseConditions_code (hplain : Plain .document (.mapping fields)) :
    ErrorsAre (fun e => e.code ∈ conditionCodes) (parseConditions rt (fields.get "condition")) := by
  cases hget : fields.get "condition" with
  | none => exact .ok _
  | some value =>
      have hvalue := hplain.field (by decide) (Fields.mem_of_get hget)
      exact (parseCondition_conditionCode value hvalue 1 0).bind (fun _ => .ok _)

theorem python_parseCondition_code (hplain : Plain .document (.mapping fields)) :
    ErrorsAre (fun e => e.code ∈ conditionCodes)
      (Python.parseCondition prt ((fields.get "condition").getD (.mapping []))) := by
  have hvalue : Plain .document ((fields.get "condition").getD (.mapping [])) := by
    cases hget : fields.get "condition" with
    | none => exact plain_empty
    | some value => exact hplain.field (by decide) (Fields.mem_of_get hget)
  exact (python_parseConditionNode_conditionCode _ hvalue 1 0).bind (fun _ => .ok _)

theorem python_readTarget_code (enclosing : List (String × String)) :
    ErrorsAre (fun e : Python.PolicyError =>
        e.code = "invalid_target" ∨ e.code = "conflicting_target")
      (Python.readTarget prt enclosing fields) :=
  ((python_parseTarget_code _).mono (fun _ => .inl)).bind (fun target =>
    (ErrorsAre.foldlM python_addEnclosingTarget_code enclosing target).mono (fun _ => .inr))

/-- The codes for a target and its enclosing scopes are equal. -/
theorem judged_readTarget (hplain : Plain .document (.mapping fields))
    (enclosing : List (String × String)) :
    Judged SameCode True (readTarget enclosing fields)
      (Python.readTarget prt enclosing fields) := by
  refine Judged.bind (R := Eq) (sameOutcome_target hplain) ?_ ?_
  · exact .of_errorsAre (parseTarget_code _) (python_parseTarget_code _)
      (fun e e' he he' => he.trans he'.symm)
  · rintro target - - rfl
    exact .of_errorsAre (ErrorsAre.foldlM addEnclosingTarget_code _ _)
      (ErrorsAre.foldlM python_addEnclosingTarget_code _ _) (fun e e' he he' => he.trans he'.symm)

/-- The codes for the condition of a rule. -/
theorem judged_conditions (hts : prt.utcTimestamp = rt.utcTimestamp)
    (hplain : Plain .document (.mapping fields)) :
    Judged SameCode (ConditionAgrees rt (fields.get "condition"))
      (parseConditions rt (fields.get "condition"))
      (Python.parseCondition prt ((fields.get "condition").getD (.mapping []))) := by
  cases hget : fields.get "condition" with
  | none => exact .ok_left _
  | some value =>
      have hvalue := hplain.field (by decide) (Fields.mem_of_get hget)
      have hjudged := judged_parseConditionNode hts value hvalue 1 0
      have hagrees : Judged SameCode (ConditionAgrees rt (some value)) _ _ :=
        hjudged.congr (by simp [ConditionAgrees])
      exact Judged.bind (sameOutcome_parseConditionNode hts value hvalue 1 0) hagrees
        (fun _ _ _ _ => .ok_left _)

/-- The Python parser blames the action of a rule that has one iff nothing else is refused. -/
theorem PythonRuleRefusal.invalidAction_iff {e : Python.PolicyError}
    (hplain : Plain .document (.mapping fields))
    (h : PythonRuleRefusal rt prt entry ruleIds fields e)
    (haction : (fields.get "action").isSome) :
    e.code = "invalid_action" ↔ AcceptedButAction rt entry.scope ruleIds fields := by
  cases h with
  | unknown hunknown hcode =>
      rw [hcode]
      exact iff_of_false (by decide) (fun h => hunknown h.known)
  | missing hknown hnone => simp [hnone] at haction
  | id hknown haction hid hcode =>
      rw [hcode]
      exact iff_of_false (by decide) (fun h => hid h.id)
  | target hknown haction hid htarget he =>
      refine iff_of_false ?_ (fun h => htarget h.target)
      rcases python_readTarget_code _ _ he with hcode | hcode <;> rw [hcode] <;> decide
  | condition hknown haction hid htarget hcondition he =>
      refine iff_of_false ?_ (fun h => hcondition h.condition)
      exact ne_of_mem_of_not_mem (python_parseCondition_code hplain _ he) (by decide)
  | action honly hcode => exact iff_of_true hcode honly

/-- Which fields of a rule are refused. -/
theorem ruleField_refused {acc : RuleFields} {field : Yaml × Yaml} {e : PolicyError}
    (h : ruleField rt false acc field = .error e) :
    field.1 = .string "action" ∨
      (field.1 = .string "id" ∧
        ¬ ∃ text, field.2 = .string text ∧ isAmbiguousYamlScalar text = false) ∨
      ∀ name ∈ ruleNames false, field.1 ≠ .string name := by
  have hrefused : ¬ ValidRuleField field := fun hvalid =>
    ok_not_error ((ruleField_isOk acc field).2 hvalid) ⟨e, h⟩
  obtain ⟨key, value⟩ := field
  by_contra hnot
  push Not at hnot
  obtain ⟨haction, hid, name, hname, rfl⟩ := hnot
  refine hrefused ?_
  simp only [ruleNames, Bool.false_eq_true, if_false, List.append_nil, List.mem_cons,
    List.not_mem_nil, or_false] at hname
  rcases hname with rfl | rfl | rfl | rfl
  · obtain ⟨text, rfl, htext⟩ := hid rfl
    exact .id htext
  · exact absurd rfl haction
  · exact .target value
  · exact .condition value

/-- What `RuleAgrees` asks of a rule whose fields are all valid. -/
theorem ruleAgrees_of_valid (hfields : ∀ field ∈ fields, ValidRuleField field)
    (haction : IdAccepted ruleIds fields → (fields.get "action").isSome →
      ¬ ActionAccepted fields → AcceptedButAction rt entry.scope ruleIds fields)
    (hcondition : IdAccepted ruleIds fields → ActionAccepted fields →
      TargetAccepted entry.scope fields → ConditionAgrees rt (fields.get "condition")) :
    RuleAgrees rt entry.scope ruleIds fields :=
  ⟨atFirstRefused_of_accepted (fun _ => hfields), fun _ => haction, fun _ => hcondition⟩

/-- The codes for a rule, if the Rust parser stops at one of its fields. -/
theorem ruleField_code_iff (hplain : Plain .document (.mapping fields))
    {acc : RuleFields} {field : Yaml × Yaml} (hfield : field ∈ fields) {e : PolicyError}
    {e' : Python.PolicyError} (h : ruleField rt false acc field = .error e)
    (h' : PythonRuleRefusal rt prt entry ruleIds fields e') :
    SameCode e e' ↔ RuleFieldAgrees rt entry.scope ruleIds fields field := by
  rw [SameCode, ruleField_code acc field e h, RuleFieldAgrees]
  obtain ⟨key, value⟩ := field
  have hdistinct := hplain.distinctKeys
  rcases ruleField_refused h with hkey | ⟨hkey, hvalue⟩ | hunknown
  · obtain rfl : key = .string "action" := hkey
    rw [if_pos (Yaml.asStr_eq_some.2 rfl), if_pos (Yaml.asStr_eq_some.2 rfl)]
    have hpresent : (fields.get "action").isSome := by simp [Fields.get_of_mem hdistinct hfield]
    exact eq_comm.trans (h'.invalidAction_iff hplain hpresent)
  · obtain rfl : key = .string "id" := hkey
    rw [if_neg (by simp [Yaml.asStr]), if_neg (by simp [Yaml.asStr]),
      if_pos (Yaml.asStr_eq_some.2 rfl)]
    have hid : ¬ IdAccepted ruleIds fields := by
      intro haccepted
      obtain ⟨text, htext, hplain, -⟩ := haccepted value (Fields.get_of_mem hdistinct hfield)
      exact hvalue ⟨text, htext, hplain⟩
    cases h' with
    | unknown hunknown hcode => exact iff_of_true hcode.symm (fun h => absurd h hunknown)
    | missing hknown hnone hcode =>
        rw [hcode]
        exact iff_of_false (by decide) (fun h => by simpa [hnone] using h hknown)
    | id hknown haction _ hcode => exact iff_of_true hcode.symm (fun _ => haction)
    | target _ _ hok => exact absurd hok hid
    | condition _ _ hok => exact absurd hok hid
    | action honly => exact absurd honly.id hid
  · have hnot : ¬ fields.KnownKeys (ruleNames false) := by
      intro hknown
      obtain ⟨name, hname, hkey⟩ := hknown _ hfield
      exact hunknown name hname hkey
    have hother : ∀ name ∈ ruleNames false, key.asStr ≠ some name := fun name hname hkey =>
      hunknown name hname (Yaml.asStr_eq_some.1 hkey)
    rw [if_neg (hother "action" (by decide)), if_neg (hother "action" (by decide)),
      if_neg (hother "id" (by decide))]
    cases h' with
    | unknown _ hcode => exact iff_of_true hcode.symm trivial
    | missing hknown => exact absurd hknown hnot
    | id hknown => exact absurd hknown hnot
    | target hknown => exact absurd hknown hnot
    | condition hknown => exact absurd hknown hnot
    | action honly => exact absurd honly.known hnot

theorem ActionAccepted.present (h : ActionAccepted fields) : (fields.get "action").isSome := by
  obtain ⟨action, hget⟩ := h
  simp [hget]

/-- One of the fields is the first that is not valid. -/
theorem not_valid_of_atFirstRefused {field : Yaml × Yaml}
    (hat : ∀ rejected : Yaml × Yaml → Prop,
      AtFirstRefused (fun _ => ValidRuleField) (fun _ => rejected) fields ↔ rejected field) :
    ¬ ∀ field ∈ fields, ValidRuleField field := fun hfields =>
  (hat (fun _ => False)).1 (atFirstRefused_of_accepted (fun _ => hfields))

/-- **Rules.** The codes for a refused rule are equal iff the rule is as `RuleAgrees` says: where a
field is the first defect, the rest must not lead the Python parser to another code first, and
where an action is unknown, nothing that Python checks before may be wrong. -/
theorem rule_code_iff (hts : prt.utcTimestamp = rt.utcTimestamp)
    (hplain : Plain .document (.mapping fields)) {e : PolicyError} {e' : Python.PolicyError}
    (h : RuleRefusal rt entry ruleIds fields e)
    (h' : PythonRuleRefusal rt prt entry ruleIds fields e') :
    SameCode e e' ↔ RuleAgrees rt entry.scope ruleIds fields := by
  cases h with
  | field acc field hfield hround hat =>
      have hnot := not_valid_of_atFirstRefused hat
      rw [ruleField_code_iff hplain hfield hround h']
      exact ⟨fun h => ⟨(hat _).2 h, fun hfields => absurd hfields hnot,
        fun hfields => absurd hfields hnot⟩, fun h => (hat _).1 h.field⟩
  | missing hfields hnone hcode =>
      refine iff_of_true ?_ (ruleAgrees_of_valid hfields
        (fun _ haction => by simp [hnone] at haction)
        (fun _ haction => by simpa [hnone] using haction.present))
      rw [SameCode, hcode]
      cases h' with
      | unknown hunknown => exact absurd (knownKeys_of_valid hfields) hunknown
      | missing _ _ hcode' => exact hcode'.symm
      | id _ haction => simp [hnone] at haction
      | target _ haction => simp [hnone] at haction
      | condition _ haction => simp [hnone] at haction
      | action _ hcode' => exact hcode'.symm
  | id hfields haction hid hcode =>
      refine iff_of_true ?_ (ruleAgrees_of_valid hfields
        (fun hok => absurd hok hid) (fun hok => absurd hok hid))
      rw [SameCode, hcode]
      cases h' with
      | unknown _ hcode' => exact hcode'.symm
      | missing _ hnone => simp [hnone] at haction
      | id _ _ _ hcode' => exact hcode'.symm
      | target _ _ hok => exact absurd hok hid
      | condition _ _ hok => exact absurd hok hid
      | action honly => exact absurd honly.id hid
  | action hfields hid haction hunknown hcode =>
      rw [SameCode, hcode, eq_comm, h'.invalidAction_iff hplain haction]
      exact ⟨fun h => ruleAgrees_of_valid hfields (fun _ _ _ => h)
        (fun _ hok => absurd hok hunknown), fun h => h.action hfields hid haction hunknown⟩
  | target hfields hid haction hrefused htarget =>
      refine iff_of_true ?_ (ruleAgrees_of_valid hfields
        (fun _ _ hunknown => absurd haction hunknown)
        (fun _ _ hok => absurd hok hrefused))
      cases h' with
      | unknown hunknown => exact absurd (knownKeys_of_valid hfields) hunknown
      | missing _ hnone => simpa [hnone] using haction.present
      | id _ _ hnew => exact absurd hid hnew
      | target _ _ _ _ htarget' =>
          exact (judged_readTarget hplain _ _ _ htarget htarget').2 trivial
      | condition _ _ _ hok => exact absurd hok hrefused
      | action honly => exact absurd honly.target hrefused
  | condition hfields hid haction htarget hrefused hcondition =>
      have hiff : RuleAgrees rt entry.scope ruleIds fields ↔
          ConditionAgrees rt (fields.get "condition") :=
        ⟨fun h => h.condition hfields hid haction htarget, fun h =>
          ruleAgrees_of_valid hfields (fun _ _ hunknown => absurd haction hunknown)
            (fun _ _ _ => h)⟩
      rw [hiff]
      cases h' with
      | unknown hunknown => exact absurd (knownKeys_of_valid hfields) hunknown
      | missing _ hnone => simpa [hnone] using haction.present
      | id _ _ hnew => exact absurd hid hnew
      | target _ _ _ hnot => exact absurd htarget hnot
      | condition _ _ _ _ _ he' => exact judged_conditions hts hplain _ _ hcondition he'
      | action honly => exact absurd honly.condition hrefused

/-- The Rust parser reports an invalid field iff it stops at one, or at the id. -/
theorem RuleRefusal.invalidField_iff (hplain : Plain .document (.mapping fields)) {e : PolicyError}
    (h : RuleRefusal rt entry ruleIds fields e) :
    e.code = "invalid_field" ↔ RuleRefusedAsField ruleIds fields := by
  cases h with
  | field acc field hfield hround hat =>
      have hnot := not_valid_of_atFirstRefused hat
      have hcode : e.code = "invalid_field" ↔ field.1.asStr ≠ some "action" := by
        rw [ruleField_code acc field e hround]
        split_ifs with haction <;> simp [haction]
      rw [hcode]
      exact ⟨fun h => ⟨(hat _).2 h, fun hfields => absurd hfields hnot⟩, fun h => (hat _).1 h.field⟩
  | missing hfields hnone hcode =>
      rw [hcode]
      exact iff_of_false (by decide) (fun h => by simpa [hnone] using (h.id hfields).1)
  | id hfields haction hid hcode =>
      exact iff_of_true hcode
        ⟨atFirstRefused_of_accepted (fun _ => hfields), fun _ => ⟨haction, hid⟩⟩
  | action hfields hid haction hunknown hcode =>
      rw [hcode]
      exact iff_of_false (by decide) (fun h => (h.id hfields).2 hid)
  | target hfields hid haction hrefused htarget =>
      refine iff_of_false ?_ (fun h => (h.id hfields).2 hid)
      rcases readTarget_code _ _ htarget with hcode | hcode <;> rw [hcode] <;> decide
  | condition hfields hid haction htarget hrefused hcondition =>
      refine iff_of_false ?_ (fun h => (h.id hfields).2 hid)
      exact ne_of_mem_of_not_mem (parseConditions_code hplain _ hcondition) (by decide)

end Rules

/-! ## The `global` mapping

The same for a mapping with one field. -/

/-- A field of the `global` mapping with a known action. -/
def ValidGlobalField (entry : Yaml × Yaml) : Prop :=
  ∃ action : Action, entry = (.string "default_action", .string action.asStr)

/-- If the default action is the first field that is not valid, no field is unknown. -/
def GlobalAgrees (value : Yaml) : Prop :=
  ∀ fields : Fields, value = .mapping fields →
    AtFirstRefused (fun _ => ValidGlobalField)
      (fun _ entry => entry.1.asStr = some "default_action" → fields.KnownKeys ["default_action"])
      fields

/-- The first field that is not valid is not the default action. -/
def GlobalRefusedAsField (value : Yaml) : Prop :=
  ∀ fields : Fields, value = .mapping fields →
    AtFirstRefused (fun _ => ValidGlobalField)
      (fun _ entry => entry.1.asStr ≠ some "default_action") fields

section Global

variable {rt : YamlRuntime} {prt : Python.YamlRuntime}

theorem globalField_isOk (acc : Action) (entry : Yaml × Yaml) :
    (∃ acc', globalField rt acc entry = .ok acc') ↔ ValidGlobalField entry := by
  obtain ⟨key, value⟩ := entry
  simp only [globalField, bind_ok_iff, fieldName_ok, ValidGlobalField, Prod.mk.injEq]
  constructor
  · rintro ⟨acc', name, rfl, hrun⟩
    split at hrun
    · next hname =>
        obtain ⟨text, htext, haction⟩ := bind_ok_iff.1 hrun
        exact ⟨acc', congrArg _ hname,
          (stringOr_ok.1 htext).trans (congrArg _ (parseAction_ok.1 haction))⟩
    · cases hrun
  · rintro ⟨action, rfl, rfl⟩
    refine ⟨action, "default_action", rfl, ?_⟩
    rw [if_pos rfl, bind_ok_iff]
    exact ⟨action.asStr, stringOr_ok.2 rfl, parseAction_ok.2 rfl⟩

theorem globalField_code (acc : Action) (entry : Yaml × Yaml) :
    HasCode (if entry.1.asStr = some "default_action" then "invalid_action" else "invalid_field")
      (globalField rt acc entry) := by
  obtain ⟨key, value⟩ := entry
  cases key with
  | string name =>
      simp only [globalField, fieldName, Yaml.asStr, ok_bind, Option.some.injEq]
      split
      · exact (stringOr_code value (.invalidAction (rt.describe value))).bind parseAction_code
      · exact .error rfl
  | _ => exact .error rfl

theorem judged_parseGlobal (value : Yaml) :
    Judged SameCode (GlobalAgrees value) (parseGlobal rt value)
      (Python.globalConfig prt .allow value) := by
  cases value with
  | mapping fields =>
      intro e e' he he'
      obtain ⟨acc, ⟨key, value⟩, hentry, hround, hat⟩ := exists_first_error he
      have hiff : GlobalAgrees (.mapping fields) ↔
          (key.asStr = some "default_action" → Fields.KnownKeys fields ["default_action"]) := by
        simp only [GlobalAgrees, Yaml.mapping.injEq, forall_eq',
          ← atFirstError_iff_of_isOk (@globalField_isOk rt) .allow, hat]
      rw [hiff, SameCode, globalField_code _ _ _ hround]
      simp only [Python.globalConfig, Python.mappingOf, Yaml.asMapping, ok_bind] at he'
      rcases rejectUnknownFields_cases prt fields ["default_action"] "global" "invalid_field" with
        ⟨hknown, hcheck⟩ | ⟨hunknown, d, hcheck⟩
      · obtain ⟨name, hname, hkey⟩ := hknown _ hentry
        obtain rfl : key = .string "default_action" := by simpa [← List.mem_singleton.1 hname]
        rw [hcheck, ok_bind] at he'
        cases hget : Fields.get fields "default_action" with
        | none => simp [hget] at he'
        | some action =>
            simp only [hget] at he'
            rw [python_parseAction_code _ _ he', if_pos (Yaml.asStr_eq_some.2 rfl)]
            exact iff_of_true rfl (fun _ => hknown)
      · rw [hcheck] at he'
        obtain rfl := Except.error.inj he'
        rw [python_rejectUnknownFields_code _ _ _ _ _ hcheck]
        split_ifs with hkey
        · exact iff_of_false (by decide) (fun h => hunknown (h hkey))
        · exact iff_of_true rfl (fun h => absurd h hkey)
  | _ => exact .error (iff_of_true rfl (by simp [GlobalAgrees]))

theorem parseGlobal_invalidField_iff {value : Yaml} {e : PolicyError}
    (h : parseGlobal rt value = .error e) :
    e.code = "invalid_field" ↔ GlobalRefusedAsField value := by
  cases value with
  | mapping fields =>
      obtain ⟨acc, entry, hentry, hround, hat⟩ := exists_first_error h
      simp only [GlobalRefusedAsField, Yaml.mapping.injEq, forall_eq',
        ← atFirstError_iff_of_isOk (@globalField_isOk rt) .allow, hat]
      rw [globalField_code _ _ _ hround]
      split_ifs with hkey <;> simp [hkey]
  | _ =>
      obtain rfl := Except.error.inj h
      simp [GlobalRefusedAsField, PolicyError.code]

end Global

end HpGuardian

import HpGuardian.Parity.RuleCodes
import HpGuardian.Policy.WellFormed

/-!
# The codes of rejected policies

Both parsers reject the same plain documents, but each stops at the first defect on its own way
through the document, and the code it reports is that defect's.  The ways differ in three respects:

- Python looks for unknown fields of a mapping first, and Rust reads the mapping in document order.
  So the codes differ if another field is refused before the unknown one, under another code:
  at the top level, in the `global` mapping, in a rule and in the leaves of a condition.
- Python reads the action of a rule last, and Rust reads it before the target and the condition.
- Python asks for the action of a rule before it looks at the id, and Rust reads the id first.

`parsePolicy_code_iff` says that there are no others.  Its condition is about the document alone.
`documentParts` lists what is looked at by itself, in document order: the rules, the values of
`global` and whatever is out of place.  A part is accepted or not, given the ids of the rules
before it (`PartAccepted`), and the condition is one of the first part that is not.

The proof goes through the loops of the parsers.  Each nested loop of the Rust parser stops where
one loop over the parts stops (`readPart`), and the Python parser keeps step with it.
-/

namespace HpGuardian

open Framework

/-! ## The parts of a document

`documentParts` takes a document apart without judging anything.  What is not in its place is a
part as well (`misplaced`), and is never accepted. -/

/-- A part of a document that is looked at by itself. -/
inductive DocumentPart where
  /-- An entry of a sequence of rules. -/
  | rule (entry : RuleEntry)
  /-- The value of a field `global`. -/
  | global (value : Yaml)
  /-- Something out of place: an unknown or missing field, a name that is no text, a sequence or a
  mapping that is none. -/
  | misplaced

/-- The one field of a mapping that has nothing but this field. -/
def onlyFieldOf (value : Yaml) (name : String) : Option Yaml :=
  match value with
  | .mapping [(key, field)] => if key.asStr = some name then some field else none
  | _ => none

/-- The parts of a sequence of rules. -/
def ruleParts (scope : Option (String × String)) (rules : Yaml) : List DocumentPart :=
  match rules with
  | .sequence entries => entries.map (fun value => .rule ⟨scope, value⟩)
  | _ => [.misplaced]

/-- The parts of one tool of an agent. -/
def toolParts (agentName : String) (tool : Yaml × Yaml) : List DocumentPart :=
  match tool.1.asStr, onlyFieldOf tool.2 "rules" with
  | some toolName, some rules => ruleParts (some (agentName, toolName)) rules
  | _, _ => [.misplaced]

/-- The parts of a mapping of tools. -/
def toolsParts (agentName : String) (tools : Yaml) : List DocumentPart :=
  match tools with
  | .mapping tools => tools.flatMap (toolParts agentName)
  | _ => [.misplaced]

/-- The parts of one agent. -/
def agentParts (agent : Yaml × Yaml) : List DocumentPart :=
  match agent.1.asStr, onlyFieldOf agent.2 "tools" with
  | some agentName, some tools => toolsParts agentName tools
  | _, _ => [.misplaced]

/-- The parts of a mapping of agents. -/
def agentsParts (agents : Yaml) : List DocumentPart :=
  match agents with
  | .mapping agents => agents.flatMap agentParts
  | _ => [.misplaced]

/-- The parts under one top-level field. -/
def topLevelParts (field : Yaml × Yaml) : List DocumentPart :=
  if field.1.asStr = some "version" then []
  else if field.1.asStr = some "global" then [.global field.2]
  else if field.1.asStr = some "rules" then ruleParts none field.2
  else if field.1.asStr = some "agents" then agentsParts field.2
  else [.misplaced]

/-- The parts of a document, in document order. -/
def documentParts (fields : Fields) : List DocumentPart := fields.flatMap topLevelParts

/-- The id that a part declares. -/
def DocumentPart.declaredId : DocumentPart → Option String
  | .rule entry => entry.declaredId
  | _ => none

/-- The ids that some parts declare. -/
def idsOf (parts : List DocumentPart) : Finset String :=
  (parts.filterMap DocumentPart.declaredId).toFinset

/-! ## The parts that are accepted

Predicates on a part and on the ids of the rules before it.  None of them runs a parser: they are
made of the predicates on fields, ids, actions, targets and conditions. -/

/-- A part in which neither parser finds a defect, given the ids of the rules before it. -/
def PartAccepted (rt : YamlRuntime) (ruleIds : Finset String) : DocumentPart → Prop
  | .rule entry => ∃ fields, entry.value = .mapping fields ∧ ActionAccepted fields ∧
      AcceptedButAction rt entry.scope ruleIds fields
  | .global value => ∃ fields, value = .mapping fields ∧ ∀ field ∈ fields, ValidGlobalField field
  | .misplaced => False

/-- What a refused part must be like for both parsers to report the same code. -/
def PartAgrees (rt : YamlRuntime) (ruleIds : Finset String) : DocumentPart → Prop
  | .rule entry => ∀ fields, entry.value = .mapping fields →
      RuleAgrees rt entry.scope ruleIds fields
  | .global value => GlobalAgrees value
  | .misplaced => True

/-- The Rust parser reports a refused part as an invalid field. -/
def PartRefusedAsField (ruleIds : Finset String) : DocumentPart → Prop
  | .rule entry => ∀ fields, entry.value = .mapping fields → RuleRefusedAsField ruleIds fields
  | .global value => GlobalRefusedAsField value
  | .misplaced => True

/-- When the codes for a rejected policy are equal.  In a policy of version 1 they are those of the
first part that is not accepted.  Beside an unknown top-level field, which Python reports at once,
that part has to be an invalid field too. -/
def PolicyCodesAgree (rt : YamlRuntime) (policy : Yaml) : Prop :=
  ∀ fields : Fields, policy = .mapping fields → fields.get "version" = some (.int 1) →
    AtFirstRefused (fun before => PartAccepted rt (idsOf before))
      (fun before part =>
        (fields.KnownKeys topLevelNames → PartAgrees rt (idsOf before) part) ∧
          (¬ fields.KnownKeys topLevelNames → PartRefusedAsField (idsOf before) part))
      (documentParts fields)

/-! ## The parts, read one by one

The nested loops of the Rust parser as one loop over the parts. -/

/-- What the Rust parser does with a part. -/
def readPart (rt : YamlRuntime) (state : ParseState) :
    DocumentPart → Except PolicyError ParseState
  | .rule entry => addRule rt false entry.enclosingTarget state entry.value
  | .global value => (parseGlobal rt value).map (fun _ => state)
  | .misplaced => .error (.invalidField "misplaced")

theorem onlyFieldOf_eq_some {value field : Yaml} {name : String} :
    onlyFieldOf value name = some field ↔ value = .mapping [(.string name, field)] := by
  unfold onlyFieldOf
  constructor
  · intro h
    split at h
    · split at h
      · next hkey =>
          obtain rfl := Option.some.inj h
          rw [Yaml.asStr_eq_some.1 hkey]
      · cases h
    · cases h
  · rintro rfl
    simp [Yaml.asStr]

section Runs

variable {rt : YamlRuntime} {state : ParseState}

/-- A mapping with the one known field and nothing else. -/
theorem fields_eq_singleton {fields : Fields} {name : String} {field : Yaml}
    (hdistinct : fields.DistinctKeys) (hknown : fields.KnownKeys [name])
    (hget : fields.get name = some field) : fields = [(.string name, field)] := by
  have hperm := Fields.perm_inOrder hdistinct hknown (by simp)
  simpa [Fields.inOrder, hget] using hperm

/-- A configuration mapping with one required field, and what is done with the field. -/
theorem config_cases {α : Type} {place : Place} {value : Yaml} (hplain : Plain place value)
    (name description scope path : String) (missing : PolicyError)
    (hmissing : missing.code = "invalid_field") (next : Yaml → Except PolicyError α) :
    let config := (do
      let fields ← mappingOf value description
      let field ← fields.foldlM (onlyField name scope path) none
      let field ← okOr field missing
      next field)
    (∃ field, onlyFieldOf value name = some field ∧ config = next field) ∨
      (onlyFieldOf value name = none ∧ ∃ e, config = .error e ∧ e.code = "invalid_field") := by
  intro config
  cases honly : onlyFieldOf value name with
  | some field =>
      refine .inl ⟨field, rfl, ?_⟩
      obtain rfl := onlyFieldOf_eq_some.1 honly
      have hrun := (onlyField_cases hplain.distinctKeys name scope path).resolve_right
        (fun h => h.1 (by simp [Fields.KnownKeys]))
      simp only [config, mappingOf, Yaml.asMapping, ok_bind, hrun.2]
      simp [Fields.get, Yaml.asStr, okOr]
  | none =>
      refine .inr ⟨rfl, ?_⟩
      have hnot : ∀ field, value ≠ .mapping [(.string name, field)] := fun field h => by
        rw [onlyFieldOf_eq_some.2 h] at honly
        cases honly
      cases value with
      | mapping fields =>
          simp only [config, mappingOf, Yaml.asMapping, ok_bind]
          rcases onlyField_cases hplain.distinctKeys name scope path with
            ⟨hknown, hrun⟩ | ⟨-, e, hrun⟩
          · cases hget : Fields.get fields name with
            | none =>
                rw [hrun, hget]
                exact ⟨_, rfl, hmissing⟩
            | some field =>
                exact absurd (congrArg _ (fields_eq_singleton hplain.distinctKeys hknown hget))
                  (hnot field)
          · rw [hrun]
            exact ⟨e, rfl, ErrorsAre.foldlM (onlyField_code name scope path) fields none e hrun⟩
      | _ => exact ⟨_, rfl, rfl⟩

theorem python_config_cases {α : Type} (prt : Python.YamlRuntime) {place : Place} {value : Yaml}
    (hplain : Plain place value) (name pythonName : String) (missing : Python.PolicyError)
    (hmissing : missing.code = "invalid_field") (next : Yaml → Except Python.PolicyError α) :
    let config := (do
      let fields ← Python.mappingOf value pythonName "invalid_field"
      Python.rejectUnknownFields prt fields [name] pythonName "invalid_field"
      let field ← Python.required (fields.get name) missing
      next field)
    (∃ field, onlyFieldOf value name = some field ∧ config = next field) ∨
      (onlyFieldOf value name = none ∧ ∃ e, config = .error e ∧ e.code = "invalid_field") := by
  intro config
  cases honly : onlyFieldOf value name with
  | some field =>
      refine .inl ⟨field, rfl, ?_⟩
      obtain rfl := onlyFieldOf_eq_some.1 honly
      have hcheck := (rejectUnknownFields_cases prt [(.string name, field)] [name] pythonName
        "invalid_field").resolve_right (fun h => h.1 (by simp [Fields.KnownKeys]))
      simp only [config, Python.mappingOf, Yaml.asMapping, ok_bind, hcheck.2]
      simp [Fields.get, Yaml.asStr, Python.required]
  | none =>
      refine .inr ⟨rfl, ?_⟩
      have hnot : ∀ field, value ≠ .mapping [(.string name, field)] := fun field h => by
        rw [onlyFieldOf_eq_some.2 h] at honly
        cases honly
      cases value with
      | mapping fields =>
          simp only [config, Python.mappingOf, Yaml.asMapping, ok_bind]
          rcases rejectUnknownFields_cases prt fields [name] pythonName "invalid_field" with
            ⟨hknown, hcheck⟩ | ⟨-, e, hcheck⟩
          · cases hget : Fields.get fields name with
            | none =>
                rw [hcheck]
                exact ⟨_, rfl, hmissing⟩
            | some field =>
                exact absurd (congrArg _ (fields_eq_singleton hplain.distinctKeys hknown hget))
                  (hnot field)
          · rw [hcheck]
            exact ⟨e, rfl, python_rejectUnknownFields_code _ _ _ _ _ hcheck⟩
      | _ => exact ⟨_, rfl, rfl⟩

/-- A sequence of rules is read part by part. -/
theorem readParts_rules (scope : Option (String × String)) (rules : Yaml) :
    SameOutcome Eq
      (addRules rt false (RuleEntry.enclosingTarget ⟨scope, .null⟩) state rules)
      ((ruleParts scope rules).foldlM (readPart rt) state) := by
  cases rules with
  | sequence entries =>
      rw [ruleParts, List.foldlM_map]
      exact .refl _
  | _ => exact .error

theorem readParts_tool (agentName : String) {tool : Yaml × Yaml} {place : Place}
    (hplain : Plain place tool.2) :
    SameOutcome Eq (addTool rt false agentName state tool)
      ((toolParts agentName tool).foldlM (readPart rt) state) := by
  obtain ⟨key, value⟩ := tool
  cases key with
  | string toolName =>
      rw [toolParts]
      simp only [Yaml.asStr, addTool, fieldName, ok_bind]
      rcases config_cases hplain "rules" "tool configuration" "tool configuration"
        ("agents." ++ agentName ++ ".tools." ++ toolName)
        (.invalidField ("agents." ++ agentName ++ ".tools." ++ toolName ++ ".rules")) rfl
        (addRules rt false [("agent", agentName), ("tool", toolName)] state) with
        ⟨rules, honly, hrun⟩ | ⟨honly, e, hrun, -⟩
      · rw [honly, hrun]
        exact readParts_rules (some (agentName, toolName)) rules
      · rw [honly, hrun]
        exact .error
  | _ => exact .error

theorem readParts_tools (agentName : String) {tools : Yaml} {place : Place}
    (hplain : Plain place tools) :
    SameOutcome Eq
      (do
        let tools ← mappingOf tools "tools"
        tools.foldlM (addTool rt false agentName) state)
      ((toolsParts agentName tools).foldlM (readPart rt) state) := by
  cases tools with
  | mapping tools =>
      rw [toolsParts]
      refine SameOutcome.foldlM_flatMap (R := Eq) ?_ rfl
      rintro state - rfl tool htool
      exact readParts_tool agentName (hplain.entry htool).2
  | _ => exact .error

theorem readParts_agent {agent : Yaml × Yaml} {place : Place} (hplain : Plain place agent.2) :
    SameOutcome Eq (addAgent rt false state agent)
      ((agentParts agent).foldlM (readPart rt) state) := by
  obtain ⟨key, value⟩ := agent
  cases key with
  | string agentName =>
      rw [agentParts]
      simp only [Yaml.asStr, addAgent, fieldName, ok_bind]
      rcases config_cases hplain "tools" "agent configuration" "agent configuration"
        ("agents." ++ agentName) (.invalidField ("agents." ++ agentName ++ ".tools")) rfl
        (fun tools => do
          let tools ← mappingOf tools "tools"
          tools.foldlM (addTool rt false agentName) state) with
        ⟨tools, honly, hrun⟩ | ⟨honly, e, hrun, -⟩
      · rw [honly, hrun]
        have htools : Plain .document tools := by
          obtain rfl := onlyFieldOf_eq_some.1 honly
          exact @Plain.field _ _ "tools" _ hplain (by decide) (by simp)
        exact readParts_tools agentName htools
      · rw [honly, hrun]
        exact .error
  | _ => exact .error

theorem readParts_agents {agents : Yaml} {place : Place} (hplain : Plain place agents) :
    SameOutcome Eq (addAgents rt false state agents)
      ((agentsParts agents).foldlM (readPart rt) state) := by
  cases agents with
  | mapping agents =>
      rw [agentsParts]
      refine SameOutcome.foldlM_flatMap (R := Eq) ?_ rfl
      rintro state - rfl agent hagent
      exact readParts_agent (hplain.entry hagent).2
  | _ => exact .error

/-- One top-level field is read part by part, apart from the default action. -/
theorem readParts_topLevel {fields : Fields} (hplain : Plain .document (.mapping fields))
    (acc : Action × ParseState) {entry : Yaml × Yaml} (hentry : entry ∈ fields) :
    SameOutcome (fun (acc' : Action × ParseState) state' => state' = acc'.2)
      (topLevelField rt false acc entry) ((topLevelParts entry).foldlM (readPart rt) acc.2) := by
  obtain ⟨key, value⟩ := entry
  cases key with
  | string name =>
      simp only [topLevelField, topLevelParts, fieldName, Yaml.asStr, ok_bind, Option.some.injEq]
      split_ifs with hversion hglobal hrules hagents
      · exact .ok rfl
      · cases hparse : parseGlobal rt value with
        | ok action =>
            simp only [List.foldlM_cons, List.foldlM_nil, readPart, hparse]
            exact .ok rfl
        | error e =>
            simp only [List.foldlM_cons, readPart, hparse]
            exact .error
      · rw [← bind_pure (List.foldlM _ _ _)]
        exact (readParts_rules none value).bind (fun _ _ h => .ok h.symm)
      · rw [← bind_pure (List.foldlM _ _ _)]
        have hagentsPlain := hplain.field (by rw [hagents]; decide) hentry
        exact (readParts_agents hagentsPlain).bind (fun _ _ h => .ok h.symm)
      · exact .error
  | _ => exact .error

end Runs

/-! ## The parts that are read

What the loop accepts is what the predicates accept, and the ids that it remembers are those that
the parts before declare. -/

/-- The document of a rule is plain. -/
def DocumentPart.Plain : DocumentPart → Prop
  | .rule entry => HpGuardian.Plain .document entry.value
  | _ => True

section Plain

variable {place : Place} {part : DocumentPart}

theorem plain_ruleParts {scope : Option (String × String)} {rules : Yaml}
    (hplain : Plain place rules) (h : part ∈ ruleParts scope rules) : part.Plain := by
  cases rules with
  | sequence entries =>
      obtain ⟨value, hvalue, rfl⟩ := List.mem_map.1 h
      exact hplain.items value hvalue
  | _ =>
      obtain rfl := List.mem_singleton.1 h
      trivial

theorem plain_toolParts {agentName : String} {tool : Yaml × Yaml} (hplain : Plain place tool.2)
    (h : part ∈ toolParts agentName tool) : part.Plain := by
  unfold toolParts at h
  split at h
  · next rules _ honly =>
      rw [onlyFieldOf_eq_some.1 honly] at hplain
      exact plain_ruleParts (@Plain.field _ _ "rules" _ hplain (by decide) (by simp)) h
  · obtain rfl := List.mem_singleton.1 h
    trivial

theorem plain_toolsParts {agentName : String} {tools : Yaml} (hplain : Plain place tools)
    (h : part ∈ toolsParts agentName tools) : part.Plain := by
  cases tools with
  | mapping tools =>
      obtain ⟨tool, htool, h⟩ := List.mem_flatMap.1 h
      exact plain_toolParts (hplain.entry htool).2 h
  | _ =>
      obtain rfl := List.mem_singleton.1 h
      trivial

theorem plain_agentParts {agent : Yaml × Yaml} (hplain : Plain place agent.2)
    (h : part ∈ agentParts agent) : part.Plain := by
  unfold agentParts at h
  split at h
  · next tools _ honly =>
      rw [onlyFieldOf_eq_some.1 honly] at hplain
      exact plain_toolsParts (@Plain.field _ _ "tools" _ hplain (by decide) (by simp)) h
  · obtain rfl := List.mem_singleton.1 h
    trivial

/-- Every rule among the parts of a plain document is plain. -/
theorem plain_documentParts {fields : Fields} (hplain : Plain .document (.mapping fields))
    (h : part ∈ documentParts fields) : part.Plain := by
  obtain ⟨⟨key, value⟩, hentry, h⟩ := List.mem_flatMap.1 h
  unfold topLevelParts at h
  split_ifs at h with hversion hglobal hrules hagents
  · simp at h
  · obtain rfl := List.mem_singleton.1 h
    trivial
  · exact plain_ruleParts (hplain.entry hentry).2 h
  · have hvalue := (hplain.entry hentry).2
    cases value with
    | mapping agents =>
        obtain ⟨agent, hagent, h⟩ := List.mem_flatMap.1 h
        exact plain_agentParts (hvalue.entry hagent).2 h
    | _ =>
        obtain rfl := List.mem_singleton.1 h
        trivial
  · obtain rfl := List.mem_singleton.1 h
    trivial

end Plain

section Accepted

variable {rt : YamlRuntime} {state state' : ParseState} {fields : Fields}

/-- What the Rust parser accepts as a rule of version 1, and the ids it knows afterwards. -/
theorem addRule_isOk (hplain : Plain .document (.mapping fields)) {entry : RuleEntry} :
    (∃ state', addRule rt false entry.enclosingTarget state (.mapping fields) = .ok state') ↔
      ActionAccepted fields ∧ AcceptedButAction rt entry.scope state.ruleIds fields := by
  simp only [addRule_ok_iff hplain.distinctKeys]
  constructor
  · rintro ⟨-, hknown, action, ruleIds, -, target, flat, condition, haction, hid, -, -, htarget,
      hflat, hcondition, -⟩
    exact ⟨readAction_isOk.1 ⟨action, haction⟩, hknown, readRuleIds_isOk.1 ⟨ruleIds, hid⟩,
      (readTarget_isOk hplain).1 ⟨flat, bind_ok_iff.2 ⟨target, htarget, hflat⟩⟩,
      parseConditions_isOk.1 ⟨condition, hcondition⟩⟩
  · rintro ⟨haction, h⟩
    obtain ⟨action, haction⟩ := readAction_isOk.2 haction
    obtain ⟨ruleIds, hid⟩ := readRuleIds_isOk.2 h.id
    obtain ⟨flat, hread⟩ := (readTarget_isOk hplain).2 h.target
    obtain ⟨target, htarget, hflat⟩ := bind_ok_iff.1 hread
    obtain ⟨condition, hcondition⟩ := parseConditions_isOk.2 h.condition
    have hlimit := rateLimit_eq_none h.known
    exact ⟨_, h.known, action, ruleIds, none, target, flat, condition, haction, hid,
      readRateLimit_ok.2 (by simp [hlimit]), by simp, htarget, hflat, hcondition, rfl⟩

/-- A part is accepted or not, given the ids of the parts before it. -/
theorem readPart_isOk {part : DocumentPart} (hplain : part.Plain) :
    (∃ state', readPart rt state part = .ok state') ↔ PartAccepted rt state.ruleIds part := by
  cases part with
  | rule entry =>
      obtain ⟨scope, value⟩ := entry
      cases value with
      | mapping fields =>
          refine (addRule_isOk hplain).trans ?_
          simp [PartAccepted]
      | _ =>
          refine iff_of_false ?_ ?_
          · rintro ⟨_, h⟩
            cases h
          · rintro ⟨_, h, -⟩
            cases h
  | global value =>
      cases value with
      | mapping fields =>
          have hloop := foldlM_isOk_iff (@globalField_isOk rt) fields .allow
          simp only [PartAccepted, Yaml.mapping.injEq, exists_eq_left', ← hloop]
          constructor
          · rintro ⟨state', h⟩
            cases hrun : List.foldlM (globalField rt) .allow fields with
            | ok action => exact ⟨action, rfl⟩
            | error e =>
                simp only [readPart, parseGlobal, mappingOf, Yaml.asMapping, ok_bind, hrun] at h
                cases h
          · rintro ⟨action, hrun⟩
            refine ⟨state, ?_⟩
            simp only [readPart, parseGlobal, mappingOf, Yaml.asMapping, ok_bind, hrun]
            rfl
      | _ =>
          refine iff_of_false ?_ ?_
          · rintro ⟨_, h⟩
            cases h
          · rintro ⟨_, h, -⟩
            cases h
  | misplaced =>
      refine iff_of_false ?_ id
      rintro ⟨_, h⟩
      cases h

/-- The ids known after a part are those before it and the one it declares. -/
theorem readPart_ruleIds {part : DocumentPart} (hplain : part.Plain) {past : List DocumentPart}
    (hids : state.ruleIds = idsOf past) (h : readPart rt state part = .ok state') :
    state'.ruleIds = idsOf (past ++ [part]) := by
  have hconcat : idsOf (past ++ [part]) =
      part.declaredId.elim (idsOf past) (fun id => insert id (idsOf past)) := by
    rw [idsOf, List.filterMap_append]
    cases hid : part.declaredId with
    | none => simp [hid, idsOf]
    | some id =>
        ext name
        simp [hid, idsOf]
  rw [hconcat]
  cases part with
  | rule entry =>
      obtain ⟨scope, value⟩ := entry
      cases value with
      | mapping fields =>
          obtain ⟨-, action, ruleIds, _, target, flat, condition, -, hid, -, -, -, -, -, rfl⟩ :=
            (addRule_ok_iff hplain.distinctKeys).1 h
          obtain ⟨-, hruleIds⟩ := insertRuleId_ok_iff.1 (readRuleIds_ok.1 hid).2
          rw [← hids]
          cases hdeclared : (Fields.get fields "id").bind Yaml.asStr <;>
            simp only [ParseState.add, hruleIds, DocumentPart.declaredId, RuleEntry.declaredId,
              Yaml.asMapping, Option.getD_some, Fields.last_eq_get hplain.distinctKeys, hdeclared,
              Option.elim]
      | _ => cases h
  | global value =>
      cases hrun : parseGlobal rt value with
      | ok action =>
          rw [readPart, hrun] at h
          obtain rfl := Except.ok.inj h
          exact hids
      | error e =>
          rw [readPart, hrun] at h
          cases h
  | misplaced => cases h

/-- The loop over the parts stops at the first part that is not accepted. -/
theorem atFirstError_readPart (hplain : Plain .document (.mapping fields))
    (verdict : Finset String → DocumentPart → Prop) :
    AtFirstError (readPart rt) (fun state => verdict state.ruleIds) .empty (documentParts fields) ↔
      AtFirstRefused (fun before => PartAccepted rt (idsOf before))
        (fun before => verdict (idsOf before)) (documentParts fields) := by
  refine atFirstError_iff_atFirstRefused
    (R := fun past (state : ParseState) => state.ruleIds = idsOf past) ?_ ?_ ?_ rfl
  · exact fun past state state' part hpart hids h =>
      readPart_ruleIds (plain_documentParts hplain hpart) hids h
  · intro past state part hpart hids
    rw [← hids]
    exact readPart_isOk (plain_documentParts hplain hpart)
  · intro past state part hpart hids
    rw [hids]

end Accepted

/-! ## Both parsers, part by part

A verdict on parts tells when the errors that the two parsers report for a part count as the same.
It is carried through the loops that read the parts. -/

/-- The verdict tells when the errors of the two parsers count as the same. -/
structure Sound (verdict : Finset String → DocumentPart → Prop) (rt : YamlRuntime)
    (prt : Python.YamlRuntime) (same : PolicyError → Python.PolicyError → Prop) : Prop where
  invalidField : ∀ e e', e.code = "invalid_field" → e'.code = "invalid_field" → same e e'
  misplaced : ∀ ruleIds, verdict ruleIds .misplaced
  rule : ∀ (entry : RuleEntry) state pythonState,
    SameState rt.utcTimestamp state pythonState → Plain .document entry.value →
      Judged same (verdict state.ruleIds (.rule entry))
        (addRule rt false entry.enclosingTarget state entry.value)
        (Python.addRule prt false entry.enclosingTarget pythonState entry.value)
  global : ∀ ruleIds value, Judged same (verdict ruleIds (.global value)) (parseGlobal rt value)
    (Python.globalConfig prt .allow value)

/-- The verdict on the first part that is refused. -/
def FirstVerdict (verdict : Finset String → DocumentPart → Prop) (rt : YamlRuntime)
    (state : ParseState) (parts : List DocumentPart) : Prop :=
  AtFirstError (readPart rt) (fun state => verdict state.ruleIds) state parts

section Documents

variable {rt : YamlRuntime} {prt : Python.YamlRuntime}
  {verdict : Finset String → DocumentPart → Prop}
  {same : PolicyError → Python.PolicyError → Prop} {fields : Fields} {state : ParseState}
  {pythonState : Python.ParseState}

/-- Both parsers report an invalid field for something out of place. -/
theorem Sound.judged_misplaced {α β : Type} (h : Sound verdict rt prt same) {e : PolicyError}
    {e' : Python.PolicyError} (hcode : e.code = "invalid_field")
    (hcode' : e'.code = "invalid_field") :
    Judged same (FirstVerdict verdict rt state [.misplaced]) (.error e : Except PolicyError α)
      (.error e' : Except Python.PolicyError β) :=
  .error (iff_of_true (h.invalidField e e' hcode hcode')
    ((atFirstError_cons_error rfl).2 (h.misplaced _)))

theorem Sound.rules (h : Sound verdict rt prt same) (hts : prt.utcTimestamp = rt.utcTimestamp)
    (scope : Option (String × String)) (hstate : SameState rt.utcTimestamp state pythonState)
    {value : Yaml} (hplain : Plain .document value) :
    Judged same (FirstVerdict verdict rt state (ruleParts scope value))
      (addRules rt false (RuleEntry.enclosingTarget ⟨scope, .null⟩) state value)
      (Python.addRules prt false (RuleEntry.enclosingTarget ⟨scope, .null⟩) pythonState value) := by
  cases value with
  | sequence entries =>
      have hloops := Judged.foldlM (R := SameState rt.utcTimestamp)
        (f := addRule rt false (RuleEntry.enclosingTarget ⟨scope, .null⟩))
        (g := Python.addRule prt false (RuleEntry.enclosingTarget ⟨scope, .null⟩))
        (fun state pythonState hstate entry hentry =>
          sameOutcome_addRule hts _ hstate (hplain.items entry hentry))
        (fun state pythonState hstate entry hentry =>
          h.rule ⟨scope, entry⟩ state pythonState hstate (hplain.items entry hentry)) hstate
      have hparts := @atFirstError_map _ _ _ _ (readPart rt)
        (fun state => verdict state.ruleIds) (fun value => DocumentPart.rule ⟨scope, value⟩)
        entries state
      exact hloops.congr hparts.symm
  | _ => exact h.judged_misplaced rfl rfl

/-- A configuration mapping with one required field, and what is done with the field. -/
theorem Sound.config {α β : Type} (h : Sound verdict rt prt same) {place : Place}
    {value : Yaml} (hplain : Plain place value) {name : String}
    (hname : name ∉ ["start", "end", "time_window"])
    (description scope path pythonName : String) (missing : PolicyError)
    (hmissing : missing.code = "invalid_field") (pythonMissing : Python.PolicyError)
    (hpythonMissing : pythonMissing.code = "invalid_field")
    {rustNext : Yaml → Except PolicyError α} {pythonNext : Yaml → Except Python.PolicyError β}
    (parts : Yaml → List DocumentPart)
    (hnext : ∀ field, Plain .document field →
      Judged same (FirstVerdict verdict rt state (parts field)) (rustNext field)
        (pythonNext field)) :
    Judged same
      (FirstVerdict verdict rt state
        (match onlyFieldOf value name with
        | some field => parts field
        | none => [.misplaced]))
      (do
        let fields ← mappingOf value description
        let field ← fields.foldlM (onlyField name scope path) none
        let field ← okOr field missing
        rustNext field)
      (do
        let fields ← Python.mappingOf value pythonName "invalid_field"
        Python.rejectUnknownFields prt fields [name] pythonName "invalid_field"
        let field ← Python.required (fields.get name) pythonMissing
        pythonNext field) := by
  have hrust := config_cases hplain name description scope path missing hmissing rustNext
  have hpython := python_config_cases prt hplain name pythonName pythonMissing hpythonMissing
    pythonNext
  rcases hrust with ⟨field, honly, hrust⟩ | ⟨honly, e, hrust, hcode⟩
  · rcases hpython with ⟨field', honly', hpython⟩ | ⟨honly', -⟩
    · obtain rfl := Option.some.inj (honly.symm.trans honly')
      rw [honly, hrust, hpython]
      obtain rfl := onlyFieldOf_eq_some.1 honly
      exact hnext field (hplain.field hname (by simp))
    · simp [honly] at honly'
  · rcases hpython with ⟨field', honly', -⟩ | ⟨-, e', hpython, hcode'⟩
    · simp [honly] at honly'
    · rw [honly, hrust, hpython]
      exact h.judged_misplaced hcode hcode'

theorem Sound.tool (h : Sound verdict rt prt same) (hts : prt.utcTimestamp = rt.utcTimestamp)
    (agentName : String) (hstate : SameState rt.utcTimestamp state pythonState)
    {tool : Yaml × Yaml} {place : Place} (hplain : Plain place tool.2) :
    Judged same (FirstVerdict verdict rt state (toolParts agentName tool))
      (addTool rt false agentName state tool)
      (Python.addTool prt false agentName pythonState tool) := by
  obtain ⟨key, value⟩ := tool
  cases key with
  | string toolName =>
      refine (h.config hplain (by decide) _ _ _ _ _ rfl _ rfl
        (ruleParts (some (agentName, toolName))) (fun rules hrules =>
          h.rules hts (some (agentName, toolName)) hstate hrules)).congr ?_
      rw [toolParts]
      simp only [Yaml.asStr]
      cases onlyFieldOf value "rules" <;> exact Iff.rfl
  | _ => exact h.judged_misplaced rfl rfl

theorem Sound.tools (h : Sound verdict rt prt same) (hts : prt.utcTimestamp = rt.utcTimestamp)
    (agentName pythonName : String) (hstate : SameState rt.utcTimestamp state pythonState)
    {value : Yaml} (hplain : Plain .document value) :
    Judged same (FirstVerdict verdict rt state (toolsParts agentName value))
      (do
        let tools ← mappingOf value "tools"
        tools.foldlM (addTool rt false agentName) state)
      (do
        let tools ← Python.mappingOf value pythonName "invalid_field"
        tools.foldlM (Python.addTool prt false agentName) pythonState) := by
  cases value with
  | mapping tools =>
      have hloops := Judged.foldlM (R := SameState rt.utcTimestamp)
        (f := addTool rt false agentName) (g := Python.addTool prt false agentName)
        (fun state pythonState hstate tool htool =>
          sameOutcome_addTool hts agentName hstate (hplain.entry htool).2)
        (fun state pythonState hstate tool htool =>
          h.tool hts agentName hstate (hplain.entry htool).2) hstate
      refine hloops.congr (atFirstError_flatMap id (toolParts agentName) ?_ state)
      exact fun state tool htool => (readParts_tool agentName (hplain.entry htool).2).mono
        (fun _ _ h => h.symm)
  | _ => exact h.judged_misplaced rfl rfl

theorem Sound.agent (h : Sound verdict rt prt same) (hts : prt.utcTimestamp = rt.utcTimestamp)
    (hstate : SameState rt.utcTimestamp state pythonState) {agent : Yaml × Yaml} {place : Place}
    (hplain : Plain place agent.2) :
    Judged same (FirstVerdict verdict rt state (agentParts agent))
      (addAgent rt false state agent) (Python.addAgent prt false pythonState agent) := by
  obtain ⟨key, value⟩ := agent
  cases key with
  | string agentName =>
      refine (h.config hplain (by decide) _ _ _ _ _ rfl _ rfl _ (fun tools htools =>
        h.tools hts agentName _ hstate htools)).congr ?_
      rw [agentParts]
      simp only [Yaml.asStr]
      cases onlyFieldOf value "tools" <;> exact Iff.rfl
  | _ => exact h.judged_misplaced rfl rfl

theorem Sound.agents (h : Sound verdict rt prt same) (hts : prt.utcTimestamp = rt.utcTimestamp)
    (hstate : SameState rt.utcTimestamp state pythonState) {value : Yaml}
    (hplain : Plain .document value) :
    Judged same (FirstVerdict verdict rt state (agentsParts value)) (addAgents rt false state value)
      (Python.addAgents prt false pythonState value) := by
  cases value with
  | mapping agents =>
      have hloops := Judged.foldlM (R := SameState rt.utcTimestamp)
        (f := addAgent rt false) (g := Python.addAgent prt false)
        (fun state pythonState hstate agent hagent =>
          sameOutcome_addAgent hts hstate (hplain.entry hagent).2)
        (fun state pythonState hstate agent hagent =>
          h.agent hts hstate (hplain.entry hagent).2) hstate
      refine hloops.congr (atFirstError_flatMap id agentParts ?_ state)
      exact fun state agent hagent => (readParts_agent (hplain.entry hagent).2).mono
        (fun _ _ h => h.symm)
  | _ => exact h.judged_misplaced rfl rfl

/-- One top-level field. -/
theorem Sound.topLevel (h : Sound verdict rt prt same) (hts : prt.utcTimestamp = rt.utcTimestamp)
    {entry : Yaml × Yaml} {rest : Fields} {rust : Action × ParseState}
    {python : Action × Python.ParseState}
    (hdocument : SameDocument rt (entry :: rest) rust python) :
    Judged same (FirstVerdict verdict rt rust.2 (topLevelParts entry))
      (topLevelField rt false rust entry) (Python.topLevelField prt false python entry) := by
  obtain ⟨key, value⟩ := entry
  obtain ⟨name, hname, hkey⟩ := hdocument.known (key, value) (by simp)
  obtain rfl : key = .string name := hkey
  have hplain := hdocument.plain name value (by simp) hname
  simp only [topLevelField, Python.topLevelField, topLevelParts, fieldName, Yaml.asStr, ok_bind,
    Option.some.injEq]
  simp only [topLevelNames, List.mem_cons, List.not_mem_nil, or_false] at hname
  rcases hname with rfl | rfl | rfl | rfl
  · exact .ok_left _
  · simp only [String.reduceEq, if_false, if_true]
    have hinitial : python.1 = .allow := by
      rw [hdocument.defaultAction]
      exact hdocument.initial ⟨(.string "global", value), by simp, rfl⟩
    rw [hinitial]
    refine Judged.bind (R := Eq) (sameOutcome_parseGlobal hplain) ?_ (fun _ _ _ _ => .ok_left _)
    -- the part is refused where `parse_global` is
    intro e e' he he'
    have hpart : readPart rt rust.2 (.global value) = .error e := by
      rw [readPart, he]
      rfl
    rw [FirstVerdict, atFirstError_cons_error hpart]
    exact h.global _ value e e' he he'
  · simp only [String.reduceEq, if_false, if_true]
    exact (h.rules hts none hdocument.state hplain).bind
      (sameOutcome_addRules hts [] hdocument.state hplain) (fun _ _ _ _ => .ok_left _)
  · simp only [String.reduceEq, if_false, if_true]
    exact (h.agents hts hdocument.state hplain).bind
      (sameOutcome_addAgents hts hdocument.state hplain) (fun _ _ _ _ => .ok_left _)

/-- The verdict on the part at which the loop over the top-level fields stops. -/
def DocumentVerdict (verdict : Finset String → DocumentPart → Prop) (rt : YamlRuntime)
    (fields : Fields) : Prop :=
  AtFirstError (topLevelField rt false)
    (fun acc entry => FirstVerdict verdict rt acc.2 (topLevelParts entry)) (.allow, .empty) fields

/-- It is the verdict on the first part of the document that is not accepted. -/
theorem documentVerdict_iff (hplain : Plain .document (.mapping fields)) :
    DocumentVerdict verdict rt fields ↔
      AtFirstRefused (fun before => PartAccepted rt (idsOf before))
        (fun before => verdict (idsOf before)) (documentParts fields) := by
  rw [← atFirstError_readPart hplain]
  refine atFirstError_flatMap (α := Action × ParseState) Prod.snd topLevelParts ?_ (.allow, .empty)
  exact fun acc entry hentry => readParts_topLevel hplain acc hentry

/-- What both parsers know before the first of some known top-level fields. -/
theorem sameDocument_start {before after : Fields} (hknown : before.KnownKeys topLevelNames)
    (hplain : Plain .document (.mapping (before ++ after))) :
    SameDocument rt before (.allow, .empty) (.allow, .empty) := by
  refine ⟨rfl, .empty _, fun _ => rfl, hknown, ?_, fun name value hentry hname => ?_⟩
  · exact hplain.distinctKeys.sublist ((List.sublist_append_left before after).filterMap _)
  · refine hplain.field ?_ (List.mem_append_left after hentry)
    simp only [topLevelNames, List.mem_cons, List.not_mem_nil, or_false] at hname
    rcases hname with rfl | rfl | rfl | rfl <;> decide

/-- The known top-level fields before the first unknown one, read by both parsers. -/
theorem Sound.document (h : Sound verdict rt prt same) (hts : prt.utcTimestamp = rt.utcTimestamp)
    {before after : Fields} (hknown : before.KnownKeys topLevelNames)
    (hplain : Plain .document (.mapping (before ++ after))) :
    SameOutcome (SameDocument rt []) (before.foldlM (topLevelField rt false) (.allow, .empty))
        (before.foldlM (Python.topLevelField prt false) (.allow, .empty)) ∧
      Judged same (DocumentVerdict verdict rt before)
        (before.foldlM (topLevelField rt false) (.allow, .empty))
        (before.foldlM (Python.topLevelField prt false) (.allow, .empty)) := by
  have hround : ∀ entry rest rust python, SameDocument rt (entry :: rest) rust python →
      SameOutcome (SameDocument rt rest) (topLevelField rt false rust entry)
        (Python.topLevelField prt false python entry) :=
    fun _ _ _ _ hdocument => sameOutcome_topLevelField hts hdocument
  exact ⟨SameOutcome.foldlM_same hround (sameDocument_start hknown hplain),
    Judged.foldlM_same hround (fun _ _ _ _ hdocument => h.topLevel hts hdocument)
      (sameDocument_start hknown hplain)⟩

end Documents

/-! ## The two verdicts

The two instances of a verdict: the codes are equal, or the Rust parser reports an invalid field.
The second is for documents with an unknown top-level field, which the Python parser reports at
once. -/

section

variable {rt : YamlRuntime} {prt : Python.YamlRuntime} {fields : Fields}

/-- Both parsers report the same code. -/
theorem partAgrees_sound (hts : prt.utcTimestamp = rt.utcTimestamp) :
    Sound (PartAgrees rt) rt prt SameCode where
  invalidField := fun e e' hcode hcode' => hcode.trans hcode'.symm
  misplaced := fun _ => trivial
  rule := by
    rintro ⟨scope, value⟩ state pythonState hstate hplain
    cases value with
    | mapping fields =>
        intro e e' he he'
        have hrust := addRule_refused hplain he
        have hpython := python_addRule_refused hts hplain he'
        rw [hstate.ruleIds] at hpython
        rw [rule_code_iff hts hplain hrust hpython]
        simp [PartAgrees]
    | _ => exact .error (iff_of_true rfl (by simp [PartAgrees]))
  global := fun _ => judged_parseGlobal

/-- The Rust parser reports an invalid field. -/
theorem partRefusedAsField_sound :
    Sound PartRefusedAsField rt prt (fun e _ => e.code = "invalid_field") where
  invalidField := fun e e' hcode _ => hcode
  misplaced := fun _ => trivial
  rule := by
    rintro ⟨scope, value⟩ state pythonState hstate hplain
    cases value with
    | mapping fields =>
        intro e e' he _
        refine ((addRule_refused hplain he).invalidField_iff hplain).trans ?_
        simp [PartRefusedAsField]
    | _ => exact .error (iff_of_true rfl (by simp [PartRefusedAsField]))
  global := fun _ value e e' he _ => parseGlobal_invalidField_iff he

/-- The first unknown field of a mapping. -/
theorem Fields.exists_unknown {names : List String} (h : ¬ fields.KnownKeys names) :
    ∃ (before after : Fields) (entry : Yaml × Yaml), fields = before ++ entry :: after ∧
      before.KnownKeys names ∧ ∀ name ∈ names, entry.1 ≠ .string name := by
  induction fields with
  | nil => exact absurd (fun _ hentry => by simp at hentry) h
  | cons entry fields ih =>
      by_cases hentry : ∃ name ∈ names, entry.1 = .string name
      · obtain ⟨before, after, unknown, rfl, hbefore, hunknown⟩ := ih (fun hknown =>
          h (List.forall_mem_cons.2 ⟨hentry, hknown⟩))
        exact ⟨entry :: before, after, unknown, rfl, List.forall_mem_cons.2 ⟨hentry, hbefore⟩,
          hunknown⟩
      · push Not at hentry
        exact ⟨[], fields, entry, rfl, fun _ hentry => by simp at hentry, hentry⟩

theorem topLevelField_unknown {entry : Yaml × Yaml} (acc : Action × ParseState)
    (h : ∀ name ∈ topLevelNames, entry.1 ≠ .string name) :
    ∃ e, topLevelField rt false acc entry = .error e ∧ e.code = "invalid_field" := by
  obtain ⟨key, value⟩ := entry
  cases key with
  | string name =>
      have hname : name ∉ topLevelNames := fun hname => h name hname rfl
      simp only [topLevelNames, List.mem_cons, List.not_mem_nil, or_false, not_or] at hname
      obtain ⟨hversion, hglobal, hrules, hagents⟩ := hname
      refine ⟨.invalidField name, ?_, rfl⟩
      simp [topLevelField, fieldName, Yaml.asStr, hversion, hglobal, hrules, hagents]
  | _ => exact ⟨_, rfl, rfl⟩

/-- Beside an unknown top-level field, the Rust parser reports an invalid field iff it stops at
one. -/
theorem unknown_code_iff (hts : prt.utcTimestamp = rt.utcTimestamp)
    (hplain : Plain .document (.mapping fields)) (hunknown : ¬ fields.KnownKeys topLevelNames)
    {e : PolicyError}
    (h : fields.foldlM (topLevelField rt false) (.allow, .empty) = .error e) :
    e.code = "invalid_field" ↔ DocumentVerdict PartRefusedAsField rt fields := by
  obtain ⟨before, after, entry, rfl, hknown, hentry⟩ := Fields.exists_unknown hunknown
  obtain ⟨hsame, hjudged⟩ :=
    (@partRefusedAsField_sound rt prt).document hts hknown hplain
  rw [List.foldlM_append] at h
  cases hbefore : before.foldlM (topLevelField rt false) (.allow, .empty) with
  | error d =>
      rw [hbefore] at h
      obtain rfl := Except.error.inj h
      obtain ⟨d', hpython⟩ := hsame.isError_iff.1 ⟨d, hbefore⟩
      exact (hjudged d d' hbefore hpython).trans (atFirstError_append_of_error hbefore _).symm
  | ok acc =>
      obtain ⟨d, hround, hcode⟩ := @topLevelField_unknown rt entry acc hentry
      rw [hbefore, ok_bind, List.foldlM_cons, hround] at h
      obtain rfl := Except.error.inj h
      refine iff_of_true hcode ((atFirstError_append_of_ok hbefore _).2 ?_)
      rw [atFirstError_cons_error hround]
      have hother : ∀ name ∈ topLevelNames, entry.1.asStr ≠ some name := fun name hname hkey =>
        hentry name hname (Yaml.asStr_eq_some.1 hkey)
      rw [topLevelParts, if_neg (hother "version" (by decide)),
        if_neg (hother "global" (by decide)), if_neg (hother "rules" (by decide)),
        if_neg (hother "agents" (by decide))]
      exact (atFirstError_cons_error rfl).2 trivial

/-- A document of version 1. -/
theorem judged_parseVersion (hts : prt.utcTimestamp = rt.utcTimestamp)
    (hplain : Plain .document (.mapping fields)) :
    Judged SameCode
      (AtFirstRefused (fun before => PartAccepted rt (idsOf before))
        (fun before part =>
          (fields.KnownKeys topLevelNames → PartAgrees rt (idsOf before) part) ∧
            (¬ fields.KnownKeys topLevelNames → PartRefusedAsField (idsOf before) part))
        (documentParts fields))
      (parseVersion rt (.mapping fields) 1 false) (Python.parseVersion prt fields 1 false) := by
  simp only [parseVersion, Python.parseVersion, mappingOf, Yaml.asMapping, ok_bind]
  rcases rejectUnknownFields_cases prt fields topLevelNames "policy" "invalid_field" with
    ⟨hknown, hcheck⟩ | ⟨hunknown, d, hcheck⟩
  · rw [topLevelNames] at hcheck
    rw [hcheck, ok_bind]
    have hplain' : Plain .document (.mapping (fields ++ [])) := by rwa [List.append_nil]
    obtain ⟨hsame, hjudged⟩ := (partAgrees_sound hts).document hts hknown hplain'
    refine (Judged.bind hsame hjudged (fun _ _ _ _ => .ok_left _)).congr ?_
    rw [documentVerdict_iff hplain]
    simp [hknown]
  · intro e e' he he'
    rw [topLevelNames] at hcheck
    rw [hcheck] at he'
    obtain rfl := Except.error.inj he'
    rw [SameCode, python_rejectUnknownFields_code _ _ _ _ _ hcheck]
    cases hrun : fields.foldlM (topLevelField rt false) (.allow, .empty) with
    | ok acc => simp [hrun] at he
    | error d' =>
        rw [hrun] at he
        obtain rfl := Except.error.inj he
        rw [unknown_code_iff hts hplain hunknown hrun, documentVerdict_iff hplain]
        simp [hunknown]

end

/-- **The codes of rejected policies.** When both parsers reject a plain document, they report the
same code iff the first part of the document that is not accepted is as `PolicyCodesAgree` says.
The condition looks at the document and not at what either parser does with it.

The proof follows the loops of the Rust parser from part to part, with the Python parser in step,
and compares the errors at the part at which both stop. -/
theorem parsePolicy_code_iff (rt : YamlRuntime) (prt : Python.YamlRuntime)
    (hts : prt.utcTimestamp = rt.utcTimestamp) (policy : Yaml) (hplain : Plain .document policy)
    (e : PolicyError) (e' : Python.PolicyError) (h : parsePolicy rt policy = .error e)
    (h' : Python.parsePolicy prt policy = .error e') :
    e.code = e'.code ↔ PolicyCodesAgree rt policy := by
  revert e e' h h'
  change Judged SameCode (PolicyCodesAgree rt policy) (parsePolicy rt policy)
    (Python.parsePolicy prt policy)
  cases policy with
  | mapping fields =>
      simp only [parsePolicy, Python.parsePolicy, declaredVersion, Python.loadPolicy, mappingOf,
        Python.mappingOf, Yaml.asMapping, ok_bind]
      cases hget : Fields.get fields "version" with
      | none => exact .error (iff_of_true rfl (by simp [PolicyCodesAgree, hget]))
      | some value =>
          cases value with
          | int version =>
              simp only [Yaml.asI64, ok_bind]
              by_cases hversion : version = 1
              · subst hversion
                rw [if_pos (by decide), ok_bind, if_pos rfl, if_neg (by simp)]
                exact (judged_parseVersion hts hplain).congr (by simp [PolicyCodesAgree, hget])
              · rw [if_pos hversion]
                by_cases hfits : -2 ^ 63 ≤ version ∧ version < 2 ^ 63
                · rw [if_pos hfits, ok_bind, if_neg hversion]
                  exact .error (iff_of_true rfl (by simp [PolicyCodesAgree, hget, hversion]))
                · rw [if_neg hfits]
                  exact .error (iff_of_true rfl (by simp [PolicyCodesAgree, hget, hversion]))
          | _ => exact .error (iff_of_true rfl (by simp [PolicyCodesAgree, hget]))
  | _ => exact .error (iff_of_true rfl (by simp [PolicyCodesAgree]))

/-- A policy of one rule with an action that no parser knows. -/
def unknownAction (rest : Fields) : Yaml :=
  .mapping [
    (.string "version", .int 1),
    (.string "rules", .sequence [.mapping ((.string "action", .string "explode") :: rest)])]

theorem unknownAction_codes_agree :
    PolicyCodesAgree ⟨fun _ => "", fun _ => none⟩ (unknownAction []) := by
  have hplain : Plain .document (unknownAction []) := by
    simp [unknownAction, Plain, PlainEntries, PlainItems, Place.child, Fields.DistinctKeys,
      Yaml.asStr]
    decide +kernel
  exact (parsePolicy_code_iff ⟨fun _ => "", fun _ => none⟩ ⟨fun _ => "", fun _ => none⟩ rfl
    (unknownAction []) hplain _ _ rfl rfl).1 rfl

/-- With an unknown action and a malformed target in one rule, the codes differ: Rust reports the
action, which it reads first, and Python the target, since it reads the action last. -/
theorem unknownAction_hides_target :
    ¬ ∀ (rt : YamlRuntime) (prt : Python.YamlRuntime), prt.utcTimestamp = rt.utcTimestamp →
      ∀ policy : Yaml, Plain .document policy → ∀ (e : PolicyError) (e' : Python.PolicyError),
        parsePolicy rt policy = .error e → Python.parsePolicy prt policy = .error e' →
          e.code = e'.code := by
  intro h
  have hplain : Plain .document (unknownAction [(.string "target", .int 5)]) := by
    simp [unknownAction, Plain, PlainEntries, PlainItems, Place.child, Fields.DistinctKeys,
      Yaml.asStr]
    decide +kernel
  have hcodes := h ⟨fun _ => "", fun _ => none⟩ ⟨fun _ => "", fun _ => none⟩ rfl
    (unknownAction [(.string "target", .int 5)]) hplain _ _ rfl rfl
  exact absurd hcodes (by decide)

end HpGuardian

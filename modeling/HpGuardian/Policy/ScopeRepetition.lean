import HpGuardian.Policy.Targets

/-!
# Repeating the enclosing scope

A nested rule may repeat the agent and the tool it is nested under.  `NestedRule` is the place of a
nested rule in a document, with everything around it, and `repeatScope` adds the names to the
rule's target.

The two names reach the target on different paths, though: a name that comes from a mapping key is
taken as it is, while a name in a target must not look like another YAML scalar.
`repeatScope_accepted_iff` says for which names a repetition makes no difference: those that are
unambiguous.  An agent named `yes` can have rules, but none of them can say so.

The proof replaces one rule of an accepted document by another that is read the same
(`parseVersion_replace`).  Around the rule nothing changes, neither the shape of the document nor
the entries before and after it; and of the rule itself only the target, in which the repeated name
is what the scope would have put there.  Every nested rule of a document of the right shape has
such a place (`NestedRule.exists_of_mem`).
-/

namespace HpGuardian

open Framework

/-! ## Setting a field of a target

What a target declares after one of its fields was set. -/

theorem contextFields_put {target : Fields} {name : String} (hname : name ≠ "context")
    (value : Yaml) : contextFields (Fields.put target name value) = contextFields target := by
  unfold Fields.put
  split
  · have hcontext : ∀ fields : Fields, contextFields (fields.map fun entry =>
        if entry.1.asStr = some name then (entry.1, value) else entry) = contextFields fields := by
      intro fields
      induction fields with
      | nil => rfl
      | cons entry fields ih =>
          rw [List.map_cons, ← List.singleton_append, contextFields_append, ih,
            ← List.singleton_append (l := fields), contextFields_append]
          congr 1
          by_cases hkey : entry.1.asStr = some name
          · rw [if_pos hkey]
            simp [contextFields, hkey, hname]
          · rw [if_neg hkey]
    exact hcontext target
  · rw [contextFields_append]
    simp [contextFields, Yaml.asStr, hname]

/-- Setting one of the fields `agent`, `tool` and `user` declares it, and no other field. -/
theorem declaredIn_put {target : Fields} {field : TargetField}
    (hfield : field ∈ [TargetField.agent, .tool, .user]) (value : Yaml) (other : TargetField) :
    declaredIn (Fields.put target field.key value) other =
      if other = field then some value else declaredIn target other := by
  have hcontext : field.key ≠ "context" := by
    simp only [List.mem_cons, List.not_mem_nil, or_false] at hfield
    rcases hfield with rfl | rfl | rfl <;> simp [TargetField.key]
  cases other with
  | context key =>
      have hne : TargetField.context key ≠ field := by
        rintro rfl
        simp at hfield
      rw [if_neg hne, declaredIn, declaredIn, contextFields_put hcontext]
  | _ =>
      simp only [declaredIn, Fields.last_put]
      simp only [List.mem_cons, List.not_mem_nil, or_false] at hfield
      rcases hfield with rfl | rfl | rfl <;> simp [TargetField.key]

/-! ## Repeating a name in a target

The transformation of a rule, and what the parser makes of it. -/

/-- A name repeated in a target. -/
def repeatName (repeated : Bool) (name text : String) (target : Fields) : Fields :=
  if repeated then Fields.put target name (.string text) else target

/-- A rule whose target repeats the agent or the tool of its scope, or both; the target is created
if there is none. -/
def repeatScope (agentName toolName : String) (repeatAgent repeatTool : Bool) (rule : Yaml) :
    Yaml :=
  match rule with
  | .mapping fields =>
      let target := ((Fields.last fields "target").bind Yaml.asMapping).getD []
      .mapping (Fields.put fields "target" (.mapping
        (repeatName repeatTool "tool" toolName (repeatName repeatAgent "agent" agentName target))))
  | _ => rule

theorem targetEntryValid_string {field : TargetField}
    (hfield : field ∈ [TargetField.agent, .tool, .user]) (text : String) :
    TargetEntryValid (.string field.key, .string text) ↔ isAmbiguousYamlScalar text = false := by
  constructor
  · rintro (⟨_, -, found, hentry, hfound⟩ | ⟨context, hentry, -⟩)
    · obtain rfl := Yaml.string.inj (Prod.mk.inj hentry).2
      exact hfound
    · exact absurd (Prod.mk.inj hentry).2 (by simp)
  · intro htext
    exact .inl ⟨field, hfield, text, rfl, htext⟩

/-- The target that a repeated name is stored in. -/
def storeName (repeated : Bool) (name text : String) (parsed : StringMap) : StringMap :=
  if repeated then parsed.insert name text else parsed

/-- A repeated name is accepted in a target iff it is unambiguous, and it is stored. -/
theorem parseTarget_repeatName {target : Fields} {parsed : StringMap} {field : TargetField}
    (hfield : field ∈ [TargetField.agent, .tool, .user]) (repeated : Bool) (text : String)
    (h : parseTarget (some (.mapping target)) = .ok parsed)
    (htext : repeated = true → isAmbiguousYamlScalar text = false) :
    parseTarget (some (.mapping (repeatName repeated field.key text target))) =
      .ok (storeName repeated field.key text parsed) := by
  cases repeated with
  | false => exact h
  | true =>
      obtain ⟨hvalid, hkeys, hlookup⟩ := parseTarget_ok_iff.1 h
      obtain ⟨fields, hfields, hvalid⟩ := hvalid _ rfl
      obtain rfl := Yaml.mapping.inj hfields
      refine parseTarget_ok_iff.2 ⟨?_, hkeys.insert field text, fun other => ?_⟩
      · intro value hvalue
        obtain rfl := Option.some.inj hvalue
        refine ⟨_, rfl, Fields.forall_mem_put.2 ⟨fun entry hentry _ => hvalid entry hentry, ?_⟩⟩
        exact (targetEntryValid_string hfield text).2 (htext rfl)
      · have hdeclared := @declaredIn_put target field hfield (.string text) other
        simp only [repeatName, storeName, if_true, Option.bind_some, Yaml.asMapping,
          Option.getD_some, hdeclared]
        by_cases hother : other = field
        · rw [hother, if_pos rfl, Finmap.lookup_insert]
          rfl
        · rw [if_neg hother, Finmap.lookup_insert_of_ne _ fun hkey =>
            hother (TargetField.key_injective hkey), hlookup other]
          rfl

/-! ## One rule

Reading a rule with and without the repetition. -/

section

variable {rt : YamlRuntime} {allowRateLimit : Bool} {agentName toolName : String} {rule : Yaml}
  {read : ReadRule}

/-- A missing target is read like an empty one. -/
theorem parseTarget_getD {target : Option Yaml} {parsed : StringMap}
    (h : parseTarget target = .ok parsed) :
    parseTarget (some (.mapping ((target.bind Yaml.asMapping).getD []))) = .ok parsed := by
  cases target with
  | none => exact h
  | some value =>
      obtain ⟨fields, rfl, -⟩ := (parseTarget_ok_iff.1 h).1 value rfl
      exact h

theorem storeName_lookup_of_ne (repeated : Bool) {name other : String} (h : other ≠ name)
    (text : String) (parsed : StringMap) :
    (storeName repeated name text parsed).lookup other = parsed.lookup other := by
  cases repeated with
  | false => rfl
  | true => exact Finmap.lookup_insert_of_ne _ h

theorem storeName_lookup (repeated : Bool) {name text : String} {parsed : StringMap}
    (h : ∀ own ∈ parsed.lookup name, own = text) :
    ∀ own ∈ (storeName repeated name text parsed).lookup name, own = text := by
  cases repeated with
  | false => exact h
  | true =>
      intro own hown
      rw [storeName, if_pos rfl, Finmap.lookup_insert] at hown
      exact (Option.some.inj hown).symm

/-- The scope overwrites what a repetition stores. -/
theorem storeName_scope (repeatAgent repeatTool : Bool) (parsed : StringMap) :
    ((storeName repeatTool "tool" toolName (storeName repeatAgent "agent" agentName parsed)).insert
        "agent" agentName).insert "tool" toolName =
      (parsed.insert "agent" agentName).insert "tool" toolName := by
  refine Finmap.ext_lookup fun key => ?_
  by_cases htool : key = "tool"
  · rw [htool, Finmap.lookup_insert, Finmap.lookup_insert]
  · rw [Finmap.lookup_insert_of_ne _ htool, Finmap.lookup_insert_of_ne _ htool]
    by_cases hagent : key = "agent"
    · rw [hagent, Finmap.lookup_insert, Finmap.lookup_insert]
    · rw [Finmap.lookup_insert_of_ne _ hagent, Finmap.lookup_insert_of_ne _ hagent,
        storeName_lookup_of_ne _ htool, storeName_lookup_of_ne _ hagent]

/-- A rule that repeats unambiguous names of its scope is read as the rule that does not. -/
theorem readRule_repeatScope {repeatAgent repeatTool : Bool}
    (h : readRule rt allowRateLimit ⟨some (agentName, toolName), rule⟩ = .ok read)
    (hagent : repeatAgent = true → isAmbiguousYamlScalar agentName = false)
    (htool : repeatTool = true → isAmbiguousYamlScalar toolName = false) :
    readRule rt allowRateLimit ⟨some (agentName, toolName),
      repeatScope agentName toolName repeatAgent repeatTool rule⟩ = .ok read := by
  obtain ⟨fields, h⟩ := readRule_ok_iff.1 h
  obtain rfl : rule = .mapping fields := h.value
  obtain ⟨own, hown, hmerged⟩ := h.target
  obtain ⟨hownAgent, hownTool, hread⟩ := enclosing_ok_iff.1 hmerged
  have hinner := @parseTarget_repeatName _ _ .agent (by simp) repeatAgent agentName
    (parseTarget_getD hown) hagent
  have hstored := @parseTarget_repeatName _ _ .tool (by simp) repeatTool toolName hinner htool
  simp only [TargetField.key] at hstored
  refine readRule_ok_iff.2 ⟨_, rfl, ?_, ?_, ?_, ?_, ?_, ?_, h.limited⟩
  · refine Fields.forall_mem_put.2 ⟨fun entry hentry _ => h.valid entry hentry, "target", rfl, ?_⟩
    cases allowRateLimit <;> simp [ruleNames, RuleValue]
  · rw [Fields.last_put, if_neg (by simp)]
    exact h.action
  · rw [Fields.last_put, if_pos rfl]
    refine ⟨_, hstored, enclosing_ok_iff.2 ⟨?_, ?_, ?_⟩⟩
    · rw [storeName_lookup_of_ne _ (by simp)]
      exact storeName_lookup repeatAgent hownAgent
    · refine storeName_lookup repeatTool ?_
      rw [storeName_lookup_of_ne _ (by simp)]
      exact hownTool
    · rw [hread, storeName_scope]
  · rw [Fields.last_put, if_neg (by simp)]
    exact h.condition
  · rw [Fields.last_put, if_neg (by simp)]
    exact h.id
  · rw [Fields.last_put, if_neg (by simp)]
    exact h.rateLimit

/-- A rule that repeats names can be read only if the names are unambiguous. -/
theorem unambiguous_of_repeatScope {repeatAgent repeatTool : Bool}
    (h : readRule rt allowRateLimit ⟨some (agentName, toolName),
      repeatScope agentName toolName repeatAgent repeatTool rule⟩ = .ok read) :
    (repeatAgent = true → isAmbiguousYamlScalar agentName = false) ∧
      (repeatTool = true → isAmbiguousYamlScalar toolName = false) := by
  obtain ⟨fields', h⟩ := readRule_ok_iff.1 h
  have hvalue : repeatScope agentName toolName repeatAgent repeatTool rule = .mapping fields' :=
    h.value
  cases rule with
  | mapping fields =>
      obtain rfl := Yaml.mapping.inj hvalue
      obtain ⟨own, hown, -⟩ := h.target
      rw [Fields.last_put, if_pos rfl] at hown
      obtain ⟨target, htarget, hvalid⟩ := (parseTarget_ok_iff.1 hown).1 _ rfl
      obtain rfl := Yaml.mapping.inj htarget
      constructor
      · rintro rfl
        have hinner : ∀ entry ∈ repeatName true "agent" agentName
            (((Fields.last fields "target").bind Yaml.asMapping).getD []),
            entry.1.asStr ≠ some "tool" → TargetEntryValid entry := by
          cases repeatTool with
          | false => exact fun entry hentry _ => hvalid entry hentry
          | true => exact (Fields.forall_mem_put.1 hvalid).1
        have hentry := (Fields.forall_mem_put.1 hinner).2 (by simp [Yaml.asStr])
        exact (@targetEntryValid_string .agent (by simp) agentName).1 hentry
      · rintro rfl
        have hentry := (Fields.forall_mem_put.1 hvalid).2
        exact (@targetEntryValid_string .tool (by simp) toolName).1 hentry
  | _ => simp [repeatScope] at hvalue

end

/-! ## Places of nested rules

A document with a hole for a rule. -/

/-- The place of a rule nested under `agents.A.tools.T.rules`, with everything around it. -/
structure NestedRule where
  agentName : String
  toolName : String
  rulesBefore : List Yaml
  rulesAfter : List Yaml
  /-- The fields before `rules` in the tool's configuration; the parser admits no others. -/
  toolFields : Fields
  toolsBefore : Fields
  toolsAfter : Fields
  /-- The fields before `tools` in the agent's configuration. -/
  agentFields : Fields
  agentsBefore : Fields
  agentsAfter : Fields
  fieldsBefore : Fields
  fieldsAfter : Fields

namespace NestedRule

variable (place : NestedRule)

/-- The tool with a rule in the place. -/
def tool (rule : Yaml) : Yaml × Yaml :=
  (.string place.toolName, .mapping (place.toolFields ++
    [(.string "rules", .sequence (place.rulesBefore ++ rule :: place.rulesAfter))]))

/-- The agent with a rule in the place. -/
def agent (rule : Yaml) : Yaml × Yaml :=
  (.string place.agentName, .mapping (place.agentFields ++
    [(.string "tools", .mapping (place.toolsBefore ++ place.tool rule :: place.toolsAfter))]))

/-- The field `agents` with a rule in the place. -/
def agents (rule : Yaml) : Yaml × Yaml :=
  (.string "agents", .mapping (place.agentsBefore ++ place.agent rule :: place.agentsAfter))

/-- The document with a rule in the place. -/
def document (rule : Yaml) : Yaml :=
  .mapping (place.fieldsBefore ++ place.agents rule :: place.fieldsAfter)

/-- The entry of a rule in the place. -/
def entry (rule : Yaml) : RuleEntry := ⟨some (place.agentName, place.toolName), rule⟩

/-! ### Everything but the rule stays as it is -/

variable {place} {rt : YamlRuntime} {rule rule' : Yaml}

theorem onlyField_concat {name : String} {fields : Fields} {value found : Yaml} :
    OnlyField name (fields ++ [(.string name, value)]) found ↔
      (∀ entry ∈ fields, entry.1 = .string name) ∧ found = value := by
  have hlast : (fields ++ [(Yaml.string name, value)] : Fields).last name = some value := by
    rw [Fields.last_concat, if_pos (by simp [Yaml.asStr])]
  constructor
  · intro h
    refine ⟨fun entry hentry => h.keys entry (List.mem_append_left _ hentry), ?_⟩
    exact Option.some.inj (h.last.symm.trans hlast)
  · rintro ⟨hkeys, rfl⟩
    refine ⟨fun entry hentry => ?_, hlast⟩
    rcases List.mem_append.1 hentry with hentry | hentry
    · exact hkeys entry hentry
    · rw [List.mem_singleton.1 hentry]

theorem toolShaped_tool : ToolShaped (place.tool rule) ↔
    ∀ field ∈ place.toolFields, field.1 = .string "rules" := by
  constructor
  · rintro ⟨toolName, config, items, heq, honly⟩
    obtain rfl := Yaml.mapping.inj (Prod.mk.inj heq).2
    exact (onlyField_concat.1 honly).1
  · intro hkeys
    exact ⟨_, _, _, rfl, onlyField_concat.2 ⟨hkeys, rfl⟩⟩

theorem agentShaped_agent : AgentShaped (place.agent rule) ↔
    (∀ field ∈ place.agentFields, field.1 = .string "tools") ∧
      ∀ tool ∈ place.toolsBefore ++ place.tool rule :: place.toolsAfter, ToolShaped tool := by
  constructor
  · rintro ⟨agentName, config, tools, heq, honly, htools⟩
    obtain rfl := Yaml.mapping.inj (Prod.mk.inj heq).2
    obtain ⟨hkeys, hvalue⟩ := onlyField_concat.1 honly
    obtain rfl := Yaml.mapping.inj hvalue
    exact ⟨hkeys, htools⟩
  · rintro ⟨hkeys, htools⟩
    exact ⟨_, _, _, rfl, onlyField_concat.2 ⟨hkeys, rfl⟩, htools⟩

theorem topLevelShaped_agents : TopLevelShaped rt (place.agents rule) ↔
    ∀ agent ∈ place.agentsBefore ++ place.agent rule :: place.agentsAfter, AgentShaped agent := by
  constructor
  · intro h
    generalize hfield : place.agents rule = field at h
    cases h with
    | version => simp [agents] at hfield
    | global => simp [agents] at hfield
    | rules => simp [agents] at hfield
    | agents h =>
        obtain rfl := Yaml.mapping.inj (Prod.mk.inj hfield).2
        exact h
  · exact fun h => .agents h

/-- The shape of a document does not depend on the rule in a place. -/
theorem shaped_document (h : Shaped rt (place.document rule)) :
    Shaped rt (place.document rule') := by
  have htool : ToolShaped (place.tool rule) → ToolShaped (place.tool rule') := fun h =>
    toolShaped_tool.2 (toolShaped_tool.1 h)
  have hagent : AgentShaped (place.agent rule) → AgentShaped (place.agent rule') := by
    simp only [agentShaped_agent, List.forall_mem_append, List.forall_mem_cons]
    rintro ⟨hkeys, hbefore, hshaped, hafter⟩
    exact ⟨hkeys, hbefore, htool hshaped, hafter⟩
  have hagents : TopLevelShaped rt (place.agents rule) →
      TopLevelShaped rt (place.agents rule') := by
    simp only [topLevelShaped_agents, List.forall_mem_append, List.forall_mem_cons]
    rintro ⟨hbefore, hshaped, hafter⟩
    exact ⟨hbefore, hagent hshaped, hafter⟩
  have hfields := h.fields
  simp only [document, Yaml.asMapping, Option.getD_some, List.forall_mem_append,
    List.forall_mem_cons] at hfields
  obtain ⟨hbefore, hshaped, hafter⟩ := hfields
  refine ⟨⟨_, rfl⟩, ?_⟩
  simp only [document, Yaml.asMapping, Option.getD_some, List.forall_mem_append,
    List.forall_mem_cons]
  exact ⟨hbefore, hagents hshaped, hafter⟩

/-- The entries before and after a place do not depend on the rule in it. -/
theorem ruleEntries_document (place : NestedRule) : ∃ before after : List RuleEntry, ∀ rule,
    ruleEntries (place.document rule) = before ++ place.entry rule :: after := by
  have htool : ∀ rule, toolEntries place.agentName (place.tool rule) =
      place.rulesBefore.map place.entry ++
        place.entry rule :: place.rulesAfter.map place.entry := by
    intro rule
    simp only [toolEntries, tool, Yaml.asStr, Yaml.asMapping, Option.getD_some, Fields.last_concat,
      if_true, sequenceEntries, Yaml.asSequence, List.map_append, List.map_cons]
    rfl
  have hagent : ∀ rule, agentEntries (place.agent rule) =
      (place.toolsBefore ++ place.tool rule :: place.toolsAfter).flatMap
        (toolEntries place.agentName) := by
    intro rule
    simp only [agentEntries, agent, Yaml.asStr, Yaml.asMapping, Option.getD_some,
      Fields.last_concat, if_true]
  have hagents : ∀ rule, topLevelEntries (place.agents rule) =
      (place.agentsBefore ++ place.agent rule :: place.agentsAfter).flatMap agentEntries := by
    intro rule
    simp [topLevelEntries, agents, Yaml.asStr, Yaml.asMapping]
  refine ⟨place.fieldsBefore.flatMap topLevelEntries ++ (place.agentsBefore.flatMap agentEntries ++
      (place.toolsBefore.flatMap (toolEntries place.agentName) ++
        place.rulesBefore.map place.entry)),
    place.rulesAfter.map place.entry ++ place.toolsAfter.flatMap (toolEntries place.agentName) ++
      place.agentsAfter.flatMap agentEntries ++ place.fieldsAfter.flatMap topLevelEntries,
    fun rule => ?_⟩
  simp only [ruleEntries, document, Yaml.asMapping, Option.getD_some, List.flatMap_append,
    List.flatMap_cons, hagents, hagent, htool, List.append_assoc, List.cons_append]

theorem declaredDefault_document (rt : YamlRuntime) (place : NestedRule) (rule rule' : Yaml) :
    declaredDefault rt (place.document rule) = declaredDefault rt (place.document rule') := by
  simp only [declaredDefault, document, Yaml.asMapping, Option.getD_some, List.foldl_append,
    List.foldl_cons]
  rfl

/-! ### Every nested rule has a place -/

theorem exists_concat_of_onlyField {name : String} {fields : Fields} {value : Yaml}
    (h : OnlyField name fields value) : ∃ before, fields = before ++ [(.string name, value)] := by
  rcases List.eq_nil_or_concat fields with rfl | ⟨before, entry, rfl⟩
  · have hlast := h.last
    rw [Fields.last_nil] at hlast
    cases hlast
  · have hkey : entry.1 = .string name := h.keys entry (by simp)
    have hlast := h.last
    rw [List.concat_eq_append, Fields.last_concat, if_pos (by rw [hkey]; rfl)] at hlast
    obtain rfl := Option.some.inj hlast
    exact ⟨before, by rw [List.concat_eq_append, ← hkey]⟩

/-- Every nested rule of a document with the right shape is in a place. -/
theorem exists_of_mem {policy : Yaml} (h : Shaped rt policy) {entry : RuleEntry}
    (hentry : entry ∈ ruleEntries policy) {agentName toolName : String}
    (hscope : entry.scope = some (agentName, toolName)) :
    ∃ place : NestedRule, place.agentName = agentName ∧ place.toolName = toolName ∧
      place.document entry.value = policy := by
  obtain ⟨⟨fields, rfl⟩, hfields⟩ := h
  obtain ⟨field, hfield, hentry⟩ := List.mem_flatMap.1 hentry
  rw [Yaml.asMapping, Option.getD_some] at hfield hfields
  cases hfields field hfield with
  | version => simp [topLevelEntries, Yaml.asStr] at hentry
  | global => simp [topLevelEntries, Yaml.asStr] at hentry
  | rules items =>
      obtain ⟨value, -, rfl⟩ := List.mem_map.1 hentry
      cases hscope
  | @agents agents hagents =>
      obtain ⟨agent, hagent, hentry⟩ := List.mem_flatMap.1 hentry
      rw [Yaml.asMapping, Option.getD_some] at hagent
      obtain ⟨name, config, tools, rfl, honly, htools⟩ := hagents agent hagent
      rw [agentEntries, Yaml.asMapping, Option.getD_some, honly.last] at hentry
      obtain ⟨tool, htool, hentry⟩ := List.mem_flatMap.1 hentry
      rw [Yaml.asMapping, Option.getD_some] at htool
      obtain ⟨name', config', items, rfl, honly'⟩ := htools tool htool
      rw [toolEntries, Yaml.asMapping, Option.getD_some, honly'.last] at hentry
      obtain ⟨rule, hrule, rfl⟩ := List.mem_map.1 hentry
      obtain ⟨rfl, rfl⟩ := Prod.mk.inj (Option.some.inj hscope)
      -- the four lists that the rule is in, split at the rule
      obtain ⟨fieldsBefore, fieldsAfter, rfl⟩ := List.append_of_mem hfield
      obtain ⟨agentsBefore, agentsAfter, rfl⟩ := List.append_of_mem hagent
      obtain ⟨toolsBefore, toolsAfter, rfl⟩ := List.append_of_mem htool
      obtain ⟨rulesBefore, rulesAfter, rfl⟩ := List.append_of_mem hrule
      obtain ⟨agentFields, rfl⟩ := exists_concat_of_onlyField honly
      obtain ⟨toolFields, rfl⟩ := exists_concat_of_onlyField honly'
      exact ⟨⟨name, name', rulesBefore, rulesAfter, toolFields, toolsBefore, toolsAfter,
        agentFields, agentsBefore, agentsAfter, fieldsBefore, fieldsAfter⟩, rfl, rfl, rfl⟩

end NestedRule

/-! ## The document with a repeated scope

The replacement of the rule in its place, and the theorem. -/

/-- An element of a related list can be replaced by any other that is related to its partner. -/
theorem exists_replaceable {α β : Type*} {R : α → β → Prop} {before after : List α} {a : α}
    {bs : List β} (h : List.Forall₂ R (before ++ a :: after) bs) :
    ∃ b, R a b ∧ ∀ a', R a' b → List.Forall₂ R (before ++ a' :: after) bs := by
  induction before generalizing bs with
  | nil =>
      cases h with
      | @cons _ b _ rest hab hrest => exact ⟨b, hab, fun a' ha' => .cons ha' hrest⟩
  | cons first before ih =>
      cases h with
      | cons hfirst hrest =>
          obtain ⟨b, hab, hreplace⟩ := ih hrest
          exact ⟨b, hab, fun a' ha' => .cons hfirst (hreplace a' ha')⟩

section

variable {rt : YamlRuntime} {allowRateLimit : Bool} {version : ℤ} {place : NestedRule}
  {rule rule' : Yaml} {engine : Engine}

/-- The rule in a place of an accepted document can be replaced by one that is read the same. -/
theorem parseVersion_replace
    (h : parseVersion rt (place.document rule) version allowRateLimit = .ok engine) :
    ∃ read, readRule rt allowRateLimit (place.entry rule) = .ok read ∧
      ∀ rule', readRule rt allowRateLimit (place.entry rule') = .ok read →
        parseVersion rt (place.document rule') version allowRateLimit = .ok engine := by
  obtain ⟨before, after, hentries⟩ := place.ruleEntries_document
  obtain ⟨hshaped, reads, hreads, hids, rfl⟩ := parseVersion_ok_iff_reads.1 h
  rw [hentries] at hreads
  obtain ⟨read, hread, hreplace⟩ := exists_replaceable hreads
  refine ⟨read, hread, fun rule' hread' => ?_⟩
  refine parseVersion_ok_iff_reads.2 ⟨NestedRule.shaped_document hshaped, reads, ?_, hids, ?_⟩
  · rw [hentries]
    exact hreplace _ hread'
  · rw [NestedRule.declaredDefault_document rt place rule' rule]

/-- **Repeating the enclosing scope.**  Adding the agent or the tool of its scope to the target of
a nested rule leaves the rules and the default action of an accepted document as they are iff the
added names are unambiguous; otherwise the document is no longer accepted. -/
theorem repeatScope_accepted_iff (h : parseV1 rt (place.document rule) = .ok engine)
    (repeatAgent repeatTool : Bool) :
    (∃ engine', parseV1 rt (place.document
        (repeatScope place.agentName place.toolName repeatAgent repeatTool rule)) = .ok engine' ∧
      engine'.rules = engine.rules ∧ engine'.defaultAction = engine.defaultAction) ↔
    (repeatAgent = true → isAmbiguousYamlScalar place.agentName = false) ∧
      (repeatTool = true → isAmbiguousYamlScalar place.toolName = false) := by
  constructor
  · rintro ⟨engine', hrepeated, -, -⟩
    obtain ⟨read, hread, -⟩ := parseVersion_replace hrepeated
    exact unambiguous_of_repeatScope hread
  · rintro ⟨hagent, htool⟩
    obtain ⟨read, hread, hreplace⟩ := parseVersion_replace h
    exact ⟨engine, hreplace _ (readRule_repeatScope hread hagent htool), rfl, rfl⟩

/-- The place of a rule for one tool of one agent, in a document with nothing else. -/
def onlyRule (agentName toolName : String) : NestedRule where
  agentName := agentName
  toolName := toolName
  rulesBefore := []
  rulesAfter := []
  toolFields := []
  toolsBefore := []
  toolsAfter := []
  agentFields := []
  agentsBefore := []
  agentsAfter := []
  fieldsBefore := [(.string "version", .int 1)]
  fieldsAfter := []

/-- A rule that denies prompts. -/
def promptRule : Yaml :=
  .mapping [(.string "action", .string "deny"), (.string "target",
    .mapping [(.string "context", .mapping [(.string "phase", .string "prompt")])])]

theorem repeatScope_accepted_iff_sample :
    let rt : YamlRuntime := ⟨fun _ => "", fun _ => none⟩
    let place := onlyRule "writer" "write_file"
    ∃ engine, parseV1 rt (place.document promptRule) = .ok engine ∧
      ((∃ engine', parseV1 rt (place.document
          (repeatScope "writer" "write_file" true true promptRule)) = .ok engine' ∧
        engine'.rules = engine.rules ∧ engine'.defaultAction = engine.defaultAction) ↔
      (true = true → isAmbiguousYamlScalar "writer" = false) ∧
        (true = true → isAmbiguousYamlScalar "write_file" = false)) := by
  intro rt place
  have hparse : ∃ engine, parseV1 rt (place.document promptRule) = .ok engine := ⟨_, rfl⟩
  obtain ⟨engine, hparse⟩ := hparse
  exact ⟨engine, hparse, repeatScope_accepted_iff hparse true true⟩

/-- An agent named `yes` cannot be repeated: the document is accepted without the repetition and
rejected with it. The name is a mapping key where the agent encloses the rule, and keys are not
checked for ambiguity; repeated in the target it is a value, and values are. -/
theorem ambiguous_scope_not_repeatable :
    ¬ ∀ (rt : YamlRuntime) (place : NestedRule) (rule : Yaml) (engine : Engine)
        (repeatAgent repeatTool : Bool), parseV1 rt (place.document rule) = .ok engine →
      ∃ engine', parseV1 rt (place.document
          (repeatScope place.agentName place.toolName repeatAgent repeatTool rule)) = .ok engine' ∧
        engine'.rules = engine.rules ∧ engine'.defaultAction = engine.defaultAction := by
  intro hrepeats
  let rt : YamlRuntime := ⟨fun _ => "", fun _ => none⟩
  have hparse : ∃ engine, parseV1 rt ((onlyRule "yes" "shell").document promptRule) = .ok engine :=
    ⟨_, rfl⟩
  obtain ⟨engine, hparse⟩ := hparse
  obtain ⟨engine', hrepeated, -, -⟩ := hrepeats rt _ promptRule engine true false hparse
  have hrejected : parseV1 rt ((onlyRule "yes" "shell").document
      (repeatScope "yes" "shell" true false promptRule)) = .error (.invalidTarget "agent") := by rfl
  have hboth := hrejected.symm.trans hrepeated
  cases hboth

end

end HpGuardian

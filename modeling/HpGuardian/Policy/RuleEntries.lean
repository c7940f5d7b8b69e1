import HpGuardian.Policy.Fields

/-!
# The rule entries of a document

The parser walks through four nested mappings before it reaches a rule.  `ruleEntries` lists the
rule entries of a document in the order in which the parser meets them, each with the agent and
tool it is nested under; it is a function of the document that ignores whatever is out of shape.

What the parser demands around the entries is a predicate of its own (`Shaped`): known fields with
values of the right kind, at every level.  `parseVersion_ok_iff` says that a document is accepted
iff it has the right shape around its rule entries and the entries are accepted one after the
other; what the parser builds is what `add_rule` builds from that list.  The nested loops of the
parser become one loop over a list, in which a rule's scope is part of the entry.
-/

namespace HpGuardian

open Framework

/-! ## The entries

From a sequence of rules to the whole document. -/

/-- A rule entry, with the agent and the tool it is nested under, if there are any. A document is
flattened to its entries, in the order in which the parser meets them. -/
structure RuleEntry where
  scope : Option (String × String)
  value : Yaml

/-- The target that an entry inherits from its scope. -/
def RuleEntry.enclosingTarget (entry : RuleEntry) : List (String × String) :=
  match entry.scope with
  | none => []
  | some (agentName, toolName) => [("agent", agentName), ("tool", toolName)]

/-- The entries of a `rules` sequence. -/
def sequenceEntries (scope : Option (String × String)) (rules : Yaml) : List RuleEntry :=
  (rules.asSequence.getD []).map (fun value => ⟨scope, value⟩)

/-- The entries of one tool of an agent. -/
def toolEntries (agentName : String) (tool : Yaml × Yaml) : List RuleEntry :=
  match tool.1.asStr, Fields.last (tool.2.asMapping.getD []) "rules" with
  | some toolName, some rules => sequenceEntries (some (agentName, toolName)) rules
  | _, _ => []

/-- The entries of one agent. -/
def agentEntries (agent : Yaml × Yaml) : List RuleEntry :=
  match agent.1.asStr, Fields.last (agent.2.asMapping.getD []) "tools" with
  | some agentName, some tools => (tools.asMapping.getD []).flatMap (toolEntries agentName)
  | _, _ => []

/-- The entries under one top-level field. -/
def topLevelEntries (field : Yaml × Yaml) : List RuleEntry :=
  if field.1.asStr = some "rules" then sequenceEntries none field.2
  else if field.1.asStr = some "agents" then (field.2.asMapping.getD []).flatMap agentEntries
  else []

/-- The rule entries of a document, in document order across all scopes. -/
def ruleEntries (policy : Yaml) : List RuleEntry :=
  (policy.asMapping.getD []).flatMap topLevelEntries

/-! ## The shape around the entries

What each level of a document must look like, with the rules left out. -/

/-- A mapping whose fields all have one name, and its last value. A decoded mapping may repeat a
key here; the last occurrence is the one that is read. -/
structure OnlyField (name : String) (fields : Fields) (value : Yaml) : Prop where
  keys : ∀ entry ∈ fields, entry.1 = .string name
  last : fields.last name = some value

/-- A tool with nothing but a sequence of rules. -/
def ToolShaped (tool : Yaml × Yaml) : Prop :=
  ∃ toolName config items, tool = (.string toolName, .mapping config) ∧
    OnlyField "rules" config (.sequence items)

/-- An agent with nothing but a mapping of tools. -/
def AgentShaped (agent : Yaml × Yaml) : Prop :=
  ∃ agentName config tools, agent = (.string agentName, .mapping config) ∧
    OnlyField "tools" config (.mapping tools) ∧ ∀ tool ∈ tools, ToolShaped tool

/-- A known top-level field with a value of the right shape. -/
inductive TopLevelShaped (rt : YamlRuntime) : Yaml × Yaml → Prop
  | version (value : Yaml) : TopLevelShaped rt (.string "version", value)
  | global {value : Yaml} {action : Action} (h : parseGlobal rt value = .ok action) :
      TopLevelShaped rt (.string "global", value)
  | rules (items : List Yaml) : TopLevelShaped rt (.string "rules", .sequence items)
  | agents {agents : Fields} (h : ∀ agent ∈ agents, AgentShaped agent) :
      TopLevelShaped rt (.string "agents", .mapping agents)

/-- The default action after one more top-level field. -/
def defaultAfter (rt : YamlRuntime) (action : Action) (field : Yaml × Yaml) : Action :=
  if field.1.asStr = some "global" then
    match parseGlobal rt field.2 with
    | .ok action => action
    | .error _ => action
  else
    action

/-- The default action that a document declares. -/
def declaredDefault (rt : YamlRuntime) (policy : Yaml) : Action :=
  (policy.asMapping.getD []).foldl (defaultAfter rt) .allow

/-- `add_rule` on an entry. -/
def addEntry (rt : YamlRuntime) (allowRateLimit : Bool) (state : ParseState) (entry : RuleEntry) :
    Except PolicyError ParseState :=
  addRule rt allowRateLimit entry.enclosingTarget state entry.value

/-! ## The walk

Each level of the parser as a loop over the entries below it. -/

/-- The single field of a configuration mapping. -/
theorem foldlM_onlyField_ok_iff {name scope path : String} {fields : Fields}
    {acc value : Option Yaml} :
    fields.foldlM (onlyField name scope path) acc = .ok value ↔
      (∀ entry ∈ fields, entry.1 = .string name) ∧
        value = ((fields.reverse.head?).map Prod.snd).or acc := by
  induction fields generalizing acc with
  | nil =>
      simp only [List.foldlM_nil, List.not_mem_nil, false_implies, implies_true, true_and,
        List.reverse_nil, List.head?_nil, Option.map_none, Option.none_or]
      exact ⟨fun h => (Except.ok.inj h).symm, fun h => by rw [h]; rfl⟩
  | cons entry rest ih =>
      have hround : ∀ v, onlyField name scope path acc entry = .ok v ↔
          entry.1 = .string name ∧ v = some entry.2 := by
        intro v
        rw [onlyField, bind_ok_iff]
        constructor
        · rintro ⟨field, hfield, hrun⟩
          rw [fieldName_ok] at hfield
          split at hrun
          · rename_i hname
            exact ⟨by rw [hfield, hname], (Except.ok.inj hrun).symm⟩
          · cases hrun
        · rintro ⟨hfield, rfl⟩
          exact ⟨name, fieldName_ok.2 hfield, if_pos rfl⟩
      rw [List.foldlM_cons, bind_ok_iff, List.forall_mem_cons]
      simp only [hround, ih, List.reverse_cons, List.head?_append, List.head?_singleton]
      constructor
      · rintro ⟨v, ⟨hkey, rfl⟩, hrest, rfl⟩
        refine ⟨⟨hkey, hrest⟩, ?_⟩
        cases rest.reverse.head? <;> rfl
      · rintro ⟨⟨hkey, hrest⟩, rfl⟩
        refine ⟨some entry.2, ⟨hkey, rfl⟩, hrest, ?_⟩
        cases rest.reverse.head? <;> rfl

theorem onlyField_iff {name scope path : String} {fields : Fields} {value : Yaml} :
    fields.foldlM (onlyField name scope path) none = .ok (some value) ↔
      OnlyField name fields value := by
  rw [foldlM_onlyField_ok_iff, Option.or_none]
  constructor
  · rintro ⟨hkeys, hvalue⟩
    refine ⟨hkeys, ?_⟩
    rw [Fields.last, Fields.get_of_all (by simpa using hkeys), hvalue]
  · rintro ⟨hkeys, hlast⟩
    refine ⟨hkeys, ?_⟩
    rw [← hlast, Fields.last, Fields.get_of_all (by simpa using hkeys)]

section

variable {rt : YamlRuntime} {allowRateLimit : Bool} {state state' : ParseState}

theorem foldlM_sequence (scope : Option (String × String)) (items : List Yaml)
    (state : ParseState) :
    (sequenceEntries scope (.sequence items)).foldlM (addEntry rt allowRateLimit) state =
      items.foldlM (addRule rt allowRateLimit (RuleEntry.enclosingTarget ⟨scope, .null⟩))
        state := by
  rw [sequenceEntries, Yaml.asSequence, Option.getD_some, List.foldlM_map]
  rfl

/-- `add_rules` on a sequence of rules. -/
theorem addRules_ok_iff (scope : Option (String × String)) (rules : Yaml) :
    addRules rt allowRateLimit (RuleEntry.enclosingTarget ⟨scope, .null⟩) state rules = .ok state' ↔
      (∃ items, rules = .sequence items) ∧
        (sequenceEntries scope rules).foldlM (addEntry rt allowRateLimit) state = .ok state' := by
  unfold addRules
  cases rules with
  | sequence items => simp [Yaml.asSequence, foldlM_sequence]
  | _ => simp [Yaml.asSequence]

/-- One tool is accepted iff it has the right shape and its entries are accepted. -/
theorem addTool_ok_iff (agentName : String) (tool : Yaml × Yaml) :
    addTool rt allowRateLimit agentName state tool = .ok state' ↔
      ToolShaped tool ∧
        (toolEntries agentName tool).foldlM (addEntry rt allowRateLimit) state = .ok state' := by
  unfold addTool
  simp only [bind_ok_iff, fieldName_ok, mappingOf_ok, okOr_ok]
  constructor
  · rintro ⟨toolName, hname, config, hconfig, -, hrun, rules, rfl, hrules⟩
    have honly := onlyField_iff.1 hrun
    obtain ⟨⟨items, rfl⟩, hentries⟩ :=
      (addRules_ok_iff (some (agentName, toolName)) rules).1 hrules
    refine ⟨⟨toolName, config, items, Prod.ext hname hconfig, honly⟩, ?_⟩
    rw [toolEntries, hname, hconfig, Yaml.asMapping, Option.getD_some, honly.last]
    exact hentries
  · rintro ⟨⟨toolName, config, items, rfl, honly⟩, hentries⟩
    rw [toolEntries, Yaml.asMapping, Option.getD_some, honly.last] at hentries
    exact ⟨toolName, rfl, config, rfl, _, onlyField_iff.2 honly, _, rfl,
      (addRules_ok_iff (some (agentName, toolName)) _).2 ⟨⟨items, rfl⟩, hentries⟩⟩

/-- One agent is accepted iff it has the right shape and its entries are accepted. -/
theorem addAgent_ok_iff (agent : Yaml × Yaml) :
    addAgent rt allowRateLimit state agent = .ok state' ↔
      AgentShaped agent ∧
        (agentEntries agent).foldlM (addEntry rt allowRateLimit) state = .ok state' := by
  unfold addAgent
  simp only [bind_ok_iff, fieldName_ok, mappingOf_ok, okOr_ok]
  constructor
  · rintro ⟨agentName, hname, config, hconfig, -, hrun, -, rfl, tools, rfl, htools⟩
    have honly := onlyField_iff.1 hrun
    obtain ⟨hshaped, hentries⟩ :=
      (foldlM_flatMap_ok_iff (fun tool _ _ _ => addTool_ok_iff agentName tool)).1 htools
    refine ⟨⟨agentName, config, tools, Prod.ext hname hconfig, honly, hshaped⟩, ?_⟩
    rw [agentEntries, hname, hconfig, Yaml.asMapping, Option.getD_some, honly.last]
    exact hentries
  · rintro ⟨⟨agentName, config, tools, rfl, honly, hshaped⟩, hentries⟩
    rw [agentEntries, Yaml.asMapping, Option.getD_some, honly.last] at hentries
    exact ⟨agentName, rfl, config, rfl, _, onlyField_iff.2 honly, _, rfl, tools, rfl,
      (foldlM_flatMap_ok_iff (fun tool _ _ _ => addTool_ok_iff agentName tool)).2
        ⟨hshaped, hentries⟩⟩

theorem addAgents_ok_iff (agents : Yaml) :
    addAgents rt allowRateLimit state agents = .ok state' ↔
      (∃ fields, agents = .mapping fields ∧ ∀ agent ∈ fields, AgentShaped agent) ∧
        ((agents.asMapping.getD []).flatMap agentEntries).foldlM (addEntry rt allowRateLimit)
          state = .ok state' := by
  unfold addAgents
  simp only [bind_ok_iff, mappingOf_ok]
  constructor
  · rintro ⟨fields, rfl, hrun⟩
    obtain ⟨hshaped, hentries⟩ :=
      (foldlM_flatMap_ok_iff (fun agent _ _ _ => addAgent_ok_iff agent)).1 hrun
    exact ⟨⟨fields, rfl, hshaped⟩, hentries⟩
  · rintro ⟨⟨fields, rfl, hshaped⟩, hentries⟩
    exact ⟨fields, rfl,
      (foldlM_flatMap_ok_iff (fun agent _ _ _ => addAgent_ok_iff agent)).2 ⟨hshaped, hentries⟩⟩

/-- One top-level field is accepted iff it has the right shape and its entries are accepted. -/
theorem topLevelField_ok_iff (field : Yaml × Yaml) {action action' : Action} :
    topLevelField rt allowRateLimit (action, state) field = .ok (action', state') ↔
      TopLevelShaped rt field ∧ action' = defaultAfter rt action field ∧
        (topLevelEntries field).foldlM (addEntry rt allowRateLimit) state = .ok state' := by
  obtain ⟨key, value⟩ := field
  unfold topLevelField topLevelEntries defaultAfter
  simp only [bind_ok_iff, fieldName_ok]
  constructor
  · rintro ⟨name, rfl, hrun⟩
    split_ifs at hrun with hversion hglobal hrules hagents
    · obtain ⟨rfl, rfl⟩ := Prod.mk.inj (Except.ok.inj hrun)
      subst hversion
      exact ⟨.version _, by simp [Yaml.asStr], by simp [Yaml.asStr]; rfl⟩
    · obtain ⟨action, haction, hrun⟩ := bind_ok_iff.1 hrun
      obtain ⟨rfl, rfl⟩ := Prod.mk.inj (Except.ok.inj hrun)
      subst hglobal
      exact ⟨.global haction, by simp [Yaml.asStr, haction], by simp [Yaml.asStr]; rfl⟩
    · obtain ⟨added, hadded, hrun⟩ := bind_ok_iff.1 hrun
      obtain ⟨rfl, rfl⟩ := Prod.mk.inj (Except.ok.inj hrun)
      subst hrules
      obtain ⟨⟨items, rfl⟩, hentries⟩ := (addRules_ok_iff none value).1 hadded
      exact ⟨.rules _, by simp [Yaml.asStr], by simpa [Yaml.asStr] using hentries⟩
    · obtain ⟨added, hadded, hrun⟩ := bind_ok_iff.1 hrun
      obtain ⟨rfl, rfl⟩ := Prod.mk.inj (Except.ok.inj hrun)
      subst hagents
      obtain ⟨⟨agents, rfl, hshaped⟩, hentries⟩ := (addAgents_ok_iff value).1 hadded
      exact ⟨.agents hshaped, by simp [Yaml.asStr], by simpa [Yaml.asStr] using hentries⟩
  · rintro ⟨hshaped, rfl, hentries⟩
    cases hshaped with
    | version value =>
        obtain rfl := Except.ok.inj hentries
        exact ⟨"version", rfl, by simp [Yaml.asStr]⟩
    | global haction =>
        obtain rfl := Except.ok.inj hentries
        exact ⟨"global", rfl, by simp [Yaml.asStr, haction]⟩
    | rules items =>
        have hadded := (addRules_ok_iff none (.sequence items)).2 ⟨⟨items, rfl⟩, hentries⟩
        refine ⟨"rules", rfl, ?_⟩
        rw [if_neg (by decide), if_neg (by decide), if_pos rfl, bind_ok_iff]
        exact ⟨state', hadded, by simp [Yaml.asStr]⟩
    | @agents fields h =>
        have hadded := (addAgents_ok_iff (.mapping fields)).2 ⟨⟨fields, rfl, h⟩, hentries⟩
        refine ⟨"agents", rfl, ?_⟩
        rw [if_neg (by decide), if_neg (by decide), if_neg (by decide), if_pos rfl, bind_ok_iff]
        exact ⟨state', hadded, by simp [Yaml.asStr]⟩

theorem foldlM_topLevelField_ok_iff (fields : Fields) {action action' : Action} :
    fields.foldlM (topLevelField rt allowRateLimit) (action, state) = .ok (action', state') ↔
      (∀ field ∈ fields, TopLevelShaped rt field) ∧
        action' = fields.foldl (defaultAfter rt) action ∧
        (fields.flatMap topLevelEntries).foldlM (addEntry rt allowRateLimit) state =
          .ok state' := by
  induction fields generalizing action state with
  | nil => simp [pure, Except.pure, eq_comm]
  | cons field fields ih =>
      rw [List.foldlM_cons, bind_ok_iff, List.foldl_cons, List.flatMap_cons, List.foldlM_append,
        bind_ok_iff, List.forall_mem_cons]
      constructor
      · rintro ⟨⟨action₁, state₁⟩, hfirst, hrest⟩
        obtain ⟨hshaped, rfl, hentries⟩ := (topLevelField_ok_iff field).1 hfirst
        obtain ⟨hshapes, rfl, hrun⟩ := ih.1 hrest
        exact ⟨⟨hshaped, hshapes⟩, rfl, state₁, hentries, hrun⟩
      · rintro ⟨⟨hshaped, hshapes⟩, rfl, state₁, hentries, hrun⟩
        exact ⟨(defaultAfter rt action field, state₁),
          (topLevelField_ok_iff field).2 ⟨hshaped, rfl, hentries⟩, ih.2 ⟨hshapes, rfl, hrun⟩⟩

/-- A document with the right shape around its rule entries. Of the entries themselves it says
nothing; they are read one after the other once the shape is known to be right. -/
structure Shaped (rt : YamlRuntime) (policy : Yaml) : Prop where
  isMapping : ∃ fields, policy = .mapping fields
  fields : ∀ field ∈ policy.asMapping.getD [], TopLevelShaped rt field

/-- **The walk through a document.**  A document is accepted iff it has the right shape around
its rule entries and `add_rule` accepts the entries one after the other, in document order. -/
theorem parseVersion_ok_iff {policy : Yaml} {version : ℤ} {engine : Engine} :
    parseVersion rt policy version allowRateLimit = .ok engine ↔
      Shaped rt policy ∧ ∃ state,
        (ruleEntries policy).foldlM (addEntry rt allowRateLimit) .empty = .ok state ∧
        engine = ⟨state.rules, state.rateLimits, version, declaredDefault rt policy⟩ := by
  unfold parseVersion
  simp only [bind_ok_iff, mappingOf_ok]
  constructor
  · rintro ⟨fields, rfl, ⟨action, state⟩, hrun, hengine⟩
    obtain ⟨hshaped, rfl, hentries⟩ := (foldlM_topLevelField_ok_iff fields).1 hrun
    exact ⟨⟨⟨fields, rfl⟩, hshaped⟩, state, hentries, (Except.ok.inj hengine).symm⟩
  · rintro ⟨⟨⟨fields, rfl⟩, hshaped⟩, state, hentries, rfl⟩
    exact ⟨fields, rfl, _, (foldlM_topLevelField_ok_iff fields).2 ⟨hshaped, rfl, hentries⟩, rfl⟩

end

end HpGuardian

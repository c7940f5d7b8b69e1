import HpGuardian.Policy.Resolution
import HpGuardian.Policy.WellFormed

/-!
# Version 2 only adds quotas

Version 2 of the language adds rate limits to version 1.  `withoutLimits` deletes the rate limits
of a document and sets its version to 1.  What is left is accepted as a version 1 document with the
same rules and the same default action, and the pure engine decides the same, except that it
throttles where the selected allow rule was limited (`limits_only_throttle`).

The deletion is a transformation of documents: it follows their nesting and leaves alone whatever
it does not understand, so it is defined on every YAML value.  That it commutes with reading is
shown from the inside outwards.  A rule without its limit is read the same, apart from the limit;
the shape of the document around the rules does not change; and the list of rule entries is that of
the original, with each entry's limit deleted.  Since acceptance is a matter of shape and entries,
so is the acceptance of what is left.

On the side of the engine, limits change one thing, the answer for a selected allow rule
(`resolveCallAt_limited`).  Selection does not look at them.
-/

namespace HpGuardian

open Framework

/-! ## Deleting the limits

The transformation, one function for each level of a document. -/

/-- A rule without its `rate_limit` field. -/
def eraseLimit (rule : Yaml) : Yaml :=
  match rule with
  | .mapping fields =>
      .mapping (fields.filter (fun entry => entry.1.asStr != some "rate_limit"))
  | _ => rule

/-- A change of all items of a sequence. -/
def mapItems (change : Yaml → Yaml) (value : Yaml) : Yaml :=
  match value with
  | .sequence items => .sequence (items.map change)
  | _ => value

/-- A change of all values of a mapping that may depend on the key. -/
def mapValues (change : Yaml → Yaml → Yaml) (value : Yaml) : Yaml :=
  match value with
  | .mapping fields => .mapping (fields.map (fun entry => (entry.1, change entry.1 entry.2)))
  | _ => value

/-- A change under one key of a mapping. -/
def mapField (name : String) (change : Yaml → Yaml) (value : Yaml) : Yaml :=
  mapValues (fun key old => if key.asStr = some name then change old else old) value

/-- The configuration of a tool without limits. -/
def eraseTool (config : Yaml) : Yaml := mapField "rules" (mapItems eraseLimit) config

/-- The configuration of an agent without limits. -/
def eraseAgent (config : Yaml) : Yaml := mapField "tools" (mapValues (fun _ => eraseTool)) config

/-- The value of a top-level field without limits. -/
def eraseTopLevel (key value : Yaml) : Yaml :=
  if key.asStr = some "rules" then mapItems eraseLimit value
  else if key.asStr = some "agents" then mapValues (fun _ => eraseAgent) value
  else value

/-- The document with every rule's `rate_limit` field deleted and `version` set to 1. -/
def withoutLimits (policy : Yaml) : Yaml :=
  match policy with
  | .mapping fields =>
      .mapping (Fields.put (fields.map fun entry => (entry.1, eraseTopLevel entry.1 entry.2))
        "version" (.int 1))
  | _ => policy

/-- An entry without its limit. -/
def RuleEntry.erase (entry : RuleEntry) : RuleEntry := ⟨entry.scope, eraseLimit entry.value⟩

/-! ## One rule

Reading a rule commutes with deleting its limit. -/

theorem last_eraseLimit {fields : Fields} {name : String} (hname : name ≠ "rate_limit") :
    Fields.last (fields.filter (fun entry => entry.1.asStr != some "rate_limit")) name =
      fields.last name := by
  induction fields using List.reverseRecOn with
  | nil => rfl
  | append_singleton fields entry ih =>
      rw [List.filter_append, Fields.last_append, Fields.last_concat, ih]
      by_cases hkey : entry.1.asStr = some "rate_limit"
      · have hne : entry.1.asStr ≠ some name := by
          rw [hkey]
          simpa using hname.symm
        rw [if_neg hne, List.filter_cons_of_neg (by simp [hkey]), List.filter_nil,
          Fields.last_nil, Option.none_or]
      · rw [List.filter_cons_of_pos (by simpa using hkey), List.filter_nil,
          ← List.nil_append [entry], Fields.last_concat, Fields.last_nil]
        split
        · rfl
        · rw [Option.none_or]

section

variable {rt : YamlRuntime} {entry : RuleEntry} {fields : Fields} {read : ReadRule}

/-- Without its limit a rule is read the same, apart from the limit. -/
theorem readRule_erase (h : readRule rt true entry = .ok read) :
    readRule rt false entry.erase = .ok { read with rateLimit := none } := by
  obtain ⟨fields, h⟩ := readRule_ok_iff.1 h
  have hlast := fun {name : String} (hname : name ≠ "rate_limit") =>
    @last_eraseLimit fields name hname
  refine readRule_ok_iff.2
    ⟨fields.filter (fun entry => entry.1.asStr != some "rate_limit"), ?_⟩
  constructor
  case value =>
    rw [RuleEntry.erase, h.value]
    rfl
  case valid =>
    intro field hfield
    obtain ⟨hmem, hkept⟩ := List.mem_filter.1 hfield
    obtain ⟨name, hkey, hname, hvalue⟩ := h.valid field hmem
    refine ⟨name, hkey, ?_, hvalue⟩
    rw [hkey] at hkept
    simp only [ruleNames, if_true, List.mem_append, List.mem_singleton] at hname
    rcases hname with hname | rfl
    · simpa [ruleNames] using hname
    · simp [Yaml.asStr] at hkept
  case action =>
    rw [hlast (by simp)]
    exact h.action
  case target =>
    rw [hlast (by simp)]
    exact h.target
  case condition =>
    rw [hlast (by simp)]
    exact h.condition
  case id =>
    rw [hlast (by simp)]
    exact h.id
  case rateLimit =>
    have hnone : Fields.last
        (fields.filter (fun entry => entry.1.asStr != some "rate_limit")) "rate_limit" = none := by
      refine Fields.last_eq_none.2 fun field hfield hkey => ?_
      have hkept := (List.mem_filter.1 hfield).2
      simp [hkey, Yaml.asStr] at hkept
    rw [hnone]
    rfl
  case limited => exact fun hlimited => absurd hlimited (by simp)

end

/-! ## The document around the rules

Shape, entries and default action, with the limits deleted. -/

theorem last_mapValues (change : Yaml → Yaml → Yaml) (fields : Fields) (name : String) :
    Fields.last (fields.map (fun entry => (entry.1, change entry.1 entry.2))) name =
      (fields.last name).map (change (.string name)) := by
  rw [Fields.last_map, Fields.last, Fields.get]
  cases hfind : fields.reverse.find? (fun entry => entry.1.asStr == some name) with
  | none => rfl
  | some entry =>
      have htest := List.find?_some hfind
      have hkey : entry.1 = .string name := (asStr_beq _ _).1 htest
      rw [Option.map_some, Option.map_some, Option.map_some, hkey]

theorem onlyField_mapField {name : String} {fields : Fields} {value : Yaml}
    (h : OnlyField name fields value) (change : Yaml → Yaml) :
    ∃ changed, mapField name change (.mapping fields) = .mapping changed ∧
      OnlyField name changed (change value) := by
  refine ⟨_, rfl, ?_, ?_⟩
  · rw [List.forall_mem_map]
    exact fun entry hentry => h.keys entry hentry
  · have hlast := last_mapValues
      (fun key old => if key.asStr = some name then change old else old) fields name
    rw [h.last, Option.map_some, if_pos (by rw [Yaml.asStr])] at hlast
    exact hlast

theorem sequenceEntries_erase (scope : Option (String × String)) (rules : Yaml) :
    sequenceEntries scope (mapItems eraseLimit rules) =
      (sequenceEntries scope rules).map RuleEntry.erase := by
  cases rules with
  | sequence items =>
      simp only [sequenceEntries, mapItems, Yaml.asSequence, Option.getD_some, List.map_map]
      rfl
  | _ => rfl

theorem eraseTool_shaped {tool : Yaml × Yaml} (h : ToolShaped tool) :
    ToolShaped (tool.1, eraseTool tool.2) ∧ ∀ agentName,
      toolEntries agentName (tool.1, eraseTool tool.2) =
        (toolEntries agentName tool).map RuleEntry.erase := by
  obtain ⟨toolName, config, items, rfl, honly⟩ := h
  obtain ⟨config', hconfig, honly'⟩ := onlyField_mapField honly (mapItems eraseLimit)
  have herase : eraseTool (.mapping config) = .mapping config' := hconfig
  refine ⟨⟨toolName, config', items.map eraseLimit, by rw [herase], honly'⟩, fun agentName => ?_⟩
  rw [toolEntries, toolEntries, herase, Yaml.asMapping, Yaml.asMapping, Option.getD_some,
    Option.getD_some, honly.last, honly'.last]
  exact sequenceEntries_erase _ _

theorem eraseAgent_shaped {agent : Yaml × Yaml} (h : AgentShaped agent) :
    AgentShaped (agent.1, eraseAgent agent.2) ∧
      agentEntries (agent.1, eraseAgent agent.2) = (agentEntries agent).map RuleEntry.erase := by
  obtain ⟨agentName, config, tools, rfl, honly, htools⟩ := h
  obtain ⟨config', hconfig, honly'⟩ := onlyField_mapField honly (mapValues fun _ => eraseTool)
  have herase : eraseAgent (.mapping config) = .mapping config' := hconfig
  refine ⟨⟨agentName, config', _, by rw [herase], honly', ?_⟩, ?_⟩
  · rw [List.forall_mem_map]
    exact fun tool htool => (eraseTool_shaped (htools tool htool)).1
  · rw [agentEntries, agentEntries, herase, Yaml.asMapping, Yaml.asMapping, Option.getD_some,
      Option.getD_some, honly.last, honly'.last]
    simp only [Yaml.asStr, mapValues, Yaml.asMapping, Option.getD_some, List.flatMap_map,
      List.map_flatMap]
    exact List.flatMap_congr fun tool htool => (eraseTool_shaped (htools tool htool)).2 agentName

theorem eraseTopLevel_shaped {rt : YamlRuntime} {field : Yaml × Yaml}
    (h : TopLevelShaped rt field) :
    TopLevelShaped rt (field.1, eraseTopLevel field.1 field.2) ∧
      topLevelEntries (field.1, eraseTopLevel field.1 field.2) =
        (topLevelEntries field).map RuleEntry.erase := by
  cases h with
  | version value => exact ⟨.version value, rfl⟩
  | global h => exact ⟨.global h, rfl⟩
  | rules items =>
      exact ⟨.rules (items.map eraseLimit), sequenceEntries_erase none (.sequence items)⟩
  | @agents agents h =>
      have hvalue : eraseTopLevel (.string "agents") (.mapping agents) =
          .mapping (agents.map fun entry => (entry.1, eraseAgent entry.2)) := rfl
      dsimp only
      rw [hvalue]
      refine ⟨.agents ?_, ?_⟩
      · rw [List.forall_mem_map]
        exact fun agent hagent => (eraseAgent_shaped (h agent hagent)).1
      · have hentries : ∀ fields : Fields,
            topLevelEntries (.string "agents", .mapping fields) = fields.flatMap agentEntries := by
          intro fields
          simp [topLevelEntries, Yaml.asStr, Yaml.asMapping]
        rw [hentries, hentries, List.flatMap_map, List.map_flatMap]
        exact List.flatMap_congr fun agent hagent => (eraseAgent_shaped (h agent hagent)).2

/-- Setting the version of a document changes no entry. -/
theorem flatMap_topLevelEntries_put (fields : Fields) (version : Yaml) :
    (Fields.put fields "version" version).flatMap topLevelEntries =
      fields.flatMap topLevelEntries := by
  have hversion : ∀ entry : Yaml × Yaml, entry.1.asStr = some "version" →
      topLevelEntries entry = [] := by
    intro entry hkey
    simp [topLevelEntries, hkey]
  unfold Fields.put
  split
  · rw [List.flatMap_map]
    refine List.flatMap_congr fun entry _ => ?_
    split
    · rename_i hkey
      exact (hversion (entry.1, version) hkey).trans (hversion entry hkey).symm
    · rfl
  · rw [List.flatMap_append, List.flatMap_singleton, hversion _ (by rw [Yaml.asStr]),
      List.append_nil]

/-- Setting the version of a document does not change its default action. -/
theorem foldl_defaultAfter_put (rt : YamlRuntime) (fields : Fields) (version : Yaml)
    (action : Action) :
    (Fields.put fields "version" version).foldl (defaultAfter rt) action =
      fields.foldl (defaultAfter rt) action := by
  have hversion : ∀ (entry : Yaml × Yaml) (action : Action), entry.1.asStr = some "version" →
      defaultAfter rt action entry = action := by
    intro entry action hkey
    simp [defaultAfter, hkey]
  unfold Fields.put
  split
  · rw [List.foldl_map]
    congr 1
    funext action entry
    split
    · rename_i hkey
      exact (hversion (entry.1, version) action hkey).trans (hversion entry action hkey).symm
    · rfl
  · rw [List.foldl_append, List.foldl_cons, List.foldl_nil, hversion _ _ (by rw [Yaml.asStr])]

section

variable {rt : YamlRuntime} {policy : Yaml}

theorem shaped_withoutLimits (h : Shaped rt policy) : Shaped rt (withoutLimits policy) := by
  obtain ⟨⟨fields, rfl⟩, hfields⟩ := h
  rw [Yaml.asMapping, Option.getD_some] at hfields
  refine ⟨⟨_, rfl⟩, ?_⟩
  rw [withoutLimits, Yaml.asMapping, Option.getD_some]
  refine Fields.forall_mem_put.2 ⟨?_, .version _⟩
  rw [List.forall_mem_map]
  exact fun field hfield _ => (eraseTopLevel_shaped (hfields field hfield)).1

theorem ruleEntries_withoutLimits (h : Shaped rt policy) :
    ruleEntries (withoutLimits policy) = (ruleEntries policy).map RuleEntry.erase := by
  obtain ⟨⟨fields, rfl⟩, hfields⟩ := h
  rw [Yaml.asMapping, Option.getD_some] at hfields
  rw [withoutLimits, ruleEntries, ruleEntries, Yaml.asMapping, Yaml.asMapping, Option.getD_some,
    Option.getD_some, flatMap_topLevelEntries_put, List.flatMap_map, List.map_flatMap]
  exact List.flatMap_congr fun field hfield => (eraseTopLevel_shaped (hfields field hfield)).2

theorem declaredDefault_withoutLimits (policy : Yaml) :
    declaredDefault rt (withoutLimits policy) = declaredDefault rt policy := by
  cases policy with
  | mapping fields =>
      rw [withoutLimits, declaredDefault, declaredDefault, Yaml.asMapping, Yaml.asMapping,
        Option.getD_some, Option.getD_some, foldl_defaultAfter_put, List.foldl_map]
      congr 1
      funext action field
      by_cases hkey : field.1.asStr = some "global"
      · simp [defaultAfter, eraseTopLevel, hkey]
      · simp [defaultAfter, hkey]
  | _ => rfl

/-! ## The engine

The engine that is built from what is left. -/

/-- An entry has a rate limit. -/
def RuleEntry.Limited (entry : RuleEntry) : Prop :=
  (Fields.last (entry.value.asMapping.getD []) "rate_limit").isSome

theorem ReadsAs.limited_iff {entry : RuleEntry} {fields : Fields} {read : ReadRule}
    (h : ReadsAs rt true entry fields read) : entry.Limited ↔ read.rateLimit.isSome := by
  rw [RuleEntry.Limited, h.value, Yaml.asMapping, Option.getD_some, h.rateLimit]
  cases hlast : fields.last "rate_limit" with
  | none => simp
  | some value =>
      obtain ⟨name, hkey, -, -, -, hvalue⟩ := h.valid _ (Fields.mem_of_last hlast)
      obtain ⟨limit, hparse⟩ := hvalue (Yaml.string.inj hkey).symm
      simp [hparse, Except.toOption]

/-- The engine without limits, and which of its rules were limited. -/
theorem parseV1_withoutLimits {engine : Engine} (h : parseV2 rt policy = .ok engine) :
    ∃ engine', parseV1 rt (withoutLimits policy) = .ok engine' ∧ engine'.rules = engine.rules ∧
      engine'.defaultAction = engine.defaultAction ∧ engine'.rateLimits = ∅ ∧
      ∀ index, index ∈ engine.rateLimits ↔
        ∃ entry, (ruleEntries policy)[index]? = some entry ∧ entry.Limited := by
  obtain ⟨hshaped, reads, hreads, hids, rfl⟩ := parseVersion_ok_iff_reads.1 h
  let unlimited (read : ReadRule) : ReadRule := { read with rateLimit := none }
  have herased : List.Forall₂ (fun entry read => readRule rt false entry = .ok read)
      (ruleEntries (withoutLimits policy)) (reads.map unlimited) := by
    rw [ruleEntries_withoutLimits hshaped, List.forall₂_map_left_iff, List.forall₂_map_right_iff]
    exact hreads.imp fun entry read hread => readRule_erase hread
  have hids' : declaredIds (reads.map unlimited) = declaredIds reads := by
    rw [declaredIds, declaredIds, List.filterMap_map]
    rfl
  refine ⟨engineOf (reads.map unlimited) 1 (declaredDefault rt (withoutLimits policy)), ?_, ?_, ?_,
    rateLimits_engineOf herased _ _, fun index => ?_⟩
  · exact parseVersion_ok_iff_reads.2
      ⟨shaped_withoutLimits hshaped, _, herased, hids'.symm ▸ hids, rfl⟩
  · rw [engineOf, engineOf, stateAfter_rules, stateAfter_rules]
    refine List.ext_getElem? fun index => ?_
    rw [List.getElem?_mapIdx, List.getElem?_mapIdx, List.getElem?_map, Option.map_map]
    rfl
  · exact declaredDefault_withoutLimits policy
  · rw [← Finmap.lookup_isSome, engineOf, stateAfter_lookup]
    obtain ⟨hlength, hall⟩ := List.forall₂_iff_get.1 hreads
    by_cases hindex : index < reads.length
    · obtain ⟨fields, hread⟩ := readRule_ok_iff.1 (hall index (hlength ▸ hindex) hindex)
      have hlimited := hread.limited_iff
      simp only [List.get_eq_getElem] at hlimited
      rw [List.getElem?_eq_getElem hindex, Option.bind_some, ← hlimited,
        List.getElem?_eq_getElem (hlength ▸ hindex)]
      simp
    · rw [List.getElem?_eq_none (not_lt.1 hindex),
        List.getElem?_eq_none (hlength ▸ not_lt.1 hindex)]
      simp

/-! ## Decisions

The two engines side by side. -/

/-- Without its limits an engine selects the same rule and decides what the selection says. -/
theorem resolve_unlimited {engine engine' : Engine} (hrules : engine'.rules = engine.rules)
    (hdefault : engine'.defaultAction = engine.defaultAction) (hlimits : engine'.rateLimits = ∅)
    (call : PolicyCall) (now : Instant) :
    engine'.resolveCallWithSelectedRuleAt call now =
        engine.resolveCallWithSelectedRuleAt call now ∧
      engine'.resolveCallAt call now = (engine.resolveCallWithSelectedRuleAt call now).1 := by
  have hselected : engine'.resolveCallWithSelectedRuleAt call now =
      engine.resolveCallWithSelectedRuleAt call now := by
    simp only [Engine.resolveCallWithSelectedRuleAt, Engine.matching, hrules, hdefault]
  exact ⟨hselected, by rw [resolveCallAt_of_noLimits engine' call now hlimits, hselected]⟩

/-- What a limit changes in a decision. -/
theorem resolveCallAt_limited (engine : Engine) (call : PolicyCall) (now : Instant) :
    let selected := engine.resolveCallWithSelectedRuleAt call now
    (engine.resolveCallAt call now).matchedRules = selected.1.matchedRules ∧
      (selected.1.action = .allow ∧ (∃ index ∈ selected.2, index ∈ engine.rateLimits) →
        (engine.resolveCallAt call now).action = .throttle) ∧
      (¬ (selected.1.action = .allow ∧ ∃ index ∈ selected.2, index ∈ engine.rateLimits) →
        (engine.resolveCallAt call now).action = selected.1.action) := by
  intro selected
  have hresolve : engine.resolveCallAt call now =
      if selected.2.any (fun index => decide (index ∈ engine.rateLimits)) &&
          selected.1.action == .allow then
        ⟨.throttle, selected.1.matchedRules⟩
      else selected.1 := rfl
  have htest : (selected.2.any (fun index => decide (index ∈ engine.rateLimits)) &&
        selected.1.action == .allow) = true ↔
      selected.1.action = .allow ∧ ∃ index ∈ selected.2, index ∈ engine.rateLimits := by
    cases selected.2 <;> simp [and_comm]
  rw [← htest, hresolve]
  split_ifs with hthrottle
  · exact ⟨rfl, fun _ => rfl, fun hnot => absurd hthrottle hnot⟩
  · exact ⟨rfl, fun hyes => absurd hyes hthrottle, fun _ => rfl⟩

/-- **Version 2 only adds quotas.**  Without its rate limits an accepted version 2 document is an
accepted version 1 document with the same rules and default action.  Every call matches the same
rules in both, and the pure engine decides the same, except that it throttles where the version 1
engine allows and the selected rule is limited.  It never allows a call whose selected rule is
limited. -/
theorem limits_only_throttle {engine : Engine} (h : parseV2 rt policy = .ok engine) :
    ∃ engine', parseV1 rt (withoutLimits policy) = .ok engine' ∧ engine'.rules = engine.rules ∧
      engine'.defaultAction = engine.defaultAction ∧
      (∀ call now, (engine.resolveCallAt call now).matchedRules =
        (engine'.resolveCallAt call now).matchedRules) ∧
      (∀ call now,
        ((engine'.resolveCallAt call now).action = .allow ∧
            (∃ index entry, (engine'.resolveCallWithSelectedRuleAt call now).2 = some index ∧
              (ruleEntries policy)[index]? = some entry ∧ entry.Limited) →
          (engine.resolveCallAt call now).action = .throttle) ∧
        (¬ ((engine'.resolveCallAt call now).action = .allow ∧
            ∃ index entry, (engine'.resolveCallWithSelectedRuleAt call now).2 = some index ∧
              (ruleEntries policy)[index]? = some entry ∧ entry.Limited) →
          (engine.resolveCallAt call now).action = (engine'.resolveCallAt call now).action)) ∧
      ∀ call now index, (engine.resolveCallWithSelectedRuleAt call now).2 = some index →
        index ∈ engine.rateLimits → (engine.resolveCallAt call now).action ≠ .allow := by
  obtain ⟨engine', hparse, hrules, hdefault, hlimits, hlimited⟩ := parseV1_withoutLimits h
  refine ⟨engine', hparse, hrules, hdefault, fun call now => ?_, fun call now => ?_, ?_⟩
  · obtain ⟨-, hunlimited⟩ := resolve_unlimited hrules hdefault hlimits call now
    rw [hunlimited]
    exact (resolveCallAt_limited engine call now).1
  · obtain ⟨hselected, hunlimited⟩ := resolve_unlimited hrules hdefault hlimits call now
    have hcarries : (∃ index entry,
        (engine.resolveCallWithSelectedRuleAt call now).2 = some index ∧
          (ruleEntries policy)[index]? = some entry ∧ entry.Limited) ↔
        ∃ index ∈ (engine.resolveCallWithSelectedRuleAt call now).2, index ∈ engine.rateLimits := by
      simp only [hlimited, Option.mem_def, exists_and_left]
    rw [hselected, hunlimited, hcarries]
    exact (resolveCallAt_limited engine call now).2
  · intro call now index hindex hmem hallow
    obtain ⟨-, hthrottle, hsame⟩ := resolveCallAt_limited engine call now
    by_cases hselected : (engine.resolveCallWithSelectedRuleAt call now).1.action = .allow
    · rw [hthrottle ⟨hselected, index, hindex, hmem⟩] at hallow
      cases hallow
    · rw [hsame fun hboth => hselected hboth.1] at hallow
      exact hselected hallow

theorem limits_only_throttle_sample :
    let rt : YamlRuntime := ⟨fun _ => "", fun _ => none⟩
    ∃ engine engine', parseV2 rt scopedPolicy = .ok engine ∧
      parseV1 rt (withoutLimits scopedPolicy) = .ok engine' ∧ engine'.rules = engine.rules ∧
      engine'.defaultAction = engine.defaultAction ∧
      ∀ call now, (engine.resolveCallAt call now).matchedRules =
        (engine'.resolveCallAt call now).matchedRules := by
  intro rt
  have hparse : ∃ engine, parseV2 rt scopedPolicy = .ok engine := ⟨_, rfl⟩
  obtain ⟨engine, hparse⟩ := hparse
  obtain ⟨engine', hunlimited, hrules, hdefault, hmatched, -⟩ := limits_only_throttle hparse
  exact ⟨engine, engine', hparse, hunlimited, hrules, hdefault, hmatched⟩

end

end HpGuardian

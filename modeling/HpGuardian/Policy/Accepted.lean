import HpGuardian.Policy.Parser
import HpGuardian.Framework.Outcomes

/-!
# What the parser builds

A document that the parser accepts was read rule by rule, each rule by the same function from what
was accumulated before.  `parseVersion_preserves` is the one pass over the parser: what every
accepted rule preserves of the accumulated rules, ids and limits holds of the state an accepted
document ends in.  The pass goes through the nested mappings of agents and tools once, so that a
property of the result need only be proved for one rule.

Two facts come from it.  Rules are numbered in document order across all scopes, so rule number `i`
of an accepted engine has index `i`; a selected rule is therefore determined by its index.  And
every rate limit of an accepted engine has both fields in `1..=86400`, so that the quota store
never divides by zero and its sums stay in range.
-/

namespace HpGuardian

open Framework

/-- Rule number `i` has index `i`. The parser numbers the rules as it meets them, and the engine
and the rate limits refer to rules by these numbers. -/
def RulesNumbered (rules : List Rule) : Prop :=
  rules.map Rule.ruleIndex = List.range rules.length

/-- The rules are numbered, and the next index is the number of rules so far. -/
structure ParseState.Numbered (state : ParseState) : Prop where
  rules : RulesNumbered state.rules
  next : state.index = state.rules.length

/-- Both fields are in `1..=86400`. -/
structure RateLimit.Valid (limit : RateLimit) : Prop where
  maxCalls : 1 ≤ limit.maxCalls ∧ limit.maxCalls ≤ 86400
  windowSeconds : 1 ≤ limit.windowSeconds ∧ limit.windowSeconds ≤ 86400

/-- Every limit of the map is valid. -/
def ValidLimits (rateLimits : Finmap (fun _ : ℕ => RateLimit)) : Prop :=
  ∀ index limit, rateLimits.lookup index = some limit → limit.Valid

theorem ParseState.numbered_empty : ParseState.empty.Numbered := ⟨rfl, rfl⟩

theorem RulesNumbered.append {rules : List Rule} (h : RulesNumbered rules) {rule : Rule}
    (hrule : rule.ruleIndex = rules.length) : RulesNumbered (rules ++ [rule]) := by
  rw [RulesNumbered, List.map_append, h, List.length_append, List.length_singleton,
    List.range_succ, List.map_singleton, hrule]

/-- Different positions hold rules with different indices. -/
theorem RulesNumbered.nodup {rules : List Rule} (h : RulesNumbered rules) :
    (rules.map Rule.ruleIndex).Nodup := by
  rw [h]
  exact List.nodup_range

theorem validLimits_empty : ValidLimits ∅ := by
  intro index limit hlookup
  simp at hlookup

theorem ValidLimits.insert {rateLimits : Finmap (fun _ : ℕ => RateLimit)}
    (h : ValidLimits rateLimits) {limit : RateLimit} (hlimit : limit.Valid) (index : ℕ) :
    ValidLimits (rateLimits.insert index limit) := by
  intro other found hlookup
  by_cases hother : other = index
  · subst hother
    rw [Finmap.lookup_insert] at hlookup
    obtain rfl := Option.some.inj hlookup
    exact hlimit
  · rw [Finmap.lookup_insert_of_ne _ hother] at hlookup
    exact h other found hlookup

section

variable {rt : YamlRuntime} {allowRateLimit : Bool} {state state' : ParseState}

/-! ## One rule

What `add_rule` does to the accumulated state, apart from what it puts into the rule. -/

/-- `add_rule` appends one rule that carries the next index, and keeps its limit if it has one. -/
theorem addRule_appends {enclosingTarget : List (String × String)} {value : Yaml}
    (hrun : addRule rt allowRateLimit enclosingTarget state value = .ok state') :
    ∃ (fields : Fields) (rule : RuleFields) (added : Rule),
      fields.foldlM (ruleField rt allowRateLimit) ⟨none, none, none, none, none⟩ = .ok rule ∧
      added.ruleIndex = state.index ∧ state'.rules = state.rules ++ [added] ∧
      state'.index = state.index + 1 ∧
      state'.rateLimits = match rule.rateLimit with
        | some rateLimit => state.rateLimits.insert state.index rateLimit
        | none => state.rateLimits := by
  unfold addRule at hrun
  obtain ⟨fields, -, hrun⟩ := bind_ok_iff.1 hrun
  obtain ⟨rule, hrule, hrun⟩ := bind_ok_iff.1 hrun
  obtain ⟨action, -, hrun⟩ := bind_ok_iff.1 hrun
  obtain ⟨ruleIds, -, hrun⟩ := bind_ok_iff.1 hrun
  obtain ⟨action, -, hrun⟩ := bind_ok_iff.1 hrun
  split at hrun
  · cases hrun
  · obtain ⟨target, -, hrun⟩ := bind_ok_iff.1 hrun
    obtain ⟨target, -, hrun⟩ := bind_ok_iff.1 hrun
    obtain ⟨condition, -, hrun⟩ := bind_ok_iff.1 hrun
    obtain rfl := Except.ok.inj hrun
    exact ⟨fields, rule, _, hrule, rfl, rfl, rfl, rfl⟩

theorem addRule_numbered {enclosingTarget : List (String × String)} {value : Yaml}
    (h : state.Numbered)
    (hrun : addRule rt allowRateLimit enclosingTarget state value = .ok state') :
    state'.Numbered := by
  obtain ⟨-, -, added, -, hindex, hrules, hnext, -⟩ := addRule_appends hrun
  refine ⟨?_, ?_⟩
  · rw [hrules]
    exact h.rules.append (hindex.trans h.next)
  · rw [hrules, hnext, h.next, List.length_append, List.length_singleton]

/-- `parse_rate_limit` accepts valid limits only. -/
theorem parseRateLimit_valid {value : Yaml} {limit : RateLimit}
    (hrun : parseRateLimit value = .ok limit) : limit.Valid := by
  unfold parseRateLimit at hrun
  obtain ⟨fields, -, hrun⟩ := bind_ok_iff.1 hrun
  split at hrun
  · cases hrun
  · obtain ⟨⟨maxCalls, windowSeconds⟩, -, hrun⟩ := bind_ok_iff.1 hrun
    cases maxCalls with
    | none => cases hrun
    | some maxCalls =>
        cases windowSeconds with
        | none => cases hrun
        | some windowSeconds =>
            dsimp only at hrun
            split at hrun
            · rename_i hbounds
              obtain rfl := Except.ok.inj hrun
              exact ⟨hbounds.1, hbounds.2⟩
            · cases hrun

/-- A rule mapping read so far holds a valid limit or none. -/
theorem ruleField_valid {acc acc' : RuleFields} {entry : Yaml × Yaml}
    (h : ∀ limit ∈ acc.rateLimit, limit.Valid)
    (hrun : ruleField rt allowRateLimit acc entry = .ok acc') :
    ∀ limit ∈ acc'.rateLimit, limit.Valid := by
  unfold ruleField at hrun
  obtain ⟨field, -, hrun⟩ := bind_ok_iff.1 hrun
  split_ifs at hrun
  · obtain ⟨action, -, hrun⟩ := bind_ok_iff.1 hrun
    obtain rfl := Except.ok.inj hrun
    exact h
  · obtain rfl := Except.ok.inj hrun
    exact h
  · obtain rfl := Except.ok.inj hrun
    exact h
  · obtain ⟨id, -, hrun⟩ := bind_ok_iff.1 hrun
    obtain rfl := Except.ok.inj hrun
    exact h
  · obtain ⟨rateLimit, hlimit, hrun⟩ := bind_ok_iff.1 hrun
    obtain rfl := Except.ok.inj hrun
    intro limit hmem
    obtain rfl := Option.some.inj hmem
    exact parseRateLimit_valid hlimit

theorem addRule_validLimits {enclosingTarget : List (String × String)} {value : Yaml}
    (h : ValidLimits state.rateLimits)
    (hrun : addRule rt allowRateLimit enclosingTarget state value = .ok state') :
    ValidLimits state'.rateLimits := by
  obtain ⟨fields, rule, -, hrule, -, -, -, hlimits⟩ := addRule_appends hrun
  have hvalid : ∀ limit ∈ rule.rateLimit, limit.Valid :=
    foldlM_invariant (P := fun acc : RuleFields => ∀ limit ∈ acc.rateLimit, limit.Valid)
      (fun _ _ _ hs hround => ruleField_valid hs hround) (by simp) hrule
  rw [hlimits]
  cases hlimit : rule.rateLimit with
  | none => exact h
  | some limit => exact h.insert (hvalid limit hlimit) _

/-! ## Whole documents

The pass, from a sequence of rules outwards. -/

section Preserves

variable {P : ParseState → Prop}
  (hrule : ∀ {enclosingTarget : List (String × String)} {value : Yaml} {state state' : ParseState},
    P state → addRule rt allowRateLimit enclosingTarget state value = .ok state' → P state')

include hrule

theorem addRules_preserves {enclosingTarget : List (String × String)} {value : Yaml}
    (h : P state) (hrun : addRules rt allowRateLimit enclosingTarget state value = .ok state') :
    P state' := by
  unfold addRules at hrun
  split at hrun
  · cases hrun
  · exact foldlM_invariant (fun _ _ _ hs hround => hrule hs hround) h hrun

theorem addTool_preserves {agentName : String} {entry : Yaml × Yaml} (h : P state)
    (hrun : addTool rt allowRateLimit agentName state entry = .ok state') : P state' := by
  unfold addTool at hrun
  obtain ⟨toolName, -, hrun⟩ := bind_ok_iff.1 hrun
  obtain ⟨toolFields, -, hrun⟩ := bind_ok_iff.1 hrun
  obtain ⟨toolRules, -, hrun⟩ := bind_ok_iff.1 hrun
  obtain ⟨toolRules, -, hrun⟩ := bind_ok_iff.1 hrun
  exact addRules_preserves hrule h hrun

theorem addAgent_preserves {entry : Yaml × Yaml} (h : P state)
    (hrun : addAgent rt allowRateLimit state entry = .ok state') : P state' := by
  unfold addAgent at hrun
  obtain ⟨agentName, -, hrun⟩ := bind_ok_iff.1 hrun
  obtain ⟨agentFields, -, hrun⟩ := bind_ok_iff.1 hrun
  obtain ⟨tools, -, hrun⟩ := bind_ok_iff.1 hrun
  obtain ⟨tools, -, hrun⟩ := bind_ok_iff.1 hrun
  obtain ⟨tools, -, hrun⟩ := bind_ok_iff.1 hrun
  exact foldlM_invariant (fun _ _ _ hs hround => addTool_preserves hrule hs hround) h hrun

theorem topLevelField_preserves {acc acc' : Action × ParseState} {entry : Yaml × Yaml}
    (h : P acc.2) (hrun : topLevelField rt allowRateLimit acc entry = .ok acc') :
    P acc'.2 := by
  unfold topLevelField at hrun
  obtain ⟨field, -, hrun⟩ := bind_ok_iff.1 hrun
  split_ifs at hrun
  · obtain rfl := Except.ok.inj hrun
    exact h
  · obtain ⟨defaultAction, -, hrun⟩ := bind_ok_iff.1 hrun
    obtain rfl := Except.ok.inj hrun
    exact h
  · obtain ⟨state, hstate, hrun⟩ := bind_ok_iff.1 hrun
    obtain rfl := Except.ok.inj hrun
    exact addRules_preserves hrule h hstate
  · obtain ⟨state, hstate, hrun⟩ := bind_ok_iff.1 hrun
    obtain rfl := Except.ok.inj hrun
    unfold addAgents at hstate
    obtain ⟨agents, -, hagents⟩ := bind_ok_iff.1 hstate
    exact foldlM_invariant (fun _ _ _ hs hround => addAgent_preserves hrule hs hround) h hagents

/-- **The pass over the parser.** What every accepted rule preserves holds of the rules and limits
of an accepted document, whatever scopes the rules are nested in. -/
theorem parseVersion_preserves (h : P .empty) {policy : Yaml} {version : ℤ} {engine : Engine}
    (hrun : parseVersion rt policy version allowRateLimit = .ok engine) :
    ∃ state : ParseState,
      P state ∧ engine.rules = state.rules ∧ engine.rateLimits = state.rateLimits := by
  unfold parseVersion at hrun
  obtain ⟨fields, -, hrun⟩ := bind_ok_iff.1 hrun
  obtain ⟨acc, hacc, hrun⟩ := bind_ok_iff.1 hrun
  obtain rfl := Except.ok.inj hrun
  exact ⟨acc.2, foldlM_invariant (P := fun acc : Action × ParseState => P acc.2)
    (fun _ _ _ hs hround => topLevelField_preserves hrule hs hround) h hacc, rfl, rfl⟩

end Preserves

theorem parseVersion_numbered {policy : Yaml} {version : ℤ} {engine : Engine}
    (hrun : parseVersion rt policy version allowRateLimit = .ok engine) :
    RulesNumbered engine.rules := by
  obtain ⟨state, hstate, hrules, -⟩ :=
    parseVersion_preserves addRule_numbered ParseState.numbered_empty hrun
  rw [hrules]
  exact hstate.rules

theorem parseVersion_validLimits {policy : Yaml} {version : ℤ} {engine : Engine}
    (hrun : parseVersion rt policy version allowRateLimit = .ok engine) :
    ValidLimits engine.rateLimits := by
  obtain ⟨state, hstate, -, hlimits⟩ :=
    parseVersion_preserves (P := fun state => ValidLimits state.rateLimits) addRule_validLimits
      validLimits_empty hrun
  rw [hlimits]
  exact hstate

/-- An accepted policy numbers its rules. -/
theorem parsePolicy_numbered {policy : Yaml} {engine : Engine}
    (hrun : parsePolicy rt policy = .ok engine) : RulesNumbered engine.rules := by
  unfold parsePolicy at hrun
  obtain ⟨version, -, hrun⟩ := bind_ok_iff.1 hrun
  split at hrun
  · exact parseVersion_numbered hrun
  · cases hrun

/-- An accepted rate-limited policy has valid limits. -/
theorem parseRateLimited_validLimits {policy : Yaml} {engine : Engine}
    (hrun : parseRateLimited rt policy = .ok engine) : ValidLimits engine.rateLimits := by
  unfold parseRateLimited at hrun
  obtain ⟨version, -, hrun⟩ := bind_ok_iff.1 hrun
  split at hrun
  · exact parseVersion_validLimits hrun
  · cases hrun

end

end HpGuardian

import HpGuardian.Policy.Engine
import HpGuardian.Policy.Yaml

/-!
# The Rust policy parser (`src/parser.rs`)

The parser validates a decoded document field by field and accumulates rules, declared ids and rate
limits.  It stops at the first defect that it meets, and every error carries the text the source
gives it, with the path of the field in it where the source has one.

A mapping is read by a loop over its entries in document order, with a match on the key, so which
of several defects is reported depends on the document.  Each loop is a fold here, and its body a
function of its own under a name that says what it reads, so that the loops can be reasoned about
entry by entry.  Rules are read in three places, at the top level and nested under agents and
tools, always by `add_rule`, which is given the target of the enclosing scope and the path for its
errors.

Two library functions stand outside the repository: `serde_yaml::to_string`, which only appears in
the text of an error, and the RFC 3339 timestamp parser.  They are parameters (`YamlRuntime`), and
the parser is total whatever they are.
-/

namespace HpGuardian

/-- The library functions the parser calls. -/
structure YamlRuntime where
  /-- `serde_yaml::to_string(value)`, trimmed. -/
  describe : Yaml → String
  /-- The instant of a timestamp that ends in `Z` and is a valid RFC 3339 text. -/
  utcTimestamp : String → Option Instant

/-- `MAX_CONDITION_DEPTH`. -/
def maxConditionDepth : ℕ := 32

/-- `MAX_CONDITION_NODES`. -/
def maxConditionNodes : ℕ := 128

/-! ## Scalars

Texts that YAML might read as something else, and are therefore refused where a text is expected. -/

/-- The words that YAML 1.1 or 1.2 resolves to a boolean or to null. -/
def ambiguousWords : List String :=
  ["y", "yes", "n", "no", "true", "false", "on", "off", "null", "~"]

/-- The characters of numeric and timestamp forms. -/
def isNumericFormCharacter (character : Char) : Bool :=
  character.isDigit ||
    ['_', ':', '.', '+', '-', 'e', 'E', 'x', 'X', 'o', 'O', 'b', 'B'].contains character

/-- `str::to_ascii_lowercase`. -/
def toAsciiLowercase (value : String) : String := String.ofList (value.toList.map Char.toLower)

/-- `is_ambiguous_yaml_scalar`. -/
def isAmbiguousYamlScalar (value : String) : Bool :=
  if ambiguousWords.contains (toAsciiLowercase value) then
    true
  else
    match value.toList.head? with
    | none => false
    | some first =>
        if !first.isDigit && !(['+', '-'].contains first) then
          false
        else
          value.toList.all isNumericFormCharacter

/-! ## Shapes

Checks that occur throughout the parser. -/

/-- `mapping`. -/
def mappingOf (value : Yaml) (description : String) : Except PolicyError Fields :=
  match value.asMapping with
  | some fields => .ok fields
  | none => .error (.invalidField (description ++ " must be a mapping"))

/-- `field_name`. -/
def fieldName (field : Yaml) (scope : String) : Except PolicyError String :=
  match field.asStr with
  | some name => .ok name
  | none => .error (.invalidField (scope ++ " field names must be strings"))

/-- `Result::map_err` with a replacement that ignores the error. -/
def orElseError {α : Type} (result : Except PolicyError α) (error : PolicyError) :
    Except PolicyError α :=
  result.mapError (fun _ => error)

/-- `Option::ok_or_else`. -/
def okOr {ε α : Type} (value : Option α) (error : ε) : Except ε α :=
  match value with
  | some value => .ok value
  | none => .error error

/-- `as_str().ok_or_else(..)`. -/
def stringOr (value : Yaml) (error : PolicyError) : Except PolicyError String :=
  match value.asStr with
  | some s => .ok s
  | none => .error error

/-- A string value that is not an ambiguous scalar; the two checks may fail differently. -/
def unambiguousStringOr (value : Yaml) (notString ambiguous : PolicyError) :
    Except PolicyError String := do
  let value ← stringOr value notString
  if isAmbiguousYamlScalar value then .error ambiguous else .ok value

/-- `parse_action`. -/
def parseAction (action : String) : Except PolicyError Action :=
  match action with
  | "allow" => .ok .allow
  | "deny" => .ok .deny
  | "throttle" => .ok .throttle
  | "log" => .ok .log
  | "require_approval" => .ok .requireApproval
  | "redirect" => .ok .redirect
  | _ => .error (.invalidAction action)

/-! ## Rate limits -/

/-- One field of a `rate_limit` mapping; a value that is no `u64` is kept as absent. -/
def rateLimitField (acc : Option ℕ × Option ℕ) (entry : Yaml × Yaml) :
    Except PolicyError (Option ℕ × Option ℕ) := do
  let name ← fieldName entry.1 "rate_limit"
  if name = "max_calls" then .ok (entry.2.asU64, acc.2)
  else if name = "window_seconds" then .ok (acc.1, entry.2.asU64)
  else .error (.invalidField ("rate_limit." ++ name))

/-- `parse_rate_limit`. -/
def parseRateLimit (value : Yaml) : Except PolicyError RateLimit := do
  let fields ← mappingOf value "rate_limit"
  if fields.length ≠ 2 then
    .error (.invalidField "rate_limit requires max_calls and window_seconds")
  else
    let (maxCalls, windowSeconds) ← fields.foldlM rateLimitField (none, none)
    match maxCalls, windowSeconds with
    | some maxCalls, some windowSeconds =>
        if (1 ≤ maxCalls ∧ maxCalls ≤ 86400) ∧ (1 ≤ windowSeconds ∧ windowSeconds ≤ 86400) then
          .ok ⟨maxCalls, windowSeconds⟩
        else
          .error (.invalidField "rate_limit values must be positive integers at most 86400")
    | _, _ => .error (.invalidField "rate_limit values must be positive integers at most 86400")

/-! ## Targets

A target is flattened into one map.  The enclosing scope is added at the end and must not
contradict what is there. -/

/-- One entry of `target.context`. -/
def contextEntry (parsed : StringMap) (entry : Yaml × Yaml) : Except PolicyError StringMap := do
  let contextKey ← orElseError (fieldName entry.1 "target.context") (.invalidTarget "context")
  let error := .invalidTarget ("context." ++ contextKey)
  let contextValue ← unambiguousStringOr entry.2 error error
  .ok (parsed.insert ("context." ++ contextKey) contextValue)

/-- One field of a `target` mapping. -/
def targetField (parsed : StringMap) (entry : Yaml × Yaml) : Except PolicyError StringMap := do
  let key ← orElseError (fieldName entry.1 "target") (.invalidTarget "target")
  if key = "agent" ∨ key = "tool" ∨ key = "user" then
    let value ← unambiguousStringOr entry.2 (.invalidTarget key) (.invalidTarget key)
    .ok (parsed.insert key value)
  else if key = "context" then
    let context ← orElseError (mappingOf entry.2 "target.context") (.invalidTarget "context")
    context.foldlM contextEntry parsed
  else
    .error (.invalidTarget key)

/-- `parse_target`. -/
def parseTarget (target : Option Yaml) : Except PolicyError StringMap :=
  match target with
  | none => .ok ∅
  | some target => do
      let fields ← orElseError (mappingOf target "target") (.invalidTarget "target")
      fields.foldlM targetField ∅

/-- `add_enclosing_target`. -/
def addEnclosingTarget (target : StringMap) (enclosing : String × String) :
    Except PolicyError StringMap :=
  match target.lookup enclosing.1 with
  | some value =>
      if value ≠ enclosing.2 then .error (.conflictingTarget enclosing.1)
      else .ok (target.insert enclosing.1 enclosing.2)
  | none => .ok (target.insert enclosing.1 enclosing.2)

/-! ## Conditions

The recursive part of the parser, bounded in depth and in the number of nodes. -/

section Conditions

variable (rt : YamlRuntime)

/-- `parse_utc_timestamp`. -/
def parseUtcTimestamp (timestamp : String) : Except PolicyError Instant :=
  match rt.utcTimestamp timestamp with
  | some instant => .ok instant
  | none => .error (.invalidCondition "time_window")

/-- One field of a `time_window` mapping. -/
def timeWindowField (acc : Option Instant × Option Instant) (entry : Yaml × Yaml) :
    Except PolicyError (Option Instant × Option Instant) := do
  let field ← orElseError (fieldName entry.1 "time_window") (.invalidCondition "time_window")
  let timestamp ← stringOr entry.2 (.invalidCondition "time_window")
  if field = "start" then
    let start ← parseUtcTimestamp rt timestamp
    .ok (some start, acc.2)
  else if field = "end" then
    let stop ← parseUtcTimestamp rt timestamp
    .ok (acc.1, some stop)
  else
    .error (.invalidCondition "time_window")

/-- `parse_time_window`. -/
def parseTimeWindow (value : Yaml) : Except PolicyError TimeWindow := do
  let fields ← orElseError (mappingOf value "time_window") (.invalidCondition "time_window")
  if fields.length ≠ 2 then
    .error (.invalidCondition "time_window")
  else
    let (start, stop) ← fields.foldlM (timeWindowField rt) (none, none)
    match start, stop with
    | some start, some stop =>
        if start < stop then .ok ⟨start, stop⟩ else .error (.invalidCondition "time_window")
    | _, _ => .error (.invalidCondition "time_window")

/-- The leaves of a condition mapping read so far. -/
structure LeafFields where
  argsMatch : Option String
  pathPattern : Option String
  timeWindow : Option TimeWindow

/-- One leaf field of a condition mapping. -/
def leafField (acc : LeafFields) (entry : Yaml × Yaml) : Except PolicyError LeafFields := do
  let key ← orElseError (fieldName entry.1 "condition") (.invalidCondition "condition")
  if key = "args_match" then
    let value ← unambiguousStringOr entry.2 (.invalidCondition key) (.invalidCondition key)
    match validateArgsMatch value with
    | .ok _ => .ok { acc with argsMatch := some value }
    | .error reason => .error (.invalidRegex value reason)
  else if key = "path_pattern" then
    let value ← unambiguousStringOr entry.2 (.invalidCondition key) (.invalidCondition key)
    .ok { acc with pathPattern := some value }
  else if key = "time_window" then
    let window ← parseTimeWindow rt entry.2
    .ok { acc with timeWindow := some window }
  else
    .error (.invalidCondition key)

/-- The first of the keys `all`, `any` and `not` in document order. -/
def booleanOperator (fields : Fields) : Option String :=
  fields.findSome? (fun entry =>
    entry.1.asStr.filter (fun key => key == "all" || key == "any" || key == "not"))

mutual

/-- `parse_condition`, with the number of nodes seen so far passed along. -/
def parseCondition (condition : Yaml) (depth nodes : ℕ) : Except PolicyError (Condition × ℕ) :=
  if maxConditionDepth < depth then
    .error (.invalidCondition "condition nesting exceeds 32 levels")
  else
    let nodes := nodes + 1
    if maxConditionNodes < nodes then
      .error (.invalidCondition "condition tree exceeds 128 nodes")
    else
      match condition with
      | .mapping fields =>
          match booleanOperator fields with
          | some operator =>
              match fields with
              | [(_, value)] =>
                  if operator = "all" ∨ operator = "any" then
                    match value with
                    | .sequence items => do
                        let (children, nodes) ← parseChildren items (depth + 1) nodes
                        .ok (if operator = "all" then .all children else .any children, nodes)
                    | _ => .error (.invalidCondition operator)
                  else do
                    let (child, nodes) ← parseCondition value (depth + 1) nodes
                    .ok (.not child, nodes)
              | _ => .error (.invalidCondition operator)
          | none => do
              let leaves ← fields.foldlM (leafField rt) ⟨none, none, none⟩
              .ok (.leaves leaves.argsMatch leaves.pathPattern leaves.timeWindow, nodes)
      | _ => .error (.invalidCondition "condition")

/-- The children of an `all` or `any`, up to the first that fails. -/
def parseChildren (items : List Yaml) (depth nodes : ℕ) :
    Except PolicyError (List Condition × ℕ) :=
  match items with
  | [] => .ok ([], nodes)
  | item :: items => do
      let (child, nodes) ← parseCondition item depth nodes
      let (children, nodes) ← parseChildren items depth nodes
      .ok (child :: children, nodes)

end

/-- `parse_conditions`. -/
def parseConditions (condition : Option Yaml) : Except PolicyError Condition :=
  match condition with
  | none => .ok .default
  | some condition => do
      let (condition, _) ← parseCondition rt condition 1 0
      .ok condition

/-! ## Rules

The accumulated state, the fields of a rule, and `add_rule`. -/

/-- What the parser accumulates across all scopes of a document. -/
structure ParseState where
  rules : List Rule
  ruleIds : Finset String
  index : ℕ
  rateLimits : Finmap (fun _ : ℕ => RateLimit)

/-- The state before the first rule. -/
def ParseState.empty : ParseState := ⟨[], ∅, 0, ∅⟩

/-- The fields of a rule mapping read so far. -/
structure RuleFields where
  action : Option String
  target : Option Yaml
  condition : Option Yaml
  id : Option String
  rateLimit : Option RateLimit

/-- One field of a rule mapping. -/
def ruleField (allowRateLimit : Bool) (acc : RuleFields) (entry : Yaml × Yaml) :
    Except PolicyError RuleFields := do
  let field ← fieldName entry.1 "rule"
  if field = "action" then
    let action ← stringOr entry.2 (.invalidAction (rt.describe entry.2))
    .ok { acc with action := some action }
  else if field = "target" then
    .ok { acc with target := some entry.2 }
  else if field = "condition" then
    .ok { acc with condition := some entry.2 }
  else if field = "id" then
    let id ← unambiguousStringOr entry.2 (.invalidField "rule.id")
      (.invalidField "rule.id must not be an ambiguous YAML scalar")
    .ok { acc with id := some id }
  else if field = "rate_limit" ∧ allowRateLimit = true then
    let rateLimit ← parseRateLimit entry.2
    .ok { acc with rateLimit := some rateLimit }
  else
    .error (.invalidField ("rule." ++ field))

/-- `rule_ids.insert(id)`, when the rule declares one. -/
def insertRuleId (ruleIds : Finset String) (id : Option String) :
    Except PolicyError (Finset String) :=
  match id with
  | none => .ok ruleIds
  | some id =>
      if id ∈ ruleIds then .error (.invalidField ("duplicate rule id: " ++ id))
      else .ok (insert id ruleIds)

/-- `add_rule`. -/
def addRule (allowRateLimit : Bool) (enclosingTarget : List (String × String))
    (state : ParseState) (value : Yaml) : Except PolicyError ParseState := do
  let fields ← mappingOf value "rule"
  let rule ← fields.foldlM (ruleField rt allowRateLimit) ⟨none, none, none, none, none⟩
  let action ← okOr rule.action (.invalidAction "missing rule.action")
  let ruleIds ← insertRuleId state.ruleIds rule.id
  let action ← parseAction action
  if rule.rateLimit.isSome ∧ action ≠ .allow then
    .error (.invalidField "rate_limit is permitted only on an allow rule")
  else
    let target ← parseTarget rule.target
    let target ← enclosingTarget.foldlM addEnclosingTarget target
    let condition ← parseConditions rt rule.condition
    .ok {
      rules := state.rules ++ [⟨action, target, condition, state.index⟩]
      ruleIds := ruleIds
      index := state.index + 1
      rateLimits := match rule.rateLimit with
        | some rateLimit => state.rateLimits.insert state.index rateLimit
        | none => state.rateLimits }

/-- `add_rules`. -/
def addRules (allowRateLimit : Bool) (enclosingTarget : List (String × String))
    (state : ParseState) (value : Yaml) : Except PolicyError ParseState :=
  match value.asSequence with
  | none => .error (.invalidField "rules must be a sequence")
  | some entries => entries.foldlM (addRule rt allowRateLimit enclosingTarget) state

/-! ## Agents -/

/-- The single field a configuration mapping may hold; another field is an error under `path`. -/
def onlyField (name scope path : String) (_ : Option Yaml) (entry : Yaml × Yaml) :
    Except PolicyError (Option Yaml) := do
  let field ← fieldName entry.1 scope
  if field = name then .ok (some entry.2)
  else .error (.invalidField (path ++ "." ++ field))

/-- One tool of an agent. -/
def addTool (allowRateLimit : Bool) (agentName : String) (state : ParseState)
    (entry : Yaml × Yaml) : Except PolicyError ParseState := do
  let toolName ← fieldName entry.1 "tool"
  let toolFields ← mappingOf entry.2 "tool configuration"
  let path := "agents." ++ agentName ++ ".tools." ++ toolName
  let toolRules ← toolFields.foldlM (onlyField "rules" "tool configuration" path) none
  let toolRules ← okOr toolRules (.invalidField (path ++ ".rules"))
  addRules rt allowRateLimit [("agent", agentName), ("tool", toolName)] state toolRules

/-- One agent of a document. -/
def addAgent (allowRateLimit : Bool) (state : ParseState) (entry : Yaml × Yaml) :
    Except PolicyError ParseState := do
  let agentName ← fieldName entry.1 "agent"
  let agentFields ← mappingOf entry.2 "agent configuration"
  let path := "agents." ++ agentName
  let tools ← agentFields.foldlM (onlyField "tools" "agent configuration" path) none
  let tools ← okOr tools (.invalidField (path ++ ".tools"))
  let tools ← mappingOf tools "tools"
  tools.foldlM (addTool rt allowRateLimit agentName) state

/-- `add_agents`. -/
def addAgents (allowRateLimit : Bool) (state : ParseState) (agents : Yaml) :
    Except PolicyError ParseState := do
  let agents ← mappingOf agents "agents"
  agents.foldlM (addAgent rt allowRateLimit) state

/-! ## Documents

The top level, the two versions, and the two entry points. -/

/-- One field of the `global` mapping. -/
def globalField (_ : Action) (entry : Yaml × Yaml) : Except PolicyError Action := do
  let field ← fieldName entry.1 "global"
  if field = "default_action" then
    let action ← stringOr entry.2 (.invalidAction (rt.describe entry.2))
    parseAction action
  else
    .error (.invalidField ("global." ++ field))

/-- `parse_global`. -/
def parseGlobal (value : Yaml) : Except PolicyError Action := do
  let fields ← mappingOf value "global"
  fields.foldlM (globalField rt) .allow

/-- One top-level field of a document. -/
def topLevelField (allowRateLimit : Bool) (acc : Action × ParseState) (entry : Yaml × Yaml) :
    Except PolicyError (Action × ParseState) := do
  let field ← fieldName entry.1 "top-level"
  if field = "version" then
    .ok acc
  else if field = "global" then
    let defaultAction ← parseGlobal rt entry.2
    .ok (defaultAction, acc.2)
  else if field = "rules" then
    let state ← addRules rt allowRateLimit [] acc.2 entry.2
    .ok (acc.1, state)
  else if field = "agents" then
    let state ← addAgents rt allowRateLimit acc.2 entry.2
    .ok (acc.1, state)
  else
    .error (.invalidField field)

/-- `parse_version`. -/
def parseVersion (policy : Yaml) (version : ℤ) (allowRateLimit : Bool) :
    Except PolicyError Engine := do
  let fields ← mappingOf policy "policy"
  let (defaultAction, state) ←
    fields.foldlM (topLevelField rt allowRateLimit) (.allow, .empty)
  .ok ⟨state.rules, state.rateLimits, version, defaultAction⟩

/-- `parse_v1`. -/
def parseV1 (policy : Yaml) : Except PolicyError Engine := parseVersion rt policy 1 false

/-- `parse_v2`. -/
def parseV2 (policy : Yaml) : Except PolicyError Engine := parseVersion rt policy 2 true

/-- `declared_version`. -/
def declaredVersion (policy : Yaml) : Except PolicyError ℤ := do
  let fields ← mappingOf policy "policy"
  match fields.get "version" with
  | none => .error (.unsupportedVersion none)
  | some value =>
      match value.asI64 with
      | some version => .ok version
      | none => .error (.unsupportedVersion value.asStr)

/-- `PolicyParser::parse` on a decoded document. -/
def parsePolicy (policy : Yaml) : Except PolicyError Engine := do
  let version ← declaredVersion policy
  if version = 1 then parseV1 rt policy
  else .error (.unsupportedVersion (some (toString version)))

/-- `PolicyParser::parse_rate_limited` on a decoded document. -/
def parseRateLimited (policy : Yaml) : Except PolicyError Engine := do
  let version ← declaredVersion policy
  if version = 2 then parseV2 rt policy
  else .error (.unsupportedVersion (some (toString version)))

end Conditions

end HpGuardian

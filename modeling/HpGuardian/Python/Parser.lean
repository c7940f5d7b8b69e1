import HpGuardian.Python.Engine
import HpGuardian.Python.Scalars

/-!
# The Python policy parser (`src/hp_guard/parser.py`)

Every mapping is first checked for unknown fields and then read by field name, in the order of the
Python source, which is not the document order.  So the defect that is reported first does not
depend on the order of the document, with one exception: the top level is a loop over the items of
the policy.

An error is a stable code with a message.  The messages quote values with `repr`, which is one of
the two library functions that stand outside the repository; the other reads timestamps.  Both are
parameters (`YamlRuntime`).

The functions follow the source one by one.  Rules accumulate in lists and dictionaries, which are
a state that is handed on; a rule's condition is kept as the dictionary that the engine will
evaluate, with its leaves as the document gives them.
-/

namespace HpGuardian.Python

/-- `PolicyError`. -/
structure PolicyError where
  code : String
  message : String
  deriving DecidableEq, Repr

/-- The library functions the parser calls. They may differ from those of the Rust parser; where
the two must agree, it is said so. -/
structure YamlRuntime where
  /-- `repr(value)`. -/
  repr : Yaml → String
  /-- `parse_utc_timestamp` on a string. -/
  utcTimestamp : String → Option Instant

/-- `_ACTIONS`. -/
def actions : List (String × Action) :=
  [("allow", .allow), ("deny", .deny), ("throttle", .throttle), ("log", .log),
    ("require_approval", .requireApproval), ("redirect", .redirect)]

/-! ## Shapes

Checks that occur throughout the parser. -/

/-- `_mapping`. -/
def mappingOf (value : Yaml) (name code : String) : Except PolicyError Fields :=
  match value.asMapping with
  | some fields => .ok fields
  | none => .error ⟨code, name ++ " must be a mapping"⟩

/-- `_string`. -/
def stringOf (value : Yaml) (name code : String) : Except PolicyError String :=
  match value.asStr with
  | some text => .ok text
  | none => .error ⟨code, name ++ " must be a string"⟩

section

variable (rt : YamlRuntime)

/-- `_unambiguous_string`. -/
def unambiguousString (value : Yaml) (name code : String) : Except PolicyError String := do
  let text ← stringOf value name code
  if isAmbiguousScalar text then
    .error ⟨code, name ++ " must not use an ambiguous YAML scalar: " ++ rt.repr value⟩
  else
    .ok text

/-- `_reject_unknown_fields`. -/
def rejectUnknownFields (fields : Fields) (allowed : List String) (name code : String) :
    Except PolicyError Unit :=
  match fields.find? (fun entry => !allowed.any (fun field => entry.1.asStr == some field)) with
  | some entry => .error ⟨code, "invalid field in " ++ name ++ ": " ++ rt.repr entry.1⟩
  | none => .ok ()

/-- `_parse_action`. -/
def parseAction (value : Yaml) : Except PolicyError Action :=
  match value.asStr.bind (fun text => List.lookup text actions) with
  | some action => .ok action
  | none => .error ⟨"invalid_action", "unsupported policy action: " ++ rt.repr value⟩

/-- A value that must be present. -/
def required (value : Option Yaml) (error : PolicyError) : Except PolicyError Yaml :=
  match value with
  | some value => .ok value
  | none => .error error

/-! ## Rate limits -/

/-- A decoded integer between 1 and 86400; a boolean is no integer here. -/
def quotaValue : Yaml → Option ℕ
  | .int value => if 1 ≤ value ∧ value ≤ 86400 then some value.toNat else none
  | _ => none

/-- `_parse_rate_limit`. -/
def parseRateLimit (value : Yaml) : Except PolicyError RateLimit := do
  let config ← mappingOf value "rate_limit" "invalid_field"
  rejectUnknownFields rt config ["max_calls", "window_seconds"] "rate_limit" "invalid_field"
  match config.get "max_calls", config.get "window_seconds" with
  | some maxCalls, some windowSeconds =>
      match quotaValue maxCalls, quotaValue windowSeconds with
      | some maxCalls, some windowSeconds => .ok ⟨maxCalls, windowSeconds⟩
      | _, _ =>
          .error ⟨"invalid_field",
            "rate_limit values must be positive integers at most 86400"⟩
  | _, _ => .error ⟨"invalid_field", "rate_limit requires max_calls and window_seconds"⟩

/-! ## Targets

A target is flattened into one dictionary, to which the enclosing scope is added entry by entry. -/

/-- One of the fields `agent`, `tool` and `user`, if the target has it. -/
def targetString (target : Fields) (parsed : StringMap) (key : String) :
    Except PolicyError StringMap :=
  match target.get key with
  | none => .ok parsed
  | some value => do
      let text ← unambiguousString rt value ("target." ++ key) "invalid_target"
      .ok (parsed.insert key text)

/-- One entry of `target.context`. -/
def contextEntry (parsed : StringMap) (entry : Yaml × Yaml) : Except PolicyError StringMap := do
  let key ← unambiguousString rt entry.1 "target.context key" "invalid_target"
  let value ← unambiguousString rt entry.2 ("target.context." ++ key) "invalid_target"
  .ok (parsed.insert ("context." ++ key) value)

/-- `_parse_target`. -/
def parseTarget (value : Yaml) : Except PolicyError StringMap := do
  let target ← mappingOf value "target" "invalid_target"
  rejectUnknownFields rt target ["agent", "tool", "user", "context"] "target" "invalid_target"
  let parsed ← ["agent", "tool", "user"].foldlM (targetString rt target) ∅
  match target.get "context" with
  | none => .ok parsed
  | some context => do
      let context ← mappingOf context "target.context" "invalid_target"
      context.foldlM (contextEntry rt) parsed

/-- One entry of the enclosing scope. -/
def addEnclosingTarget (target : StringMap) (enclosing : String × String) :
    Except PolicyError StringMap :=
  if ∃ value ∈ target.lookup enclosing.1, value ≠ enclosing.2 then
    .error ⟨"conflicting_target", "nested target conflicts with " ++ enclosing.1⟩
  else
    .ok (target.insert enclosing.1 enclosing.2)

/-! ## Conditions

The recursive part of the parser, bounded in depth and in the number of nodes. -/

/-- One leaf of a condition, which is stored as the document gives it. -/
def leafField (parsed : List (String × Operand)) (entry : Yaml × Yaml) :
    Except PolicyError (List (String × Operand)) := do
  let key ← stringOf entry.1 "condition" "invalid_condition"
  if key = "args_match" then
    let value ← unambiguousString rt entry.2 ("condition." ++ key) "invalid_condition"
    match parseArgsPattern value with
    | .ok _ => .ok (parsed ++ [(key, .text value)])
    | .error error =>
        .error ⟨"invalid_regex", "invalid args_match regex " ++ rt.repr entry.2 ++ ": " ++ error⟩
  else if key = "path_pattern" then
    let value ← unambiguousString rt entry.2 ("condition." ++ key) "invalid_condition"
    .ok (parsed ++ [(key, .text value)])
  else
    match parseTimeWindow rt.utcTimestamp entry.2 with
    | .ok _ => .ok (parsed ++ [(key, .window entry.2)])
    | .error error => .error ⟨"invalid_condition", "invalid time_window: " ++ error⟩

/-- `_CONDITION_FIELDS`. -/
def conditionFields : List String :=
  ["args_match", "path_pattern", "time_window", "all", "any", "not"]

mutual

/-- `_parse_condition_node`, with the number of nodes seen so far passed along. -/
def parseConditionNode (value : Yaml) (depth nodeCount : ℕ) :
    Except PolicyError (Condition × ℕ) :=
  match value with
  | .mapping condition => do
      rejectUnknownFields rt condition conditionFields "condition" "invalid_condition"
      let nodeCount := nodeCount + 1
      if 32 < depth then
        .error ⟨"invalid_condition", "condition nesting exceeds 32 levels"⟩
      else if 128 < nodeCount then
        .error ⟨"invalid_condition", "condition contains more than 128 nodes"⟩
      else
        match ["all", "any", "not"].filter (fun name => (Fields.get condition name).isSome) with
        | [] =>
            match condition.foldlM (leafField rt) [] with
            | .ok parsed => .ok (.dict parsed, nodeCount)
            | .error error => .error error
        | [operator] =>
            match condition with
            | [(_, operand)] =>
                if operator = "all" ∨ operator = "any" then
                  match operand with
                  | .sequence items =>
                      match parseChildren items (depth + 1) nodeCount with
                      | .ok (children, nodeCount) =>
                          .ok (.dict [(operator, .nodes children)], nodeCount)
                      | .error error => .error error
                  | _ =>
                      .error ⟨"invalid_condition",
                        "condition." ++ operator ++ " must be a sequence"⟩
                else
                  match parseConditionNode operand (depth + 1) nodeCount with
                  | .ok (child, nodeCount) => .ok (.dict [("not", .node child)], nodeCount)
                  | .error error => .error error
            | _ =>
                .error ⟨"invalid_condition",
                  "a boolean condition must contain exactly one operator"⟩
        | _ =>
            .error ⟨"invalid_condition",
              "a boolean condition must contain exactly one operator"⟩
  | _ => .error ⟨"invalid_condition", "condition must be a mapping"⟩

/-- The children of an `all` or `any`, in order. -/
def parseChildren (items : List Yaml) (depth nodeCount : ℕ) :
    Except PolicyError (List Condition × ℕ) :=
  match items with
  | [] => .ok ([], nodeCount)
  | item :: items =>
      match parseConditionNode item depth nodeCount with
      | .error error => .error error
      | .ok (child, nodeCount) =>
          match parseChildren items depth nodeCount with
          | .error error => .error error
          | .ok (children, nodeCount) => .ok (child :: children, nodeCount)

end

/-- `_parse_condition`. -/
def parseCondition (value : Yaml) : Except PolicyError Condition := do
  let (condition, _) ← parseConditionNode rt value 1 0
  .ok condition

/-! ## Rules

The accumulated state and the body of the loop over rules. -/

/-- The lists and maps the parser accumulates across all scopes of a document. -/
structure ParseState where
  rules : List Rule
  seenIds : Finset String
  rateLimits : Finmap (fun _ : ℕ => RateLimit)

/-- The state before the first rule. -/
def ParseState.empty : ParseState := ⟨[], ∅, ∅⟩

/-- The id of a rule, checked against the ids already seen. -/
def addRuleId (seenIds : Finset String) (id : Option Yaml) : Except PolicyError (Finset String) :=
  match id with
  | none => .ok seenIds
  | some id => do
      let id ← unambiguousString rt id "rule id" "invalid_field"
      if id ∈ seenIds then .error ⟨"invalid_field", "duplicate rule id: " ++ id⟩
      else .ok (insert id seenIds)

/-- `_parse_rate_limit(rule["rate_limit"]) if "rate_limit" in rule else None`. -/
def optionalRateLimit (value : Option Yaml) : Except PolicyError (Option RateLimit) :=
  match value with
  | none => .ok none
  | some value => do
      let rateLimit ← parseRateLimit rt value
      .ok (some rateLimit)

/-- The body of the loop in `_add_rules`. -/
def addRule (allowRateLimit : Bool) (enclosingTarget : List (String × String))
    (state : ParseState) (entry : Yaml) : Except PolicyError ParseState := do
  let rule ← mappingOf entry "rule" "invalid_field"
  let allowed :=
    ["id", "action", "target", "condition"] ++ if allowRateLimit then ["rate_limit"] else []
  rejectUnknownFields rt rule allowed "rule" "invalid_field"
  let action ← required (rule.get "action") ⟨"invalid_action", "rule action is required"⟩
  let seenIds ← addRuleId rt state.seenIds (rule.get "id")
  let target ← parseTarget rt ((rule.get "target").getD (.mapping []))
  let target ← enclosingTarget.foldlM addEnclosingTarget target
  let condition ← parseCondition rt ((rule.get "condition").getD (.mapping []))
  let action ← parseAction rt action
  let rateLimit ← optionalRateLimit rt (rule.get "rate_limit")
  if rateLimit.isSome ∧ action ≠ .allow then
    .error ⟨"invalid_field", "rate_limit is permitted only on an allow rule"⟩
  else
    let ruleIndex := state.rules.length
    .ok {
      rules := state.rules ++ [⟨action, target, condition, ruleIndex⟩]
      seenIds := seenIds
      rateLimits := match rateLimit with
        | some rateLimit => state.rateLimits.insert ruleIndex rateLimit
        | none => state.rateLimits }

/-- `_add_rules`. -/
def addRules (allowRateLimit : Bool) (enclosingTarget : List (String × String))
    (state : ParseState) (entries : Yaml) : Except PolicyError ParseState :=
  match entries.asSequence with
  | none => .error ⟨"invalid_field", "rules must be a sequence"⟩
  | some entries => entries.foldlM (addRule rt allowRateLimit enclosingTarget) state

/-! ## Agents -/

/-- One tool of an agent. -/
def addTool (allowRateLimit : Bool) (agentName : String) (state : ParseState)
    (entry : Yaml × Yaml) : Except PolicyError ParseState := do
  let toolName ← stringOf entry.1 "tool name" "invalid_field"
  let path := "agents." ++ agentName ++ ".tools." ++ toolName
  let toolConfig ← mappingOf entry.2 path "invalid_field"
  rejectUnknownFields rt toolConfig ["rules"] path "invalid_field"
  let rules ← required (toolConfig.get "rules")
    ⟨"invalid_field", "rules are required for tool " ++ toolName⟩
  addRules rt allowRateLimit [("agent", agentName), ("tool", toolName)] state rules

/-- One agent of a document. -/
def addAgent (allowRateLimit : Bool) (state : ParseState) (entry : Yaml × Yaml) :
    Except PolicyError ParseState := do
  let agentName ← stringOf entry.1 "agent name" "invalid_field"
  let path := "agents." ++ agentName
  let agentConfig ← mappingOf entry.2 path "invalid_field"
  rejectUnknownFields rt agentConfig ["tools"] path "invalid_field"
  let tools ← required (agentConfig.get "tools")
    ⟨"invalid_field", path ++ ".tools is required"⟩
  let tools ← mappingOf tools (path ++ ".tools") "invalid_field"
  tools.foldlM (addTool rt allowRateLimit agentName) state

/-- `_add_agents`. -/
def addAgents (allowRateLimit : Bool) (state : ParseState) (agents : Yaml) :
    Except PolicyError ParseState := do
  let agents ← mappingOf agents "agents" "invalid_field"
  agents.foldlM (addAgent rt allowRateLimit) state

/-! ## Documents

The top level, the two versions, and the entry points, on documents and on texts. -/

/-- The `global` mapping: the default action, unless it leaves the current one. -/
def globalConfig (defaultAction : Action) (value : Yaml) : Except PolicyError Action := do
  let config ← mappingOf value "global" "invalid_field"
  rejectUnknownFields rt config ["default_action"] "global" "invalid_field"
  match config.get "default_action" with
  | some action => parseAction rt action
  | none => .ok defaultAction

/-- One round of the loop over `policy.items()`. -/
def topLevelField (allowRateLimit : Bool) (acc : Action × ParseState) (entry : Yaml × Yaml) :
    Except PolicyError (Action × ParseState) :=
  if entry.1.asStr = some "version" then
    .ok acc
  else if entry.1.asStr = some "global" then do
    let defaultAction ← globalConfig rt acc.1 entry.2
    .ok (defaultAction, acc.2)
  else if entry.1.asStr = some "rules" then do
    let state ← addRules rt allowRateLimit [] acc.2 entry.2
    .ok (acc.1, state)
  else if entry.1.asStr = some "agents" then do
    let state ← addAgents rt allowRateLimit acc.2 entry.2
    .ok (acc.1, state)
  else
    .ok acc

/-- `_parse_version`. -/
def parseVersion (policy : Fields) (version : ℤ) (allowRateLimit : Bool) :
    Except PolicyError Engine := do
  rejectUnknownFields rt policy ["version", "global", "rules", "agents"] "policy" "invalid_field"
  let (defaultAction, state) ←
    policy.foldlM (topLevelField rt allowRateLimit) (.allow, .empty)
  .ok ⟨state.rules, defaultAction, version, state.rateLimits⟩

/-- `_parse_v1`. -/
def parseV1 (policy : Fields) : Except PolicyError Engine := parseVersion rt policy 1 false

/-- `_parse_v2`. -/
def parseV2 (policy : Fields) : Except PolicyError Engine := parseVersion rt policy 2 true

/-- `_load_policy` after decoding: the mapping and its integer version. -/
def loadPolicy (policy : Yaml) : Except PolicyError (Fields × ℤ) := do
  let policy ← mappingOf policy "policy" "invalid_field"
  match policy.get "version" with
  | some (.int version) => .ok (policy, version)
  | _ => .error ⟨"unsupported_version", "policy version must be an integer"⟩

/-- `PolicyParser.parse` on a decoded document. -/
def parsePolicy (policy : Yaml) : Except PolicyError Engine := do
  let (policy, version) ← loadPolicy policy
  if version ≠ 1 then
    .error ⟨"unsupported_version", "policy version must be the integer 1"⟩
  else
    parseV1 rt policy

/-- `PolicyParser.parse_rate_limited` on a decoded document. -/
def parseRateLimited (policy : Yaml) : Except PolicyError Engine := do
  let (policy, version) ← loadPolicy policy
  if version ≠ 2 then
    .error ⟨"unsupported_version", "rate-limited policy version must be the integer 2"⟩
  else
    parseV2 rt policy

/-- `PolicyParser.parse`; `decode` is `yaml.load` with the loader of the parser. -/
def parsePolicyText (decode : String → Except String Yaml) (text : String) :
    Except PolicyError Engine :=
  match decode text with
  | .ok policy => parsePolicy rt policy
  | .error error => .error ⟨"invalid_yaml", "invalid YAML policy: " ++ error⟩

/-- `PolicyParser.parse_rate_limited`. -/
def parseRateLimitedText (decode : String → Except String Yaml) (text : String) :
    Except PolicyError Engine :=
  match decode text with
  | .ok policy => parseRateLimited rt policy
  | .error error => .error ⟨"invalid_yaml", "invalid YAML policy: " ++ error⟩

end

end HpGuardian.Python

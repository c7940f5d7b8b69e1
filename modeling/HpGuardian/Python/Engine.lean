import HpGuardian.Policy.Models
import HpGuardian.Policy.Yaml

/-!
# The Python rule engine (`src/hp_guard/conditions.py`, `matching.py`, `engine.py`)

A condition is a dictionary: `all`, `any` or `not` over children, or leaves whose values are kept
as the document gives them, so that a pattern or a time window is parsed again at every evaluation
and may raise.  What is raised ends the resolution of the call (`Exception`), and the functions
return it as an error.  That it is never raised for what the parser builds is shown in the module
about both engines.

A dictionary of conditions is an inductive type of entries here, in insertion order, since the
evaluation goes through its keys in that order.  Calls, actions, limits and decisions have the same
fields as in the Rust runtime and share their types.

The pattern matcher is a recursion with an inner loop for repeated tokens; its cache only saves
repeated work and is left out.  Matching a path fills rows, as in the Rust runtime, with list
comprehensions instead of assignments.
-/

namespace HpGuardian.Python

/-- An exception raised while a call is resolved: by a pattern or a time window that cannot be
parsed, or by an operand of the wrong type. -/
inductive Exception where
  | valueError (message : String)
  | typeError
  deriving DecidableEq, Repr

mutual

/-- A condition dictionary, in insertion order. -/
inductive Condition where
  | dict (entries : List (String × Operand))

/-- A value of a condition dictionary. -/
inductive Operand where
  | nodes (children : List Condition)
  | node (child : Condition)
  | text (value : String)
  | window (value : Yaml)

end

/-- The entries of a condition dictionary. -/
def Condition.entries : Condition → List (String × Operand)
  | .dict entries => entries

/-- A rule of the Python engine. Its condition is the dictionary of the document, with nothing
parsed in advance. -/
structure Rule where
  action : Action
  target : StringMap
  condition : Condition
  ruleIndex : ℕ

/-! ## Argument patterns

The parser and the matcher of `args_match`. -/

/-- A pattern token: the character, or `None` for `.`, and whether it repeats. -/
abbrev PatternToken := Option Char × Bool

/-- A parsed pattern: the tokens and the two anchors. -/
structure ParsedPattern where
  tokens : List PatternToken
  anchoredStart : Bool
  anchoredEnd : Bool

/-- The `while` loop of `_parse_args_pattern` on the characters from `index` on. -/
def parseArgsLoop (index : ℕ) : List Char → ParsedPattern → Except String ParsedPattern
  | [], parsed => .ok parsed
  | character :: rest, parsed =>
      if character = '\\' then
        match rest with
        | [] => .error "only \\, ., *, ^, and $ may be escaped"
        | escaped :: rest =>
            if escaped ∈ ['\\', '.', '*', '^', '$'] then
              parseArgsLoop (index + 2) rest
                { parsed with tokens := parsed.tokens ++ [(some escaped, false)] }
            else
              .error "only \\, ., *, ^, and $ may be escaped"
      else if character = '^' then
        if index ≠ 0 then .error "^ is only valid at the start of a pattern"
        else parseArgsLoop (index + 1) rest { parsed with anchoredStart := true }
      else if character = '$' then
        if rest ≠ [] then .error "$ is only valid at the end of a pattern"
        else parseArgsLoop (index + 1) rest { parsed with anchoredEnd := true }
      else if character = '.' then
        parseArgsLoop (index + 1) rest { parsed with tokens := parsed.tokens ++ [(none, false)] }
      else if character = '*' then
        match parsed.tokens.getLast? with
        | none => .error "* must apply to one preceding literal or ."
        | some (token, repeats) =>
            if repeats then .error "* must apply to one preceding literal or ."
            else
              parseArgsLoop (index + 1) rest
                { parsed with tokens := parsed.tokens.dropLast ++ [(token, true)] }
      else if character ∈ ['[', ']', '(', ')', '|', '+', '?', '{', '}'] then
        .error ("unsupported v1 args_match character: " ++ character.toString)
      else
        parseArgsLoop (index + 1) rest
          { parsed with tokens := parsed.tokens ++ [(some character, false)] }

/-- `_parse_args_pattern`. -/
def parseArgsPattern (pattern : String) : Except String ParsedPattern :=
  parseArgsLoop 0 pattern.toList ⟨[], false, false⟩

/-- `_token_matches`. -/
def tokenMatches (token : Option Char) (character : Char) : Bool :=
  match token with
  | none => true
  | some expected => expected == character

/-- The character at a position is there and passes the token's test. -/
def consumes (token : Option Char) (text : List Char) (characterIndex : ℕ) : Bool :=
  match text[characterIndex]? with
  | some character => tokenMatches token character
  | none => false

/-- The inner `while` loop of `matches_from` for a repeated token: one more character at a time,
trying the next token after each. -/
def repeatLoop (token : Option Char) (text : List Char) (next : ℕ → Bool)
    (characterIndex : ℕ) : Bool :=
  if h : characterIndex < text.length then
    if consumes token text characterIndex then
      if next (characterIndex + 1) then true
      else repeatLoop token text next (characterIndex + 1)
    else
      false
  else
    false
termination_by text.length - characterIndex

/-- `matches_from` on the tokens from `token_index` on; `lru_cache` only saves repeated work. -/
def matchesFrom (anchoredEnd : Bool) (text : List Char) : List PatternToken → ℕ → Bool
  | [], characterIndex => !anchoredEnd || characterIndex == text.length
  | (token, repeats) :: tokens, characterIndex =>
      if repeats then
        if matchesFrom anchoredEnd text tokens characterIndex then true
        else repeatLoop token text (matchesFrom anchoredEnd text tokens) characterIndex
      else
        consumes token text characterIndex &&
          matchesFrom anchoredEnd text tokens (characterIndex + 1)

/-- `args_match`. -/
def argsMatch (args : List String) (pattern : String) : Except Exception Bool :=
  let concatenated := (" ".intercalate args).toList
  match parseArgsPattern pattern with
  | .error message => .error (.valueError message)
  | .ok parsed =>
      let startPositions :=
        if parsed.anchoredStart then [0] else List.range (concatenated.length + 1)
      .ok (startPositions.any (matchesFrom parsed.anchoredEnd concatenated parsed.tokens))

/-! ## Path patterns

The rows of `path_matches`. -/

/-- `current[index] = previous[index] or current[index - 1]` for the indices after the first. -/
def starCells (current : Bool) : List Bool → List Bool
  | [] => []
  | cell :: previous => (cell || current) :: starCells (cell || current) previous

/-- `current[index] = previous[index - 1] and pattern_character == path[index - 1]`. -/
def literalCells (patternCharacter : Char) : List Char → List Bool → List Bool
  | character :: path, cell :: previous =>
      (cell && patternCharacter == character) :: literalCells patternCharacter path previous
  | _, _ => []

/-- One round of the loop over the pattern. -/
def pathRow (path : List Char) (previous : List Bool) (patternCharacter : Char) : List Bool :=
  if patternCharacter = '*' then
    match previous with
    | [] => []
    | first :: rest => first :: starCells first rest
  else
    false :: literalCells patternCharacter path previous

/-- `path_matches`: the last cell of the last row. -/
def pathMatches (pattern path : String) : Bool :=
  let initial := true :: List.replicate path.toList.length false
  (pattern.toList.foldl (pathRow path.toList) initial).getLast?.getD false

/-! ## Conditions

Leaves are evaluated one by one, up to the first that does not match; a composition asks its
children. -/

/-- A list in which the lookup of a key is smaller than the list. -/
theorem sizeOf_lookup_lt {entries : List (String × Operand)} {key : String} {operand : Operand}
    (h : entries.lookup key = some operand) : sizeOf operand < sizeOf entries := by
  induction entries with
  | nil => simp at h
  | cons entry entries ih =>
      obtain ⟨k, o⟩ := entry
      rw [List.lookup_cons] at h
      split at h
      · obtain rfl := Option.some.inj h
        simp only [List.cons.sizeOf_spec, Prod.mk.sizeOf_spec]
        omega
      · have := ih h
        simp only [List.cons.sizeOf_spec]
        omega

section

-- `parse_utc_timestamp`: the instant of a valid timestamp
variable (utcTimestamp : String → Option Instant)

/-- `parse_utc_timestamp` on a decoded value. -/
def parseUtcTimestamp (value : Option Yaml) : Except String Instant :=
  match value with
  | some (.string text) =>
      match utcTimestamp text with
      | some instant => .ok instant
      | none => .error "timestamp must be a valid RFC 3339 UTC instant"
  | _ => .error "timestamp must be RFC 3339 UTC and end in Z"

/-- The keys of a mapping are exactly the given strings. -/
def keysAre (fields : Fields) (names : List String) : Bool :=
  fields.all (fun entry => names.any (fun name => entry.1.asStr == some name)) &&
    names.all (fun name => (fields.get name).isSome)

/-- `parse_time_window`. -/
def parseTimeWindow (value : Yaml) : Except String (Instant × Instant) :=
  match value.asMapping with
  | none => .error "time_window must contain exactly start and end"
  | some fields =>
      if keysAre fields ["start", "end"] then do
        let start ← parseUtcTimestamp utcTimestamp (fields.get "start")
        let stop ← parseUtcTimestamp utcTimestamp (fields.get "end")
        if stop ≤ start then .error "time_window.end must be later than time_window.start"
        else .ok (start, stop)
      else
        .error "time_window must contain exactly start and end"

/-- One leaf of a condition dictionary; an unknown key does not match. -/
def evaluateLeaf (call : PolicyCall) (now : Instant) (entry : String × Operand) :
    Except Exception Bool :=
  match entry with
  | ("args_match", .text pattern) => argsMatch call.args pattern
  | ("path_pattern", .text pattern) =>
      .ok (call.args.any (fun argument => pathMatches pattern argument))
  | ("time_window", .window value) =>
      match parseTimeWindow utcTimestamp value with
      | .error message => .error (.valueError message)
      | .ok (start, stop) => .ok (decide (start ≤ now) && decide (now < stop))
  | (key, _) =>
      if key = "args_match" ∨ key = "path_pattern" ∨ key = "time_window" then .error .typeError
      else .ok false

/-- The loop over the leaves, which stops at the first that does not match. -/
def evaluateLeaves (call : PolicyCall) (now : Instant) :
    List (String × Operand) → Except Exception Bool
  | [] => .ok true
  | entry :: entries => do
      if ← evaluateLeaf utcTimestamp call now entry then evaluateLeaves call now entries
      else .ok false

mutual

/-- `_evaluate_condition`. -/
def evaluateCondition (call : PolicyCall) (now : Instant) (condition : Condition) :
    Except Exception Bool :=
  match condition with
  | .dict entries =>
      match hall : entries.lookup "all" with
      | some (.nodes children) =>
          have := sizeOf_lookup_lt hall
          evaluateAll call now children
      | some _ => .error .typeError
      | none =>
          match hany : entries.lookup "any" with
          | some (.nodes children) =>
              have := sizeOf_lookup_lt hany
              evaluateAny call now children
          | some _ => .error .typeError
          | none =>
              match hnot : entries.lookup "not" with
              | some (.node child) => do
                  have := sizeOf_lookup_lt hnot
                  let result ← evaluateCondition call now child
                  .ok (!result)
              | some _ => .error .typeError
              | none => evaluateLeaves utcTimestamp call now entries
termination_by sizeOf condition
decreasing_by
  all_goals
    simp only [Condition.dict.sizeOf_spec, Operand.nodes.sizeOf_spec, Operand.node.sizeOf_spec] at *
    omega

/-- `all(...)` over the children. -/
def evaluateAll (call : PolicyCall) (now : Instant) (children : List Condition) :
    Except Exception Bool :=
  match children with
  | [] => .ok true
  | child :: children => do
      if ← evaluateCondition call now child then evaluateAll call now children else .ok false
termination_by sizeOf children

/-- `any(...)` over the children. -/
def evaluateAny (call : PolicyCall) (now : Instant) (children : List Condition) :
    Except Exception Bool :=
  match children with
  | [] => .ok false
  | child :: children => do
      if ← evaluateCondition call now child then .ok true else evaluateAny call now children
termination_by sizeOf children

end

/-- `evaluate`. -/
def evaluate (rule : Rule) (call : PolicyCall) (now : Instant) : Except Exception Bool :=
  evaluateCondition utcTimestamp call now rule.condition

/-! ## Targets

The entries of a target, all of which must match. -/

/-- `removeprefix("context.")`, for a key that starts with it. -/
def removeContextPrefix (fieldName : String) : Option String :=
  if "context.".toList.isPrefixOf fieldName.toList then
    some (String.ofList (fieldName.toList.drop "context.".toList.length))
  else
    none

/-- One entry of a rule's target against a call. -/
def targetEntryMatches (call : PolicyCall) (fieldName expectedValue : String) : Bool :=
  if fieldName = "agent" then some expectedValue == call.agent
  else if fieldName = "tool" then some expectedValue == call.tool
  else if fieldName = "user" then some expectedValue == call.user
  else
    match removeContextPrefix fieldName with
    | some contextKey => call.context.lookup contextKey == some expectedValue
    | none => false

/-- `rule_matches_rule`. -/
def ruleMatchesRule (rule : Rule) (call : PolicyCall) : Bool :=
  rule.target.everyEntry (targetEntryMatches call)

/-! ## Resolution

The comprehension over the rules, the selection loop, and the decision. -/

/-- `_rule_specificity`. -/
def ruleSpecificity (rule : Rule) : ℕ := rule.target.size

/-- `_action_priority`; `deny` is not in the table. -/
def actionPriority : Action → ℕ
  | .requireApproval => 5
  | .throttle => 4
  | .redirect => 3
  | .allow => 2
  | .log => 1
  | .deny => 0

/-- The Python rule engine. -/
structure Engine where
  rules : List Rule
  defaultAction : Action
  version : ℤ
  rateLimits : Finmap (fun _ : ℕ => RateLimit)

/-- The list comprehension over the rules. -/
def matchingRules (call : PolicyCall) (now : Instant) : List Rule → Except Exception (List Rule)
  | [] => .ok []
  | rule :: rules =>
      if ruleMatchesRule rule call then do
        let matched ← evaluate utcTimestamp rule call now
        let others ← matchingRules call now rules
        .ok (if matched then rule :: others else others)
      else
        matchingRules call now rules

/-- One round of the selection loop. -/
def betterRule (best rule : Rule) : Rule :=
  if ruleSpecificity best < ruleSpecificity rule then rule
  else if ruleSpecificity rule = ruleSpecificity best ∧
      actionPriority best.action < actionPriority rule.action then rule
  else best

/-- `Engine._resolve_call_at`. -/
def Engine.resolveWithSelectedRuleAt (engine : Engine) (call : PolicyCall) (now : Instant) :
    Except Exception (Decision × Option ℕ) := do
  match ← matchingRules utcTimestamp call now engine.rules with
  | [] => .ok (⟨engine.defaultAction, []⟩, none)
  | first :: others =>
      let matchedRules := (first :: others).map Rule.ruleIndex
      if (first :: others).any (fun rule => rule.action == .deny) then
        .ok (⟨.deny, matchedRules⟩, none)
      else
        let best := others.foldl betterRule first
        .ok (⟨best.action, matchedRules⟩, some best.ruleIndex)

/-- `Engine.resolve_call_at`. -/
def Engine.resolveCallAt (engine : Engine) (call : PolicyCall) (now : Instant) :
    Except Exception Decision := do
  let (decision, selectedRule) ← engine.resolveWithSelectedRuleAt utcTimestamp call now
  if selectedRule.any (fun index => decide (index ∈ engine.rateLimits)) &&
      decision.action == .allow then
    .ok ⟨.throttle, decision.matchedRules⟩
  else
    .ok decision

end

end HpGuardian.Python

import HpGuardian.Policy.Models
import HpGuardian.Policy.ArgsPattern

/-!
# The rule engine (`src/matching.rs`, `src/conditions.rs`, `src/engine.rs`)

A call is resolved by filtering the rules whose target and condition match, letting any deny win,
and otherwise selecting the rule that comes first among the best by specificity and action
priority.  The decision lists the indices of all matching rules, whichever is selected.

The functions follow the three source files in their order: targets, conditions, selection.  A
target is a flat map, whose entries must all match; an entry with an unknown key matches nothing.
A condition is evaluated at an explicit instant.  The selection is the loop of the source, which
starts with the first matching rule and replaces it by a later one only if that one outranks it.

The pure engine does not know the quotas: it answers `throttle` where the selected rule is a
limited allow rule.  The resolver of the quota modules asks the store instead.
-/

namespace HpGuardian

/-! ## Targets

A target entry is compared with the call's field of the same name. -/

/-- `strip_prefix("context.")`, which is `None` when the key does not start that way. -/
def stripContextPrefix (key : String) : Option String :=
  if "context.".toList <+: key.toList then
    some (String.ofList (key.toList.drop "context.".toList.length))
  else
    none

/-- One `agent`, `tool` or `user` entry of a target against the call's field. -/
def callFieldIs (field : Option String) (value : String) : Bool :=
  match field with
  | some callValue => callValue == value
  | none => false

/-- One entry of a rule's target against a call; an unknown key does not match. -/
def targetEntryMatches (call : PolicyCall) (key value : String) : Bool :=
  if key = "agent" then callFieldIs call.agent value
  else if key = "tool" then callFieldIs call.tool value
  else if key = "user" then callFieldIs call.user value
  else
    match stripContextPrefix key with
    | some contextKey => call.context.lookup contextKey == some value
    | none => false

/-- `rule_matches_rule`: all entries of the target must match. -/
def ruleMatchesRule (rule : Rule) (call : PolicyCall) : Bool :=
  rule.target.everyEntry (targetEntryMatches call)

/-! ## Conditions

The evaluator, and the two quantifiers over the children of a composition as list functions. -/

mutual

/-- `evaluate_condition`. -/
def evaluateCondition (call : PolicyCall) (now : Instant) : Condition → Bool
  | .leaves argsPattern pathPattern timeWindow =>
      argsPattern.all (fun pattern => argsMatch (" ".intercalate call.args) pattern) &&
        pathPattern.all (fun pattern =>
          call.args.any (fun argument => pathMatches pattern argument)) &&
        timeWindow.all (fun window => decide (window.start ≤ now) && decide (now < window.stop))
  | .all children => evaluateAll call now children
  | .any children => evaluateAny call now children
  | .not child => !evaluateCondition call now child

/-- The `all` over a composition's children. -/
def evaluateAll (call : PolicyCall) (now : Instant) : List Condition → Bool
  | [] => true
  | child :: children => evaluateCondition call now child && evaluateAll call now children

/-- The `any` over a composition's children. -/
def evaluateAny (call : PolicyCall) (now : Instant) : List Condition → Bool
  | [] => false
  | child :: children => evaluateCondition call now child || evaluateAny call now children

end

@[simp] theorem evaluateAll_eq (call : PolicyCall) (now : Instant) (children : List Condition) :
    evaluateAll call now children = children.all (evaluateCondition call now) := by
  induction children with
  | nil => rfl
  | cons child children ih => simp [evaluateAll, ih]

@[simp] theorem evaluateAny_eq (call : PolicyCall) (now : Instant) (children : List Condition) :
    evaluateAny call now children = children.any (evaluateCondition call now) := by
  induction children with
  | nil => rfl
  | cons child children ih => simp [evaluateAny, ih]

/-- `evaluate_at`: the rule's condition at an explicit instant. -/
def evaluateAt (rule : Rule) (call : PolicyCall) (now : Instant) : Bool :=
  evaluateCondition call now rule.condition

/-! ## Resolution

The selection loop and the two forms of an answer, with and without the selected rule. -/

/-- `rule_specificity`. -/
def ruleSpecificity (rule : Rule) : ℕ := rule.target.size

/-- `action_priority`. -/
def actionPriority : Action → ℕ
  | .deny => 6
  | .requireApproval => 5
  | .throttle => 4
  | .redirect => 3
  | .allow => 2
  | .log => 1

/-- The rule engine. -/
structure Engine where
  rules : List Rule
  rateLimits : Finmap (fun _ : ℕ => RateLimit)
  version : ℤ
  defaultAction : Action

/-- The rules whose target and condition match, in declaration order. -/
def Engine.matching (engine : Engine) (call : PolicyCall) (now : Instant) : List Rule :=
  engine.rules.filter (fun rule => ruleMatchesRule rule call && evaluateAt rule call now)

/-- The candidate replaces the best rule so far: it is more specific, or as specific and of an
action that comes first. A rule that merely ties does not, so the earliest of equals is kept. -/
def Outranks (candidate best : Rule) : Prop :=
  ruleSpecificity best < ruleSpecificity candidate ∨
    (ruleSpecificity candidate = ruleSpecificity best ∧
      actionPriority best.action < actionPriority candidate.action)

instance (candidate best : Rule) : Decidable (Outranks candidate best) :=
  inferInstanceAs (Decidable (_ ∨ _))

/-- The selection loop over the matching rules after the first. -/
def selectBest (first : Rule) (others : List Rule) : Rule :=
  others.foldl (fun best rule => if Outranks rule best then rule else best) first

/-- `Engine::resolve_call_with_selected_rule_at`. -/
def Engine.resolveCallWithSelectedRuleAt (engine : Engine) (call : PolicyCall) (now : Instant) :
    Decision × Option ℕ :=
  match engine.matching call now with
  | [] => (⟨engine.defaultAction, []⟩, none)
  | first :: others =>
      let matchedRules := (first :: others).map Rule.ruleIndex
      if (first :: others).any (fun rule => rule.action == .deny) then
        (⟨.deny, matchedRules⟩, none)
      else
        let best := selectBest first others
        (⟨best.action, matchedRules⟩, some best.ruleIndex)

/-- `Engine::resolve_call_at`: a limited allow rule answers `throttle` in the pure engine. -/
def Engine.resolveCallAt (engine : Engine) (call : PolicyCall) (now : Instant) : Decision :=
  let (decision, selectedRule) := engine.resolveCallWithSelectedRuleAt call now
  if selectedRule.any (fun index => decide (index ∈ engine.rateLimits)) &&
      decision.action == .allow then
    ⟨.throttle, decision.matchedRules⟩
  else
    decision

/-- Whatever is selected, the decision lists the indices of all matching rules. -/
theorem Engine.matchedRules_eq (engine : Engine) (call : PolicyCall) (now : Instant) :
    (engine.resolveCallAt call now).matchedRules =
      (engine.matching call now).map Rule.ruleIndex := by
  unfold Engine.resolveCallAt Engine.resolveCallWithSelectedRuleAt
  cases engine.matching call now with
  | nil => simp
  | cons first others =>
      dsimp only
      split <;> split <;> rfl

end HpGuardian

import HpGuardian.Framework.FiniteMap

/-!
# The policy data model (`src/models.rs`)

Rules, conditions, calls and decisions as the Rust runtime holds them.  Ordered maps are finite
maps, whose order is that of the keys and matters only where a map is written; an instant is the
number of nanoseconds since the Unix epoch, and may lie before it; `u64` and `usize` values are
natural numbers, their ranges being enforced where a document is parsed.

A condition is a tree with any number of children at each node, so functions on conditions are
mutually recursive with functions on lists of conditions.  `Condition.induction` is the induction
principle for both at once: it gives the hypothesis for every child, as a membership in the list.
-/

namespace HpGuardian

/-- A UTC instant, in nanoseconds since the Unix epoch. -/
abbrev Instant := ℤ

/-- A map with string keys and string values (`BTreeMap<String, String>`). -/
abbrev StringMap := Finmap (fun _ : String => String)

/-- Actions the engine can take when a rule matches. -/
inductive Action where
  | allow
  | deny
  | throttle
  | log
  | requireApproval
  | redirect
  deriving DecidableEq, Repr

/-- `Action::as_str`. -/
def Action.asStr : Action → String
  | .allow => "allow"
  | .deny => "deny"
  | .throttle => "throttle"
  | .log => "log"
  | .requireApproval => "require_approval"
  | .redirect => "redirect"

/-- A policy failed validation before it could be enforced. -/
inductive PolicyError where
  | invalidYaml (error : String)
  | unsupportedVersion (version : Option String)
  | invalidAction (action : String)
  | invalidCondition (condition : String)
  | invalidTarget (target : String)
  | invalidField (field : String)
  | conflictingTarget (target : String)
  | invalidRegex (pattern reason : String)
  deriving DecidableEq, Repr

/-- `PolicyError::code`: the stable, language-neutral code of a policy-loading failure. -/
def PolicyError.code : PolicyError → String
  | .invalidYaml _ => "invalid_yaml"
  | .invalidAction _ => "invalid_action"
  | .invalidCondition _ => "invalid_condition"
  | .invalidTarget _ => "invalid_target"
  | .invalidField _ => "invalid_field"
  | .conflictingTarget _ => "conflicting_target"
  | .invalidRegex _ _ => "invalid_regex"
  | .unsupportedVersion _ => "unsupported_version"

/-- A bounded fixed-window quota attached to a v2 allow rule. -/
structure RateLimit where
  maxCalls : ℕ
  windowSeconds : ℕ
  deriving DecidableEq, Repr

/-- An absolute UTC interval, inclusive at the start and exclusive at the end. -/
structure TimeWindow where
  start : Instant
  stop : Instant
  deriving DecidableEq, Repr

/-- A bounded, declarative condition tree attached to a policy rule. Leaves hold all that they
constrain at once; the inner nodes are the three connectives. -/
inductive Condition where
  | leaves (argsMatch pathPattern : Option String) (timeWindow : Option TimeWindow)
  | all (children : List Condition)
  | any (children : List Condition)
  | not (child : Condition)

/-- `Condition::default`: no leaf at all. -/
def Condition.default : Condition := .leaves none none none

/-- A single declarative policy rule. -/
structure Rule where
  action : Action
  target : StringMap
  condition : Condition
  ruleIndex : ℕ

/-- A tool call that the engine evaluates against policy rules. -/
structure PolicyCall where
  agent : Option String
  tool : Option String
  args : List String
  user : Option String
  context : StringMap
  deriving DecidableEq

/-- The decision returned by the engine for a given call. -/
structure Decision where
  action : Action
  matchedRules : List ℕ
  deriving DecidableEq, Repr

/-! ## Induction over condition trees -/

/-- Structural induction over a condition tree, with the hypothesis for every child. -/
theorem Condition.induction {motive : Condition → Prop}
    (leaves : ∀ a p t, motive (.leaves a p t))
    (all : ∀ cs, (∀ c ∈ cs, motive c) → motive (.all cs))
    (any : ∀ cs, (∀ c ∈ cs, motive c) → motive (.any cs))
    (not : ∀ c, motive c → motive (.not c)) (c : Condition) : motive c := by
  refine @Condition.rec motive (fun cs => ∀ c ∈ cs, motive c) leaves all any not ?_ ?_ c
  · simp
  · intro head tail hhead htail c hc
    rcases List.mem_cons.1 hc with rfl | hc
    · exact hhead
    · exact htail c hc

end HpGuardian

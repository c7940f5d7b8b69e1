import Mathlib
import HpGuardian.Simulator.Trace
import HpGuardian.Policy.Accepted

/-!
# Simulation (`src/simulator.rs`)

A policy is simulated with `Engine::resolve_call`, which reads the wall clock once for each
decision.  A clock is the stream of readings still to come, in nondecreasing order; every
simulation function takes the clock and returns it after its readings, so that which decision is
taken at which reading is part of the model.  The baseline policy is simulated before the
candidate, for each event.

A report carries the results of its policies and, if there are two, their differences.  An
expectation is held against the result of the policy it was recorded for, and against no other.

Two library functions stand outside the repository: the YAML decoder and the hexadecimal SHA-256 of
a text.
-/

namespace HpGuardian
namespace Simulator

/-! ## Clocks

Streams of readings.  A stopped clock repeats one forever. -/

/-- The readings of `Utc::now()` still to come. They never go back, but nothing keeps them from
standing still. -/
structure Clock where
  reading : ℕ → Instant
  monotone : Monotone reading

/-- The next reading. -/
def Clock.now (clock : Clock) : Instant := clock.reading 0

/-- The clock after its next reading. -/
def Clock.rest (clock : Clock) : Clock where
  reading n := clock.reading (n + 1)
  monotone _ _ h := clock.monotone (Nat.succ_le_succ h)

/-- A clock that reads the same instant forever. -/
def Clock.stopped (instant : Instant) : Clock := ⟨fun _ => instant, monotone_const⟩

/-- A clock that reads one instant once and a later one from then on. -/
def Clock.stepping (first later : Instant) (h : first ≤ later) : Clock where
  reading n := if n = 0 then first else later
  monotone := by
    intro m n hmn
    by_cases hm : m = 0
    · by_cases hn : n = 0 <;> simp [hm, hn, h]
    · have hn : n ≠ 0 := by omega
      simp [hm, hn]

@[simp] theorem Clock.now_stopped (instant : Instant) :
    (Clock.stopped instant).now = instant := rfl

@[simp] theorem Clock.rest_stopped (instant : Instant) :
    (Clock.stopped instant).rest = Clock.stopped instant := rfl

/-- `Engine::resolve_call`: the decision at the next reading. -/
def resolveCall (engine : Engine) (call : PolicyCall) (clock : Clock) : Decision × Clock :=
  (engine.resolveCallAt call clock.now, clock.rest)

/-! ## Policies

A text is parsed and gets the identity of its exact bytes. -/

/-- A validated policy and its identity for offline simulation. That its rules are numbered comes
from the parser and is kept here, so that an index in a report names one rule. -/
structure SimulationPolicy where
  identity : PolicyIdentity
  engine : Engine
  numbered : RulesNumbered engine.rules

section

variable (rt : YamlRuntime) (decode : String → Except String Yaml) (sha256 : String → String)

/-- `PolicyParser::parse`. -/
def parsePolicyText (policyText : String) : Except PolicyError Engine :=
  match decode policyText with
  | .ok policy => parsePolicy rt policy
  | .error error => .error (.invalidYaml error)

theorem parsePolicyText_numbered {policyText : String} {engine : Engine}
    (h : parsePolicyText rt decode policyText = .ok engine) : RulesNumbered engine.rules := by
  unfold parsePolicyText at h
  split at h
  · exact parsePolicy_numbered h
  · cases h

/-- `SimulationPolicy::parse`. -/
def SimulationPolicy.parse (policyText : String) : Except PolicyError SimulationPolicy :=
  match h : parsePolicyText rt decode policyText with
  | .ok engine =>
      .ok ⟨⟨traceVersion, sha256 policyText⟩, engine, parsePolicyText_numbered rt decode h⟩
  | .error error => .error error

end

/-! ## Reports

Results, comparisons and reports, for one event and for a trace. -/

/-- A policy decision within a simulation report. -/
structure SimulationResult where
  policy : PolicyIdentity
  decision : Action
  matchedRules : List ℕ
  matchesExpected : Option Bool
  deriving DecidableEq, Repr

/-- Differences between the baseline and candidate decisions for one event. Both are about the
decisions alone and say nothing of the expectation. -/
structure SimulationComparison where
  actionChanged : Bool
  matchedRulesChanged : Bool
  deriving DecidableEq, Repr

/-- A report record produced for one trace event. -/
structure SimulationReport where
  version : ℤ
  sequence : ℕ
  eventId : Option String
  expected : Option ExpectedMetadata
  results : List SimulationResult
  comparison : Option SimulationComparison
  deriving DecidableEq, Repr

/-- What a decision makes of the expectation recorded for the same policy. -/
def matchesExpected (expected : Option ExpectedMetadata) (policy : PolicyIdentity)
    (decision : Decision) : Option Bool :=
  expected.bind (fun expected =>
    if expected.policy = policy then
      some (expected.decision == decision.action &&
        expected.matchedRules == decision.matchedRules)
    else none)

/-- `simulate_policy`. -/
def simulatePolicy (policy : SimulationPolicy) (event : TraceEvent) (clock : Clock) :
    SimulationResult × Clock :=
  let (decision, clock) := resolveCall policy.engine event.call clock
  ({ policy := policy.identity
     decision := decision.action
     matchedRules := decision.matchedRules
     matchesExpected := matchesExpected event.expected policy.identity decision }, clock)

/-- The differences between two results. -/
def compareResults (baseline candidate : SimulationResult) : SimulationComparison where
  actionChanged := baseline.decision != candidate.decision
  matchedRulesChanged := baseline.matchedRules != candidate.matchedRules

/-- The report on an event with the given results. -/
def reportOf (event : TraceEvent) (results : List SimulationResult)
    (comparison : Option SimulationComparison) : SimulationReport where
  version := traceVersion
  sequence := event.sequence
  eventId := event.eventId
  expected := event.expected
  results := results
  comparison := comparison

/-- `simulate_event`: the baseline is simulated first. -/
def simulateEvent (event : TraceEvent) (baseline : SimulationPolicy)
    (candidate : Option SimulationPolicy) (clock : Clock) : SimulationReport × Clock :=
  let (first, clock) := simulatePolicy baseline event clock
  match candidate with
  | none => (reportOf event [first] none, clock)
  | some candidate =>
      let (second, clock) := simulatePolicy candidate event clock
      (reportOf event [first, second] (some (compareResults first second)), clock)

/-- The reports on the events of a trace, in order. -/
def simulateEvents (baseline : SimulationPolicy) (candidate : Option SimulationPolicy) :
    List TraceEvent → Clock → List SimulationReport
  | [], _ => []
  | event :: events, clock =>
      let (report, clock) := simulateEvent event baseline candidate clock
      report :: simulateEvents baseline candidate events clock

@[simp] theorem simulateEvents_nil (baseline : SimulationPolicy)
    (candidate : Option SimulationPolicy) (clock : Clock) :
    simulateEvents baseline candidate [] clock = [] := rfl

@[simp] theorem simulateEvents_cons (baseline : SimulationPolicy)
    (candidate : Option SimulationPolicy) (event : TraceEvent) (events : List TraceEvent)
    (clock : Clock) :
    simulateEvents baseline candidate (event :: events) clock =
      (simulateEvent event baseline candidate clock).1 ::
        simulateEvents baseline candidate events (simulateEvent event baseline candidate clock).2 :=
  rfl

/-- `simulate_trace`. -/
def simulateTrace (fromStr : String → Option Json) (baseline : SimulationPolicy)
    (candidate : Option SimulationPolicy) (trace : String) (clock : Clock) :
    Except TraceError (List SimulationReport) := do
  let events ← parseTrace fromStr trace
  .ok (simulateEvents baseline candidate events clock)

end Simulator
end HpGuardian

import HpGuardian.Enforcement.Wire
import HpGuardian.Python.Parser
import HpGuardian.Python.Trace
import HpGuardian.Simulator.Command

/-!
# The Python simulator (`src/hp_guard/simulator.py`, `src/hp_guard/simulate.py`)

A trace is parsed before any policy is evaluated; an exception of the engine is not caught.  Each
decision is taken at the next reading of a clock, as in the Rust simulator, and the reports are
dictionaries in the end, whose absent fields are left out.

The command reads its files in text mode, which turns every `\r\n` and every `\r` into a newline,
and prints the reports as `json.dumps` writes them.  `json.dumps` is written out for the values
that a report consists of, with the separators and escapes that the command asks for.

The command starts here from the paths that `argparse` has read; how `argparse` reads an argument
list is not modelled.  `repr` of a float and the library functions of the policy parser stand
outside the repository.  A command that prints nothing ends with a line on standard error or with
an exception that it does not catch (`CommandFailure`).
-/

namespace HpGuardian.Python

open Framework

/-! ## Policies and reports

The data classes, and their forms as dictionaries. -/

/-- `SimulationPolicy`. -/
structure SimulationPolicy where
  version : ℤ
  digest : String
  engine : Engine

/-- `SimulationPolicy.policy_identity`. -/
def SimulationPolicy.policyIdentity (policy : SimulationPolicy) : Json :=
  .object [("version", .int policy.version), ("sha256", .string policy.digest)]

/-- `ExpectedDecision.to_dict`. -/
def ExpectedDecision.toDict (expected : ExpectedDecision) : Json :=
  .object [
    ("policy", .object [("version", .int expected.policyVersion),
      ("sha256", .string expected.policyDigest)]),
    ("decision", .string expected.decision),
    ("matched_rules", .array (expected.matchedRules.map Json.int))]

/-- `SimulationResult`. -/
structure SimulationResult where
  policy : SimulationPolicy
  decision : String
  matchedRules : List ℕ
  matchesExpected : Option Bool

/-- `SimulationResult.to_dict`. -/
def SimulationResult.toDict (result : SimulationResult) : Json :=
  .object ([
    ("policy", result.policy.policyIdentity),
    ("decision", .string result.decision),
    ("matched_rules", indicesForm result.matchedRules)] ++
    optionalField "matches_expected" (result.matchesExpected.map Json.bool))

/-- `SimulationReport`. -/
structure SimulationReport where
  sequence : ℤ
  eventId : Option String
  expected : Option ExpectedDecision
  results : List SimulationResult

/-- The comparison in `SimulationReport.to_dict`: only two results are compared. -/
def SimulationReport.comparison (report : SimulationReport) : Option Json :=
  match report.results with
  | [baseline, candidate] =>
      some (.object [
        ("action_changed", .bool (baseline.decision != candidate.decision)),
        ("matched_rules_changed", .bool (baseline.matchedRules != candidate.matchedRules))])
  | _ => none

/-- `SimulationReport.to_dict`. -/
def SimulationReport.toDict (report : SimulationReport) : Json :=
  .object ([("version", .int 1), ("sequence", .int report.sequence)] ++
    optionalField "event_id" (report.eventId.map Json.string) ++
    optionalField "expected" (report.expected.map ExpectedDecision.toDict) ++
    [("results", .array (report.results.map SimulationResult.toDict))] ++
    optionalField "comparison" report.comparison)

/-! ## Simulation

One policy on one event, all policies, all events. -/

/-- An exception that ends a simulation. -/
inductive SimulationError where
  | trace (error : TraceError)
  | engine (error : Exception)
  deriving DecidableEq, Repr

section

variable (rt : YamlRuntime) (decode : String → Except String Yaml) (sha256 : String → String)
  (loads : String → Option Json)

/-- `SimulationPolicy.parse`. -/
def SimulationPolicy.parse (policyText : String) : Except PolicyError SimulationPolicy := do
  let engine ← parsePolicyText rt decode policyText
  .ok ⟨1, sha256 policyText, engine⟩

/-- What a decision makes of the expectation recorded for the same policy. -/
def matchesExpected (expected : Option ExpectedDecision) (policy : SimulationPolicy)
    (decision : Decision) : Option Bool :=
  expected.bind (fun expected =>
    if policy.version = expected.policyVersion ∧ policy.digest = expected.policyDigest then
      some (decision.action.asStr == expected.decision &&
        decision.matchedRules.map (fun index : ℕ => (index : ℤ)) == expected.matchedRules)
    else none)

/-- `_simulate_policy`. -/
def simulatePolicy (policy : SimulationPolicy) (event : TraceEvent) (clock : Simulator.Clock) :
    Except Exception (SimulationResult × Simulator.Clock) := do
  let decision ← policy.engine.resolveCallAt rt.utcTimestamp event.call clock.now
  .ok ({ policy := policy
         decision := decision.action.asStr
         matchedRules := decision.matchedRules
         matchesExpected := matchesExpected event.expected policy decision }, clock.rest)

/-- The results of `_simulate_event`, one policy after the other. -/
def simulatePolicies (event : TraceEvent) : List SimulationPolicy → Simulator.Clock →
    Except Exception (List SimulationResult × Simulator.Clock)
  | [], clock => .ok ([], clock)
  | policy :: policies, clock => do
      let (result, clock) ← simulatePolicy rt policy event clock
      let (results, clock) ← simulatePolicies event policies clock
      .ok (result :: results, clock)

/-- `_simulate_event`. -/
def simulateEvent (event : TraceEvent) (policies : List SimulationPolicy)
    (clock : Simulator.Clock) : Except Exception (SimulationReport × Simulator.Clock) := do
  let (results, clock) ← simulatePolicies rt event policies clock
  .ok (⟨event.sequence, event.eventId, event.expected, results⟩, clock)

/-- The reports on the events of a trace, in order. -/
def simulateEvents (policies : List SimulationPolicy) : List TraceEvent → Simulator.Clock →
    Except Exception (List SimulationReport)
  | [], _ => .ok []
  | event :: events, clock => do
      let (report, clock) ← simulateEvent rt event policies clock
      let reports ← simulateEvents policies events clock
      .ok (report :: reports)

/-- `simulate_trace`. -/
def simulateTrace (baseline : SimulationPolicy) (candidate : Option SimulationPolicy)
    (jsonl : String) (clock : Simulator.Clock) :
    Except SimulationError (List SimulationReport) := do
  let events ← (parseTrace loads jsonl).mapError SimulationError.trace
  (simulateEvents rt (baseline :: candidate.toList) events clock).mapError SimulationError.engine

end

/-! ## The command

Files, arguments, and what is printed. -/

mutual

/-- `json.dumps` with compact separators and without escapes for characters beyond ASCII. -/
def dumps (floatRepr : UInt64 → List Char) : Json → List Char
  | .null => "null".toList
  | .bool value => writeBool value
  | .int value => writeInt value
  | .float bits => floatRepr bits
  | .string value => writeString value
  | .array items => writeArray (dumpsItems floatRepr items)
  | .object entries => writeObject (dumpsEntries floatRepr entries)

/-- The items of a list in `json.dumps`. -/
def dumpsItems (floatRepr : UInt64 → List Char) : List Json → List (List Char)
  | [] => []
  | item :: items => dumps floatRepr item :: dumpsItems floatRepr items

/-- The items of a dictionary in `json.dumps`. -/
def dumpsEntries (floatRepr : UInt64 → List Char) :
    List (String × Json) → List (String × List Char)
  | [] => []
  | (key, item) :: entries => (key, dumps floatRepr item) :: dumpsEntries floatRepr entries

end

/-- The line ends that text mode reads as newlines. -/
def universalNewlines : List Char → List Char
  | [] => []
  | [character] => if character = '\r' then ['\n'] else [character]
  | character :: next :: rest =>
      if character = '\r' then
        if next = '\n' then '\n' :: universalNewlines rest
        else '\n' :: universalNewlines (next :: rest)
      else character :: universalNewlines (next :: rest)

/-- How a command ends that prints nothing: with a line on standard error, or with an exception
that it does not catch. -/
inductive CommandFailure where
  | reported (error : Simulator.CliError)
  | uncaught (error : Exception)
  deriving DecidableEq, Repr

/-- An error that is reported without a line number. -/
def CommandFailure.code (code : String) : CommandFailure := .reported ⟨code, none⟩

section

variable (rt : YamlRuntime) (decode : String → Except String Yaml) (sha256 : String → String)
  (loads : String → Option Json) (floatRepr : UInt64 → List Char)

/-- `_read_text`. -/
def readText (host : Simulator.Host) (path : String) : Except CommandFailure String :=
  okOr ((host.files path).map (fun text => String.ofList (universalNewlines text.toList)))
    (.code "io_error")

/-- A policy that `main` loads, with the error it reports. -/
def loadSimulationPolicy (host : Simulator.Host) (path : String) :
    Except CommandFailure SimulationPolicy := do
  let policyText ← readText host path
  (SimulationPolicy.parse rt decode sha256 policyText).mapError
    (fun error => .code error.code)

/-- The errors of a simulation in `main`. -/
def SimulationError.failure : SimulationError → CommandFailure
  | .trace error => .reported ⟨error.code, some error.line⟩
  | .engine error => .uncaught error

/-- `main`, on the arguments that `argparse` hands it: the text that is printed. -/
def main (host : Simulator.Host) (arguments : Simulator.Arguments) :
    Except CommandFailure (List Char) := do
  let baseline ← loadSimulationPolicy rt decode sha256 host arguments.policy
  let candidate ← arguments.compare.mapM (loadSimulationPolicy rt decode sha256 host)
  let trace ← readText host arguments.trace
  let reports ← (simulateTrace rt loads baseline candidate trace host.clock).mapError
    SimulationError.failure
  let output := reports.flatMap (fun report => dumps floatRepr report.toDict ++ ['\n'])
  if host.stdout output then .ok output else .error (.code "io_error")

end

end HpGuardian.Python

import HpGuardian.Audit.KilledAppend
import HpGuardian.Simulator.Simulate

/-!
# The simulator command (`src/bin/hp-guard-simulate.rs`)

The command reads a policy, a trace and perhaps a second policy, and prints one report on a line
for each event.  It prints nothing before all reports are there; an error is one line on standard
error.

Arguments are read by a loop of the source, which takes options with their values in any order and
refuses what is repeated, unknown or missing.  The files are read in a fixed order, each error with
the file that it is about, and then the trace is simulated at the readings of a clock.  What is
printed is written out as `serde_json` writes it, field by field.

Files are texts: a file that is missing or is not UTF-8 cannot be read.  What a command finds is a
`Host`, with the texts that standard output takes among it; if it does not take the reports, the
command fails like one that cannot read a file.  What a standard output that fails keeps of the
text it was given is not modelled.
-/

namespace HpGuardian
namespace Simulator

open Framework

/-! ## Reports as `serde_json` writes them

The compact text of each part of a report, absent members skipped. -/

/-- The text of a `PolicyIdentity`. -/
def PolicyIdentity.compact (identity : PolicyIdentity) : List Char :=
  writeObject [("version", writeInt identity.version), ("sha256", writeString identity.sha256)]

/-- The text of a list of rule indices. -/
def writeIndices (indices : List ℕ) : List Char := writeArray (indices.map writeNat)

/-- The text of an `ExpectedMetadata`. -/
def ExpectedMetadata.compact (expected : ExpectedMetadata) : List Char :=
  writeObject [
    ("policy", expected.policy.compact),
    ("decision", writeAction expected.decision),
    ("matched_rules", writeIndices expected.matchedRules)]

/-- The text of a `SimulationResult`. -/
def SimulationResult.compact (result : SimulationResult) : List Char :=
  writeObject ([
    ("policy", result.policy.compact),
    ("decision", writeAction result.decision),
    ("matched_rules", writeIndices result.matchedRules)] ++
    optionalMember "matches_expected" writeBool result.matchesExpected)

/-- The text of a `SimulationComparison`. -/
def SimulationComparison.compact (comparison : SimulationComparison) : List Char :=
  writeObject [
    ("action_changed", writeBool comparison.actionChanged),
    ("matched_rules_changed", writeBool comparison.matchedRulesChanged)]

/-- The text of a `SimulationReport`. -/
def SimulationReport.compact (report : SimulationReport) : List Char :=
  writeObject ([("version", writeInt report.version), ("sequence", writeNat report.sequence)] ++
    optionalMember "event_id" writeString report.eventId ++
    optionalMember "expected" ExpectedMetadata.compact report.expected ++
    [("results", writeArray (report.results.map SimulationResult.compact))] ++
    optionalMember "comparison" SimulationComparison.compact report.comparison)

/-! ## Arguments

The loop over the arguments, and what must be there in the end. -/

/-- The paths the command was given. -/
structure Arguments where
  policy : String
  trace : String
  compare : Option String
  deriving DecidableEq, Repr

/-- What the command reports on standard error. -/
structure CliError where
  code : String
  line : Option ℕ
  deriving DecidableEq, Repr

/-- The error of an argument list that is not understood. -/
def invalidArguments : CliError := ⟨"invalid_arguments", none⟩

/-- The error of a file or of standard output. -/
def ioError : CliError := ⟨"io_error", none⟩

/-- The options seen so far. -/
structure Options where
  policy : Option String
  trace : Option String
  compare : Option String
  deriving DecidableEq

/-- The loop of `parse_arguments`. -/
def takeOptions (options : Options) : List String → Except CliError Options
  | [] => .ok options
  | [_] => .error invalidArguments
  | argument :: value :: arguments =>
      if argument = "--policy" ∧ options.policy = none then
        takeOptions { options with policy := some value } arguments
      else if argument = "--trace" ∧ options.trace = none then
        takeOptions { options with trace := some value } arguments
      else if argument = "--compare" ∧ options.compare = none then
        takeOptions { options with compare := some value } arguments
      else
        .error invalidArguments

/-- `parse_arguments`. -/
def parseArguments (arguments : List String) : Except CliError Arguments := do
  let options ← takeOptions ⟨none, none, none⟩ arguments
  let policy ← okOr options.policy invalidArguments
  let trace ← okOr options.trace invalidArguments
  .ok ⟨policy, trace, options.compare⟩

/-! ## A run

From the arguments to what a process has written when it ends. -/

/-- What a run finds: the texts of the files, the readings of the clock, and the texts that
standard output takes. -/
structure Host where
  files : String → Option String
  clock : Clock
  stdout : List Char → Bool
  takesNothing : stdout [] = true

/-- `read_file`. -/
def readFile (host : Host) (path : String) : Except CliError String :=
  okOr (host.files path) ioError

section

variable (rt : YamlRuntime) (decode : String → Except String Yaml) (sha256 : String → String)
  (fromStr : String → Option Json)

/-- `SimulationPolicy::parse`, its error as the command reports it. -/
def loadPolicy (policyText : String) : Except CliError SimulationPolicy :=
  (SimulationPolicy.parse rt decode sha256 policyText).mapError (fun error => ⟨error.code, none⟩)

/-- `run` after its arguments: the text that is printed. -/
def runWith (host : Host) (arguments : Arguments) : Except CliError (List Char) := do
  let baselineText ← readFile host arguments.policy
  let trace ← readFile host arguments.trace
  let baseline ← loadPolicy rt decode sha256 baselineText
  let candidateText ← arguments.compare.mapM (readFile host)
  let candidate ← candidateText.mapM (loadPolicy rt decode sha256)
  let reports ← (simulateTrace fromStr baseline candidate trace host.clock).mapError
    (fun error => (⟨error.code.asStr, some error.line⟩ : CliError))
  let output := ['\n'].intercalate (reports.map SimulationReport.compact)
  if output = [] then .ok []
  else if host.stdout (output ++ ['\n']) then .ok (output ++ ['\n'])
  else .error ioError

/-- `run`. -/
def run (host : Host) (arguments : List String) : Except CliError (List Char) := do
  let arguments ← parseArguments arguments
  runWith rt decode sha256 fromStr host arguments

/-- The line that reports an error. -/
def CliError.compact (error : CliError) : List Char :=
  writeObject [("code", writeString error.code), ("line", writeOption writeNat error.line)]

/-- What a process has written when it ends, and its status. It is all that a caller of the command
can see. -/
structure Exit where
  stdout : List Char
  stderr : List Char
  status : ℕ
  deriving DecidableEq

/-- How a command that prints its result or reports an error exits. -/
def exitOf : Except CliError (List Char) → Exit
  | .ok output => ⟨output, [], 0⟩
  | .error error => ⟨[], error.compact ++ ['\n'], 1⟩

/-- `main`. -/
def main (host : Host) (arguments : List String) : Exit :=
  exitOf (run rt decode sha256 fromStr host arguments)

end

end Simulator
end HpGuardian

import HpGuardian.Framework.FiniteMap
import HpGuardian.Framework.Dictionary
import HpGuardian.Framework.Selection
import HpGuardian.Framework.Runs
import HpGuardian.Framework.StarredItems
import HpGuardian.Framework.Glob
import HpGuardian.Framework.Outcomes
import HpGuardian.Framework.PartialTests
import HpGuardian.Framework.Stops
import HpGuardian.Framework.CharRegex
import HpGuardian.Framework.Numbered
import HpGuardian.Framework.StepProgram
import HpGuardian.Framework.Mirrors
import HpGuardian.Framework.Meters
import HpGuardian.Framework.Leases
import HpGuardian.Framework.Clients
import HpGuardian.Framework.Moves
import HpGuardian.Framework.Scans
import HpGuardian.Framework.Lines
import HpGuardian.Framework.Utf8
import HpGuardian.Framework.JsonText
import HpGuardian.Policy.Models
import HpGuardian.Policy.ArgsPattern
import HpGuardian.Policy.PatternLanguages
import HpGuardian.Policy.PatternGrammar
import HpGuardian.Policy.Engine
import HpGuardian.Policy.Resolution
import HpGuardian.Policy.Yaml
import HpGuardian.Policy.Parser
import HpGuardian.Policy.Fields
import HpGuardian.Policy.ConditionTrees
import HpGuardian.Policy.Accepted
import HpGuardian.Policy.RuleEntries
import HpGuardian.Policy.ReadRules
import HpGuardian.Policy.Targets
import HpGuardian.Policy.ScopeRepetition
import HpGuardian.Policy.Json
import HpGuardian.Python.Scalars
import HpGuardian.Python.Engine
import HpGuardian.Python.Parser
import HpGuardian.Parity.Patterns
import HpGuardian.Parity.Scalars
import HpGuardian.Parity.Engine
import HpGuardian.Parity.Documents
import HpGuardian.Parity.Conditions
import HpGuardian.Parity.Parser
import HpGuardian.Parity.ConditionCodes
import HpGuardian.Parity.RuleCodes
import HpGuardian.Parity.PolicyCodes
import HpGuardian.Quota.Store
import HpGuardian.Policy.WellFormed
import HpGuardian.Policy.CallForm
import HpGuardian.Policy.Erasure
import HpGuardian.Quota.WindowQuota
import HpGuardian.Quota.Capacity
import HpGuardian.Quota.IdealCounter
import HpGuardian.Quota.PolicyStore
import HpGuardian.Quota.Clients
import HpGuardian.Quota.Sharing
import HpGuardian.Python.Quota
import HpGuardian.Parity.Quota
import HpGuardian.Simulator.Trace
import HpGuardian.Simulator.Events
import HpGuardian.Python.Trace
import HpGuardian.Parity.Trace
import HpGuardian.Simulator.Simulate
import HpGuardian.Simulator.Determinism
import HpGuardian.Simulator.Reports
import HpGuardian.Audit.Records
import HpGuardian.Enforcement.Adapter
import HpGuardian.Enforcement.Evidence
import HpGuardian.Enforcement.Requests
import HpGuardian.Enforcement.Trail
import HpGuardian.Enforcement.Prediction
import HpGuardian.Audit.Disk
import HpGuardian.Audit.Rotation
import HpGuardian.Audit.Convergence
import HpGuardian.Audit.Manifests
import HpGuardian.Audit.Tails
import HpGuardian.Audit.Log
import HpGuardian.Audit.Spec
import HpGuardian.Audit.Layouts
import HpGuardian.Audit.FailedAppend
import HpGuardian.Audit.Retention
import HpGuardian.Audit.Underway
import HpGuardian.Audit.FailedRotation
import HpGuardian.Audit.FailedRecovery
import HpGuardian.Audit.TailClasses
import HpGuardian.Audit.Directories
import HpGuardian.Python.Tails
import HpGuardian.Python.Directories
import HpGuardian.Python.Manifests
import HpGuardian.Parity.Manifests
import HpGuardian.Python.Rotation
import HpGuardian.Parity.Rotation
import HpGuardian.Python.Log
import HpGuardian.Parity.Log
import HpGuardian.Parity.Recovery
import HpGuardian.Parity.Accounts
import HpGuardian.Parity.Appending
import HpGuardian.Parity.Handles
import HpGuardian.Parity.Turns
import HpGuardian.Audit.KilledAppend
import HpGuardian.Enforcement.Wire
import HpGuardian.Enforcement.Boundary
import HpGuardian.Python.Adapter
import HpGuardian.Parity.Adapter
import HpGuardian.Parity.Fleets
import HpGuardian.Audit.ManifestCrash
import HpGuardian.Simulator.Command
import HpGuardian.Simulator.CommandLine
import HpGuardian.Python.Simulate
import HpGuardian.Parity.Simulate

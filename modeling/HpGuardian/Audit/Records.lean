import HpGuardian.Policy.Engine

/-!
# Audit records (`src/audit.rs`)

The evidence that the audit boundary writes, the policy snapshot it is about, and the errors of the
audit log and the store above it.

There are three kinds of records: a policy was activated, a call was decided, and an outcome was
reported for a decision.  Each carries what is needed to read it without the others, the digest of
the policy and the decision among it, and the fields that do not apply to a kind are absent.  The
records are values here, and how they are written as a line is up to the JSON library; their fields
and the order of these are the business of `Evidence`.

The constructors at the end follow the source, so that a record is only ever made with the fields
of its kind.
-/

namespace HpGuardian

/-- Errors which prevent durable audit evidence or safe policy enforcement. Those of the file
system carry a text, those of the log's own checks do not. -/
inductive AuditError where
  | io (error : String)
  | serialization (error : String)
  | policy (error : PolicyError)
  | noActivePolicy
  | invalidConfiguration (field : String)
  | outcomeDetailTooLong (maxBytes actualBytes : ℕ)
  | lockUnavailable
  | corrupt
  | recoveryFailed
  | recoveryUnsupported
  | closed
  deriving DecidableEq, Repr

/-- A validated policy and the identity of its exact source text. -/
structure PolicySnapshot where
  version : ℤ
  digest : String
  engine : Engine

/-- Bounded terminal states that an executor may report after authorization. -/
inductive OutcomeStatus where
  | succeeded
  | failed
  | timedOut
  deriving DecidableEq, Repr

/-- The kinds of audit records. -/
inductive AuditEvent where
  | activation
  | authorization
  | outcome
  deriving DecidableEq, Repr

/-- One line of the audit log. The fields that a kind of record does not have are `none`, or an
empty list. -/
structure AuditRecord where
  timestamp : Instant
  event : AuditEvent
  correlationId : Option String
  callerId : Option String
  deadlineUnixMs : Option ℕ
  policyVersion : ℤ
  policyDigest : String
  agent : Option String
  tool : Option String
  user : Option String
  decision : Option Action
  matchedRules : List ℕ
  outcomeStatus : Option OutcomeStatus
  outcomeDetail : Option (Option String)
  deriving DecidableEq, Repr

/-- A decision which is safe to act on only after it has been returned successfully. It keeps the
policy that it was made under, which its outcome is recorded with later. -/
structure Authorization where
  correlationId : String
  snapshot : PolicySnapshot
  decision : Decision
  agent : Option String
  tool : Option String
  user : Option String
  callerId : Option String
  deadlineUnixMs : Option ℕ

/-- What the enforcement boundary knows about a call beyond the call itself. -/
structure AuthorizationMetadata where
  correlationId : String
  callerId : String
  deadlineUnixMs : ℕ
  deriving DecidableEq, Repr

/-- `AuditRecord::activation`. -/
def AuditRecord.activation (snapshot : PolicySnapshot) (timestamp : Instant) : AuditRecord where
  timestamp := timestamp
  event := .activation
  correlationId := none
  callerId := none
  deadlineUnixMs := none
  policyVersion := snapshot.version
  policyDigest := snapshot.digest
  agent := none
  tool := none
  user := none
  decision := none
  matchedRules := []
  outcomeStatus := none
  outcomeDetail := none

/-- `AuditRecord::authorization`. -/
def AuditRecord.authorization (snapshot : PolicySnapshot) (correlationId : String)
    (callerId : Option String) (deadlineUnixMs : Option ℕ) (call : PolicyCall)
    (decision : Decision) (timestamp : Instant) : AuditRecord where
  timestamp := timestamp
  event := .authorization
  correlationId := some correlationId
  callerId := callerId
  deadlineUnixMs := deadlineUnixMs
  policyVersion := snapshot.version
  policyDigest := snapshot.digest
  agent := call.agent
  tool := call.tool
  user := call.user
  decision := some decision.action
  matchedRules := decision.matchedRules
  outcomeStatus := none
  outcomeDetail := none

/-- `AuditRecord::outcome`. -/
def AuditRecord.outcome (authorization : Authorization) (status : OutcomeStatus)
    (detail : Option String) (timestamp : Instant) : AuditRecord where
  timestamp := timestamp
  event := .outcome
  correlationId := some authorization.correlationId
  callerId := authorization.callerId
  deadlineUnixMs := authorization.deadlineUnixMs
  policyVersion := authorization.snapshot.version
  policyDigest := authorization.snapshot.digest
  agent := authorization.agent
  tool := authorization.tool
  user := authorization.user
  decision := some authorization.decision.action
  matchedRules := authorization.decision.matchedRules
  outcomeStatus := some status
  outcomeDetail := some detail

end HpGuardian

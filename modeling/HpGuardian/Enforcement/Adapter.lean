import HpGuardian.Audit.Records
import HpGuardian.Framework.Runs
import HpGuardian.Simulator.Trace

/-!
# The enforcement boundary (`src/adapter.rs`, `src/audit.rs`)

`InlineEnforcementAdapter::authorize` checks a request, lets the audited store resolve and record
it, and returns data for the host to execute.  The order is what makes it safe: the checks come
before the decision, the decision before the record, and a response only after the record has been
written, so a host never holds a response of which the log knows nothing.

An append to the audit log is atomic here: it adds one record, or it fails and adds nothing.  How a
real append fails, and what it may leave behind then, is the subject of the `Audit` modules, and
`Programs` has the same operations as programs that wait for a real append.

What a call reads from its surroundings is an input of the step (`Surroundings`): three clocks, a
generated correlation id, and whether the append fails.  Three clocks, because the adapter, the
engine and the log each read their own.  The store also remembers which calls its engine has
resolved, which the source does not; without it one could not say of a refused request that nothing
was resolved.
-/

namespace HpGuardian

open Framework

/-! ## The audited store

The log, the active policy, and `authorize_with_metadata`, which resolves a call and records the
decision before it returns it. -/

/-- What one call reads from its surroundings. Each is read at most once in a call, so that one
value for each is enough; a call that ends early leaves the later ones unread. -/
structure Surroundings where
  /-- The adapter's clock, in milliseconds since the Unix epoch. -/
  nowUnixMs : ℕ
  /-- `Utc::now()` in `Engine::resolve_call`. -/
  utcNow : Instant
  /-- The audit log's clock. -/
  auditNow : Instant
  /-- `next_correlation_id()`. -/
  nextCorrelationId : String
  /-- The error of the append, if it fails. -/
  appendError : Option AuditError

/-- The audit log, the active policy snapshot, and the calls the engine has resolved so far; the
last is an observation of the engine that the source does not keep. -/
structure AuditedPolicyStore where
  auditLog : List AuditRecord
  activeSnapshot : Option PolicySnapshot
  resolved : List PolicyCall

namespace AuditedPolicyStore

/-- `AuditLog::append`, atomically. -/
def append (store : AuditedPolicyStore) (record : AuditRecord) (surroundings : Surroundings) :
    Except AuditError Unit × AuditedPolicyStore :=
  match surroundings.appendError with
  | none => (.ok (), { store with auditLog := store.auditLog ++ [record] })
  | some error => (.error error, store)

/-- `Engine::resolve_call` of the active engine. -/
def resolveCall (store : AuditedPolicyStore) (engine : Engine) (call : PolicyCall)
    (surroundings : Surroundings) : Decision × AuditedPolicyStore :=
  (engine.resolveCallAt call surroundings.utcNow,
    { store with resolved := store.resolved ++ [call] })

/-- `AuditedPolicyStore::authorize_with_metadata`. -/
def authorizeWithMetadata (store : AuditedPolicyStore) (call : PolicyCall)
    (metadata : Option AuthorizationMetadata) (surroundings : Surroundings) :
    Except AuditError Authorization × AuditedPolicyStore :=
  match store.activeSnapshot with
  | none => (.error .noActivePolicy, store)
  | some snapshot =>
      let (decision, store) := store.resolveCall snapshot.engine call surroundings
      let correlationId :=
        (metadata.map (fun metadata => metadata.correlationId)).getD surroundings.nextCorrelationId
      let callerId := metadata.map (fun metadata => metadata.callerId)
      let deadlineUnixMs := metadata.map (fun metadata => metadata.deadlineUnixMs)
      let record := AuditRecord.authorization snapshot correlationId callerId deadlineUnixMs call
        decision surroundings.auditNow
      match store.append record surroundings with
      | (.error error, store) => (.error error, store)
      | (.ok (), store) =>
          (.ok ⟨correlationId, snapshot, decision, call.agent, call.tool, call.user, callerId,
            deadlineUnixMs⟩, store)

end AuditedPolicyStore

/-! ## Requests and responses

The types that cross the boundary, and the codes of its errors. -/

/-- `MAX_IDENTIFIER_BYTES`. -/
def maxIdentifierBytes : ℕ := 256

/-- A complete, normalized request crossing the inline enforcement boundary. The correlation id is
the caller's own; it returns in the response and in the record. -/
structure EnforcementRequest where
  callerId : String
  correlationId : String
  deadlineUnixMs : ℕ
  call : PolicyCall

/-- A stable failure from the enforcement boundary. The caller learns no more than the kind: what
went wrong inside the log is not told. -/
inductive AdapterError where
  | invalidRequest
  | deadlineExceeded
  | auditWriteFailed
  deriving DecidableEq, Repr

/-- `AdapterError::code`. -/
def AdapterError.code : AdapterError → String
  | .invalidRequest => "invalid_request"
  | .deadlineExceeded => "deadline_exceeded"
  | .auditWriteFailed => "audit_write_failed"

/-- The normalized call data returned only for an allowed policy decision. -/
structure EffectCall where
  agent : Option String
  tool : Option String
  args : List String
  user : Option String
  context : StringMap

/-- `EffectCall::from`. -/
def EffectCall.fromCall (call : PolicyCall) : EffectCall where
  agent := call.agent
  tool := call.tool
  args := call.args
  user := call.user
  context := call.context

/-- Data the host may execute after a successful authorization. It is part of a response whose
decision is to allow, and of no other. -/
structure EffectRequest where
  callerId : String
  correlationId : String
  deadlineUnixMs : ℕ
  policy : Simulator.PolicyIdentity
  decision : Action
  matchedRules : List ℕ
  call : EffectCall

/-- An audited policy response: its record is in the log by the time the host sees it. The effect
is there iff the decision is to allow. -/
structure EnforcementResponse where
  callerId : String
  correlationId : String
  deadlineUnixMs : ℕ
  policy : Simulator.PolicyIdentity
  decision : Action
  matchedRules : List ℕ
  effect : Option EffectRequest

/-! ## Authorization

The checks of a request, in the order of the source, and the response built from an
authorization. -/

/-- `valid_identifier`; the length is in bytes. -/
def validIdentifier (value : String) : Bool :=
  value != "" && value.utf8ByteSize ≤ maxIdentifierBytes

/-- `EnforcementRequest::validate`. -/
def EnforcementRequest.validate (request : EnforcementRequest) : Except AdapterError Unit :=
  if !validIdentifier request.callerId then .error .invalidRequest
  else if !validIdentifier request.correlationId then .error .invalidRequest
  else .ok ()

/-- The metadata handed to the audited store. -/
def EnforcementRequest.metadata (request : EnforcementRequest) : AuthorizationMetadata where
  correlationId := request.correlationId
  callerId := request.callerId
  deadlineUnixMs := request.deadlineUnixMs

/-- The effect of an authorization: data for the host, for an allow decision only. -/
def effectOf (request : EnforcementRequest) (policy : Simulator.PolicyIdentity)
    (decision : Decision) : Option EffectRequest :=
  if decision.action = .allow then
    some {
      callerId := request.callerId
      correlationId := request.correlationId
      deadlineUnixMs := request.deadlineUnixMs
      policy := policy
      decision := decision.action
      matchedRules := decision.matchedRules
      call := EffectCall.fromCall request.call }
  else
    none

/-- The response to an authorized request. -/
def responseOf (request : EnforcementRequest) (authorization : Authorization) :
    EnforcementResponse :=
  let policy := ⟨authorization.snapshot.version, authorization.snapshot.digest⟩
  { callerId := request.callerId
    correlationId := request.correlationId
    deadlineUnixMs := request.deadlineUnixMs
    policy := policy
    decision := authorization.decision.action
    matchedRules := authorization.decision.matchedRules
    effect := effectOf request policy authorization.decision }

/-- `InlineEnforcementAdapter::authorize`. -/
def authorize (store : AuditedPolicyStore) (request : EnforcementRequest)
    (surroundings : Surroundings) :
    Except AdapterError EnforcementResponse × AuditedPolicyStore :=
  match request.validate with
  | .error error => (.error error, store)
  | .ok () =>
      if request.deadlineUnixMs ≤ surroundings.nowUnixMs then
        (.error .deadlineExceeded, store)
      else
        match store.authorizeWithMetadata request.call (some request.metadata) surroundings with
        | (.error _, store) => (.error .auditWriteFailed, store)
        | (.ok authorization, store) => (.ok (responseOf request authorization), store)

/-- A request with the surroundings of its call. -/
abbrev Attempt := EnforcementRequest × Surroundings

/-- The adapter as a machine: each step authorizes one request. -/
def adapter : Machine AuditedPolicyStore Attempt (Except AdapterError EnforcementResponse) where
  step store attempt :=
    let (response, store) := authorize store attempt.1 attempt.2
    (store, response)

end HpGuardian

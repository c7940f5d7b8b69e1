import HpGuardian.Enforcement.Boundary
import HpGuardian.Framework.Dictionary
import HpGuardian.Python.Parser
import HpGuardian.Python.Tails
import HpGuardian.Python.Trace

/-!
# The Python enforcement boundary (`src/hp_guard/audit.py`, `src/hp_guard/adapter.py`)

`AuditedPolicyStore` is built with a policy and always has one.  Its records are dictionaries,
which `AuditLog.append` completes with a timestamp.  `InlineEnforcementAdapter` takes requests that
have been checked when they were built.

A call in a request keeps its context as the dictionary it is, in the order of insertion
(`DictCall`), and the effect of a response carries it on in this order.  The engine looks names up
in it, for which the order makes no difference, and reads a `PolicyCall`.

Values of checked types are subtypes here.  An `OpaqueId` is a text that `_opaque_id` lets through,
a `Deadline` an integer that `_validate_deadline` lets through; a request is put together from
these, as `__post_init__` leaves it, so that what follows the checks need not repeat them.  The
source does repeat some, and the repetitions are kept.

An append to the audit log is atomic here, as in the Rust store, and what a call reads from its
surroundings is an input; `isoformat` is `_format_timestamp`.  Exceptions are values: what an
operation of the boundary raises is one of the kinds in `Raised`.
-/

namespace HpGuardian.Python

open Framework

/-! ## The audited store

Records as dictionaries, and the operations that write them. -/

/-- `PolicySnapshot`. -/
structure PolicySnapshot where
  version : ℤ
  digest : String
  deriving DecidableEq, Repr

/-- `_ActivePolicy`. -/
structure ActivePolicy where
  engine : Engine
  snapshot : PolicySnapshot

/-- `Authorization`. -/
structure Authorization where
  correlationId : String
  snapshot : PolicySnapshot
  decision : Decision
  agent : Option String
  tool : Option String
  user : Option String
  callerId : Option String
  deadlineUnixMs : Option ℤ

/-- `AdapterError`. -/
structure AdapterError where
  code : String
  message : String
  deriving DecidableEq, Repr

/-- What an operation of the boundary raises. Each class of exceptions keeps its own values; the
operations catch none of them but what the adapter turns into its own errors. -/
inductive Raised where
  | policy (error : PolicyError)
  | audit (error : AuditError)
  | engine (error : Exception)
  | value (message : String)
  | adapter (error : AdapterError)

/-- What one call reads from its surroundings. -/
structure Surroundings where
  /-- `time.time_ns() // 1_000_000`. -/
  nowUnixMs : ℤ
  /-- `datetime.now` in `Engine.resolve_call`. -/
  utcNow : Instant
  /-- The audit log's clock. -/
  auditNow : Instant
  /-- `str(uuid.uuid4())`. -/
  uuid4 : String
  /-- The error of the append, if it fails. -/
  appendError : Option AuditError

/-- `_record`. -/
def record (event : String) (snapshot : PolicySnapshot)
    (correlationId agent tool user : Option String) (decision : Option Decision)
    (callerId : Option String) (deadlineUnixMs : Option ℤ) : JsonFields :=
  [("event", .string event),
    ("correlation_id", nullableForm correlationId),
    ("policy_version", .int snapshot.version),
    ("policy_digest", .string snapshot.digest),
    ("agent", nullableForm agent),
    ("tool", nullableForm tool),
    ("user", nullableForm user),
    ("decision", nullableForm (decision.map (fun decision => decision.action.asStr))),
    ("matched_rules",
      indicesForm ((decision.map (fun decision => decision.matchedRules)).getD []))] ++
  optionalField "caller_id" (callerId.map Json.string) ++
  optionalField "deadline_unix_ms" (deadlineUnixMs.map Json.int)

/-- The audit log, as the dictionaries it was given, and the active policy. The log is kept as
values and not as text; how they are written is a matter of the log. -/
structure AuditedPolicyStore where
  auditLog : List JsonFields
  activePolicy : ActivePolicy

section

variable (rt : YamlRuntime) (decode : String → Except String Yaml) (sha256 : String → String)
  (isoformat : Instant → String)

/-- The payload of an append: `setdefault` leaves a timestamp that is there. -/
def payloadOf (record : JsonFields) (now : Instant) : JsonFields :=
  if (JsonFields.get record "timestamp").isSome then record
  else record ++ [("timestamp", .string (isoformat now))]

/-- `AuditLog.append`, atomically. -/
def appendRecord (auditLog : List JsonFields) (record : JsonFields)
    (surroundings : Surroundings) : Except AuditError (List JsonFields) :=
  match surroundings.appendError with
  | none => .ok (auditLog ++ [payloadOf isoformat record surroundings.auditNow])
  | some error => .error error

/-- `_build_snapshot`. -/
def buildSnapshot (policyText : String) : Except PolicyError ActivePolicy := do
  let engine ← parsePolicyText rt decode policyText
  .ok ⟨engine, ⟨1, sha256 policyText⟩⟩

/-- `_append_activation`. -/
def appendActivation (auditLog : List JsonFields) (policy : ActivePolicy)
    (surroundings : Surroundings) : Except AuditError (List JsonFields) :=
  appendRecord isoformat auditLog
    (record "activation" policy.snapshot none none none none none none none) surroundings

/-- `AuditedPolicyStore.__init__`. -/
def AuditedPolicyStore.init (policyText : String) (auditLog : List JsonFields)
    (surroundings : Surroundings) : Except Raised AuditedPolicyStore :=
  match buildSnapshot rt decode sha256 policyText with
  | .error error => .error (.policy error)
  | .ok candidate =>
      match appendActivation isoformat auditLog candidate surroundings with
      | .error error => .error (.audit error)
      | .ok auditLog => .ok ⟨auditLog, candidate⟩

/-- `AuditedPolicyStore.reload`. -/
def AuditedPolicyStore.reload (store : AuditedPolicyStore) (policyText : String)
    (surroundings : Surroundings) : Except Raised PolicySnapshot × AuditedPolicyStore :=
  match buildSnapshot rt decode sha256 policyText with
  | .error error => (.error (.policy error), store)
  | .ok candidate =>
      match appendActivation isoformat store.auditLog candidate surroundings with
      | .error error => (.error (.audit error), store)
      | .ok auditLog => (.ok candidate.snapshot, ⟨auditLog, candidate⟩)

/-- `AuditedPolicyStore._authorize_with_metadata`. -/
def AuditedPolicyStore.authorizeWithMetadata (utcTimestamp : String → Option Instant)
    (store : AuditedPolicyStore) (call : PolicyCall) (correlationId : String)
    (callerId : Option String) (deadlineUnixMs : Option ℤ) (surroundings : Surroundings) :
    Except Raised Authorization × AuditedPolicyStore :=
  let activePolicy := store.activePolicy
  match activePolicy.engine.resolveCallAt utcTimestamp call surroundings.utcNow with
  | .error error => (.error (.engine error), store)
  | .ok decision =>
      let authorization : Authorization :=
        ⟨correlationId, activePolicy.snapshot, decision, call.agent, call.tool, call.user, callerId,
          deadlineUnixMs⟩
      let record := record "authorization" activePolicy.snapshot
        (some authorization.correlationId) call.agent call.tool call.user (some decision) callerId
        deadlineUnixMs
      match appendRecord isoformat store.auditLog record surroundings with
      | .error error => (.error (.audit error), store)
      | .ok auditLog => (.ok authorization, { store with auditLog := auditLog })

/-- `AuditedPolicyStore.authorize`. -/
def AuditedPolicyStore.authorize (utcTimestamp : String → Option Instant)
    (store : AuditedPolicyStore) (call : PolicyCall) (surroundings : Surroundings) :
    Except Raised Authorization × AuditedPolicyStore :=
  store.authorizeWithMetadata isoformat utcTimestamp call surroundings.uuid4 none none surroundings

/-- `AuditedPolicyStore.record_outcome`; the length of the detail is in bytes. -/
def AuditedPolicyStore.recordOutcome (store : AuditedPolicyStore) (authorization : Authorization)
    (status : OutcomeStatus) (detail : Option String) (surroundings : Surroundings) :
    Except Raised Unit × AuditedPolicyStore :=
  if detail.any (fun detail => 1024 < detail.utf8ByteSize) then
    (.error (.value "detail must be at most 1024 UTF-8 bytes"), store)
  else
    let record := record "outcome" authorization.snapshot (some authorization.correlationId)
        authorization.agent authorization.tool authorization.user (some authorization.decision)
        authorization.callerId authorization.deadlineUnixMs ++
      [("outcome_status", .string status.asStr), ("outcome_detail", nullableForm detail)]
    match appendRecord isoformat store.auditLog record surroundings with
    | .error error => (.error (.audit error), store)
    | .ok auditLog => (.ok (), { store with auditLog := auditLog })

end

/-! ## Calls

A call as the host gave it, and as the engine sees it. -/

/-- A `PolicyCall` of this runtime, whose context is a dictionary. Matching does not see the order
of the dictionary, but the effect that is returned shows it. -/
structure DictCall where
  agent : Option String
  tool : Option String
  args : List String
  user : Option String
  context : Dictionary String String

/-- The call that the engine resolves. -/
def DictCall.toCall (call : DictCall) : PolicyCall :=
  ⟨call.agent, call.tool, call.args, call.user, collected call.context.entries⟩

/-- `_call_dict`. -/
def callDict (call : DictCall) : Json :=
  .object [
    ("agent", nullableForm call.agent),
    ("tool", nullableForm call.tool),
    ("args", arrayForm call.args),
    ("user", nullableForm call.user),
    ("context", objectForm call.context.entries)]

/-- `dict(context)`, if it maps strings to strings. -/
def stringDict (value : Json) : Option (Dictionary String String) := do
  let items ← value.asObject
  let entries ← items.mapM (fun item => item.2.asStr.map (fun text => (item.1, text)))
  some (Dictionary.ofEntries entries)

/-! ## Requests

The checks of a request, on a dictionary and on an object. -/

namespace Adapter

/-- An `AdapterError` for a request. -/
def invalidRequest (message : String) : AdapterError := ⟨"invalid_request", message⟩

/-- The identifiers that `_opaque_id` lets through. -/
abbrev OpaqueId := { text : String // text ≠ "" ∧ text.utf8ByteSize ≤ 256 }

/-- `_opaque_id`. -/
def opaqueId (value : Json) (name : String) : Except AdapterError OpaqueId :=
  match value with
  | .string text =>
      if hempty : text = "" then
        .error (invalidRequest (name ++ " must be a non-empty string"))
      else if hlong : 256 < text.utf8ByteSize then
        .error (invalidRequest (name ++ " must be at most 256 UTF-8 bytes"))
      else
        .ok ⟨text, hempty, Nat.le_of_not_lt hlong⟩
  | _ => .error (invalidRequest (name ++ " must be a non-empty string"))

/-- The deadlines that `_validate_deadline` lets through: `_MAX_U64` is the greatest. -/
abbrev Deadline := { deadline : ℤ // 0 ≤ deadline ∧ deadline ≤ 2 ^ 64 - 1 }

/-- `_validate_deadline`. -/
def validateDeadline (value : Json) : Except AdapterError Deadline :=
  match asInt value with
  | some deadline =>
      if hrange : 0 ≤ deadline ∧ deadline ≤ 2 ^ 64 - 1 then
        .ok ⟨deadline, hrange⟩
      else
        .error (invalidRequest "deadline_unix_ms must be an unsigned 64-bit integer")
  | none => .error (invalidRequest "deadline_unix_ms must be an unsigned 64-bit integer")

/-- `_REQUEST_FIELDS`. -/
def requestFields : List String := ["caller_id", "correlation_id", "deadline_unix_ms", "call"]

/-- `_CALL_FIELDS`. -/
def callFields : List String := ["agent", "tool", "args", "user", "context"]

/-- One of the identities of a call. -/
def callText (fields : JsonFields) (name : String) : Except AdapterError (Option String) :=
  okOr (nullableString (JsonFields.required fields name))
    (invalidRequest ("call." ++ name ++ " must be a string or null"))

/-- `_normalize_call`. -/
def normalizeCall (value : Json) : Except AdapterError DictCall := do
  let fields ← okOr (value.asObject.filter (fun fields => jsonKeysAre fields callFields))
    (invalidRequest "call must contain exactly the required fields")
  let agent ← callText fields "agent"
  let tool ← callText fields "tool"
  let user ← callText fields "user"
  let args ← okOr (stringArray (JsonFields.required fields "args"))
    (invalidRequest "call.args must be an array of strings")
  let context ← okOr (stringDict (JsonFields.required fields "context"))
    (invalidRequest "call.context must be a string-to-string map")
  .ok ⟨agent, tool, args, user, context⟩

/-- `_normalize_policy_call`. -/
def normalizePolicyCall (call : DictCall) : Except AdapterError DictCall :=
  normalizeCall (callDict call)

end Adapter

open Python.Adapter

/-- `EnforcementRequest`, as `__post_init__` leaves it. -/
structure EnforcementRequest where
  callerId : OpaqueId
  correlationId : OpaqueId
  deadlineUnixMs : Deadline
  call : DictCall

/-- The constructor of `EnforcementRequest`, with `__post_init__`. -/
def EnforcementRequest.init (callerId correlationId : String) (deadlineUnixMs : ℤ)
    (call : DictCall) : Except AdapterError EnforcementRequest := do
  let callerId ← opaqueId (.string callerId) "caller_id"
  let correlationId ← opaqueId (.string correlationId) "correlation_id"
  let deadlineUnixMs ← validateDeadline (.int deadlineUnixMs)
  let call ← normalizePolicyCall call
  .ok ⟨callerId, correlationId, deadlineUnixMs, call⟩

/-- `EnforcementRequest.from_dict`. -/
def EnforcementRequest.fromDict (value : Json) : Except AdapterError EnforcementRequest := do
  let fields ← okOr (value.asObject.filter (fun fields => jsonKeysAre fields requestFields))
    (invalidRequest "request must contain exactly the required fields")
  let callerId ← opaqueId (JsonFields.required fields "caller_id") "caller_id"
  let correlationId ← opaqueId (JsonFields.required fields "correlation_id") "correlation_id"
  let deadlineUnixMs ← validateDeadline (JsonFields.required fields "deadline_unix_ms")
  let call ← normalizeCall (JsonFields.required fields "call")
  EnforcementRequest.init callerId correlationId deadlineUnixMs call

/-! ## Responses

What the host gets back, and its form as a dictionary. -/

/-- `EffectRequest`. -/
structure EffectRequest where
  callerId : String
  correlationId : String
  deadlineUnixMs : ℤ
  policy : PolicySnapshot
  decision : String
  matchedRules : List ℕ
  call : DictCall

/-- `EnforcementResponse`. -/
structure EnforcementResponse where
  callerId : String
  correlationId : String
  deadlineUnixMs : ℤ
  policy : PolicySnapshot
  decision : String
  matchedRules : List ℕ
  effect : Option EffectRequest

/-- `_policy_identity`. -/
def policyIdentity (snapshot : PolicySnapshot) : Json :=
  .object [("version", .int snapshot.version), ("sha256", .string snapshot.digest)]

/-- `EffectRequest.to_dict`. -/
def EffectRequest.toDict (effect : EffectRequest) : Json :=
  .object [
    ("caller_id", .string effect.callerId),
    ("correlation_id", .string effect.correlationId),
    ("deadline_unix_ms", .int effect.deadlineUnixMs),
    ("policy", policyIdentity effect.policy),
    ("decision", .string effect.decision),
    ("matched_rules", indicesForm effect.matchedRules),
    ("call", callDict effect.call)]

/-- `EnforcementResponse.to_dict`. -/
def EnforcementResponse.toDict (response : EnforcementResponse) : Json :=
  .object ([
    ("caller_id", .string response.callerId),
    ("correlation_id", .string response.correlationId),
    ("deadline_unix_ms", .int response.deadlineUnixMs),
    ("policy", policyIdentity response.policy),
    ("decision", .string response.decision),
    ("matched_rules", indicesForm response.matchedRules)] ++
    optionalField "effect" (response.effect.map EffectRequest.toDict))

/-! ## Enforcement

The boundary, with the operations of a host as its input. -/

section

variable (rt : YamlRuntime) (decode : String → Except String Yaml) (sha256 : String → String)
  (isoformat : Instant → String)

/-- `InlineEnforcementAdapter.authorize`. -/
def authorize (store : AuditedPolicyStore) (request : EnforcementRequest)
    (surroundings : Surroundings) : Except Raised EnforcementResponse × AuditedPolicyStore :=
  match normalizePolicyCall request.call with
  | .error error => (.error (.adapter error), store)
  | .ok call =>
      if request.deadlineUnixMs ≤ surroundings.nowUnixMs then
        (.error (.adapter ⟨"deadline_exceeded", "request deadline has elapsed"⟩), store)
      else
        match store.authorizeWithMetadata isoformat rt.utcTimestamp call.toCall
            request.correlationId (some request.callerId) (some request.deadlineUnixMs)
            surroundings with
        | (.error (.audit _), store) =>
            (.error (.adapter ⟨"audit_write_failed", "required audit write failed"⟩), store)
        | (.error raised, store) => (.error raised, store)
        | (.ok authorization, store) =>
            let decision := authorization.decision.action.asStr
            let matchedRules := authorization.decision.matchedRules
            let effect : Option EffectRequest :=
              if authorization.decision.action = .allow then
                some ⟨request.callerId, request.correlationId, request.deadlineUnixMs,
                  authorization.snapshot, decision, matchedRules, call⟩
              else
                none
            (.ok ⟨request.callerId, request.correlationId, request.deadlineUnixMs,
              authorization.snapshot, decision, matchedRules, effect⟩, store)

/-- A request as a JSON value: `EnforcementRequest.from_dict`, then
`InlineEnforcementAdapter.authorize`. -/
def enforce (store : AuditedPolicyStore) (value : Json) (surroundings : Surroundings) :
    Except Raised EnforcementResponse × AuditedPolicyStore :=
  match EnforcementRequest.fromDict value with
  | .error error => (.error (.adapter error), store)
  | .ok request => authorize rt isoformat store request surroundings

/-- The boundary as a machine. -/
def boundary : Machine AuditedPolicyStore (BoundaryInput Authorization × Surroundings)
    (Except Raised (BoundaryReply Authorization)) where
  step store input :=
    match input.1 with
    | .reload policyText =>
        let (result, store) := store.reload rt decode sha256 isoformat policyText input.2
        (store, result.map (fun _ => .done))
    | .authorize call =>
        let (result, store) := store.authorize isoformat rt.utcTimestamp call input.2
        (store, result.map .authorized)
    | .recordOutcome authorization status detail =>
        let (result, store) := store.recordOutcome isoformat authorization status detail input.2
        (store, result.map (fun _ => .done))
    | .request value =>
        let (result, store) := enforce rt isoformat store value input.2
        (store, result.map (fun response => .response response.toDict))

end

end HpGuardian.Python

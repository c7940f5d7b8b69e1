import HpGuardian.Enforcement.Evidence
import HpGuardian.Simulator.Events

/-!
# Enforcement requests (`src/adapter.rs`)

Hosts that receive requests as JSON values parse them with `EnforcementRequest::from_value`.  The
value must have exactly the declared fields, two identifiers within the bounds, a deadline and a
call.

Its `parse_call` is written apart from the simulator's and checks the fields in another order, with
errors of its own.  It reads the same calls (`parseCall_iff_simulator`): both accept the form of a
call and nothing else, which is shown for each against the inductive description of that form.  In
the same way `fromValue_ok_iff` describes which JSON values hold a request.
-/

namespace HpGuardian

open Framework

namespace Adapter

/-- `require_exact_fields`. -/
def requireExactFields (fields : JsonFields) (required : List String) :
    Except AdapterError Unit :=
  if required.any (fun field => (JsonFields.get fields field).isNone) ||
      (fields.map Prod.fst).any (fun field => !required.contains field) then
    .error .invalidRequest
  else
    .ok ()

/-- `required_identifier`. -/
def requiredIdentifier (fields : JsonFields) (field : String) : Except AdapterError String :=
  okOr (((JsonFields.get fields field).bind Json.asStr).filter validIdentifier) .invalidRequest

/-- `nullable_string` within `parse_call`. -/
def nullableString (fields : JsonFields) (field : String) : Except AdapterError (Option String) :=
  match JsonFields.get fields field with
  | some .null => .ok none
  | some (.string value) => .ok (some value)
  | _ => .error .invalidRequest

/-- `parse_call`. -/
def parseCall (value : Json) : Except AdapterError PolicyCall := do
  let fields ← okOr value.asObject .invalidRequest
  requireExactFields fields ["agent", "tool", "args", "user", "context"]
  let args ← okOr ((JsonFields.get fields "args").bind stringArray) .invalidRequest
  let context ← okOr ((JsonFields.get fields "context").bind stringObject) .invalidRequest
  let agent ← nullableString fields "agent"
  let tool ← nullableString fields "tool"
  let user ← nullableString fields "user"
  .ok ⟨agent, tool, args, user, context⟩

end Adapter

/-- `EnforcementRequest::from_value`. -/
def EnforcementRequest.fromValue (value : Json) : Except AdapterError EnforcementRequest := do
  let fields ← okOr value.asObject .invalidRequest
  Adapter.requireExactFields fields ["caller_id", "correlation_id", "deadline_unix_ms", "call"]
  let callerId ← Adapter.requiredIdentifier fields "caller_id"
  let correlationId ← Adapter.requiredIdentifier fields "correlation_id"
  let deadlineUnixMs ←
    okOr ((JsonFields.get fields "deadline_unix_ms").bind Json.asU64) .invalidRequest
  let call ← Adapter.parseCall (JsonFields.required fields "call")
  let request : EnforcementRequest := ⟨callerId, correlationId, deadlineUnixMs, call⟩
  request.validate
  .ok request

/-- The JSON form of an `EffectCall`. -/
def EffectCall.toJson (call : EffectCall) : Json :=
  .object [
    ("agent", nullableForm call.agent),
    ("tool", nullableForm call.tool),
    ("args", arrayForm call.args),
    ("user", nullableForm call.user),
    ("context", objectForm (entriesInOrder call.context))]

/-! ## Calls

The adapter's decoder against the form of a call, and through the form against the simulator's. -/

namespace Adapter

variable {fields : JsonFields} {value : Json}

theorem requireExactFields_ok {required : List String} {u : Unit} :
    requireExactFields fields required = .ok u ↔
      (∀ name ∈ required, ∃ value, JsonFields.get fields name = some value) ∧
        OnlyFields fields required := by
  have hmissing : required.any (fun field => (JsonFields.get fields field).isNone) = false ↔
      ∀ name ∈ required, ∃ value, JsonFields.get fields name = some value := by
    simp [Option.ne_none_iff_exists']
  have hunknown : (fields.map Prod.fst).any (fun field => !required.contains field) = false ↔
      OnlyFields fields required := by
    simp [OnlyFields]
  rw [← hmissing, ← hunknown, ← Bool.or_eq_false_iff]
  unfold requireExactFields
  split_ifs with h
  · exact iff_of_false (by simp) (by simp only [h, Bool.true_eq_false, not_false_eq_true])
  · exact iff_of_true rfl (Bool.not_eq_true _ ▸ h)

theorem nullableString_ok_iff {field : String} {text : Option String} :
    nullableString fields field = .ok text ↔
      JsonFields.get fields field = some (nullableForm text) := by
  unfold nullableString
  cases JsonFields.get fields field with
  | none => simp
  | some value => cases value <;> cases text <;> simp [nullableForm]

/-- `parse_call` accepts the form of a call. -/
theorem parseCall_ok_iff {call : PolicyCall} : parseCall value = .ok call ↔ IsCall value call := by
  unfold parseCall
  simp only [bind_ok_iff, okOr_ok, requireExactFields_ok, asObject_eq_some, nullableString_ok_iff,
    Option.bind_eq_some_iff, stringArray_iff, stringObject_iff]
  constructor
  · rintro ⟨fields, rfl, -, ⟨-, honly⟩, args, ⟨_, hargs, rfl⟩, context,
      ⟨_, hcontext, entries, rfl, hcollects⟩, agent, hagent, tool, htool, user, huser, hcall⟩
    obtain rfl := Except.ok.inj hcall
    exact .object honly hagent htool hargs huser hcontext hcollects
  · rintro ⟨only, agent, tool, args, user, context, collects⟩
    refine ⟨_, rfl, (), ⟨?_, only⟩, _, ⟨_, args, rfl⟩, _, ⟨_, context, _, rfl, collects⟩, _, agent,
      _, tool, _, user, rfl⟩
    simp [agent, tool, args, user, context]

/-- The adapter and the simulator read the same calls. -/
theorem parseCall_iff_simulator {call : PolicyCall} (line : ℕ) :
    parseCall value = .ok call ↔ Simulator.parseCall value line = .ok call := by
  rw [parseCall_ok_iff, Simulator.parseCall_ok_iff]

theorem isCall_toJson (call : PolicyCall) : IsCall (EffectCall.fromCall call).toJson call :=
  isCall_callForm call

end Adapter

/-! ## Requests

The form of a request, and the decoder against it. -/

/-- A JSON value holds a request: two valid identifiers, a deadline, a call, and nothing else. -/
inductive IsRequest : Json → EnforcementRequest → Prop
  | object {fields : JsonFields} {request : EnforcementRequest} {call : Json}
      (only : OnlyFields fields ["caller_id", "correlation_id", "deadline_unix_ms", "call"])
      (callerId : JsonFields.get fields "caller_id" = some (.string request.callerId))
      (correlationId :
        JsonFields.get fields "correlation_id" = some (.string request.correlationId))
      (valid : request.validate = .ok ())
      (deadline : JsonFields.get fields "deadline_unix_ms" = some (.int request.deadlineUnixMs))
      (fits : request.deadlineUnixMs < 2 ^ 64)
      (callField : JsonFields.get fields "call" = some call) (isCall : IsCall call request.call) :
      IsRequest (.object fields) request

theorem Adapter.requiredIdentifier_ok_iff {fields : JsonFields} {field identifier : String} :
    Adapter.requiredIdentifier fields field = .ok identifier ↔
      JsonFields.get fields field = some (.string identifier) ∧
        validIdentifier identifier = true := by
  simp only [Adapter.requiredIdentifier, okOr_ok, Option.filter_eq_some_iff,
    Option.bind_eq_some_iff, asStr_eq_some]
  constructor
  · rintro ⟨⟨_, hfield, rfl⟩, hvalid⟩
    exact ⟨hfield, hvalid⟩
  · rintro ⟨hfield, hvalid⟩
    exact ⟨⟨_, hfield, rfl⟩, hvalid⟩

/-- `from_value` accepts exactly the JSON values that hold a request. -/
theorem fromValue_ok_iff {value : Json} {request : EnforcementRequest} :
    EnforcementRequest.fromValue value = .ok request ↔ IsRequest value request := by
  unfold EnforcementRequest.fromValue
  simp only [bind_ok_iff, okOr_ok, Adapter.requireExactFields_ok, asObject_eq_some,
    Adapter.requiredIdentifier_ok_iff, Adapter.parseCall_ok_iff, Option.bind_eq_some_iff,
    asU64_iff]
  constructor
  · rintro ⟨fields, rfl, -, ⟨hthere, honly⟩, callerId, ⟨hcallerId, -⟩, correlationId,
      ⟨hcorrelationId, -⟩, deadline, ⟨_, hdeadline, rfl, hfits⟩, call, hcall, ⟨⟩, hvalid, hrequest⟩
    obtain rfl := Except.ok.inj hrequest
    obtain ⟨callValue, hcallField⟩ := hthere "call" (by simp)
    rw [required_of_get hcallField] at hcall
    exact .object honly hcallerId hcorrelationId hvalid hdeadline hfits hcallField hcall
  · rintro ⟨only, callerId, correlationId, valid, deadline, fits, callField, isCall⟩
    obtain ⟨hcallerId, hcorrelationId⟩ := validate_eq_ok_iff.1 valid
    refine ⟨_, rfl, (), ⟨?_, only⟩, _, ⟨callerId, hcallerId⟩, _, ⟨correlationId, hcorrelationId⟩,
      _, ⟨_, deadline, rfl, fits⟩, _, ?_, (), valid, rfl⟩
    · simp [callerId, correlationId, deadline, callField]
    · rwa [required_of_get callField]

end HpGuardian

import HpGuardian.Framework.Outcomes
import HpGuardian.Policy.CallForm
import HpGuardian.Simulator.Trace

/-!
# Valid events (`src/simulator.rs`)

`IsEvent` is the form of an event in a trace, field by field: version 1, a positive sequence
number, a call, and perhaps an identifier and an expectation.  `parse_event` accepts exactly the
JSON values of this form and reads the event that they hold (`parseEvent_ok_iff`).  The form of the
call in it is the one that requests share.

The second part is about errors.  `RustErrors` bounds the errors of a part of a record by a code
and the line it was given, and all errors of `parse_event` name that line (`parseEvent_line`), so
that an error of a trace names the line of the record it is about.
-/

namespace HpGuardian

open Framework

/-- The errors of a part of a Rust record. -/
abbrev RustErrors {α : Type} (code : Simulator.TraceErrorCode) (line : ℕ)
    (result : Except Simulator.TraceError α) : Prop :=
  ErrorsAre (fun error => error = ⟨code, line⟩) result

namespace Simulator

/-! ## The form of an event

Without a parser: which fields there are, and what they hold. -/

/-- A JSON value holds a policy identity. -/
inductive IsIdentity : Json → PolicyIdentity → Prop
  | object {fields : JsonFields} {identity : PolicyIdentity}
      (only : OnlyFields fields ["version", "sha256"])
      (version : JsonFields.get fields "version" = some (.int traceVersion))
      (sha256 : JsonFields.get fields "sha256" = some (.string identity.sha256))
      (digest : isLowercaseSha256 identity.sha256 = true)
      (accepted : identity.version = traceVersion) : IsIdentity (.object fields) identity

/-- A JSON value holds the metadata of an expectation. -/
inductive IsExpected : Json → ExpectedMetadata → Prop
  | object {fields : JsonFields} {metadata : ExpectedMetadata} {policy : Json}
      (only : OnlyFields fields ["policy", "decision", "matched_rules"])
      (policyField : JsonFields.get fields "policy" = some policy)
      (identity : IsIdentity policy metadata.policy)
      (decision : JsonFields.get fields "decision" = some (.string metadata.decision.asStr))
      (matchedRules : JsonFields.get fields "matched_rules" =
        some (.array (metadata.matchedRules.map (fun index : ℕ => .int index))))
      (fits : ∀ index ∈ metadata.matchedRules, index < 2 ^ 64) :
      IsExpected (.object fields) metadata

/-- A JSON value holds an event: version 1, a positive sequence number, a call, and perhaps a
non-empty identifier and an expectation. -/
inductive IsEvent : Json → TraceEvent → Prop
  | object {fields : JsonFields} {event : TraceEvent} {call : Json}
      (only : OnlyFields fields ["version", "sequence", "call", "event_id", "expected"])
      (version : JsonFields.get fields "version" = some (.int traceVersion))
      (sequence : JsonFields.get fields "sequence" = some (.int event.sequence))
      (positive : 0 < event.sequence) (fits : event.sequence < 2 ^ 64)
      (eventId : JsonFields.get fields "event_id" = event.eventId.map .string)
      (named : event.eventId ≠ some "")
      (callField : JsonFields.get fields "call" = some call) (isCall : IsCall call event.call)
      (expected : Option.Rel IsExpected (JsonFields.get fields "expected") event.expected) :
      IsEvent (.object fields) event

/-! ## What the parsers accept

Each parser of a field against the form of the field. -/

section

variable {fields : JsonFields} {value : Json} {line : ℕ}

theorem checkFields_ok {required optional : List String} {error : TraceError} {u : Unit} :
    checkFields fields required optional error = .ok u ↔
      requireExactFields fields required optional = true := by
  unfold checkFields
  split_ifs with h <;> simp [h]

theorem asI64_eq_version : value.asI64 = some traceVersion ↔ value = .int traceVersion := by
  cases value with
  | int n =>
      simp only [Json.asI64, Json.int.injEq]
      constructor
      · intro h
        split_ifs at h
        exact Option.some.inj h
      · rintro rfl
        decide
  | _ => simp [Json.asI64]

theorem positiveInteger_iff {n : ℕ} :
    positiveInteger value = some n ↔ value = .int n ∧ 0 < n ∧ n < 2 ^ 64 := by
  rw [positiveInteger, Option.filter_eq_some_iff, asU64_iff, decide_eq_true_eq, and_assoc,
    and_comm (a := n < 2 ^ 64)]

theorem parseAction_iff {text : String} {action : Action} :
    parseAction text = some action ↔ text = action.asStr := by
  constructor
  · intro h
    unfold parseAction at h
    split at h <;> cases h <;> rfl
  · rintro rfl
    cases action <;> rfl

theorem indices_iff {items : List Json} {indices : List ℕ} :
    items.mapM positiveOrZeroInteger = some indices ↔
      items = indices.map (fun index : ℕ => .int index) ∧ ∀ index ∈ indices, index < 2 ^ 64 :=
  asU64s_iff

/-- `parse_call` accepts the form of a call. -/
theorem parseCall_ok_iff {call : PolicyCall} :
    parseCall value line = .ok call ↔ IsCall value call := by
  unfold parseCall
  simp only [bind_ok_iff, okOr_ok, checkFields_ok, asObject_eq_some, requireExactFields_iff,
    nullableString_iff, Option.bind_eq_some_iff, stringArray_iff, stringObject_iff]
  constructor
  · rintro ⟨fields, rfl, -, ⟨hthere, honly⟩, agent, hagent, tool, htool, user, huser, args,
      ⟨_, hargs, rfl⟩, context, ⟨_, hcontext, entries, rfl, hcollects⟩, hcall⟩
    obtain rfl := Except.ok.inj hcall
    rw [required_eq_iff (hthere _ (by simp))] at hagent htool huser
    exact .object honly hagent htool hargs huser hcontext hcollects
  · rintro ⟨only, agent, tool, args, user, context, collects⟩
    refine ⟨_, rfl, (), ⟨?_, only⟩, _, required_of_get agent, _, required_of_get tool, _,
      required_of_get user, _, ⟨_, args, rfl⟩, _, ⟨_, context, _, rfl, collects⟩, rfl⟩
    simp [agent, tool, args, user, context]

theorem parseIdentity_ok_iff {identity : PolicyIdentity} :
    parseIdentity value line = .ok identity ↔ IsIdentity value identity := by
  unfold parseIdentity
  simp only [bind_ok_iff, okOr_ok, if_error_ok_iff, checkFields_ok, asObject_eq_some,
    requireExactFields_iff, ne_eq, not_not, asI64_eq_version, Option.filter_eq_some_iff,
    Option.bind_eq_some_iff, asStr_eq_some]
  constructor
  · rintro ⟨fields, rfl, -, ⟨hthere, honly⟩, hversion, digest, ⟨⟨_, hsha256, rfl⟩, hdigest⟩,
      hidentity⟩
    obtain rfl := Except.ok.inj hidentity
    rw [required_eq_iff (hthere _ (by simp))] at hversion
    exact .object honly hversion hsha256 hdigest rfl
  · rintro ⟨only, version, sha256, digest, accepted⟩
    refine ⟨_, rfl, (), ⟨by simp [version, sha256], only⟩, required_of_get version, _,
      ⟨⟨_, sha256, rfl⟩, digest⟩, ?_⟩
    rw [← accepted]

theorem parseExpected_ok_iff {metadata : ExpectedMetadata} :
    parseExpected value line = .ok metadata ↔ IsExpected value metadata := by
  unfold parseExpected
  simp only [bind_ok_iff, okOr_ok, checkFields_ok, asObject_eq_some, requireExactFields_iff,
    parseIdentity_ok_iff, Option.bind_eq_some_iff, asStr_eq_some, asArray_eq_some, parseAction_iff,
    indices_iff]
  constructor
  · rintro ⟨fields, rfl, -, ⟨hthere, honly⟩, identity, hidentity, action,
      ⟨_, ⟨_, hdecision, rfl⟩, rfl⟩, indices, ⟨_, ⟨_, hindices, rfl⟩, rfl, hfits⟩, hmetadata⟩
    obtain rfl := Except.ok.inj hmetadata
    obtain ⟨policy, hpolicy⟩ := hthere "policy" (by simp)
    rw [required_of_get hpolicy] at hidentity
    exact .object honly hpolicy hidentity hdecision hindices hfits
  · rintro ⟨only, policyField, identity, decision, matchedRules, fits⟩
    refine ⟨_, rfl, (), ⟨by simp [policyField, decision, matchedRules], only⟩, _, ?_, _,
      ⟨_, ⟨_, decision, rfl⟩, rfl⟩, _, ⟨_, ⟨_, matchedRules, rfl⟩, rfl, fits⟩, rfl⟩
    rwa [required_of_get policyField]

theorem parseExpectedField_ok_iff {field : Option Json} {expected : Option ExpectedMetadata} :
    parseExpectedField field line = .ok expected ↔ Option.Rel IsExpected field expected := by
  cases field with
  | none =>
      constructor
      · intro h
        obtain rfl := Except.ok.inj h
        exact .none
      · rintro ⟨⟩
        rfl
  | some value =>
      constructor
      · intro h
        unfold parseExpectedField at h
        cases hparse : parseExpected value line with
        | error error => simp [hparse, Except.map] at h
        | ok metadata =>
            simp only [hparse, Except.map, Except.ok.injEq] at h
            subst h
            exact .some (parseExpected_ok_iff.1 hparse)
      · rintro ⟨hexpected⟩
        rw [parseExpectedField, parseExpected_ok_iff.2 hexpected]
        rfl

theorem parseEventId_ok_iff {field : Option Json} {eventId : Option String} :
    parseEventId field line = .ok eventId ↔
      field = eventId.map .string ∧ eventId ≠ some "" := by
  cases field with
  | none => cases eventId <;> simp [parseEventId]
  | some value =>
      cases value with
      | string text =>
          simp only [parseEventId]
          split_ifs with hempty <;> cases eventId <;> simp_all
          rintro rfl
          simpa [eq_comm] using hempty
      | _ => cases eventId <;> simp [parseEventId]

/-- **Valid events.** `parse_event` accepts exactly the JSON values that hold an event. What it
returns is that event: a value holds at most one. -/
theorem parseEvent_ok_iff {event : TraceEvent} :
    parseEvent value line = .ok event ↔ IsEvent value event := by
  unfold parseEvent
  simp only [bind_ok_iff, okOr_ok, if_error_ok_iff, checkFields_ok, asObject_eq_some,
    requireExactFields_iff, ne_eq, not_not, asI64_eq_version, positiveInteger_iff,
    parseEventId_ok_iff, parseCall_ok_iff, parseExpectedField_ok_iff]
  constructor
  · rintro ⟨fields, rfl, -, ⟨hthere, honly⟩, hversion, sequence, ⟨hsequence, hpositive, hfits⟩,
      eventId, ⟨heventId, hnamed⟩, call, hcall, expected, hexpected, hevent⟩
    obtain rfl := Except.ok.inj hevent
    rw [required_eq_iff (hthere _ (by simp))] at hversion hsequence
    obtain ⟨callValue, hcallField⟩ := hthere "call" (by simp)
    rw [required_of_get hcallField] at hcall
    exact .object honly hversion hsequence hpositive hfits heventId hnamed hcallField hcall
      hexpected
  · rintro ⟨only, version, sequence, positive, fits, eventId, named, callField, isCall, expected⟩
    refine ⟨_, rfl, (), ⟨by simp [version, sequence, callField], only⟩, required_of_get version,
      _, ⟨required_of_get sequence, positive, fits⟩, _, ⟨eventId, named⟩, _, ?_, _, expected, rfl⟩
    rwa [required_of_get callField]

end

/-! ## The errors of each part

The code of each check, and the line. -/

theorem okOr_errors {α : Type} (x : Option α) (code : TraceErrorCode) (line : ℕ) :
    RustErrors code line (okOr x ⟨code, line⟩) := by
  cases x with
  | none => exact .error rfl
  | some a => exact .ok a

theorem checkFields_errors (fields : JsonFields) (required optional : List String)
    (code : TraceErrorCode) (line : ℕ) :
    RustErrors code line (checkFields fields required optional ⟨code, line⟩) := by
  unfold checkFields
  split_ifs
  · exact .ok _
  · exact .error rfl

theorem parseEventId_errors (value : Option Json) (line : ℕ) :
    RustErrors .invalidRecord line (parseEventId value line) := by
  unfold parseEventId
  cases value with
  | none => exact .ok _
  | some value =>
      cases value with
      | string text =>
          dsimp only
          split_ifs
          · exact .error rfl
          · exact .ok _
      | _ => exact .error rfl

theorem parseCall_errors (value : Json) (line : ℕ) :
    RustErrors .invalidCall line (parseCall value line) := by
  unfold parseCall
  refine (okOr_errors _ _ _).bind fun fields => ?_
  refine (checkFields_errors _ _ _ _ _).bind fun _ => ?_
  refine (okOr_errors _ _ _).bind fun agent => ?_
  refine (okOr_errors _ _ _).bind fun tool => ?_
  refine (okOr_errors _ _ _).bind fun user => ?_
  refine (okOr_errors _ _ _).bind fun args => ?_
  exact (okOr_errors _ _ _).bind fun context => .ok _

theorem parseIdentity_errors (value : Json) (line : ℕ) :
    RustErrors .invalidExpected line (parseIdentity value line) := by
  unfold parseIdentity
  refine (okOr_errors _ _ _).bind fun fields => ?_
  refine (checkFields_errors _ _ _ _ _).bind fun _ => ?_
  split_ifs
  · exact .error rfl
  · exact (okOr_errors _ _ _).bind fun digest => .ok _

theorem parseExpected_errors (value : Json) (line : ℕ) :
    RustErrors .invalidExpected line (parseExpected value line) := by
  unfold parseExpected
  refine (okOr_errors _ _ _).bind fun fields => ?_
  refine (checkFields_errors _ _ _ _ _).bind fun _ => ?_
  refine (parseIdentity_errors _ line).bind fun identity => ?_
  refine (okOr_errors _ _ _).bind fun decision => ?_
  exact (okOr_errors _ _ _).bind fun matchedRules => .ok _

theorem parseExpectedField_errors (value : Option Json) (line : ℕ) :
    RustErrors .invalidExpected line (parseExpectedField value line) := by
  cases value with
  | none => exact .ok _
  | some value => exact (parseExpected_errors value line).map

theorem parseEvent_line {value : Json} {line : ℕ} :
    ErrorsAre (fun error => error.line = line) (parseEvent value line) := by
  have hat : ∀ {α : Type} {code : TraceErrorCode}
      {result : Except TraceError α}, RustErrors code line result →
      ErrorsAre (fun error => error.line = line) result :=
    fun h => h.mono fun error herror => by rw [herror]
  unfold parseEvent
  refine (hat (okOr_errors _ _ _)).bind fun fields => ?_
  refine (hat (checkFields_errors _ _ _ _ _)).bind fun _ => ?_
  split_ifs
  · exact .error rfl
  · refine (hat (okOr_errors _ _ _)).bind fun sequence => ?_
    refine (hat (parseEventId_errors _ _)).bind fun eventId => ?_
    refine (hat (parseCall_errors _ _)).bind fun call => ?_
    exact (hat (parseExpectedField_errors _ _)).bind fun expected => .ok _

/-! ## Lines

A line that is blank, and one that is decoded. -/

section

variable {fromStr : String → Option Json} {state : TraceState} {line : String} {offset : ℕ}

theorem traceLine_none (hblank : isBlank line = false)
    (hnone : fromStr line = none) :
    traceLine fromStr state (line, offset) = .error ⟨.invalidJson, offset + 1⟩ := by
  simp only [traceLine, hblank, Bool.false_eq_true, if_false, hnone, okOr, error_bind]

theorem traceLine_some (hblank : isBlank line = false) {value : Json}
    (hvalue : fromStr line = some value) :
    traceLine fromStr state (line, offset) =
      (parseEvent value (offset + 1) >>= fun event =>
        if event.sequence ≠ state.expectedSequence then .error ⟨.invalidSequence, offset + 1⟩
        else .ok ⟨state.expectedSequence + 1, state.events ++ [event]⟩) := by
  simp only [traceLine, hblank, Bool.false_eq_true, if_false, hvalue, okOr, ok_bind]

/-- An error of a line names the line. -/
theorem traceLine_line (fromStr : String → Option Json) (state : TraceState)
    (line : String) (offset : ℕ) :
    ErrorsAre (fun error => error.line = offset + 1)
      (traceLine fromStr state (line, offset)) := by
  cases hblank : isBlank line with
  | true =>
      rw [traceLine, if_pos hblank]
      exact .ok _
  | false =>
      cases hvalue : fromStr line with
      | none =>
          rw [traceLine_none hblank hvalue]
          exact .error rfl
      | some value =>
          rw [traceLine_some hblank hvalue]
          refine parseEvent_line.bind fun event => ?_
          split_ifs
          · exact .error rfl
          · exact .ok _

end

end Simulator
end HpGuardian

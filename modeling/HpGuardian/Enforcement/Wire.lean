import HpGuardian.Audit.KilledAppend
import HpGuardian.Enforcement.Requests

/-!
# Records and responses as JSON (`src/audit.rs`, `src/adapter.rs`)

The forms that `serde` writes for audit records and enforcement responses: JSON values with the
fields in the order of their declaration, absent fields left out where the source says
`skip_serializing_if`, and enumerations as their names in snake case.  A context is written in the
order of its keys, as the ordered map it is.  The text of a timestamp is a parameter of the
record's form, since it is up to the library for times.

A record has two written forms, the JSON value and the line in the log.  The members of the compact
object that is a record's line are its fields, written (`writes_members`), so the two forms are the
same and only one of them needs to be compared with another runtime's.
-/

namespace HpGuardian

open Framework

/-! ## Forms -/

/-- An array of rule indices. -/
def indicesForm (indices : List ℕ) : Json := .array (indices.map (fun index : ℕ => .int index))

/-- A field that `skip_serializing_if` leaves out when it is absent. -/
def optionalField (name : String) (value : Option Json) : JsonFields :=
  (value.map (fun value => (name, value))).toList

/-- The fields of a record, in the order of its declaration. -/
def AuditRecord.toFields (timestampText : Instant → String) (record : AuditRecord) : JsonFields :=
  [("timestamp", .string (timestampText record.timestamp)),
    ("event", .string record.event.asStr),
    ("correlation_id", nullableForm record.correlationId)] ++
  optionalField "caller_id" (record.callerId.map Json.string) ++
  optionalField "deadline_unix_ms"
    (record.deadlineUnixMs.map (fun deadline : ℕ => .int deadline)) ++
  [("policy_version", .int record.policyVersion),
    ("policy_digest", .string record.policyDigest),
    ("agent", nullableForm record.agent),
    ("tool", nullableForm record.tool),
    ("user", nullableForm record.user),
    ("decision", nullableForm (record.decision.map Action.asStr)),
    ("matched_rules", indicesForm record.matchedRules)] ++
  optionalField "outcome_status"
    (record.outcomeStatus.map (fun status => .string status.asStr)) ++
  optionalField "outcome_detail" (record.outcomeDetail.map nullableForm)

/-- The JSON form of a `PolicyIdentity`. -/
def Simulator.PolicyIdentity.toJson (identity : PolicyIdentity) : Json :=
  .object [("version", .int identity.version), ("sha256", .string identity.sha256)]

/-- The JSON form of an `EffectRequest`. -/
def EffectRequest.toJson (effect : EffectRequest) : Json :=
  .object [
    ("caller_id", .string effect.callerId),
    ("correlation_id", .string effect.correlationId),
    ("deadline_unix_ms", .int effect.deadlineUnixMs),
    ("policy", effect.policy.toJson),
    ("decision", .string effect.decision.asStr),
    ("matched_rules", indicesForm effect.matchedRules),
    ("call", effect.call.toJson)]

/-- The JSON form of an `EnforcementResponse`. -/
def EnforcementResponse.toJson (response : EnforcementResponse) : Json :=
  .object ([
    ("caller_id", .string response.callerId),
    ("correlation_id", .string response.correlationId),
    ("deadline_unix_ms", .int response.deadlineUnixMs),
    ("policy", response.policy.toJson),
    ("decision", .string response.decision.asStr),
    ("matched_rules", indicesForm response.matchedRules)] ++
    optionalField "effect" (response.effect.map EffectRequest.toJson))

/-! ## Lines

The compact text of a form, for the kinds of values that a record's fields have. -/

/-- The compact text of a JSON value without booleans, floats and objects, which no field of a
record holds. -/
inductive Writes : Json → List Char → Prop
  | null : Writes .null "null".toList
  | int (value : ℤ) : Writes (.int value) (writeInt value)
  | string (value : String) : Writes (.string value) (writeString value)
  | array {items : List Json} {texts : List (List Char)} (h : List.Forall₂ Writes items texts) :
      Writes (.array items) (writeArray texts)

/-- A field is written as a member of the same name. -/
def WritesField (field : String × Json) (member : String × List Char) : Prop :=
  member.1 = field.1 ∧ Writes field.2 member.2

theorem writes_nullable (value : Option String) :
    Writes (nullableForm value) (writeOption writeString value) := by
  cases value with
  | none => exact .null
  | some text => exact .string text

theorem writes_decision (decision : Option Action) :
    Writes (nullableForm (decision.map Action.asStr)) (writeOption writeAction decision) := by
  cases decision with
  | none => exact .null
  | some action => exact .string action.asStr

theorem writes_indices (indices : List ℕ) :
    Writes (indicesForm indices) (writeArray (indices.map writeNat)) := by
  refine .array ?_
  rw [List.forall₂_map_left_iff, List.forall₂_map_right_iff]
  exact List.forall₂_same.2 fun index _ => .int index

theorem writes_optional {α : Type} (name : String) {form : α → Json} {write : α → List Char}
    (h : ∀ a, Writes (form a) (write a)) (value : Option α) :
    List.Forall₂ WritesField (optionalField name (value.map form))
      (optionalMember name write value) := by
  cases value with
  | none => exact .nil
  | some a => exact .cons ⟨rfl, h a⟩ .nil

/-- The members of the object on a record's line are the record's fields. -/
theorem writes_members (timestampText : Instant → String) (record : AuditRecord) :
    List.Forall₂ WritesField (record.toFields timestampText) (record.members timestampText) := by
  unfold AuditRecord.toFields AuditRecord.members
  refine List.rel_append (List.rel_append (List.rel_append (List.rel_append (List.rel_append ?_ ?_)
    ?_) ?_) ?_) ?_
  · exact .cons ⟨rfl, .string _⟩ (.cons ⟨rfl, .string _⟩ (.cons ⟨rfl, writes_nullable _⟩ .nil))
  · exact writes_optional _ (fun text => .string text) _
  · exact writes_optional _ (fun deadline : ℕ => .int deadline) _
  · exact .cons ⟨rfl, .int _⟩ (.cons ⟨rfl, .string _⟩ (.cons ⟨rfl, writes_nullable _⟩
      (.cons ⟨rfl, writes_nullable _⟩ (.cons ⟨rfl, writes_nullable _⟩
        (.cons ⟨rfl, writes_decision _⟩ (.cons ⟨rfl, writes_indices _⟩ .nil))))))
  · exact writes_optional _ (fun status : OutcomeStatus => .string status.asStr) _
  · exact writes_optional _ writes_nullable _

end HpGuardian

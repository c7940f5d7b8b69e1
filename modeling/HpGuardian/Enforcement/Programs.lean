import HpGuardian.Enforcement.Boundary
import HpGuardian.Framework.Calling

/-!
# The boundary as a program that appends (`src/audit.rs`, `src/adapter.rs`)

The operations of the boundary once more, this time with the audit log on the outside: each is a
program that hands its record to `AuditLog::append`, waits, and goes on with how the append ended.
What the process itself keeps is the active snapshot (`PolicyProcess`).  This is the form in which
a boundary can run on a log that it shares with others, where an append takes many steps and may
be refused, fail halfway, or be cut off.

`boundary_eq_serve` connects the two forms: run on a log of its own, whose appends are atomic, the
programs do what the functions of `Adapter`, `Trail` and `Boundary` do.  Each makes at most one
call (`boundaryProgram_atMostOnce`), for the record that `recordFor` names.
-/

namespace HpGuardian

open Framework

/-- What an `AuditedPolicyStore` keeps besides its log: the active snapshot, which is in memory
only. -/
structure PolicyProcess where
  activeSnapshot : Option PolicySnapshot

/-- A program that appends to an audit log. It knows nothing of the log but how each append
ended. -/
abbrev Appending (α : Type) := Calling AuditRecord AuditError α

/-- `AuditLog::append`, wherever the log is. -/
def appendRecord (record : AuditRecord) : Appending (Except AuditError Unit) :=
  Calling.ask record

namespace PolicyProcess

section

variable (rt : YamlRuntime) (decode : String → Except String Yaml) (sha256 : String → String)

/-- `AuditedPolicyStore::reload`. -/
def reload (process : PolicyProcess) (policyText : String) (surroundings : Surroundings) :
    Appending (PolicyProcess × Except AuditError Unit) :=
  match PolicySnapshot.parse rt decode sha256 policyText with
  | .error error => pure (process, .error error)
  | .ok candidate => do
      match ← appendRecord (.activation candidate surroundings.auditNow) with
      | .error error => pure (process, .error error)
      | .ok () => pure ({ process with activeSnapshot := some candidate }, .ok ())

end

/-- `AuditedPolicyStore::authorize_with_metadata`. -/
def authorizeWithMetadata (process : PolicyProcess) (call : PolicyCall)
    (metadata : Option AuthorizationMetadata) (surroundings : Surroundings) :
    Appending (Except AuditError Authorization) :=
  match process.activeSnapshot with
  | none => pure (.error .noActivePolicy)
  | some snapshot => do
      let decision := snapshot.engine.resolveCallAt call surroundings.utcNow
      let correlationId :=
        (metadata.map (fun metadata => metadata.correlationId)).getD surroundings.nextCorrelationId
      let callerId := metadata.map (fun metadata => metadata.callerId)
      let deadlineUnixMs := metadata.map (fun metadata => metadata.deadlineUnixMs)
      match ← appendRecord (.authorization snapshot correlationId callerId deadlineUnixMs call
        decision surroundings.auditNow) with
      | .error error => pure (.error error)
      | .ok () => pure (.ok ⟨correlationId, snapshot, decision, call.agent, call.tool, call.user,
          callerId, deadlineUnixMs⟩)

/-- `AuditedPolicyStore::record_outcome`; the length of the detail is in bytes. -/
def recordOutcome (authorization : Authorization) (status : OutcomeStatus)
    (detail : Option String) (surroundings : Surroundings) : Appending (Except AuditError Unit) :=
  match detail.filter (fun detail => maxOutcomeDetailBytes < detail.utf8ByteSize) with
  | some detail =>
      pure (.error (.outcomeDetailTooLong maxOutcomeDetailBytes detail.utf8ByteSize))
  | none => appendRecord (.outcome authorization status detail surroundings.auditNow)

/-- `InlineEnforcementAdapter::authorize`. -/
def authorize (process : PolicyProcess) (request : EnforcementRequest)
    (surroundings : Surroundings) : Appending (Except AdapterError EnforcementResponse) :=
  match request.validate with
  | .error error => pure (.error error)
  | .ok () =>
      if request.deadlineUnixMs ≤ surroundings.nowUnixMs then
        pure (.error .deadlineExceeded)
      else do
        match ← process.authorizeWithMetadata request.call (some request.metadata) surroundings with
        | .error _ => pure (.error .auditWriteFailed)
        | .ok authorization => pure (.ok (responseOf request authorization))

/-- A request as a JSON value: `EnforcementRequest::from_value`, then
`InlineEnforcementAdapter::authorize`. -/
def enforce (process : PolicyProcess) (value : Json) (surroundings : Surroundings) :
    Appending (Except AdapterError EnforcementResponse) :=
  match EnforcementRequest.fromValue value with
  | .error error => pure (.error error)
  | .ok request => process.authorize request surroundings

end PolicyProcess

section

variable (rt : YamlRuntime) (decode : String → Except String Yaml) (sha256 : String → String)

/-- An operation of the boundary, as a program. -/
def boundaryProgram (process : PolicyProcess) (input : BoundaryInput Authorization)
    (surroundings : Surroundings) :
    Appending (PolicyProcess × Except BoundaryError (BoundaryReply Authorization)) :=
  match input with
  | .reload policyText => do
      let (process, result) ← process.reload rt decode sha256 policyText surroundings
      pure (process, (result.map (fun _ => .done)).mapError .audit)
  | .authorize call => do
      let result ← process.authorizeWithMetadata call none surroundings
      pure (process, (result.map .authorized).mapError .audit)
  | .recordOutcome authorization status detail => do
      let result ← PolicyProcess.recordOutcome authorization status detail surroundings
      pure (process, (result.map (fun _ => .done)).mapError .audit)
  | .request value => do
      let result ← process.enforce value surroundings
      pure (process,
        (result.map (fun response => .response response.toJson)).mapError .adapter)

end

/-! ## On a log of its own

A service that appends atomically, and the programs run on it.  What the programs keep and what the
service keeps are together the store of the other modules. -/

/-- A log as a service whose appends are atomic, and fail if `failure` says so. -/
def atomicLog (failure : Option AuditError) (auditLog : List AuditRecord) (record : AuditRecord) :
    Except AuditError Unit × List AuditRecord :=
  match failure with
  | none => (.ok (), auditLog ++ [record])
  | some error => (.error error, auditLog)

section

variable (rt : YamlRuntime) (decode : String → Except String Yaml) (sha256 : String → String)

theorem boundaryProgram_atMostOnce (process : PolicyProcess) (input : BoundaryInput Authorization)
    (surroundings : Surroundings) :
    (boundaryProgram rt decode sha256 process input surroundings).AtMostOnce := by
  cases input with
  | reload policyText =>
      simp only [boundaryProgram, PolicyProcess.reload]
      cases PolicySnapshot.parse rt decode sha256 policyText with
      | error error => trivial
      | ok candidate => rintro (error | ⟨⟩) <;> rfl
  | authorize call =>
      simp only [boundaryProgram, PolicyProcess.authorizeWithMetadata]
      cases process.activeSnapshot with
      | none => trivial
      | some snapshot => rintro (error | ⟨⟩) <;> rfl
  | recordOutcome authorization status detail =>
      simp only [boundaryProgram, PolicyProcess.recordOutcome]
      split
      · trivial
      · rintro (error | ⟨⟩) <;> rfl
  | request value =>
      simp only [boundaryProgram, PolicyProcess.enforce]
      cases EnforcementRequest.fromValue value with
      | error error => trivial
      | ok request =>
          simp only [PolicyProcess.authorize, PolicyProcess.authorizeWithMetadata]
          cases request.validate with
          | error error => trivial
          | ok valid =>
              dsimp only
              split
              · trivial
              · cases process.activeSnapshot with
                | none => trivial
                | some snapshot => rintro (error | ⟨⟩) <;> rfl

/-- **The boundary on a log of its own.**  The programs, run on a log whose appends are atomic, are
the operations of the boundary. -/
theorem boundary_eq_serve {store : AuditedPolicyStore} {process : PolicyProcess}
    (hactive : store.activeSnapshot = process.activeSnapshot)
    (input : BoundaryInput Authorization) (surroundings : Surroundings)
    (failure : Option AuditError) :
    let atomic := operation rt decode sha256 store input surroundings failure
    let run := (boundaryProgram rt decode sha256 process input surroundings).serve
      (atomicLog failure) store.auditLog
    atomic.2 = run.1.2 ∧ atomic.1.activeSnapshot = run.1.1.activeSnapshot ∧
      atomic.1.auditLog = run.2 := by
  intro atomic run
  cases input with
  | reload policyText =>
      simp only [atomic, run, operation, boundary, boundaryProgram, AuditedPolicyStore.reload,
        PolicyProcess.reload]
      cases PolicySnapshot.parse rt decode sha256 policyText with
      | error error => exact ⟨rfl, hactive, rfl⟩
      | ok candidate =>
          cases failure with
          | none => exact ⟨rfl, rfl, rfl⟩
          | some error => exact ⟨rfl, hactive, rfl⟩
  | authorize call =>
      simp only [atomic, run, operation, boundary, boundaryProgram,
        AuditedPolicyStore.authorizeWithMetadata, PolicyProcess.authorizeWithMetadata, ← hactive]
      cases hsnapshot : store.activeSnapshot with
      | none => exact ⟨rfl, hactive, rfl⟩
      | some snapshot =>
          cases failure with
          | none => exact ⟨rfl, hactive, rfl⟩
          | some error => exact ⟨rfl, hactive, rfl⟩
  | recordOutcome authorization status detail =>
      simp only [atomic, run, operation, boundary, boundaryProgram,
        AuditedPolicyStore.recordOutcome, PolicyProcess.recordOutcome]
      cases detail.filter (fun detail => maxOutcomeDetailBytes < detail.utf8ByteSize) with
      | some text => exact ⟨rfl, hactive, rfl⟩
      | none =>
          cases failure with
          | none => exact ⟨rfl, hactive, rfl⟩
          | some error => exact ⟨rfl, hactive, rfl⟩
  | request value =>
      simp only [atomic, run, operation, boundary, boundaryProgram, HpGuardian.enforce,
        PolicyProcess.enforce]
      cases EnforcementRequest.fromValue value with
      | error error => exact ⟨rfl, hactive, rfl⟩
      | ok request =>
          simp only [HpGuardian.authorize, PolicyProcess.authorize,
            AuditedPolicyStore.authorizeWithMetadata, PolicyProcess.authorizeWithMetadata,
            ← hactive]
          cases request.validate with
          | error error => exact ⟨rfl, hactive, rfl⟩
          | ok valid =>
              have hdeadline : (surroundings.withAppend failure).nowUnixMs =
                  surroundings.nowUnixMs := rfl
              simp only [hdeadline]
              by_cases hlate : request.deadlineUnixMs ≤ surroundings.nowUnixMs
              · simp only [if_pos hlate]
                exact ⟨rfl, hactive, rfl⟩
              · simp only [if_neg hlate]
                cases hsnapshot : store.activeSnapshot with
                | none => exact ⟨rfl, hactive, rfl⟩
                | some snapshot =>
                    cases failure with
                    | none => exact ⟨rfl, hactive, rfl⟩
                    | some error => exact ⟨rfl, hactive, rfl⟩

/-- The record of a program is the one that the operation of the boundary hands to its log. -/
theorem pending_eq_recordFor {store : AuditedPolicyStore} {process : PolicyProcess}
    (hactive : store.activeSnapshot = process.activeSnapshot)
    (input : BoundaryInput Authorization) (surroundings : Surroundings) :
    (boundaryProgram rt decode sha256 process input surroundings).pending =
      recordFor rt decode sha256 store input surroundings := by
  obtain ⟨-, -, hlog⟩ := boundary_eq_serve rt decode sha256 hactive input surroundings none
  have honce := boundaryProgram_atMostOnce rt decode sha256 process input surroundings
  generalize boundaryProgram rt decode sha256 process input surroundings = p at hlog honce ⊢
  have hrecords : (operation rt decode sha256 store input surroundings none).1.auditLog =
      store.auditLog ++ p.pending.toList := by
    rw [hlog, Calling.serve_eq honce (atomicLog none) store.auditLog (.ok ())]
    cases p.pending with
    | none => exact (List.append_nil _).symm
    | some record => rfl
  rw [recordFor_of_log rt decode sha256 _ hrecords, Option.head?_toList]

end

end HpGuardian

import HpGuardian.Enforcement.Trail
import HpGuardian.Enforcement.Wire

/-!
# The boundary as a whole (`src/audit.rs`, `src/adapter.rs`)

A host reloads policies, has calls authorized, records outcomes, and hands in requests as JSON
values.  The modules before this one have a machine for each of these; here they are one machine
over one store, since a host calls them in any order.

`boundary_appends` says once what each operation can do: fail by itself, or hand one record to the
audit log and succeed if and only if the append does.  `recordFor` is the record, as a function of
the operation and the state, and `RepliedUnder` says of which record a reply is the account.  With
these three a run of the boundary is described by what it asked of the log, and nothing more has to
be known of its operations where the log is another one than the atomic log of this machine.
-/

namespace HpGuardian

open Framework

/-! ## The boundary

The operations of the two source files as one machine. -/

/-- What a host asks of the boundary; an outcome names the authorization it belongs to. The type of
authorizations is a parameter, since each runtime has its own. -/
inductive BoundaryInput (α : Type) where
  | reload (policyText : String)
  | authorize (call : PolicyCall)
  | recordOutcome (authorization : α) (status : OutcomeStatus) (detail : Option String)
  | request (value : Json)

/-- What the boundary returns. -/
inductive BoundaryReply (α : Type) where
  | done
  | authorized (authorization : α)
  | response (value : Json)

/-- How an operation of the boundary fails. Reloads, authorizations and outcomes fail as the audit
log does; only a request has failures of the adapter. -/
inductive BoundaryError where
  | audit (error : AuditError)
  | adapter (error : AdapterError)

section

variable (rt : YamlRuntime) (decode : String → Except String Yaml) (sha256 : String → String)

/-- A request as a JSON value: `EnforcementRequest::from_value`, then
`InlineEnforcementAdapter::authorize`. -/
def enforce (store : AuditedPolicyStore) (value : Json) (surroundings : Surroundings) :
    Except AdapterError EnforcementResponse × AuditedPolicyStore :=
  match EnforcementRequest.fromValue value with
  | .error error => (.error error, store)
  | .ok request => HpGuardian.authorize store request surroundings

/-- The boundary as a machine. -/
def boundary : Machine AuditedPolicyStore (BoundaryInput Authorization × Surroundings)
    (Except BoundaryError (BoundaryReply Authorization)) where
  step store input :=
    match input.1 with
    | .reload policyText =>
        let (result, store) := store.reload rt decode sha256 policyText input.2
        (store, (result.map (fun _ => .done)).mapError .audit)
    | .authorize call =>
        let (result, store) := store.authorizeWithMetadata call none input.2
        (store, (result.map .authorized).mapError .audit)
    | .recordOutcome authorization status detail =>
        let (result, store) := store.recordOutcome authorization status detail input.2
        (store, (result.map (fun _ => .done)).mapError .audit)
    | .request value =>
        let (result, store) := enforce store value input.2
        (store, (result.map (fun response => .response response.toJson)).mapError .adapter)

end

/-! ## What an operation can do

An operation as a function of how its append ends.  If no append is made, the function is
constant. -/

/-- The same surroundings, but for how the append ends. -/
def Surroundings.withAppend (surroundings : Surroundings) (failure : Option AuditError) :
    Surroundings :=
  { surroundings with appendError := failure }

section

variable (rt : YamlRuntime) (decode : String → Except String Yaml) (sha256 : String → String)

/-- An operation as a function of how its append ends. -/
def operation (store : AuditedPolicyStore) (input : BoundaryInput Authorization)
    (surroundings : Surroundings) (failure : Option AuditError) :
    AuditedPolicyStore × Except BoundaryError (BoundaryReply Authorization) :=
  (boundary rt decode sha256).step store (input, surroundings.withAppend failure)

/-- The record that an operation hands to the audit log: what it adds if the append succeeds. -/
def recordFor (store : AuditedPolicyStore) (input : BoundaryInput Authorization)
    (surroundings : Surroundings) : Option AuditRecord :=
  ((operation rt decode sha256 store input surroundings none).1.auditLog.drop
    store.auditLog.length).head?

/-- The reply to an operation is accounted for by its record: a response is that of the policy in
force, and the record is its evidence. -/
def RepliedUnder (store : AuditedPolicyStore) (surroundings : Surroundings)
    (reply : BoundaryReply Authorization) (record : AuditRecord) :
    BoundaryInput Authorization → Prop
  | .request value => ∃ request snapshot response,
      EnforcementRequest.fromValue value = .ok request ∧
      store.activeSnapshot = some snapshot ∧
      reply = .response (EnforcementResponse.toJson response) ∧
      Audited snapshot ((request, surroundings), response) record
  | .authorize call => ∃ snapshot authorization, store.activeSnapshot = some snapshot ∧
      reply = .authorized authorization ∧
      authorization.decision = snapshot.engine.resolveCallAt call surroundings.utcNow ∧
      record = .authorization snapshot authorization.correlationId authorization.callerId
        authorization.deadlineUnixMs call authorization.decision surroundings.auditNow
  | .reload policyText => ∃ snapshot,
      PolicySnapshot.parse rt decode sha256 policyText = .ok snapshot ∧ reply = .done ∧
      record = .activation snapshot surroundings.auditNow
  | .recordOutcome authorization status detail => reply = .done ∧
      record = .outcome authorization status detail surroundings.auditNow

/-- An operation of the boundary fails by itself, whatever the log does, or hands over one record:
then it succeeds if and only if the append does. -/
inductive Appends (store : AuditedPolicyStore) (input : BoundaryInput Authorization)
    (surroundings : Surroundings) : Option AuditRecord → Prop
  | silent {next : AuditedPolicyStore} {error : BoundaryError}
      (hfails : ∀ failure, operation rt decode sha256 store input surroundings failure =
        (next, .error error))
      (hlog : next.auditLog = store.auditLog) : Appends store input surroundings none
  | one {record : AuditRecord} {next : AuditedPolicyStore} {reply : BoundaryReply Authorization}
      (hdone : operation rt decode sha256 store input surroundings none = (next, .ok reply))
      (hlog : next.auditLog = store.auditLog ++ [record])
      (hreply : RepliedUnder rt decode sha256 store surroundings reply record input)
      (hfailed : ∀ failure, ∃ left error,
        operation rt decode sha256 store input surroundings (some failure) = (left, .error error) ∧
          left.auditLog = store.auditLog) : Appends store input surroundings (some record)

theorem recordFor_of_log {store : AuditedPolicyStore} {input : BoundaryInput Authorization}
    {surroundings : Surroundings} (records : List AuditRecord)
    (h : (operation rt decode sha256 store input surroundings none).1.auditLog =
      store.auditLog ++ records) :
    recordFor rt decode sha256 store input surroundings = records.head? := by
  rw [recordFor, h, List.drop_left]

/-- An operation that fails by itself. -/
theorem appends_silent {store : AuditedPolicyStore} {input : BoundaryInput Authorization}
    {surroundings : Surroundings} (next : AuditedPolicyStore) (error : BoundaryError)
    (hfails : ∀ failure, operation rt decode sha256 store input surroundings failure =
      (next, .error error)) (hlog : next.auditLog = store.auditLog) :
    Appends rt decode sha256 store input surroundings
      (recordFor rt decode sha256 store input surroundings) := by
  rw [recordFor_of_log rt decode sha256 [] (by rw [hfails, hlog, List.append_nil])]
  exact .silent hfails hlog

/-- An operation that hands over one record. -/
theorem appends_one {store : AuditedPolicyStore} {input : BoundaryInput Authorization}
    {surroundings : Surroundings} {record : AuditRecord} {reply : BoundaryReply Authorization}
    (next : AuditedPolicyStore)
    (hdone : operation rt decode sha256 store input surroundings none = (next, .ok reply))
    (hlog : next.auditLog = store.auditLog ++ [record])
    (hreply : RepliedUnder rt decode sha256 store surroundings reply record input)
    (hfailed : ∀ failure, ∃ left error,
      operation rt decode sha256 store input surroundings (some failure) = (left, .error error) ∧
        left.auditLog = store.auditLog) :
    Appends rt decode sha256 store input surroundings
      (recordFor rt decode sha256 store input surroundings) := by
  rw [recordFor_of_log rt decode sha256 [record] (by rw [hdone, hlog])]
  exact .one hdone hlog hreply hfailed

/-- What a request can do. -/
theorem request_appends (store : AuditedPolicyStore) (value : Json) (surroundings : Surroundings) :
    Appends rt decode sha256 store (.request value) surroundings
      (recordFor rt decode sha256 store (.request value) surroundings) := by
  have hoperation : ∀ {request}, EnforcementRequest.fromValue value = .ok request →
      ∀ failure, operation rt decode sha256 store (.request value) surroundings failure =
        ((authorize store request (surroundings.withAppend failure)).2,
          ((authorize store request (surroundings.withAppend failure)).1.map
            (fun response => .response response.toJson)).mapError .adapter) := by
    intro request hrequest failure
    simp only [operation, boundary, enforce, hrequest]
  cases hrequest : EnforcementRequest.fromValue value with
  | error error =>
      refine appends_silent rt decode sha256 store (.adapter error) (fun failure => ?_) rfl
      simp [operation, boundary, enforce, hrequest, Except.map, Except.mapError]
  | ok request =>
      by_cases hadmitted : Admitted (request, surroundings)
      · cases hactive : store.activeSnapshot with
        | none =>
            refine appends_silent rt decode sha256 store (.adapter .auditWriteFailed)
              (fun failure => ?_) rfl
            have hadmitted' : Admitted (request, surroundings.withAppend failure) := hadmitted
            rw [hoperation hrequest, authorize_admitted hadmitted']
            simp only [AuditedPolicyStore.authorizeWithMetadata, hactive, Except.map,
              Except.mapError]
        | some snapshot =>
            let response := responseOf request (authorizationOf snapshot (request, surroundings))
            refine appends_one rt decode sha256 { store with
              auditLog := store.auditLog ++ [recordOf snapshot (request, surroundings)]
              resolved := store.resolved ++ [request.call] } ?_ rfl
                ⟨request, snapshot, response, hrequest, hactive, rfl,
                  audited_of_answered snapshot (request, surroundings)⟩ fun failure =>
                  ⟨{ store with resolved := store.resolved ++ [request.call] },
                    .adapter .auditWriteFailed, ?_, rfl⟩
            · have hadmitted' : Admitted (request, surroundings.withAppend none) := hadmitted
              rw [hoperation hrequest, authorize_answered hactive hadmitted' rfl]
              rfl
            · have hadmitted' : Admitted (request, surroundings.withAppend (some failure)) :=
                hadmitted
              rw [hoperation hrequest, authorize_failed hactive hadmitted' rfl]
              rfl
      · -- what refuses the request does not depend on the append
        obtain ⟨error, herror⟩ : ∃ error, ∀ failure,
            authorize store request (surroundings.withAppend failure) = (.error error, store) := by
          cases hvalidate : request.validate with
          | error error =>
              exact ⟨error, fun failure => by simp only [authorize, hvalidate]⟩
          | ok _ =>
              have hdeadline : request.deadlineUnixMs ≤ surroundings.nowUnixMs := by
                by_contra hnot
                exact hadmitted ⟨validate_eq_ok_iff.1 hvalidate, not_le.1 hnot⟩
              exact ⟨.deadlineExceeded, fun failure => by
                simp only [authorize, hvalidate]
                exact if_pos hdeadline⟩
        refine appends_silent rt decode sha256 store (.adapter error) (fun failure => ?_) rfl
        rw [hoperation hrequest, herror]
        rfl

/-- What an operation of the boundary can do: it fails by itself, whatever the log does, or it
hands over the one record that `recordFor` names and succeeds iff the append does. -/
theorem boundary_appends (store : AuditedPolicyStore) (input : BoundaryInput Authorization)
    (surroundings : Surroundings) :
    Appends rt decode sha256 store input surroundings
      (recordFor rt decode sha256 store input surroundings) := by
  cases input with
  | reload policyText =>
      cases hparse : PolicySnapshot.parse rt decode sha256 policyText with
      | error error =>
          refine appends_silent rt decode sha256 store (.audit error) (fun failure => ?_) rfl
          simp [operation, boundary, AuditedPolicyStore.reload, hparse, Except.map, Except.mapError]
      | ok snapshot =>
          refine appends_one rt decode sha256 { store with
            auditLog := store.auditLog ++ [.activation snapshot surroundings.auditNow]
            activeSnapshot := some snapshot } ?_ rfl ⟨snapshot, hparse, rfl, rfl⟩
              fun failure => ⟨store, .audit failure, ?_, rfl⟩ <;>
            simp [operation, boundary, AuditedPolicyStore.reload, AuditedPolicyStore.append,
              Surroundings.withAppend, hparse, Except.map, Except.mapError]
  | authorize call =>
      cases hactive : store.activeSnapshot with
      | none =>
          refine appends_silent rt decode sha256 store (.audit .noActivePolicy)
            (fun failure => ?_) rfl
          simp only [operation, boundary, AuditedPolicyStore.authorizeWithMetadata, hactive,
            Except.map, Except.mapError]
      | some snapshot =>
          let authorization := authorizationUnder snapshot call none surroundings
          refine appends_one rt decode sha256 { store with
            auditLog := store.auditLog ++ [.authorization snapshot authorization.correlationId
              authorization.callerId authorization.deadlineUnixMs call authorization.decision
              surroundings.auditNow]
            resolved := store.resolved ++ [call] } ?_ rfl
              ⟨snapshot, authorization, hactive, rfl, rfl, rfl⟩ fun failure =>
                ⟨{ store with resolved := store.resolved ++ [call] }, .audit failure, ?_, rfl⟩ <;>
            simp [operation, boundary, AuditedPolicyStore.authorizeWithMetadata,
              AuditedPolicyStore.resolveCall, AuditedPolicyStore.append, Surroundings.withAppend,
              hactive, Except.map, Except.mapError, authorization, authorizationUnder]
  | recordOutcome authorization status detail =>
      cases hlong : detail.filter (fun detail => maxOutcomeDetailBytes < detail.utf8ByteSize) with
      | some text =>
          refine appends_silent rt decode sha256 store
            (.audit (.outcomeDetailTooLong maxOutcomeDetailBytes text.utf8ByteSize))
            (fun failure => ?_) rfl
          simp [operation, boundary, AuditedPolicyStore.recordOutcome, hlong, Except.map,
            Except.mapError]
      | none =>
          refine appends_one rt decode sha256 { store with
            auditLog := store.auditLog ++
              [.outcome authorization status detail surroundings.auditNow] } ?_ rfl ⟨rfl, rfl⟩
              fun failure => ⟨store, .audit failure, ?_, rfl⟩ <;>
            simp [operation, boundary, AuditedPolicyStore.recordOutcome, AuditedPolicyStore.append,
              Surroundings.withAppend, hlong, Except.map, Except.mapError]
  | request value => exact request_appends rt decode sha256 store value surroundings

end

end HpGuardian

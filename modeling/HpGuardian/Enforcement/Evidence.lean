import HpGuardian.Enforcement.Adapter

/-!
# Fail-closed, audited enforcement

Over whole runs of the adapter, the audit log grows by exactly one authorization record for each
response, in order, and record, response and effect agree.  `authorize_rejected`,
`authorize_failed` and `authorize_answered` say once what a step can do; the run theorem is derived
from them.

A step is one of three.  A request that fails a check is refused before anything is resolved.  A
request that is admitted is resolved, and if its record cannot be appended, it is refused all the
same, with an error and without an effect.  Otherwise the response and the record are both built
from the one authorization, which is why they agree, and the effect is the request's own call,
handed out for an allow decision only.

`RunAudited` is the invariant: the new part of the log and the attempts that were answered
correspond one to one, and the calls resolved so far are those of the admitted attempts.  The two
preservation lemmas are for steps that add a record and for steps that add none; the theorem about
runs adds what each unanswered attempt was told.
-/

namespace HpGuardian

open Framework

/-- The checks before anything is resolved: both identifiers are valid, and the deadline is still
to come. -/
def Admitted (attempt : Attempt) : Prop :=
  (validIdentifier attempt.1.callerId = true ∧ validIdentifier attempt.1.correlationId = true) ∧
    attempt.2.nowUnixMs < attempt.1.deadlineUnixMs

instance : DecidablePred Admitted := fun _ => inferInstanceAs (Decidable (_ ∧ _))

/-- The record is the evidence for the response to a request. It names the caller, the policy and
the decision, and the call as far as a record has it: arguments and context are not recorded. -/
structure Evidence (exchange : EnforcementRequest × EnforcementResponse)
    (record : AuditRecord) : Prop where
  event : record.event = .authorization
  callerId : record.callerId = some exchange.2.callerId
  correlationId : record.correlationId = some exchange.2.correlationId
  deadlineUnixMs : record.deadlineUnixMs = some exchange.2.deadlineUnixMs
  policyVersion : record.policyVersion = exchange.2.policy.version
  policyDigest : record.policyDigest = exchange.2.policy.sha256
  decision : record.decision = some exchange.2.decision
  matchedRules : record.matchedRules = exchange.2.matchedRules
  agent : record.agent = exchange.1.call.agent
  tool : record.tool = exchange.1.call.tool
  user : record.user = exchange.1.call.user
  outcome : record.outcomeStatus = none ∧ record.outcomeDetail = none

/-- The effect is the request's call under the recorded decision. The arguments and the context,
which the record leaves out, are those of the request. -/
structure EffectOf (request : EnforcementRequest) (record : AuditRecord)
    (effect : EffectRequest) : Prop where
  agent : effect.call.agent = request.call.agent
  tool : effect.call.tool = request.call.tool
  args : effect.call.args = request.call.args
  user : effect.call.user = request.call.user
  context : effect.call.context = request.call.context
  callerId : effect.callerId = request.callerId
  correlationId : effect.correlationId = request.correlationId
  deadlineUnixMs : effect.deadlineUnixMs = request.deadlineUnixMs
  policy : effect.policy = ⟨record.policyVersion, record.policyDigest⟩
  decision : record.decision = some effect.decision
  matchedRules : record.matchedRules = effect.matchedRules

/-- A response with its record: the evidence, the request's own identifiers, the decision of the
active policy, and an effect iff that decision is allow. -/
structure Audited (snapshot : PolicySnapshot) (exchange : Attempt × EnforcementResponse)
    (record : AuditRecord) : Prop where
  evidence : Evidence (exchange.1.1, exchange.2) record
  callerId : exchange.2.callerId = exchange.1.1.callerId
  correlationId : exchange.2.correlationId = exchange.1.1.correlationId
  deadlineUnixMs : exchange.2.deadlineUnixMs = exchange.1.1.deadlineUnixMs
  policy : exchange.2.policy = ⟨snapshot.version, snapshot.digest⟩
  decision : ⟨exchange.2.decision, exchange.2.matchedRules⟩ =
    snapshot.engine.resolveCallAt exchange.1.1.call exchange.1.2.utcNow
  effect_iff : exchange.2.effect.isSome = true ↔ record.decision = some .allow
  effect : ∀ effect ∈ exchange.2.effect, EffectOf exchange.1.1 record effect

/-! ## What a step can do

The three cases, each as an equation for the step, and the agreement of record and response in the
last of them. -/

section

variable {store : AuditedPolicyStore} {attempt : Attempt}

theorem validate_eq_ok_iff {request : EnforcementRequest} :
    request.validate = .ok () ↔
      validIdentifier request.callerId = true ∧ validIdentifier request.correlationId = true := by
  unfold EnforcementRequest.validate
  cases validIdentifier request.callerId <;> cases validIdentifier request.correlationId <;> simp

theorem validate_error {request : EnforcementRequest} {error : AdapterError}
    (h : request.validate = .error error) : error = .invalidRequest := by
  unfold EnforcementRequest.validate at h
  split_ifs at h <;> exact (Except.error.inj h).symm

/-- A request that fails a check is refused, and nothing else happens. -/
theorem authorize_rejected (h : ¬ Admitted attempt) :
    authorize store attempt.1 attempt.2 = (.error .invalidRequest, store) ∨
      authorize store attempt.1 attempt.2 = (.error .deadlineExceeded, store) := by
  unfold authorize
  cases hvalidate : attempt.1.validate with
  | error error =>
      left
      rw [validate_error hvalidate]
  | ok _ =>
      right
      have hdeadline : attempt.1.deadlineUnixMs ≤ attempt.2.nowUnixMs := by
        by_contra hnot
        exact h ⟨validate_eq_ok_iff.1 hvalidate, not_le.1 hnot⟩
      simp [hdeadline]

theorem authorize_admitted (h : Admitted attempt) :
    authorize store attempt.1 attempt.2 =
      match store.authorizeWithMetadata attempt.1.call (some attempt.1.metadata) attempt.2 with
      | (.error _, store) => (.error .auditWriteFailed, store)
      | (.ok authorization, store) => (.ok (responseOf attempt.1 authorization), store) := by
  unfold authorize
  rw [validate_eq_ok_iff.2 h.1]
  dsimp only
  exact if_neg (not_le.2 h.2)

/-- The decision of a snapshot on an attempt. -/
def decisionOf (snapshot : PolicySnapshot) (attempt : Attempt) : Decision :=
  snapshot.engine.resolveCallAt attempt.1.call attempt.2.utcNow

/-- The record of an attempt under a snapshot. -/
def recordOf (snapshot : PolicySnapshot) (attempt : Attempt) : AuditRecord :=
  .authorization snapshot attempt.1.correlationId (some attempt.1.callerId)
    (some attempt.1.deadlineUnixMs) attempt.1.call (decisionOf snapshot attempt)
    attempt.2.auditNow

/-- The authorization of an attempt under a snapshot. -/
def authorizationOf (snapshot : PolicySnapshot) (attempt : Attempt) : Authorization where
  correlationId := attempt.1.correlationId
  snapshot := snapshot
  decision := decisionOf snapshot attempt
  agent := attempt.1.call.agent
  tool := attempt.1.call.tool
  user := attempt.1.call.user
  callerId := some attempt.1.callerId
  deadlineUnixMs := some attempt.1.deadlineUnixMs

variable {snapshot : PolicySnapshot}

/-- A failed append refuses the request; the call was resolved. -/
theorem authorize_failed (hactive : store.activeSnapshot = some snapshot) (h : Admitted attempt)
    {error : AuditError} (hfail : attempt.2.appendError = some error) :
    authorize store attempt.1 attempt.2 =
      (.error .auditWriteFailed,
        { store with resolved := store.resolved ++ [attempt.1.call] }) := by
  rw [authorize_admitted h]
  simp [AuditedPolicyStore.authorizeWithMetadata, AuditedPolicyStore.resolveCall,
    AuditedPolicyStore.append, hactive, hfail]

/-- Otherwise the response and the record are built from one authorization. -/
theorem authorize_answered (hactive : store.activeSnapshot = some snapshot) (h : Admitted attempt)
    (happend : attempt.2.appendError = none) :
    authorize store attempt.1 attempt.2 =
      (.ok (responseOf attempt.1 (authorizationOf snapshot attempt)),
        { store with
          auditLog := store.auditLog ++ [recordOf snapshot attempt]
          resolved := store.resolved ++ [attempt.1.call] }) := by
  rw [authorize_admitted h]
  simp [AuditedPolicyStore.authorizeWithMetadata, AuditedPolicyStore.resolveCall,
    AuditedPolicyStore.append, hactive, happend, EnforcementRequest.metadata, authorizationOf,
    recordOf, decisionOf]

/-- Record, response and effect of one authorization agree. -/
theorem audited_of_answered (snapshot : PolicySnapshot) (attempt : Attempt) :
    Audited snapshot (attempt, responseOf attempt.1 (authorizationOf snapshot attempt))
      (recordOf snapshot attempt) where
  evidence := ⟨rfl, rfl, rfl, rfl, rfl, rfl, rfl, rfl, rfl, rfl, rfl, rfl, rfl⟩
  callerId := rfl
  correlationId := rfl
  deadlineUnixMs := rfl
  policy := rfl
  decision := rfl
  effect_iff := by
    simp only [responseOf, effectOf, authorizationOf, recordOf, AuditRecord.authorization,
      Option.some.injEq]
    split_ifs with hallow <;> simp [hallow]
  effect := by
    intro effect heffect
    simp only [responseOf, effectOf, Option.mem_def, Option.ite_none_right_eq_some] at heffect
    obtain rfl := Option.some.inj heffect.2
    exact ⟨rfl, rfl, rfl, rfl, rfl, rfl, rfl, rfl, rfl, rfl, rfl⟩

end

/-! ## Runs

The invariant and the induction over the attempts of a run. -/

/-- The attempts of a run that were answered, with their responses. -/
def answered (trace : List (Attempt × Except AdapterError EnforcementResponse)) :
    List (Attempt × EnforcementResponse) :=
  trace.filterMap (fun exchange => exchange.2.toOption.map (fun response => (exchange.1, response)))

/-- Attempts that fail a check get an error before anything is resolved; attempts whose append
fails get `AuditWriteFailed`; all others are answered. -/
structure FailClosed (exchange : Attempt × Except AdapterError EnforcementResponse) : Prop where
  rejected : ¬ Admitted exchange.1 →
    exchange.2 = .error .invalidRequest ∨ exchange.2 = .error .deadlineExceeded
  failed : Admitted exchange.1 → exchange.1.2.appendError.isSome = true →
    exchange.2 = .error .auditWriteFailed
  answered : Admitted exchange.1 → exchange.1.2.appendError = none →
    ∃ response, exchange.2 = .ok response

/-- The history of a run against the store it has reached: the log has grown by the records of the
answered attempts, in order, and the engine has resolved exactly the admitted calls. -/
structure RunAudited (log : List AuditRecord) (snapshot : PolicySnapshot)
    (trace : List (Attempt × Except AdapterError EnforcementResponse))
    (store : AuditedPolicyStore) : Prop where
  active : store.activeSnapshot = some snapshot
  log : ∃ records, store.auditLog = log ++ records ∧
    List.Forall₂ (Audited snapshot) (answered trace) records
  resolved : store.resolved =
    ((trace.map Prod.fst).filter (fun attempt => Admitted attempt)).map
      (fun attempt => attempt.1.call)
  failClosed : ∀ exchange ∈ trace, FailClosed exchange

theorem answered_append_ok (trace : List (Attempt × Except AdapterError EnforcementResponse))
    (attempt : Attempt) (response : EnforcementResponse) :
    answered (trace ++ [(attempt, .ok response)]) = answered trace ++ [(attempt, response)] := by
  simp [answered, Except.toOption]

theorem answered_append_error (trace : List (Attempt × Except AdapterError EnforcementResponse))
    (attempt : Attempt) (error : AdapterError) :
    answered (trace ++ [(attempt, .error error)]) = answered trace := by
  simp [answered, Except.toOption]

section

variable {log : List AuditRecord} {snapshot : PolicySnapshot}
  {trace : List (Attempt × Except AdapterError EnforcementResponse)}
  {store : AuditedPolicyStore} {attempt : Attempt}

/-- A step that adds no record, whatever it resolved, keeps the history audited. -/
theorem RunAudited.step_error (h : RunAudited log snapshot trace store) {error : AdapterError}
    {resolved : List PolicyCall}
    (hresolved : resolved =
      store.resolved ++ if Admitted attempt then [attempt.1.call] else [])
    (hclosed : FailClosed (attempt, .error error)) :
    RunAudited log snapshot (trace ++ [(attempt, .error error)])
      { store with resolved := resolved } where
  active := h.active
  log := by
    obtain ⟨records, hlog, hrecords⟩ := h.log
    exact ⟨records, hlog, by rwa [answered_append_error]⟩
  resolved := by
    rw [hresolved, h.resolved]
    by_cases hadmitted : Admitted attempt <;> simp [hadmitted]
  failClosed := by
    intro exchange hexchange
    rcases List.mem_append.1 hexchange with hexchange | hexchange
    · exact h.failClosed exchange hexchange
    · obtain rfl := List.mem_singleton.1 hexchange
      exact hclosed

/-- What one request preserves. -/
theorem RunAudited.step (h : RunAudited log snapshot trace store) (attempt : Attempt) :
    RunAudited log snapshot (trace ++ [(attempt, (adapter.step store attempt).2)])
      (adapter.step store attempt).1 := by
  by_cases hadmitted : Admitted attempt
  · cases happend : attempt.2.appendError with
    | some error =>
        have hstep : adapter.step store attempt =
            ({ store with resolved := store.resolved ++ [attempt.1.call] },
              .error .auditWriteFailed) := by
          simp [adapter, authorize_failed h.active hadmitted happend]
        rw [hstep]
        refine h.step_error (by simp [hadmitted]) ⟨?_, fun _ _ => rfl, ?_⟩
        · exact fun hnot => absurd hadmitted hnot
        · intro _ hnone
          rw [happend] at hnone
          cases hnone
    | none =>
        have hstep : adapter.step store attempt =
            ({ store with
                auditLog := store.auditLog ++ [recordOf snapshot attempt]
                resolved := store.resolved ++ [attempt.1.call] },
              .ok (responseOf attempt.1 (authorizationOf snapshot attempt))) := by
          simp [adapter, authorize_answered h.active hadmitted happend]
        rw [hstep]
        obtain ⟨records, hlog, hrecords⟩ := h.log
        refine ⟨h.active, ⟨records ++ [recordOf snapshot attempt], ?_, ?_⟩, ?_, ?_⟩
        · simp [hlog]
        · rw [answered_append_ok]
          exact List.rel_append hrecords (.cons (audited_of_answered snapshot attempt) .nil)
        · simp [h.resolved, hadmitted]
        · intro exchange hexchange
          rcases List.mem_append.1 hexchange with hexchange | hexchange
          · exact h.failClosed exchange hexchange
          · obtain rfl := List.mem_singleton.1 hexchange
            refine ⟨fun hnot => absurd hadmitted hnot, fun _ hsome => ?_, fun _ _ => ⟨_, rfl⟩⟩
            simp [happend] at hsome
  · rcases @authorize_rejected store attempt hadmitted with hrejected | hrejected
    all_goals
      have hclosed : FailClosed (attempt, (adapter.step store attempt).2) := by
        refine ⟨fun _ => ?_, fun hyes => absurd hyes hadmitted, fun hyes => absurd hyes hadmitted⟩
        simp [adapter, hrejected]
      simp only [adapter, hrejected] at hclosed ⊢
      exact h.step_error (by simp [hadmitted]) hclosed

end

/-- **Fail-closed, audited enforcement.** In every run under an active policy the log grows by one
authorization record for each response, in order, which agrees with the response and its effect;
exactly the admitted calls are resolved; and every other outcome is an error. Whatever fails, no
effect leaves the boundary without its record in the log. -/
theorem enforcement_audited (log : List AuditRecord) (snapshot : PolicySnapshot)
    (run : List Attempt) :
    RunAudited log snapshot (adapter.trace ⟨log, some snapshot, []⟩ run)
      (adapter.final ⟨log, some snapshot, []⟩ run) := by
  have hstart : RunAudited log snapshot [] ⟨log, some snapshot, []⟩ :=
    ⟨rfl, ⟨[], by simp, .nil⟩, rfl, by simp⟩
  exact adapter.history_invariant (G := fun _ _ => True) (I := RunAudited log snapshot)
    (fun _ _ attempt h _ => h.step attempt) hstart
    (adapter.along_of_forall (fun _ _ => trivial) _ run)

end HpGuardian

import HpGuardian.Enforcement.Adapter
import HpGuardian.Simulator.Simulate

/-!
# The policy and its audit trail (`src/audit.rs`)

`AuditedPolicyStore` activates policies, authorizes calls under the active one and records
outcomes; each operation is in force only once its record is in the log.  If the append fails, so
does the operation: a reload leaves the old policy active, an authorization is not returned.

`step_cases` says once what an operation can do.  Over a whole run the log then holds exactly the
records of the operations that succeeded (`Trail.log`), and the newest activation record always
names the active policy (`Trail.newest`), whatever order the operations come in and however they
fail.  So a reader of the log alone knows which policy decided each call: the one that the newest
activation record before it names.

`PolicyMatchesTrail` spells this out for whole runs.  Each record of the log is traced back to the
operation that wrote it (`exists_operation_of_record`), and the state in which that operation ran
is the one that the log before the record describes.
-/

namespace HpGuardian

open Framework

/-! ## The operations

`PolicySnapshot::parse`, the three operations with their checks in the order of the source, and the
store as a machine. -/

/-- `MAX_OUTCOME_DETAIL_BYTES`. -/
def maxOutcomeDetailBytes : ℕ := 1024

section Operations

variable (rt : YamlRuntime) (decode : String → Except String Yaml) (sha256 : String → String)

/-- `PolicySnapshot::parse`. -/
def PolicySnapshot.parse (policyText : String) : Except AuditError PolicySnapshot :=
  match Simulator.parsePolicyText rt decode policyText with
  | .ok engine => .ok ⟨1, sha256 policyText, engine⟩
  | .error error => .error (.policy error)

/-- `AuditedPolicyStore::reload`. -/
def AuditedPolicyStore.reload (store : AuditedPolicyStore) (policyText : String)
    (surroundings : Surroundings) : Except AuditError Unit × AuditedPolicyStore :=
  match PolicySnapshot.parse rt decode sha256 policyText with
  | .error error => (.error error, store)
  | .ok candidate =>
      match store.append (.activation candidate surroundings.auditNow) surroundings with
      | (.error error, store) => (.error error, store)
      | (.ok (), store) => (.ok (), { store with activeSnapshot := some candidate })

/-- `AuditedPolicyStore::record_outcome`; the length of the detail is in bytes. -/
def AuditedPolicyStore.recordOutcome (store : AuditedPolicyStore) (authorization : Authorization)
    (status : OutcomeStatus) (detail : Option String) (surroundings : Surroundings) :
    Except AuditError Unit × AuditedPolicyStore :=
  match detail.filter (fun detail => maxOutcomeDetailBytes < detail.utf8ByteSize) with
  | some detail => (.error (.outcomeDetailTooLong maxOutcomeDetailBytes detail.utf8ByteSize), store)
  | none => store.append (.outcome authorization status detail surroundings.auditNow) surroundings

/-- An operation on the audited store.  `AuditedPolicyStore::authorize` passes no metadata, the
enforcement adapter passes its request's. -/
inductive StoreOperation where
  | reload (policyText : String)
  | authorize (call : PolicyCall) (metadata : Option AuthorizationMetadata)
  | recordOutcome (authorization : Authorization) (status : OutcomeStatus)
      (detail : Option String)

/-- What an operation that succeeded returns. -/
inductive Reply where
  | done
  | authorized (authorization : Authorization)

/-- The audited store as a machine. -/
def auditedStore :
    Machine AuditedPolicyStore (StoreOperation × Surroundings) (Except AuditError Reply) where
  step store input :=
    match input.1 with
    | .reload policyText =>
        let (result, store) := store.reload rt decode sha256 policyText input.2
        (store, result.map (fun _ => .done))
    | .authorize call metadata =>
        let (result, store) := store.authorizeWithMetadata call metadata input.2
        (store, result.map .authorized)
    | .recordOutcome authorization status detail =>
        let (result, store) := store.recordOutcome authorization status detail input.2
        (store, result.map (fun _ => .done))

/-- An empty log and no active policy. -/
def AuditedPolicyStore.new : AuditedPolicyStore := ⟨[], none, []⟩

/-! ## The history of a run

What can be read off a trace and off a log: the last policy that was activated, and the newest
record of an activation. -/

/-- An operation with its result. A run is a list of these, the failed operations included. -/
abbrev Exchange := (StoreOperation × Surroundings) × Except AuditError Reply

/-- The policy that an exchange activates: that of a reload that succeeded. -/
def activated (exchange : Exchange) : Option PolicySnapshot :=
  match exchange.2, exchange.1.1 with
  | .ok _, .reload policyText => (PolicySnapshot.parse rt decode sha256 policyText).toOption
  | _, _ => none

/-- The policy of the last reload that succeeded. -/
def lastActivated (trace : List Exchange) : Option PolicySnapshot :=
  (trace.filterMap (activated rt decode sha256)).getLast?

/-- The record of an operation that succeeded. -/
def recorded (exchange : Exchange) : Option AuditRecord :=
  match exchange.2 with
  | .error _ => none
  | .ok reply =>
      match exchange.1.1 with
      | .reload policyText =>
          (PolicySnapshot.parse rt decode sha256 policyText).toOption.map
            (fun snapshot => .activation snapshot exchange.1.2.auditNow)
      | .authorize call _ =>
          match reply with
          | .authorized authorization =>
              some (.authorization authorization.snapshot authorization.correlationId
                authorization.callerId authorization.deadlineUnixMs call authorization.decision
                exchange.1.2.auditNow)
          | .done => none
      | .recordOutcome authorization status detail =>
          some (.outcome authorization status detail exchange.1.2.auditNow)

/-- The newest activation record of a log. -/
def newestActivation (log : List AuditRecord) : Option AuditRecord :=
  (log.filter (fun record => record.event == .activation)).getLast?

end Operations

/-! ## What an operation can do

The inversion of a step.  Everything about runs is derived from it. -/

section Step

variable (rt : YamlRuntime) (decode : String → Except String Yaml) (sha256 : String → String)

/-- The authorization of a call under a snapshot. -/
def authorizationUnder (snapshot : PolicySnapshot) (call : PolicyCall)
    (metadata : Option AuthorizationMetadata) (surroundings : Surroundings) : Authorization where
  correlationId :=
    (metadata.map (fun metadata => metadata.correlationId)).getD surroundings.nextCorrelationId
  snapshot := snapshot
  decision := snapshot.engine.resolveCallAt call surroundings.utcNow
  agent := call.agent
  tool := call.tool
  user := call.user
  callerId := metadata.map (fun metadata => metadata.callerId)
  deadlineUnixMs := metadata.map (fun metadata => metadata.deadlineUnixMs)

/-- An operation fails and leaves log and policy alone, or it succeeds: a reload with a policy
that parses, an authorization under the active policy, or an outcome. -/
theorem step_cases (store : AuditedPolicyStore) (op : StoreOperation)
    (surroundings : Surroundings) :
    (∃ error resolved, (auditedStore rt decode sha256).step store (op, surroundings) =
        ({ store with resolved := resolved }, .error error) ∧
      (store.activeSnapshot = none → (∃ call metadata, op = .authorize call metadata) →
        error = .noActivePolicy) ∧
      (∀ policyText, op = .reload policyText → resolved = store.resolved)) ∨
    (∃ policyText snapshot, op = .reload policyText ∧
      PolicySnapshot.parse rt decode sha256 policyText = .ok snapshot ∧
      (auditedStore rt decode sha256).step store (op, surroundings) =
        ({ store with
            auditLog := store.auditLog ++ [.activation snapshot surroundings.auditNow]
            activeSnapshot := some snapshot }, .ok .done)) ∨
    (∃ call metadata snapshot, op = .authorize call metadata ∧
      store.activeSnapshot = some snapshot ∧
      (auditedStore rt decode sha256).step store (op, surroundings) =
        ({ store with
            auditLog := store.auditLog ++
              [.authorization snapshot
                (authorizationUnder snapshot call metadata surroundings).correlationId
                (authorizationUnder snapshot call metadata surroundings).callerId
                (authorizationUnder snapshot call metadata surroundings).deadlineUnixMs call
                (authorizationUnder snapshot call metadata surroundings).decision
                surroundings.auditNow]
            resolved := store.resolved ++ [call] },
          .ok (.authorized (authorizationUnder snapshot call metadata surroundings)))) ∨
    (∃ authorization status detail, op = .recordOutcome authorization status detail ∧
      (auditedStore rt decode sha256).step store (op, surroundings) =
        ({ store with
            auditLog := store.auditLog ++
              [.outcome authorization status detail surroundings.auditNow] }, .ok .done)) := by
  cases op with
  | reload policyText =>
      cases hparse : PolicySnapshot.parse rt decode sha256 policyText with
      | error error =>
          refine .inl ⟨error, store.resolved, ?_, ?_, fun _ _ => rfl⟩
          · simp [auditedStore, AuditedPolicyStore.reload, hparse, Except.map]
          · rintro - ⟨_, _, hop⟩
            cases hop
      | ok snapshot =>
          cases happend : surroundings.appendError with
          | some error =>
              refine .inl ⟨error, store.resolved, ?_, ?_, fun _ _ => rfl⟩
              · simp [auditedStore, AuditedPolicyStore.reload, AuditedPolicyStore.append, hparse,
                  happend, Except.map]
              · rintro - ⟨_, _, hop⟩
                cases hop
          | none =>
              refine .inr (.inl ⟨policyText, snapshot, rfl, hparse, ?_⟩)
              simp [auditedStore, AuditedPolicyStore.reload, AuditedPolicyStore.append, hparse,
                happend, Except.map]
  | authorize call metadata =>
      cases hactive : store.activeSnapshot with
      | none =>
          refine .inl ⟨.noActivePolicy, store.resolved, ?_, fun _ _ => rfl, fun _ _ => rfl⟩
          simp only [auditedStore, AuditedPolicyStore.authorizeWithMetadata, hactive, Except.map]
          rw [← hactive]
      | some snapshot =>
          cases happend : surroundings.appendError with
          | some error =>
              refine .inl ⟨error, store.resolved ++ [call], ?_, by simp, by simp⟩
              simp [auditedStore, AuditedPolicyStore.authorizeWithMetadata,
                AuditedPolicyStore.resolveCall, AuditedPolicyStore.append, hactive, happend,
                Except.map]
          | none =>
              refine .inr (.inr (.inl ⟨call, metadata, snapshot, rfl, rfl, ?_⟩))
              simp [auditedStore, AuditedPolicyStore.authorizeWithMetadata,
                AuditedPolicyStore.resolveCall, AuditedPolicyStore.append, hactive, happend,
                Except.map, authorizationUnder]
  | recordOutcome authorization status detail =>
      cases hlong : detail.filter (fun detail => maxOutcomeDetailBytes < detail.utf8ByteSize) with
      | some text =>
          refine .inl ⟨.outcomeDetailTooLong maxOutcomeDetailBytes text.utf8ByteSize,
            store.resolved, ?_, ?_, fun _ _ => rfl⟩
          · simp [auditedStore, AuditedPolicyStore.recordOutcome, hlong, Except.map]
          · rintro - ⟨_, _, hop⟩
            cases hop
      | none =>
          cases happend : surroundings.appendError with
          | some error =>
              refine .inl ⟨error, store.resolved, ?_, ?_, fun _ _ => rfl⟩
              · simp [auditedStore, AuditedPolicyStore.recordOutcome, AuditedPolicyStore.append,
                  hlong, happend, Except.map]
              · rintro - ⟨_, _, hop⟩
                cases hop
          | none =>
              refine .inr (.inr (.inr ⟨authorization, status, detail, rfl, ?_⟩))
              simp [auditedStore, AuditedPolicyStore.recordOutcome, AuditedPolicyStore.append,
                hlong, happend, Except.map]

end Step

/-! ## The trail

The invariant of a run, with one preservation lemma for the operations that activate nothing and
the step lemma for all. -/

section Trail

variable (rt : YamlRuntime) (decode : String → Except String Yaml) (sha256 : String → String)

/-- What ties the store to the history of its run: the active policy is the last one activated,
the log holds exactly the records of the operations that succeeded, and its newest activation
record names the active policy. -/
structure Trail (trace : List Exchange) (store : AuditedPolicyStore) : Prop where
  active : store.activeSnapshot = lastActivated rt decode sha256 trace
  log : store.auditLog = trace.filterMap (recorded rt decode sha256)
  newest : (newestActivation store.auditLog).map AuditRecord.policyDigest =
    store.activeSnapshot.map PolicySnapshot.digest

variable {rt decode sha256}
variable {trace : List Exchange} {store : AuditedPolicyStore}

theorem lastActivated_append_none {exchange : Exchange}
    (h : activated rt decode sha256 exchange = none) :
    lastActivated rt decode sha256 (trace ++ [exchange]) =
      lastActivated rt decode sha256 trace := by
  simp [lastActivated, List.filterMap_append, List.filterMap_cons_none h]

theorem lastActivated_append_some {exchange : Exchange} {snapshot : PolicySnapshot}
    (h : activated rt decode sha256 exchange = some snapshot) :
    lastActivated rt decode sha256 (trace ++ [exchange]) = some snapshot := by
  simp [lastActivated, List.filterMap_append, List.filterMap_cons_some h]

theorem newestActivation_append (log : List AuditRecord) (record : AuditRecord) :
    newestActivation (log ++ [record]) =
      if record.event = .activation then some record else newestActivation log := by
  unfold newestActivation
  rw [List.filter_append]
  by_cases h : record.event = .activation
  · simp [h]
  · simp [h]

/-- An exchange that adds one record and activates nothing keeps the trail. -/
theorem Trail.append (h : Trail rt decode sha256 trace store) {exchange : Exchange}
    {record : AuditRecord} {resolved : List PolicyCall}
    (hactivated : activated rt decode sha256 exchange = none)
    (hrecorded : recorded rt decode sha256 exchange = some record)
    (hevent : record.event ≠ .activation) :
    Trail rt decode sha256 (trace ++ [exchange])
      ⟨store.auditLog ++ [record], store.activeSnapshot, resolved⟩ where
  active := by rw [lastActivated_append_none hactivated, ← h.active]
  log := by simp [h.log, hrecorded]
  newest := by rw [newestActivation_append, if_neg hevent, h.newest]

/-- What one operation preserves. -/
theorem Trail.step (h : Trail rt decode sha256 trace store)
    (input : StoreOperation × Surroundings) :
    Trail rt decode sha256
      (trace ++ [(input, ((auditedStore rt decode sha256).step store input).2)])
      ((auditedStore rt decode sha256).step store input).1 := by
  obtain ⟨op, surroundings⟩ := input
  rcases step_cases rt decode sha256 store op surroundings with
    ⟨error, resolved, hstep, -, -⟩ | ⟨policyText, snapshot, rfl, hparse, hstep⟩ |
    ⟨call, metadata, snapshot, rfl, hactive, hstep⟩ |
    ⟨authorization, status, detail, rfl, hstep⟩ <;> rw [hstep]
  · -- a failure adds no record and activates nothing
    refine ⟨?_, ?_, h.newest⟩
    · rw [lastActivated_append_none (by simp [activated]), ← h.active]
    · simp [h.log, recorded]
  · -- a reload adds the activation record of the policy it makes active
    refine ⟨?_, ?_, ?_⟩
    · have hactivated : activated rt decode sha256
          ((.reload policyText, surroundings), .ok .done) = some snapshot := by
        simp [activated, hparse, Except.toOption]
      rw [lastActivated_append_some hactivated]
    · simp [h.log, recorded, hparse, Except.toOption]
    · have hevent : (AuditRecord.activation snapshot surroundings.auditNow).event =
        .activation := rfl
      rw [newestActivation_append, if_pos hevent]
      exact rfl
  · exact h.append (by simp [activated]) (by simp [recorded, authorizationUnder])
      (by simp [AuditRecord.authorization])
  · exact h.append (by simp [activated]) (by simp [recorded]) (by simp [AuditRecord.outcome])

end Trail

/-! ## Whole runs

The properties of a run from an empty log, each about an arbitrary point of it. -/

/-- An authorization record against the newest activation record before it and the policy that was
active. -/
structure AuthorizedUnder (activation : AuditRecord) (snapshot : PolicySnapshot)
    (call : PolicyCall) (utcNow : Instant) (record : AuditRecord) : Prop where
  policyDigest : record.policyDigest = activation.policyDigest
  activation : activation.policyDigest = snapshot.digest
  decision : record.decision = some (snapshot.engine.resolveCallAt call utcNow).action
  matchedRules : record.matchedRules = (snapshot.engine.resolveCallAt call utcNow).matchedRules

/-- An outcome record against the authorization it is about. The record repeats the policy, the
decision and the identifiers of the authorization, also if another policy is in force by then. -/
structure OutcomeOf (authorization : Authorization) (record : AuditRecord) : Prop where
  policyDigest : record.policyDigest = authorization.snapshot.digest
  decision : record.decision = some authorization.decision.action
  matchedRules : record.matchedRules = authorization.decision.matchedRules
  correlationId : record.correlationId = some authorization.correlationId
  callerId : record.callerId = authorization.callerId
  deadlineUnixMs : record.deadlineUnixMs = authorization.deadlineUnixMs

section Runs

variable (rt : YamlRuntime) (decode : String → Except String Yaml) (sha256 : String → String)

/-- The trace of a run from an empty log. -/
def historyOf (run : List (StoreOperation × Surroundings)) : List Exchange :=
  (auditedStore rt decode sha256).trace .new run

/-- The store after a run from an empty log. -/
def storeAfter (run : List (StoreOperation × Surroundings)) : AuditedPolicyStore :=
  (auditedStore rt decode sha256).final .new run

/-- The result and the effect of an operation that follows a run. -/
def stepAfter (run : List (StoreOperation × Surroundings)) (input : StoreOperation × Surroundings) :
    AuditedPolicyStore × Except AuditError Reply :=
  (auditedStore rt decode sha256).step (storeAfter rt decode sha256 run) input

/-- Policy and trail agree over a run: what is active, what is logged, what a failed reload leaves
behind, and what each kind of record says. -/
structure PolicyMatchesTrail (run : List (StoreOperation × Surroundings)) : Prop where
  /-- The active policy is that of the last reload that succeeded. -/
  active : (storeAfter rt decode sha256 run).activeSnapshot =
    lastActivated rt decode sha256 (historyOf rt decode sha256 run)
  /-- The log holds the records of the operations that succeeded, in order. -/
  log : (storeAfter rt decode sha256 run).auditLog =
    (historyOf rt decode sha256 run).filterMap (recorded rt decode sha256)
  /-- A reload that fails changes nothing. -/
  reload_failed : ∀ before policyText surroundings after error,
    run = before ++ (.reload policyText, surroundings) :: after →
    (stepAfter rt decode sha256 before (.reload policyText, surroundings)).2 = .error error →
    (stepAfter rt decode sha256 before (.reload policyText, surroundings)).1 =
      storeAfter rt decode sha256 before
  /-- An authorization record names the newest activation before it, and its decision is that of
  the policy activated there. -/
  authorized : ∀ log record rest,
    (storeAfter rt decode sha256 run).auditLog = log ++ record :: rest →
    record.event = .authorization →
    ∃ before call metadata surroundings after activation snapshot,
      run = before ++ (.authorize call metadata, surroundings) :: after ∧
      (storeAfter rt decode sha256 before).auditLog = log ∧
      newestActivation log = some activation ∧
      lastActivated rt decode sha256 (historyOf rt decode sha256 before) = some snapshot ∧
      AuthorizedUnder activation snapshot call surroundings.utcNow record
  /-- Before the first reload that succeeds nothing is authorized. -/
  unauthorized : ∀ before call metadata surroundings after,
    run = before ++ (.authorize call metadata, surroundings) :: after →
    lastActivated rt decode sha256 (historyOf rt decode sha256 before) = none →
    (stepAfter rt decode sha256 before (.authorize call metadata, surroundings)).2 =
      .error .noActivePolicy
  /-- An outcome record carries what the authorization it was given fixed. -/
  outcome : ∀ record ∈ (storeAfter rt decode sha256 run).auditLog, record.event = .outcome →
    ∃ authorization status detail surroundings,
      (.recordOutcome authorization status detail, surroundings) ∈ run ∧
      OutcomeOf authorization record

/-- Every run keeps the trail. -/
theorem trail_of_run (run : List (StoreOperation × Surroundings)) :
    Trail rt decode sha256 (historyOf rt decode sha256 run)
      (storeAfter rt decode sha256 run) := by
  have hstart : Trail rt decode sha256 [] .new := ⟨rfl, rfl, rfl⟩
  exact (auditedStore rt decode sha256).history_invariant (G := fun _ _ => True)
    (I := Trail rt decode sha256) (fun _ _ input h _ => h.step input) hstart
    ((auditedStore rt decode sha256).along_of_forall (fun _ _ => trivial) _ run)

/-- A record of the log was added by an operation of the run, after the records before it. -/
theorem exists_operation_of_record {run : List (StoreOperation × Surroundings)}
    {log rest : List AuditRecord} {record : AuditRecord}
    (h : (storeAfter rt decode sha256 run).auditLog = log ++ record :: rest) :
    ∃ before input after, run = before ++ input :: after ∧
      (storeAfter rt decode sha256 before).auditLog = log ∧
      recorded rt decode sha256 (input, (stepAfter rt decode sha256 before input).2) =
        some record := by
  rw [(trail_of_run rt decode sha256 run).log] at h
  obtain ⟨front, back, hhistory, hfront, hback⟩ := List.filterMap_eq_append_iff.1 h
  obtain ⟨silent, exchange, others, rfl, hsilent, hrecord, -⟩ :=
    List.filterMap_eq_cons_iff.1 hback
  obtain ⟨input, result⟩ := exchange
  rw [← List.append_assoc] at hhistory
  obtain ⟨before, after, hrun, hbefore, rfl⟩ := Machine.exists_split_of_trace _ hhistory
  refine ⟨before, input, after, hrun, ?_, hrecord⟩
  have hlog := (trail_of_run rt decode sha256 before).log
  rw [hlog, historyOf, ← hbefore, List.filterMap_append, hfront,
    List.filterMap_eq_nil_iff.2 hsilent, List.append_nil]

/-- **Policy and audit trail agree over whole runs**, whatever operations the host asks for, in
whatever order, and whichever appends fail. -/
theorem policy_matches_trail (run : List (StoreOperation × Surroundings)) :
    PolicyMatchesTrail rt decode sha256 run where
  active := (trail_of_run rt decode sha256 run).active
  log := (trail_of_run rt decode sha256 run).log
  reload_failed := by
    rintro before policyText surroundings after error - hfailed
    rcases step_cases rt decode sha256 (storeAfter rt decode sha256 before)
      (.reload policyText) surroundings with
      ⟨_, resolved, hstep, -, hresolved⟩ | ⟨_, _, -, -, hstep⟩ | ⟨_, _, _, hop, -⟩ |
      ⟨_, _, _, hop, -⟩
    · rw [stepAfter, hstep, hresolved policyText rfl]
    · rw [stepAfter, hstep] at hfailed
      cases hfailed
    · cases hop
    · cases hop
  authorized := by
    intro log record rest hlog hevent
    obtain ⟨before, ⟨op, surroundings⟩, after, hrun, hbefore, hrecord⟩ :=
      exists_operation_of_record rt decode sha256 hlog
    have htrail := trail_of_run rt decode sha256 before
    rcases step_cases rt decode sha256 (storeAfter rt decode sha256 before) op surroundings with
      ⟨_, _, hstep, -, -⟩ | ⟨_, snapshot, rfl, hparse, hstep⟩ |
      ⟨call, metadata, snapshot, rfl, hactive, hstep⟩ | ⟨_, _, _, rfl, hstep⟩ <;>
      rw [stepAfter, hstep] at hrecord
    · cases hrecord
    · obtain rfl : AuditRecord.activation snapshot surroundings.auditNow = record := by
        simpa [recorded, hparse, Except.toOption] using hrecord
      cases hevent
    · -- the active policy is the one the newest activation record names
      have hnewest := htrail.newest
      rw [hactive, hbefore, Option.map_some] at hnewest
      obtain ⟨activation, hactivation, hdigest⟩ := Option.map_eq_some_iff.1 hnewest
      obtain rfl := Option.some.inj hrecord
      exact ⟨before, call, metadata, surroundings, after, activation, snapshot, hrun, hbefore,
        hactivation, htrail.active.symm.trans hactive, hdigest.symm, hdigest, rfl, rfl⟩
    · obtain rfl := Option.some.inj hrecord
      cases hevent
  unauthorized := by
    rintro before call metadata surroundings after - hnone
    have hinactive := (trail_of_run rt decode sha256 before).active.trans hnone
    rcases step_cases rt decode sha256 (storeAfter rt decode sha256 before)
      (.authorize call metadata) surroundings with
      ⟨error, _, hstep, herror, -⟩ | ⟨_, _, hop, -, -⟩ | ⟨_, _, snapshot, -, hactive, -⟩ |
      ⟨_, _, _, hop, -⟩
    · rw [stepAfter, hstep, herror hinactive ⟨call, metadata, rfl⟩]
    · cases hop
    · rw [hinactive] at hactive
      cases hactive
    · cases hop
  outcome := by
    intro record hmem hevent
    obtain ⟨log, rest, hlog⟩ := List.append_of_mem hmem
    obtain ⟨before, ⟨op, surroundings⟩, after, hrun, -, hrecord⟩ :=
      exists_operation_of_record rt decode sha256 hlog
    rcases step_cases rt decode sha256 (storeAfter rt decode sha256 before) op surroundings with
      ⟨_, _, hstep, -, -⟩ | ⟨_, snapshot, rfl, hparse, hstep⟩ | ⟨_, _, _, rfl, -, hstep⟩ |
      ⟨authorization, status, detail, rfl, hstep⟩ <;> rw [stepAfter, hstep] at hrecord
    · cases hrecord
    · obtain rfl : AuditRecord.activation snapshot surroundings.auditNow = record := by
        simpa [recorded, hparse, Except.toOption] using hrecord
      cases hevent
    · obtain rfl := Option.some.inj hrecord
      cases hevent
    · obtain rfl := Option.some.inj hrecord
      refine ⟨authorization, status, detail, surroundings, ?_, rfl, rfl, rfl, rfl, rfl, rfl⟩
      rw [hrun]
      simp

end Runs

end HpGuardian

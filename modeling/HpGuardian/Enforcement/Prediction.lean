import HpGuardian.Enforcement.Requests
import HpGuardian.Enforcement.Trail
import HpGuardian.Simulator.Reports

/-!
# The simulator predicts enforcement

A call that is simulated and the same call when it is enforced are decoded by different code, the
policy text is parsed by different code, and the decision is reported in different records.  The
two paths agree at each of these stages, and therefore from end to end.

The stages are taken one at a time.  A policy text that one path accepts, the other accepts with
the same engine and digest.  The two decoders of calls accept the same JSON values and read the
same calls from them.  A trace of one line is read as one event and gets one report with one
result.  The resolution is the same function of the engine, the call and the instant; only the
clock differs, which is why the two are compared at the same instant.

`simulator_predicts_enforcement` has three parts: the decoders agree, a trace for each call exists
(`eventForm`), and the answer to a request says the same as the result of the simulation.  The last
part also says that an admitted request whose record can be appended is answered, so that there is
an answer to predict.
-/

namespace HpGuardian

open Framework

section

variable {rt : YamlRuntime} {decode : String → Except String Yaml} {policyText : String}

theorem PolicySnapshot.parse_ok (sha256 : String → String) {engine : Engine}
    (h : Simulator.parsePolicyText rt decode policyText = .ok engine) :
    PolicySnapshot.parse rt decode sha256 policyText = .ok ⟨1, sha256 policyText, engine⟩ := by
  rw [PolicySnapshot.parse, h]

theorem Simulator.SimulationPolicy.parse_ok (sha256 : String → String) {engine : Engine}
    (h : parsePolicyText rt decode policyText = .ok engine) :
    ∃ policy, SimulationPolicy.parse rt decode sha256 policyText = .ok policy ∧
      policy.identity = ⟨traceVersion, sha256 policyText⟩ ∧ policy.engine = engine := by
  unfold SimulationPolicy.parse
  split
  · rename_i engine' hengine
    obtain rfl := Except.ok.inj (h.symm.trans hengine)
    exact ⟨_, rfl, rfl, rfl⟩
  · rename_i error herror
    rw [h] at herror
    cases herror

/-- A reload that succeeds activates the policy of its text. -/
theorem AuditedPolicyStore.reload_ok {sha256 : String → String} {store store' : AuditedPolicyStore}
    {surroundings : Surroundings} {snapshot : PolicySnapshot}
    (hparse : PolicySnapshot.parse rt decode sha256 policyText = .ok snapshot)
    (h : store.reload rt decode sha256 policyText surroundings = (.ok (), store')) :
    store'.activeSnapshot = some snapshot := by
  rw [AuditedPolicyStore.reload, hparse] at h
  cases happend : surroundings.appendError with
  | none =>
      simp only [AuditedPolicyStore.append, happend, Prod.mk.injEq, true_and] at h
      rw [← h]
  | some error => simp [AuditedPolicyStore.append, happend] at h

end

/-- A request that is answered gets the response of the active policy's decision. -/
theorem authorize_ok {store store' : AuditedPolicyStore} {snapshot : PolicySnapshot}
    {attempt : Attempt} {response : EnforcementResponse}
    (hactive : store.activeSnapshot = some snapshot)
    (h : authorize store attempt.1 attempt.2 = (.ok response, store')) :
    response = responseOf attempt.1 (authorizationOf snapshot attempt) := by
  by_cases hadmitted : Admitted attempt
  · cases happend : attempt.2.appendError with
    | none =>
        rw [authorize_answered hactive hadmitted happend] at h
        exact (Except.ok.inj (congrArg Prod.fst h)).symm
    | some error =>
        rw [authorize_failed hactive hadmitted happend] at h
        cases congrArg Prod.fst h
  · rcases @authorize_rejected store attempt hadmitted with hrejected | hrejected
    · rw [hrejected] at h
      cases congrArg Prod.fst h
    · rw [hrejected] at h
      cases congrArg Prod.fst h

/-- A text without a newline is one line. -/
theorem Simulator.lines_single {text : String} (hline : '\n' ∉ text.toList)
    (hblank : isBlank text = false) : lines text = [text] := by
  have hsplit : ∀ rest current : List Char, '\n' ∉ rest → current ++ rest ≠ [] →
      splitLines current rest = [current ++ rest] := by
    intro rest
    induction rest with
    | nil =>
        intro current _ hne
        rw [List.append_nil] at hne ⊢
        rw [splitLines, if_neg hne]
    | cons character rest ih =>
        intro current hnotMem _
        obtain ⟨hcharacter, hrest⟩ := not_or.1 (List.mem_cons.not.1 hnotMem)
        rw [splitLines, if_neg (Ne.symm hcharacter), ih _ hrest (by simp), List.append_assoc,
          List.singleton_append]
  have hne : text.toList ≠ [] := by
    intro hnil
    rw [isBlank, hnil] at hblank
    cases hblank
  rw [lines, hsplit _ [] hline (by simpa using hne), List.nil_append, List.map_singleton,
    String.ofList_toList]

/-- A trace of one line that holds a first event is read as that event. -/
theorem Simulator.parseTrace_single {fromStr : String → Option Json} {text : String}
    {value : Json} {event : TraceEvent} (hline : '\n' ∉ text.toList)
    (hblank : isBlank text = false) (hvalue : fromStr text = some value)
    (hevent : IsEvent value event) (hsequence : event.sequence = 1) :
    parseTrace fromStr text = .ok [event] := by
  have hrecords : records text = [(text, 0)] := by
    rw [records, lines_single hline hblank]
    simp [hblank]
  have htaken := (@traceLine_ok_iff fromStr text 0 hblank ⟨1, []⟩ _).2
    ⟨event, ⟨value, hvalue, hevent⟩, hsequence, rfl⟩
  rw [parseTrace_eq_records, hrecords, List.foldlM_cons, htaken]
  rfl

/-- The JSON form of a first event that holds a call. -/
def eventForm (call : PolicyCall) : Json :=
  .object [
    ("version", .int Simulator.traceVersion),
    ("sequence", .int 1),
    ("call", (EffectCall.fromCall call).toJson)]

theorem isEvent_eventForm (call : PolicyCall) :
    Simulator.IsEvent (eventForm call) ⟨1, none, call, none⟩ := by
  refine .object ?_ rfl rfl Nat.one_pos (by norm_num) rfl (by simp) rfl (Adapter.isCall_toJson call)
    .none
  simp [OnlyFields]

/-- One event under one policy gets one report with one result. -/
theorem Simulator.simulateTrace_single {fromStr : String → Option Json} {trace : String}
    {event : TraceEvent} (h : parseTrace fromStr trace = .ok [event]) (policy : SimulationPolicy)
    (clock : Clock) :
    simulateTrace fromStr policy none trace clock =
      .ok [reportOf event [resultAt clock.now event policy] none] := by
  rw [simulateTrace_eq h]
  rfl

/-- A request and an event with the same JSON call have the same call. -/
theorem call_eq_of_json {requestFields eventFields : JsonFields} {request : EnforcementRequest}
    {event : Simulator.TraceEvent} {line : ℕ}
    (hrequest : EnforcementRequest.fromValue (.object requestFields) = .ok request)
    (hevent : Simulator.parseEvent (.object eventFields) line = .ok event)
    (hcall : JsonFields.get eventFields "call" = JsonFields.get requestFields "call") :
    event.call = request.call := by
  cases fromValue_ok_iff.1 hrequest with
  | object _ _ _ _ _ _ requestCall requestIsCall =>
      cases Simulator.parseEvent_ok_iff.1 hevent with
      | object _ _ _ _ _ _ _ eventCall eventIsCall _ =>
          obtain rfl := Option.some.inj (eventCall.symm.trans (hcall.trans requestCall))
          have hparsed := Adapter.parseCall_ok_iff.2 requestIsCall
          exact Except.ok.inj ((Adapter.parseCall_ok_iff.2 eventIsCall).symm.trans hparsed)

/-- What a response and a simulated result say about a decision: the same policy identity, the same
decision and the same matched rules. -/
structure Predicts (result : Simulator.SimulationResult) (response : EnforcementResponse) :
    Prop where
  policy : result.policy = response.policy
  decision : result.decision = response.decision
  matchedRules : result.matchedRules = response.matchedRules

theorem predicts_of_parsed {snapshot : PolicySnapshot} {policy : Simulator.SimulationPolicy}
    (hidentity : policy.identity = ⟨snapshot.version, snapshot.digest⟩)
    (hengine : policy.engine = snapshot.engine) {attempt : Attempt} {event : Simulator.TraceEvent}
    (hcall : event.call = attempt.1.call) :
    Predicts (Simulator.resultAt attempt.2.utcNow event policy)
      (responseOf attempt.1 (authorizationOf snapshot attempt)) := by
  refine ⟨hidentity, ?_, ?_⟩
  · rw [Simulator.resultAt, hcall, hengine]
    rfl
  · rw [Simulator.resultAt, hcall, hengine]
    rfl

/-- **The simulator predicts enforcement.**  The two call decoders agree on every JSON value, both
read back the form of every effect call, and a request and an event with the same JSON call have
the same call.  Every call has a trace of one event.  For every accepted policy text, a request that
the adapter admits and can record is answered, and every answer has the identity, decision and
matched rules of the one result for the same call in a trace of one event, at the same instant. -/
theorem simulator_predicts_enforcement (rt : YamlRuntime) (decode : String → Except String Yaml)
    (sha256 : String → String) (fromStr : String → Option Json) :
    (∀ value line call,
      Adapter.parseCall value = .ok call ↔ Simulator.parseCall value line = .ok call) ∧
    (∀ call line, Adapter.parseCall (EffectCall.fromCall call).toJson = .ok call ∧
      Simulator.parseCall (EffectCall.fromCall call).toJson line = .ok call) ∧
    (∀ requestFields eventFields (request : EnforcementRequest) (event : Simulator.TraceEvent) line,
      EnforcementRequest.fromValue (.object requestFields) = .ok request →
      Simulator.parseEvent (.object eventFields) line = .ok event →
      JsonFields.get eventFields "call" = JsonFields.get requestFields "call" →
      event.call = request.call) ∧
    (∀ call text, '\n' ∉ text.toList → Simulator.isBlank text = false →
      fromStr text = some (eventForm call) →
      Simulator.parseTrace fromStr text = .ok [⟨1, none, call, none⟩]) ∧
    ∀ policyText engine, Simulator.parsePolicyText rt decode policyText = .ok engine →
      ∃ snapshot policy, PolicySnapshot.parse rt decode sha256 policyText = .ok snapshot ∧
        Simulator.SimulationPolicy.parse rt decode sha256 policyText = .ok policy ∧
        (∀ (store store' : AuditedPolicyStore) (surroundings : Surroundings),
          store.reload rt decode sha256 policyText surroundings = (.ok (), store') →
          store'.activeSnapshot = some snapshot) ∧
        (∀ (store : AuditedPolicyStore) (attempt : Attempt),
          store.activeSnapshot = some snapshot → Admitted attempt →
          attempt.2.appendError = none →
          ∃ response store', authorize store attempt.1 attempt.2 = (.ok response, store')) ∧
        ∀ (store store' : AuditedPolicyStore) (attempt : Attempt) (response : EnforcementResponse)
          (trace : String) (event : Simulator.TraceEvent) (clock : Simulator.Clock),
          store.activeSnapshot = some snapshot →
          authorize store attempt.1 attempt.2 = (.ok response, store') →
          Simulator.parseTrace fromStr trace = .ok [event] → event.call = attempt.1.call →
          clock.now = attempt.2.utcNow →
          ∃ report result,
            Simulator.simulateTrace fromStr policy none trace clock = .ok [report] ∧
              report.results = [result] ∧ Predicts result response := by
  refine ⟨fun value line call => Adapter.parseCall_iff_simulator line, fun call line => ?_,
    fun _ _ _ _ _ => call_eq_of_json, fun call text hline hblank hvalue => ?_, ?_⟩
  · have hform := Adapter.isCall_toJson call
    exact ⟨Adapter.parseCall_ok_iff.2 hform, Simulator.parseCall_ok_iff.2 hform⟩
  · exact Simulator.parseTrace_single hline hblank hvalue (isEvent_eventForm call) rfl
  · intro policyText engine hparse
    have hsnapshot := PolicySnapshot.parse_ok sha256 hparse
    obtain ⟨policy, hpolicy, hidentity, hengine⟩ :=
      Simulator.SimulationPolicy.parse_ok sha256 hparse
    refine ⟨_, policy, hsnapshot, hpolicy, ?_, ?_, ?_⟩
    · intro store store' surroundings hreload
      exact AuditedPolicyStore.reload_ok hsnapshot hreload
    · intro store attempt hactive hadmitted happend
      exact ⟨_, _, authorize_answered hactive hadmitted happend⟩
    · intro store store' attempt response trace event clock hactive hanswer htrace hcall hclock
      obtain rfl := authorize_ok hactive hanswer
      refine ⟨_, _, Simulator.simulateTrace_single htrace policy clock, rfl, ?_⟩
      rw [hclock]
      exact predicts_of_parsed hidentity hengine hcall

/-- The call of the sample trace, requested as the window of the sample policy opens. -/
def sampleAttempt : Attempt :=
  (⟨"host", "request-1", 10, Simulator.sampleEvent.call⟩,
    ⟨5, Simulator.sampleStart, 0, "", none⟩)

/-- The sample call is answered, and its simulation predicts the answer. -/
theorem simulator_predicts_enforcement_sample :
    ∃ snapshot policy response store' report result,
      PolicySnapshot.parse Simulator.sampleRuntime Simulator.sampleDecode Simulator.sampleSha256
        Simulator.samplePolicyText = .ok snapshot ∧
      Simulator.samplePolicy = .ok policy ∧
      authorize ⟨[], some snapshot, []⟩ sampleAttempt.1 sampleAttempt.2 = (.ok response, store') ∧
      Simulator.simulateTrace Simulator.sampleFromStr policy none Simulator.sampleTrace
        (.stopped Simulator.sampleStart) = .ok [report] ∧
      report.results = [result] ∧ Predicts result response := by
  obtain ⟨-, -, -, -, hpolicies⟩ := simulator_predicts_enforcement Simulator.sampleRuntime
    Simulator.sampleDecode Simulator.sampleSha256 Simulator.sampleFromStr
  obtain ⟨engine, hengine⟩ : ∃ engine, Simulator.parsePolicyText Simulator.sampleRuntime
      Simulator.sampleDecode Simulator.samplePolicyText = .ok engine :=
    exists_ok (by decide +kernel)
  obtain ⟨snapshot, policy, hsnapshot, hpolicy, -, hanswered, hpredicts⟩ := hpolicies _ _ hengine
  obtain ⟨response, store', hresponse⟩ := hanswered ⟨[], some snapshot, []⟩ sampleAttempt rfl
    (by decide +kernel) rfl
  generalize htrace : Simulator.sampleTrace = trace at *
  obtain ⟨report, result, hsimulated, hresult, hpredict⟩ := hpredicts _ _ _ _ trace
    Simulator.sampleEvent (.stopped Simulator.sampleStart) rfl hresponse
    (htrace ▸ Simulator.sampleTrace_valid) rfl rfl
  exact ⟨snapshot, policy, response, store', report, result, hsnapshot, hpolicy, hresponse,
    hsimulated, hresult, hpredict⟩

end HpGuardian

import HpGuardian.Simulator.Simulate

/-!
# What simulation reports depend on

`reportAt` is the report on an event when all decisions are taken at one instant.  A simulation
under a stopped clock reports just that; a simulation under an arbitrary clock does if the rules
that the call's target selects answer alike at every instant.

That condition is also necessary.  A decision names the indices of all matching rules, and the
parser gives different rules different indices, so two decisions at two instants are equal only if
exactly the same rules match (`Engine.resolveCallAt_eq_iff`).  It follows that a report which is
the same under all clocks comes from rules whose conditions do not look at the time, as far as they
are asked.

`reports_independent_of_clock_iff` is about whole traces and one or two policies.  Of a policy
compared with itself it says, under the same condition, that no difference is shown: the two
decisions are taken at two readings of the clock.  At the end there is a policy with a time window
for which both fail.
-/

namespace HpGuardian

/-! ## Decisions at two instants

When the matching rules are the same, and that the indices tell. -/

/-- Two selections from a list with distinct keys have the same keys only if they select alike. -/
theorem selects_alike_of_map_filter {α κ : Type*} {l : List α} {key : α → κ}
    (hnodup : (l.map key).Nodup) {p q : α → Bool}
    (h : (l.filter p).map key = (l.filter q).map key) {a : α} (ha : a ∈ l) : p a = q a := by
  have hmem : ∀ p q : α → Bool, (l.filter p).map key = (l.filter q).map key →
      p a = true → q a = true := by
    intro p q h hpa
    have hkey : key a ∈ (l.filter q).map key := by
      rw [← h]
      exact List.mem_map_of_mem (List.mem_filter.2 ⟨ha, hpa⟩)
    obtain ⟨b, hb, hba⟩ := List.mem_map.1 hkey
    obtain ⟨hbl, hqb⟩ := List.mem_filter.1 hb
    obtain rfl := List.inj_on_of_nodup_map hnodup hbl ha hba
    exact hqb
  exact Bool.eq_iff_iff.2 ⟨hmem p q h, hmem q p h.symm⟩

/-- A rule matches alike at two instants if its condition answers alike or its target does not
select the call. -/
def AlikeAt (call : PolicyCall) (t t' : Instant) (rule : Rule) : Prop :=
  ruleMatchesRule rule call = true → evaluateAt rule call t = evaluateAt rule call t'

/-- Every rule whose target selects the call has a condition that does not look at the time. A time
window that a connective makes irrelevant does no harm: it is the answer of the condition that
counts. -/
def TimeIndependent (engine : Engine) (call : PolicyCall) : Prop :=
  ∀ rule ∈ engine.rules, ∀ t t', AlikeAt call t t' rule

section

variable {engine : Engine} {call : PolicyCall} {t t' : Instant}

theorem Engine.matching_eq_of_alike (h : ∀ rule ∈ engine.rules, AlikeAt call t t' rule) :
    engine.matching call t = engine.matching call t' := by
  refine List.filter_congr fun rule hrule => ?_
  cases htarget : ruleMatchesRule rule call with
  | false => rfl
  | true => rw [h rule hrule htarget]

theorem Engine.resolveCallAt_congr (h : engine.matching call t = engine.matching call t') :
    engine.resolveCallAt call t = engine.resolveCallAt call t' := by
  unfold Engine.resolveCallAt Engine.resolveCallWithSelectedRuleAt
  rw [h]

/-- Decisions at two instants are equal iff every rule that selects the call answers alike. -/
theorem Engine.resolveCallAt_eq_iff (hnumbered : RulesNumbered engine.rules) :
    engine.resolveCallAt call t = engine.resolveCallAt call t' ↔
      ∀ rule ∈ engine.rules, AlikeAt call t t' rule := by
  constructor
  · intro h rule hrule htarget
    have hmatched := congrArg Decision.matchedRules h
    rw [engine.matchedRules_eq, engine.matchedRules_eq] at hmatched
    have halike := selects_alike_of_map_filter hnumbered.nodup hmatched hrule
    simpa [htarget] using halike
  · intro h
    exact Engine.resolveCallAt_congr (Engine.matching_eq_of_alike h)

end

namespace Simulator

open Framework

/-! ## Reports at one instant

An event under a stopped clock, and under any clock. -/

/-- The result for a policy at an explicit instant. -/
def resultAt (t : Instant) (event : TraceEvent) (policy : SimulationPolicy) : SimulationResult :=
  let decision := policy.engine.resolveCallAt event.call t
  { policy := policy.identity
    decision := decision.action
    matchedRules := decision.matchedRules
    matchesExpected := matchesExpected event.expected policy.identity decision }

/-- The report on an event when every decision is taken at one instant. -/
def reportAt (t : Instant) (baseline : SimulationPolicy) (candidate : Option SimulationPolicy)
    (event : TraceEvent) : SimulationReport :=
  let first := resultAt t event baseline
  match candidate with
  | none => reportOf event [first] none
  | some candidate =>
      let second := resultAt t event candidate
      reportOf event [first, second] (some (compareResults first second))

/-- Every rule of the given policies that selects the call answers alike at every instant. Rules
that another rule outranks are included, since a report lists all rules that match. -/
def EventTimeIndependent (baseline : SimulationPolicy) (candidate : Option SimulationPolicy)
    (event : TraceEvent) : Prop :=
  TimeIndependent baseline.engine event.call ∧
    ∀ policy ∈ candidate, TimeIndependent policy.engine event.call

section

variable {baseline : SimulationPolicy} {candidate : Option SimulationPolicy} {event : TraceEvent}

theorem simulatePolicy_eq (policy : SimulationPolicy) (event : TraceEvent) (clock : Clock) :
    simulatePolicy policy event clock = (resultAt clock.now event policy, clock.rest) := rfl

theorem resultAt_eq_of_timeIndependent {policy : SimulationPolicy}
    (h : TimeIndependent policy.engine event.call) (t t' : Instant) :
    resultAt t event policy = resultAt t' event policy := by
  unfold resultAt
  rw [(Engine.resolveCallAt_eq_iff policy.numbered).2 (fun rule hrule => h rule hrule t t')]

/-- A result determines the decision. -/
theorem resolveCallAt_eq_of_resultAt {policy : SimulationPolicy} {t t' : Instant}
    (h : resultAt t event policy = resultAt t' event policy) :
    policy.engine.resolveCallAt event.call t = policy.engine.resolveCallAt event.call t' := by
  have haction := congrArg SimulationResult.decision h
  have hmatched := congrArg SimulationResult.matchedRules h
  dsimp only [resultAt] at haction hmatched
  cases hdecision : policy.engine.resolveCallAt event.call t with
  | mk action matchedRules =>
      cases hdecision' : policy.engine.resolveCallAt event.call t' with
      | mk action' matchedRules' =>
          rw [hdecision, hdecision'] at haction hmatched
          exact congrArg₂ Decision.mk haction hmatched

/-- Under the condition an event gets the same report from every clock. -/
theorem simulateEvent_eq_reportAt (h : EventTimeIndependent baseline candidate event)
    (clock : Clock) (t : Instant) :
    (simulateEvent event baseline candidate clock).1 = reportAt t baseline candidate event := by
  have hfirst := resultAt_eq_of_timeIndependent h.1 clock.now t
  cases candidate with
  | none => simp [simulateEvent, simulatePolicy_eq, reportAt, hfirst]
  | some policy =>
      have hsecond := resultAt_eq_of_timeIndependent (h.2 policy rfl) clock.rest.now t
      simp [simulateEvent, simulatePolicy_eq, reportAt, hfirst, hsecond]

/-- Under a stopped clock every decision is taken at its instant. -/
theorem simulateEvent_stopped (t : Instant) :
    simulateEvent event baseline candidate (.stopped t) =
      (reportAt t baseline candidate event, .stopped t) := by
  cases candidate with
  | none => simp [simulateEvent, simulatePolicy_eq, reportAt]
  | some policy => simp [simulateEvent, simulatePolicy_eq, reportAt]

/-- Equal reports at all instants need the condition. -/
theorem eventTimeIndependent_of_reportAt
    (h : ∀ t t', reportAt t baseline candidate event = reportAt t' baseline candidate event) :
    EventTimeIndependent baseline candidate event := by
  have hresults := fun t t' => congrArg SimulationReport.results (h t t')
  constructor
  · intro rule hrule t t'
    have hfirst : resultAt t event baseline = resultAt t' event baseline := by
      have hr := hresults t t'
      cases candidate <;> simp only [reportAt, reportOf, List.cons.injEq] at hr <;> exact hr.1
    exact (Engine.resolveCallAt_eq_iff baseline.numbered).1
      (resolveCallAt_eq_of_resultAt hfirst) rule hrule
  · rintro policy hpolicy rule hrule t t'
    obtain rfl := Option.mem_def.1 hpolicy
    have hsecond : resultAt t event policy = resultAt t' event policy := by
      have hr := hresults t t'
      simp only [reportAt, reportOf, List.cons.injEq] at hr
      exact hr.2.1
    exact (Engine.resolveCallAt_eq_iff policy.numbered).1
      (resolveCallAt_eq_of_resultAt hsecond) rule hrule

end

/-! ## Whole traces

All events of a trace, at readings that go on from event to event. -/

section

variable {baseline : SimulationPolicy} {candidate : Option SimulationPolicy}

theorem simulateEvents_eq_map {events : List TraceEvent}
    (h : ∀ event ∈ events, EventTimeIndependent baseline candidate event) (clock : Clock)
    (t : Instant) :
    simulateEvents baseline candidate events clock =
      events.map (reportAt t baseline candidate) := by
  induction events generalizing clock with
  | nil => rfl
  | cons event events ih =>
      obtain ⟨hevent, hevents⟩ := List.forall_mem_cons.1 h
      rw [simulateEvents_cons, List.map_cons, ih hevents, simulateEvent_eq_reportAt hevent clock t]

theorem simulateEvents_stopped (events : List TraceEvent) (t : Instant) :
    simulateEvents baseline candidate events (.stopped t) =
      events.map (reportAt t baseline candidate) := by
  induction events with
  | nil => rfl
  | cons event events ih => rw [simulateEvents_cons, simulateEvent_stopped, List.map_cons, ih]

theorem simulateTrace_eq {fromStr : String → Option Json} {trace : String}
    {events : List TraceEvent} (h : parseTrace fromStr trace = .ok events) (clock : Clock) :
    simulateTrace fromStr baseline candidate trace clock =
      .ok (simulateEvents baseline candidate events clock) := by
  rw [simulateTrace, h]
  rfl

/-- A policy compared with itself at one instant shows no difference. -/
theorem reportAt_self_comparison (t : Instant) (event : TraceEvent) :
    (reportAt t baseline (some baseline) event).comparison = some ⟨false, false⟩ := by
  simp [reportAt, reportOf, compareResults]

/-- **What simulation reports depend on.**  The reports on a valid trace are the same under all
clocks, and a policy compared with itself never shows a difference, iff no rule that selects a
call of the trace has a condition whose answer changes with the time. -/
theorem reports_independent_of_clock_iff {fromStr : String → Option Json} {trace : String}
    {events : List TraceEvent} (h : parseTrace fromStr trace = .ok events)
    (baseline : SimulationPolicy) (candidate : Option SimulationPolicy) :
    ((∀ clock clock', simulateTrace fromStr baseline candidate trace clock =
        simulateTrace fromStr baseline candidate trace clock') ∧
      ∀ clock reports, simulateTrace fromStr baseline (some baseline) trace clock = .ok reports →
        ∀ report ∈ reports, report.comparison = some ⟨false, false⟩) ↔
      ∀ event ∈ events, EventTimeIndependent baseline candidate event := by
  constructor
  · rintro ⟨hequal, -⟩ event hevent
    refine eventTimeIndependent_of_reportAt fun t t' => ?_
    have hstopped := hequal (.stopped t) (.stopped t')
    rw [simulateTrace_eq h, simulateTrace_eq h, simulateEvents_stopped, simulateEvents_stopped,
      Except.ok.injEq, List.map_inj_left] at hstopped
    exact hstopped event hevent
  · intro hevents
    refine ⟨fun clock clock' => ?_, fun clock reports hreports report hreport => ?_⟩
    · rw [simulateTrace_eq h, simulateTrace_eq h, simulateEvents_eq_map hevents clock 0,
        simulateEvents_eq_map hevents clock' 0]
    · have hself : ∀ event ∈ events, EventTimeIndependent baseline (some baseline) event := by
        intro event hevent
        have hbaseline := (hevents event hevent).1
        exact ⟨hbaseline, fun policy hpolicy => Option.mem_some_iff.1 hpolicy ▸ hbaseline⟩
      rw [simulateTrace_eq h, simulateEvents_eq_map hself clock 0, Except.ok.injEq] at hreports
      subst hreports
      obtain ⟨event, -, rfl⟩ := List.mem_map.1 hreport
      exact reportAt_self_comparison 0 event

end

/-! ## A policy with a time window

A condition that looks at the time, and the clock before and in its window. -/

/-- A policy that denies every call on the first day of 2026. -/
def samplePolicyText : String :=
  "version: 1\nrules:\n  - action: deny\n    condition:\n      time_window:\n" ++
    "        start: 2026-01-01T00:00:00Z\n        end: 2026-01-02T00:00:00Z\n"

/-- The decoded sample policy. -/
def samplePolicyDocument : Yaml :=
  .mapping [
    (.string "version", .int 1),
    (.string "rules", .sequence [.mapping [
      (.string "action", .string "deny"),
      (.string "condition", .mapping [(.string "time_window", .mapping [
        (.string "start", .string "2026-01-01T00:00:00Z"),
        (.string "end", .string "2026-01-02T00:00:00Z")])])]])]

/-- Midnight at the start of 2026 and a day later. -/
def sampleStart : Instant := 1767225600000000000

def sampleStop : Instant := 1767312000000000000

/-- The library functions on the sample policy. -/
def sampleRuntime : YamlRuntime where
  describe _ := ""
  utcTimestamp text :=
    if text = "2026-01-01T00:00:00Z" then some sampleStart
    else if text = "2026-01-02T00:00:00Z" then some sampleStop
    else none

def sampleDecode (policyText : String) : Except String Yaml :=
  if policyText = samplePolicyText then .ok samplePolicyDocument else .error "not the sample"

def sampleSha256 (policyText : String) : String :=
  if policyText = samplePolicyText then
    "2c542a73842c0eb1b8b6cef4a391d53638a4ede525fe07ac8a3fa5f5a9950434"
  else ""

/-- The sample policy as `SimulationPolicy::parse` reads it. -/
def samplePolicy : Except PolicyError SimulationPolicy :=
  SimulationPolicy.parse sampleRuntime sampleDecode sampleSha256 samplePolicyText

/-- A trace with one event, as one line and decoded. -/
def sampleTrace : String :=
  "\x7b\"version\":1,\"sequence\":1,\"call\":\x7b\"agent\":null,\"tool\":\"shell\"," ++
    "\"args\":[],\"user\":null,\"context\":\x7b\x7d\x7d\x7d"

def sampleRecord : Json :=
  .object [
    ("call", .object [("agent", .null), ("args", .array []), ("context", .object []),
      ("tool", .string "shell"), ("user", .null)]),
    ("sequence", .int 1),
    ("version", .int 1)]

def sampleFromStr (line : String) : Option Json :=
  if line = sampleTrace then some sampleRecord else none

/-- The event of the sample trace. -/
def sampleEvent : TraceEvent := ⟨1, none, ⟨none, some "shell", [], none, ∅⟩, none⟩

theorem sampleTrace_valid : parseTrace sampleFromStr sampleTrace = .ok [sampleEvent] := by
  decide +kernel

theorem reports_independent_of_clock_iff_sample :
    ∃ baseline, samplePolicy = .ok baseline ∧
      (((∀ clock clock', simulateTrace sampleFromStr baseline none sampleTrace clock =
          simulateTrace sampleFromStr baseline none sampleTrace clock') ∧
        ∀ clock reports,
          simulateTrace sampleFromStr baseline (some baseline) sampleTrace clock = .ok reports →
          ∀ report ∈ reports, report.comparison = some ⟨false, false⟩) ↔
        ∀ event ∈ [sampleEvent], EventTimeIndependent baseline none event) := by
  obtain ⟨baseline, hbaseline⟩ : ∃ baseline, samplePolicy = .ok baseline :=
    exists_ok (by decide +kernel)
  exact ⟨baseline, hbaseline, reports_independent_of_clock_iff sampleTrace_valid baseline none⟩

/-- The sample policy under a clock stopped before its window opens and one stopped as it opens;
compared with itself while the window opens, it shows a difference. The clock is read for every
event and every policy. -/
theorem reports_depend_on_clock :
    ∃ baseline, samplePolicy = .ok baseline ∧
      simulateTrace sampleFromStr baseline none sampleTrace (.stopped (sampleStart - 1)) ≠
        simulateTrace sampleFromStr baseline none sampleTrace (.stopped sampleStart) ∧
      simulateTrace sampleFromStr baseline (some baseline) sampleTrace
          (.stepping (sampleStart - 1) sampleStart (by decide)) =
        .ok [⟨1, 1, none, none,
          [⟨baseline.identity, .allow, [], none⟩, ⟨baseline.identity, .deny, [0], none⟩],
          some ⟨true, true⟩⟩] :=
  exists_ok_and (by decide +kernel)

end Simulator
end HpGuardian

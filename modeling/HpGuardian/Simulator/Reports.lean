import HpGuardian.Simulator.Determinism
import HpGuardian.Simulator.Events

/-!
# Traces and their reports

A trace is a list of records, its lines that are not blank.  It is simulated as a whole if every
record is good: valid JSON, a valid event, and the next in sequence.  Then each record gets one
report, and the reports follow the records.  Otherwise nothing is simulated, and the error names
the physical line of the first record that is not good.

`GoodAt` is the condition on a record, by its place among the records; it runs no parser of traces.
The loop of the parser takes the good records one after the other and stops at the first that is
not, whose line is counted with the blank lines before it.

The clock is read once for each policy and event, so the report on the record at a place is made at
readings that can be named: those that the earlier records have left (`Clock.after`).  `ReportOn`
says what a report says about a record: the decision of each policy's engine at its reading, held
against the expectation, and the differences of two results.
-/

namespace HpGuardian
namespace Simulator

open Framework

/-! ## Records

The lines that count, and the parser on them. -/

/-- The lines of a trace that are not blank, each with its offset among all lines. -/
def records (trace : String) : List (String × ℕ) :=
  (lines trace).zipIdx.filter (fun line => !isBlank line.1)

/-- The number of a record's physical line, from 1. -/
def lineNumber (record : String × ℕ) : ℕ := record.2 + 1

/-- A line is the JSON text of an event. -/
def HoldsEvent (fromStr : String → Option Json) (line : String) (event : TraceEvent) : Prop :=
  ∃ value, fromStr line = some value ∧ IsEvent value event

/-- The record at a place, from 0, is a valid event and the next in sequence. Records are the lines
that are not blank, so the place of a record need not be the number of its line. -/
def GoodAt (fromStr : String → Option Json) (trace : String) (i : ℕ) : Prop :=
  ∃ record event, (records trace)[i]? = some record ∧ HoldsEvent fromStr record.1 event ∧
    event.sequence = i + 1

section

variable {fromStr : String → Option Json} {trace : String} {line : String} {offset : ℕ}

/-- A line is taken if it holds the next event. -/
theorem traceLine_ok_iff (hblank : isBlank line = false) {state state' : TraceState} :
    traceLine fromStr state (line, offset) = .ok state' ↔
      ∃ event, HoldsEvent fromStr line event ∧ event.sequence = state.expectedSequence ∧
        state' = ⟨state.expectedSequence + 1, state.events ++ [event]⟩ := by
  cases hvalue : fromStr line with
  | none => simp [traceLine_none hblank hvalue, HoldsEvent, hvalue]
  | some value =>
      rw [traceLine_some hblank hvalue, bind_ok_iff]
      refine exists_congr fun event => ?_
      rw [parseEvent_ok_iff, HoldsEvent, hvalue]
      constructor
      · rintro ⟨hevent, hrun⟩
        split_ifs at hrun with hsequence
        exact ⟨⟨value, rfl, hevent⟩, not_not.1 hsequence, (Except.ok.inj hrun).symm⟩
      · rintro ⟨⟨_, hsome, hevent⟩, hsequence, rfl⟩
        obtain rfl := Option.some.inj hsome
        rw [if_neg (not_not.2 hsequence)]
        exact ⟨hevent, rfl⟩

theorem not_blank_of_mem {record : String × ℕ} (h : record ∈ records trace) :
    isBlank record.1 = false := by
  simpa using (List.mem_filter.1 h).2

/-- Blank lines are passed over. -/
theorem parseTrace_eq_records (fromStr : String → Option Json) (trace : String) :
    parseTrace fromStr trace =
      ((records trace).foldlM (traceLine fromStr) ⟨1, []⟩ >>= fun state => .ok state.events) := by
  have hskip : (fun (state : TraceState) line =>
      if (!isBlank line.1) = true then traceLine fromStr state line else pure state) =
        traceLine fromStr := by
    funext state line
    cases hblank : isBlank line.1 with
    | true =>
        rw [if_neg (by simp), traceLine, if_pos hblank]
        rfl
    | false => exact if_pos rfl
  rw [parseTrace, records, List.foldlM_filter, hskip]

/-- Reading some records in order. -/
theorem traceLines_ok {entries : List (String × ℕ)} (hentries : ∀ record ∈ entries,
      isBlank record.1 = false) {state : TraceState}
    (h : entries.foldlM (traceLine fromStr) ⟨1, []⟩ = .ok state) :
    state.expectedSequence = 1 + entries.length ∧ state.events.length = entries.length ∧
      ∀ i record, entries[i]? = some record → ∃ event, state.events[i]? = some event ∧
        HoldsEvent fromStr record.1 event ∧ event.sequence = 1 + i := by
  obtain ⟨hsequence, events, hevents, hlength, hgood⟩ := foldlM_collects
    TraceState.expectedSequence TraceState.events
    (fun n record event => HoldsEvent fromStr record.1 event ∧ event.sequence = n)
    (fun state state' record hrecord hstep => by
      obtain ⟨event, hevent, hnext, rfl⟩ := (traceLine_ok_iff (hentries record hrecord)).1 hstep
      exact ⟨event, ⟨hevent, hnext⟩, rfl, rfl⟩) h
  rw [List.nil_append] at hevents
  subst hevents
  exact ⟨hsequence, hlength, hgood⟩

/-- A trace that is read has good records only, and their events are read in order. -/
theorem parseTrace_ok {events : List TraceEvent} (h : parseTrace fromStr trace = .ok events) :
    events.length = (records trace).length ∧
      ∀ i record, (records trace)[i]? = some record → ∃ event, events[i]? = some event ∧
        HoldsEvent fromStr record.1 event ∧ event.sequence = i + 1 := by
  rw [parseTrace_eq_records, bind_ok_iff] at h
  obtain ⟨state, hrun, hevents⟩ := h
  obtain rfl := Except.ok.inj hevents
  obtain ⟨-, hlength, hgood⟩ := traceLines_ok (fun _ => not_blank_of_mem) hrun
  refine ⟨hlength, fun i record hrecord => ?_⟩
  rw [Nat.add_comm i 1]
  exact hgood i record hrecord

/-- A trace that is not read has a first record that is not good, and the error names its line. -/
theorem parseTrace_error {error : TraceError} (h : parseTrace fromStr trace = .error error) :
    ∃ i record, (records trace)[i]? = some record ∧ (∀ j < i, GoodAt fromStr trace j) ∧
      ¬ GoodAt fromStr trace i ∧ error.line = lineNumber record := by
  rw [parseTrace_eq_records, bind_error_iff] at h
  obtain hrun | ⟨_, -, herror⟩ := h
  · obtain ⟨before, record, after, state, hsplit, hbefore, hfails⟩ := foldlM_error_iff.1 hrun
    have hmem : ∀ record ∈ before, isBlank record.1 = false := fun record hrecord =>
      not_blank_of_mem (hsplit ▸ List.mem_append_left _ hrecord)
    obtain ⟨hnext, -, hgood⟩ := traceLines_ok hmem hbefore
    have hrecord : (records trace)[before.length]? = some record := by
      rw [hsplit, List.getElem?_append_right le_rfl, Nat.sub_self, List.getElem?_cons_zero]
    refine ⟨before.length, record, hrecord, ?_, ?_, ?_⟩
    · intro j hj
      obtain ⟨event, -, hevent, hsequence⟩ := hgood j before[j] (List.getElem?_eq_getElem hj)
      refine ⟨before[j], event, ?_, hevent, by omega⟩
      rw [hsplit, List.getElem?_append_left hj, List.getElem?_eq_getElem hj]
    · -- a good record would have been taken
      rintro ⟨record', event, hrecord', hevent, hsequence⟩
      obtain rfl := Option.some.inj (hrecord.symm.trans hrecord')
      have hblank := not_blank_of_mem (List.mem_of_getElem? hrecord)
      rw [(traceLine_ok_iff hblank).2 ⟨event, hevent, by omega, rfl⟩] at hfails
      cases hfails
    · exact traceLine_line fromStr state record.1 record.2 error hfails
  · cases herror

end

/-! ## Reports

What the report on a record says, and the reports of a whole trace. -/

/-- The clock after some of its readings. -/
def Clock.after (clock : Clock) (n : ℕ) : Clock where
  reading k := clock.reading (n + k)
  monotone _ _ h := clock.monotone (Nat.add_le_add_left h n)

theorem Clock.after_zero (clock : Clock) : clock.after 0 = clock := by
  simp [Clock.after]

theorem Clock.after_add (clock : Clock) (m n : ℕ) :
    clock.after (m + n) = (clock.after m).after n := by
  simp [Clock.after, Nat.add_assoc]

theorem Clock.rest_eq_after (clock : Clock) : clock.rest = clock.after 1 := by
  simp [Clock.rest, Clock.after, Nat.add_comm]

/-- The policies that are simulated, in order. -/
def policies (baseline : SimulationPolicy) (candidate : Option SimulationPolicy) :
    List SimulationPolicy := baseline :: candidate.toList

/-- A result is the decision of a policy's engine at an instant, held against the expectation if
that was recorded for the same policy. -/
structure ResultFor (policy : SimulationPolicy) (event : TraceEvent) (t : Instant)
    (result : SimulationResult) : Prop where
  policy_eq : result.policy = policy.identity
  decides : (⟨result.decision, result.matchedRules⟩ : Decision) =
    policy.engine.resolveCallAt event.call t
  present : result.matchesExpected.isSome = true ↔
    ∃ expected, event.expected = some expected ∧ expected.policy = policy.identity
  agrees : ∀ expected, event.expected = some expected → expected.policy = policy.identity →
    (result.matchesExpected = some true ↔
      expected.decision = result.decision ∧ expected.matchedRules = result.matchedRules)

/-- The comparison of a report: none for one result, and the differences of two. The matched rules
are compared as lists, in their order. -/
inductive Compares : List SimulationResult → Option SimulationComparison → Prop
  | single (result : SimulationResult) : Compares [result] none
  | two {first second : SimulationResult} {comparison : SimulationComparison}
      (action : comparison.actionChanged = true ↔ first.decision ≠ second.decision)
      (matchedRules : comparison.matchedRulesChanged = true ↔
        first.matchedRules ≠ second.matchedRules) : Compares [first, second] (some comparison)

/-- A report on an event, with one result for each policy at the next reading of the clock. Each
policy has a reading of its own, the baseline the earlier one. -/
structure ReportOn (simulated : List SimulationPolicy) (event : TraceEvent)
    (reading : ℕ → Instant) (report : SimulationReport) : Prop where
  version_eq : report.version = traceVersion
  sequence_eq : report.sequence = event.sequence
  eventId_eq : report.eventId = event.eventId
  expected_eq : report.expected = event.expected
  count : report.results.length = simulated.length
  results : ∀ k policy, simulated[k]? = some policy →
    ∃ result, report.results[k]? = some result ∧ ResultFor policy event (reading k) result
  comparison : Compares report.results report.comparison

section

variable {baseline : SimulationPolicy} {candidate : Option SimulationPolicy}

theorem resultFor_resultAt (policy : SimulationPolicy) (event : TraceEvent) (t : Instant) :
    ResultFor policy event t (resultAt t event policy) := by
  refine ⟨rfl, rfl, ?_, ?_⟩
  · cases hexpected : event.expected with
    | none => simp [resultAt, matchesExpected, hexpected]
    | some expected =>
        by_cases hpolicy : expected.policy = policy.identity
        · simp [resultAt, matchesExpected, hexpected, hpolicy]
        · simp [resultAt, matchesExpected, hexpected, hpolicy]
  · intro expected hexpected hpolicy
    simp [resultAt, matchesExpected, hexpected, hpolicy]

theorem compares_compareResults (first second : SimulationResult) :
    Compares [first, second] (some (compareResults first second)) := by
  refine .two ?_ ?_
  · rw [compareResults, bne_iff_ne]
  · rw [compareResults, bne_iff_ne]

/-- A simulated event takes one reading for each policy. -/
theorem simulateEvent_clock (event : TraceEvent) (clock : Clock) :
    (simulateEvent event baseline candidate clock).2 =
      clock.after (policies baseline candidate).length := by
  cases candidate with
  | none => exact clock.rest_eq_after
  | some candidate =>
      rw [show (simulateEvent event baseline (some candidate) clock).2 = clock.rest.rest from rfl,
        Clock.rest_eq_after, Clock.rest_eq_after, ← Clock.after_add]
      rfl

theorem reportOn_simulateEvent (baseline : SimulationPolicy)
    (candidate : Option SimulationPolicy) (event : TraceEvent) (clock : Clock) :
    ReportOn (policies baseline candidate) event clock.reading
      (simulateEvent event baseline candidate clock).1 := by
  cases candidate with
  | none =>
      refine ⟨rfl, rfl, rfl, rfl, rfl, ?_, .single _⟩
      intro k policy hpolicy
      cases k with
      | zero =>
          obtain rfl := Option.some.inj hpolicy
          exact ⟨_, rfl, resultFor_resultAt _ _ _⟩
      | succ k => cases hpolicy
  | some candidate =>
      refine ⟨rfl, rfl, rfl, rfl, rfl, ?_, compares_compareResults _ _⟩
      intro k policy hpolicy
      cases k with
      | zero =>
          obtain rfl := Option.some.inj hpolicy
          exact ⟨_, rfl, resultFor_resultAt _ _ _⟩
      | succ k =>
          cases k with
          | zero =>
              obtain rfl := Option.some.inj hpolicy
              exact ⟨_, rfl, resultFor_resultAt _ _ _⟩
          | succ k => cases hpolicy

/-- The reports follow the events, each with its own readings. -/
theorem getElem?_simulateEvents (events : List TraceEvent) (clock : Clock) (i : ℕ) :
    (simulateEvents baseline candidate events clock)[i]? = events[i]?.map (fun event =>
      (simulateEvent event baseline candidate
        (clock.after (i * (policies baseline candidate).length))).1) := by
  induction events generalizing clock i with
  | nil => rfl
  | cons event events ih =>
      rw [simulateEvents_cons]
      cases i with
      | zero => rw [List.getElem?_cons_zero, List.getElem?_cons_zero, Nat.zero_mul,
          Clock.after_zero, Option.map_some]
      | succ i =>
          rw [List.getElem?_cons_succ, List.getElem?_cons_succ, ih, simulateEvent_clock,
            ← Clock.after_add, Nat.succ_mul, Nat.add_comm]

theorem length_simulateEvents (events : List TraceEvent) (clock : Clock) :
    (simulateEvents baseline candidate events clock).length = events.length := by
  induction events generalizing clock with
  | nil => rfl
  | cons event events ih =>
      rw [simulateEvents_cons, List.length_cons, List.length_cons, ih]

/-- **A trace is accepted whole or rejected at its first bad line.**  If every record is good there
is one report for each, in order, on the record's event; the decisions in it are taken at the
clock's readings, one for each record and policy.  Otherwise there is no report, and the error
names the physical line of the first record that is not valid JSON, not a valid event, or out of
sequence. -/
theorem simulateTrace_whole_or_first_bad (fromStr : String → Option Json)
    (baseline : SimulationPolicy) (candidate : Option SimulationPolicy) (trace : String)
    (clock : Clock) :
    ((∀ i < (records trace).length, GoodAt fromStr trace i) →
      ∃ reports, simulateTrace fromStr baseline candidate trace clock = .ok reports ∧
        reports.length = (records trace).length ∧
        ∀ i record, (records trace)[i]? = some record →
          ∃ event report, HoldsEvent fromStr record.1 event ∧ reports[i]? = some report ∧
            report.sequence = i + 1 ∧
            ReportOn (policies baseline candidate) event
              (fun k => clock.reading (i * (policies baseline candidate).length + k)) report) ∧
    (¬ (∀ i < (records trace).length, GoodAt fromStr trace i) →
      ∃ i record error, (records trace)[i]? = some record ∧
        (∀ j < i, GoodAt fromStr trace j) ∧ ¬ GoodAt fromStr trace i ∧
        simulateTrace fromStr baseline candidate trace clock = .error error ∧
        error.line = lineNumber record) := by
  cases hparse : parseTrace fromStr trace with
  | ok events =>
      obtain ⟨hlength, hevents⟩ := parseTrace_ok hparse
      have hgood : ∀ i < (records trace).length, GoodAt fromStr trace i := by
        intro i hi
        have hrecord := List.getElem?_eq_getElem hi
        obtain ⟨event, -, hevent, hsequence⟩ := hevents i _ hrecord
        exact ⟨_, event, hrecord, hevent, hsequence⟩
      refine ⟨fun _ => ⟨_, simulateTrace_eq hparse clock, ?_, ?_⟩, fun h => absurd hgood h⟩
      · rw [length_simulateEvents, hlength]
      · intro i record hrecord
        obtain ⟨event, hevent, hholds, hsequence⟩ := hevents i record hrecord
        have hreport := reportOn_simulateEvent baseline candidate event
          (clock.after (i * (policies baseline candidate).length))
        refine ⟨event, _, hholds, ?_, hsequence ▸ hreport.sequence_eq, hreport⟩
        rw [getElem?_simulateEvents, hevent, Option.map_some]
  | error error =>
      obtain ⟨i, record, hrecord, hbefore, hbad, hline⟩ := parseTrace_error hparse
      have hnot : ¬ ∀ i < (records trace).length, GoodAt fromStr trace i := fun hall =>
        hbad (hall i (List.getElem?_eq_some_iff.1 hrecord).1)
      refine ⟨fun h => absurd h hnot, fun _ =>
        ⟨i, record, error, hrecord, hbefore, hbad, ?_, hline⟩⟩
      rw [simulateTrace, hparse, error_bind]

end

end Simulator
end HpGuardian

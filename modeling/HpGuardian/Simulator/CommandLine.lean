import HpGuardian.Simulator.Command
import HpGuardian.Simulator.Reports

/-!
# Arguments and printed lines (`src/bin/hp-guard-simulate.rs`)

An argument list is understood iff it lists the options of a command, each with its path, in any
order (`parseArguments_ok_iff`).  The list is the spelling of a permutation of the options, so
nothing is said about which of them comes first, and nothing else may be in it.

A command that succeeds has printed its reports as JSON texts, one on a line, in the order of the
events; any other prints nothing, and one JSON text on a line of standard error
(`command_prints_lines`).  The two ways are told apart by a description of success that does not
run the command (`Simulated`): the arguments are understood, the files are there, the policies and
the trace are valid, and standard output takes the text.  Exit status, standard output and standard
error are all determined by it.

That what is printed is JSON on lines of its own follows from the writer: each part of a report is
a written value, and written values have no line ends.
-/

namespace HpGuardian
namespace Simulator

open Framework

/-! ## Options in any order

The spelling of options, and the parsing loop on it. -/

/-- An argument list that names options and gives their values. -/
def spelled (pairs : List (String × String)) : List String :=
  pairs.flatMap (fun pair => [pair.1, pair.2])

@[simp] theorem spelled_nil : spelled [] = [] := rfl

@[simp] theorem spelled_cons (pair : String × String) (pairs : List (String × String)) :
    spelled (pair :: pairs) = pair.1 :: pair.2 :: spelled pairs := rfl

/-- The options of a command line, with their values. -/
def Options.pairs (options : Options) : List (String × String) :=
  options.policy.toList.map (fun value => ("--policy", value)) ++
    options.trace.toList.map (fun value => ("--trace", value)) ++
    options.compare.toList.map (fun value => ("--compare", value))

/-- The options that stand for the arguments of a command. -/
def Arguments.options (arguments : Arguments) : Options :=
  ⟨some arguments.policy, some arguments.trace, arguments.compare⟩

section

variable {options options' : Options} {value : String}

theorem Options.mem_pairs {pair : String × String} :
    pair ∈ options.pairs ↔ (pair.1 = "--policy" ∧ options.policy = some pair.2) ∨
      (pair.1 = "--trace" ∧ options.trace = some pair.2) ∨
      (pair.1 = "--compare" ∧ options.compare = some pair.2) := by
  obtain ⟨name, value⟩ := pair
  simp only [pairs, List.mem_append, List.mem_map, Option.mem_toList,
    Prod.mk.injEq, or_assoc]
  constructor
  · rintro (⟨_, h, rfl, rfl⟩ | ⟨_, h, rfl, rfl⟩ | ⟨_, h, rfl, rfl⟩) <;> simp [h]
  · rintro (⟨rfl, h⟩ | ⟨rfl, h⟩ | ⟨rfl, h⟩) <;> simp [h]

/-- No option is named twice. -/
theorem Options.nodup_pairs (options : Options) : (options.pairs.map Prod.fst).Nodup := by
  obtain ⟨policy, trace, compare⟩ := options
  cases policy <;> cases trace <;> cases compare <;> simp [pairs]

/-- The named options determine the whole. -/
theorem Options.ext_of_perm (h : options.pairs.Perm options'.pairs) : options = options' := by
  have hmem : ∀ name value, (name, value) ∈ options.pairs ↔ (name, value) ∈ options'.pairs :=
    fun _ _ => h.mem_iff
  obtain ⟨policy, trace, compare⟩ := options
  obtain ⟨policy', trace', compare'⟩ := options'
  have hpolicy : policy = policy' := Option.ext fun value => by
    simpa [mem_pairs] using hmem "--policy" value
  have htrace : trace = trace' := Option.ext fun value => by
    simpa [mem_pairs] using hmem "--trace" value
  have hcompare : compare = compare' := Option.ext fun value => by
    simpa [mem_pairs] using hmem "--compare" value
  rw [hpolicy, htrace, hcompare]

theorem pairs_policy (h : options.policy = none) :
    ({ options with policy := some value } : Options).pairs.Perm
      (options.pairs ++ [("--policy", value)]) := by
  simp only [Options.pairs, h, Option.toList_some, Option.toList_none, List.map_cons, List.map_nil,
    List.nil_append, List.cons_append, List.append_assoc]
  exact (List.perm_append_singleton _ _).symm.trans (by rw [List.append_assoc])

theorem pairs_trace (h : options.trace = none) :
    ({ options with trace := some value } : Options).pairs.Perm
      (options.pairs ++ [("--trace", value)]) := by
  simp only [Options.pairs, h, Option.toList_some, Option.toList_none, List.map_cons, List.map_nil,
    List.append_assoc, List.nil_append]
  exact List.perm_append_comm.append_left _

theorem pairs_compare (h : options.compare = none) :
    ({ options with compare := some value } : Options).pairs =
      options.pairs ++ [("--compare", value)] := by
  simp [Options.pairs, h]

/-- One option with its value that was understood. -/
theorem takeOptions_pair {name : String} {arguments : List String}
    (h : takeOptions options (name :: value :: arguments) = .ok options') :
    ∃ next : Options, next.pairs.Perm (options.pairs ++ [(name, value)]) ∧
      takeOptions next arguments = .ok options' := by
  rw [takeOptions] at h
  split_ifs at h with hpolicy htrace hcompare
  · obtain ⟨rfl, hnone⟩ := hpolicy
    exact ⟨_, pairs_policy hnone, h⟩
  · obtain ⟨rfl, hnone⟩ := htrace
    exact ⟨_, pairs_trace hnone, h⟩
  · obtain ⟨rfl, hnone⟩ := hcompare
    exact ⟨_, .of_eq (pairs_compare hnone), h⟩

/-- An option that was not given yet is taken. -/
theorem takeOptions_fresh {pair : String × String} {pairs : List (String × String)}
    (h : (options.pairs ++ pair :: pairs).Perm options'.pairs) :
    ∃ next : Options, next.pairs.Perm (options.pairs ++ [pair]) ∧
      ∀ arguments, takeOptions options (pair.1 :: pair.2 :: arguments) =
        takeOptions next arguments := by
  obtain ⟨name, value⟩ := pair
  have hfresh : ∀ value', (name, value') ∉ options.pairs := by
    have hnodup := (h.map Prod.fst).nodup_iff.2 options'.nodup_pairs
    intro value' hmem
    rw [List.map_append, List.nodup_append'] at hnodup
    exact hnodup.2.2 (List.mem_map_of_mem hmem) (by simp)
  have hmem : (name, value) ∈ options'.pairs := h.mem_iff.1 (by simp)
  obtain ⟨hname, -⟩ | ⟨hname, -⟩ | ⟨hname, -⟩ := Options.mem_pairs.1 hmem
  · obtain rfl : name = "--policy" := hname
    have hnone : options.policy = none := Option.eq_none_iff_forall_ne_some.2 fun value' hgiven =>
      hfresh value' (Options.mem_pairs.2 (.inl ⟨rfl, hgiven⟩))
    exact ⟨_, pairs_policy hnone, fun _ => by rw [takeOptions, if_pos ⟨rfl, hnone⟩]⟩
  · obtain rfl : name = "--trace" := hname
    have hnone : options.trace = none := Option.eq_none_iff_forall_ne_some.2 fun value' hgiven =>
      hfresh value' (Options.mem_pairs.2 (.inr (.inl ⟨rfl, hgiven⟩)))
    exact ⟨_, pairs_trace hnone, fun _ => by
      rw [takeOptions, if_neg (by simp), if_pos ⟨rfl, hnone⟩]⟩
  · obtain rfl : name = "--compare" := hname
    have hnone : options.compare = none := Option.eq_none_iff_forall_ne_some.2 fun value' hgiven =>
      hfresh value' (Options.mem_pairs.2 (.inr (.inr ⟨rfl, hgiven⟩)))
    exact ⟨_, .of_eq (pairs_compare hnone), fun _ => by
      rw [takeOptions, if_neg (by simp), if_neg (by simp), if_pos ⟨rfl, hnone⟩]⟩

/-- The loop takes the options that are spelled out, whatever their order. -/
theorem takeOptions_ok_iff : ∀ (arguments : List String) (options : Options),
    takeOptions options arguments = .ok options' ↔
      ∃ pairs, arguments = spelled pairs ∧ (options.pairs ++ pairs).Perm options'.pairs
  | [], options => by
      rw [takeOptions]
      constructor
      · intro h
        obtain rfl := Except.ok.inj h
        exact ⟨[], rfl, by rw [List.append_nil]⟩
      · rintro ⟨pairs, hpairs, hperm⟩
        cases pairs with
        | nil =>
            rw [List.append_nil] at hperm
            rw [Options.ext_of_perm hperm]
        | cons pair pairs => cases hpairs
  | [_], options => by
      rw [takeOptions]
      refine iff_of_false (fun h => by cases h) ?_
      rintro ⟨pairs, hpairs, -⟩
      cases pairs with
      | nil => cases hpairs
      | cons pair pairs => cases hpairs
  | name :: value :: arguments, options => by
      have hsplit : ∀ pair pairs, options.pairs ++ pair :: pairs =
          options.pairs ++ [pair] ++ pairs := fun _ _ => by simp
      constructor
      · intro h
        obtain ⟨next, hnext, h⟩ := takeOptions_pair h
        obtain ⟨pairs, rfl, hperm⟩ := (takeOptions_ok_iff arguments next).1 h
        refine ⟨(name, value) :: pairs, rfl, ?_⟩
        rw [hsplit]
        exact (hnext.symm.append_right pairs).trans hperm
      · rintro ⟨pairs, hpairs, hperm⟩
        cases pairs with
        | nil => cases hpairs
        | cons pair pairs =>
            obtain ⟨rfl, rfl, rfl⟩ :
                name = pair.1 ∧ value = pair.2 ∧ arguments = spelled pairs := by
              simpa using hpairs
            obtain ⟨next, hnext, htake⟩ := takeOptions_fresh hperm
            rw [hsplit] at hperm
            rw [htake, takeOptions_ok_iff (spelled pairs) next]
            exact ⟨pairs, rfl, (hnext.append_right pairs).trans hperm⟩

end

/-- **Argument lists.** An argument list is understood iff it names the policy, the trace and, if
there is one, the second policy, each once and with its path, in whatever order. Nothing else may
stand in it, and no option may end the list without its path. -/
theorem parseArguments_ok_iff (arguments : List String) (parsed : Arguments) :
    parseArguments arguments = .ok parsed ↔
      ∃ pairs, arguments = spelled pairs ∧ pairs.Perm parsed.options.pairs := by
  have hempty : (⟨none, none, none⟩ : Options).pairs = [] := rfl
  have htaken : (∃ pairs, arguments = spelled pairs ∧ pairs.Perm parsed.options.pairs) ↔
      takeOptions ⟨none, none, none⟩ arguments = .ok parsed.options := by
    rw [takeOptions_ok_iff, hempty]
    rfl
  rw [htaken, parseArguments, bind_ok_iff]
  constructor
  · rintro ⟨⟨policy, trace, compare⟩, htake, h⟩
    rw [htake]
    cases policy with
    | none => cases h
    | some policy =>
        cases trace with
        | none => cases h
        | some trace =>
            obtain rfl := Except.ok.inj h
            rfl
  · intro htake
    exact ⟨_, htake, rfl⟩

/-! ## Written reports

Each part of a report is written as a JSON value, by the lemmas about the writer. -/

theorem compactValue_indices (indices : List ℕ) : CompactValue (writeIndices indices) := by
  refine compactValue_writeArray fun t ht => ?_
  obtain ⟨index, -, rfl⟩ := List.mem_map.1 ht
  exact compactValue_writeNat index

theorem compactValue_optionalMember {α : Type} (name : String) {write : α → List Char}
    (hwrite : ∀ a, CompactValue (write a)) (value : Option α) :
    ∀ member ∈ optionalMember name write value, CompactValue member.2 := by
  intro member hmember
  obtain ⟨a, -, rfl⟩ := List.mem_map.1 hmember
  exact hwrite a

theorem compactValue_identity (identity : PolicyIdentity) : CompactValue identity.compact := by
  refine compactValue_writeObject ?_
  simp only [List.forall_mem_cons]
  exact ⟨compactValue_writeInt _, compactValue_writeString _, by simp⟩

theorem compactValue_expected (expected : ExpectedMetadata) : CompactValue expected.compact := by
  refine compactValue_writeObject ?_
  simp only [List.forall_mem_cons]
  exact ⟨compactValue_identity _, compactValue_writeString _, compactValue_indices _, by simp⟩

theorem compactValue_result (result : SimulationResult) : CompactValue result.compact := by
  refine compactValue_writeObject ?_
  simp only [List.forall_mem_append, List.forall_mem_cons]
  exact ⟨⟨compactValue_identity _, compactValue_writeString _, compactValue_indices _, by simp⟩,
    compactValue_optionalMember _ compactValue_writeBool _⟩

theorem compactValue_comparison (comparison : SimulationComparison) :
    CompactValue comparison.compact := by
  refine compactValue_writeObject ?_
  simp only [List.forall_mem_cons]
  exact ⟨compactValue_writeBool _, compactValue_writeBool _, by simp⟩

theorem compactValue_report (report : SimulationReport) : CompactValue report.compact := by
  have hresults :
      CompactValue (writeArray (report.results.map SimulationResult.compact)) := by
    refine compactValue_writeArray fun t ht => ?_
    obtain ⟨result, -, rfl⟩ := List.mem_map.1 ht
    exact compactValue_result result
  refine compactValue_writeObject ?_
  simp only [List.forall_mem_append, List.forall_mem_cons]
  exact ⟨⟨⟨⟨⟨compactValue_writeInt _, compactValue_writeNat _, by simp⟩,
    compactValue_optionalMember _ compactValue_writeString _⟩,
    compactValue_optionalMember _ compactValue_expected _⟩, hresults, by simp⟩,
    compactValue_optionalMember _ compactValue_comparison _⟩

theorem compactValue_error (error : CliError) : CompactValue error.compact := by
  refine compactValue_writeObject ?_
  simp only [List.forall_mem_cons]
  exact ⟨compactValue_writeString _, compactValue_writeOption compactValue_writeNat _, by simp⟩

/-! ## Whole runs

Success described apart from the command, and what a process prints in either case. -/

section

variable (rt : YamlRuntime) (decode : String → Except String Yaml) (sha256 : String → String)
  (fromStr : String → Option Json)

/-- The command has its files, they are valid, and these are the reports. Whether they can be
printed is another matter. -/
inductive Simulated (host : Host) (arguments : Arguments) : List SimulationReport → Prop
  | mk {policyText trace : String} {baseline : SimulationPolicy}
      {candidate : Option SimulationPolicy} {reports : List SimulationReport}
      (hpolicy : host.files arguments.policy = some policyText)
      (hbaseline : SimulationPolicy.parse rt decode sha256 policyText = .ok baseline)
      (hcandidate : Option.Rel (fun path policy => ∃ text, host.files path = some text ∧
        SimulationPolicy.parse rt decode sha256 text = .ok policy) arguments.compare candidate)
      (htrace : host.files arguments.trace = some trace)
      (hreports : simulateTrace fromStr baseline candidate trace host.clock = .ok reports) :
      Simulated host arguments reports

theorem readFile_ok_iff {host : Host} {path text : String} :
    readFile host path = .ok text ↔ host.files path = some text := by
  unfold readFile
  cases host.files path <;> simp [okOr]

theorem mapError_ok_iff {ε δ α : Type} {x : Except ε α} {f : ε → δ} {a : α} :
    x.mapError f = .ok a ↔ x = .ok a := by
  cases x <;> simp [Except.mapError]

/-- What becomes of lines that are handed to standard output. -/
theorem handed_eq (host : Host) {lines : List (List Char)} (hlines : ∀ line ∈ lines, line ≠ []) :
    (if ['\n'].intercalate lines = [] then (.ok [] : Except CliError (List Char))
      else if host.stdout (['\n'].intercalate lines ++ ['\n']) then
        .ok (['\n'].intercalate lines ++ ['\n'])
      else .error ioError) =
    if host.stdout (render '\n' lines) then .ok (render '\n' lines) else .error ioError := by
  cases lines with
  | nil =>
      rw [render_nil, if_pos host.takesNothing]
      exact if_pos rfl
  | cons line lines =>
      have hne : ['\n'].intercalate (line :: lines) ≠ [] := by
        have hline := hlines line (by simp)
        cases lines with
        | nil => simpa [List.intercalate] using hline
        | cons next lines => simp [List.intercalate, hline]
      rw [if_neg hne, intercalate_append_terminator (by simp)]

theorem compact_ne_nil (reports : List SimulationReport) :
    ∀ line ∈ reports.map SimulationReport.compact, line ≠ [] := by
  intro line hline
  obtain ⟨report, -, rfl⟩ := List.mem_map.1 hline
  simp [SimulationReport.compact, writeObject]

theorem handed_ok_iff {host : Host} {text text' : List Char} :
    (if host.stdout text then (.ok text : Except CliError (List Char)) else .error ioError) =
        .ok text' ↔
      text' = text ∧ host.stdout text' = true := by
  split_ifs with htaken
  · rw [Except.ok.injEq]
    constructor
    · rintro rfl
      exact ⟨rfl, htaken⟩
    · rintro ⟨rfl, -⟩
      rfl
  · refine iff_of_false (fun h => by cases h) ?_
    rintro ⟨rfl, htext⟩
    exact htaken htext

/-- The second policy, if one is named. -/
theorem candidate_ok_iff {host : Host} {compare : Option String}
    {candidate : Option SimulationPolicy} :
    (∃ text, compare.mapM (readFile host) = .ok text ∧
      text.mapM (loadPolicy rt decode sha256) = .ok candidate) ↔
    Option.Rel (fun path policy => ∃ text, host.files path = some text ∧
      SimulationPolicy.parse rt decode sha256 text = .ok policy) compare candidate := by
  cases compare with
  | none =>
      constructor
      · rintro ⟨text, htext, hcandidate⟩
        obtain rfl := Except.ok.inj htext
        obtain rfl := Except.ok.inj hcandidate
        exact .none
      · rintro ⟨⟩
        exact ⟨none, rfl, rfl⟩
  | some path =>
      constructor
      · rintro ⟨text, htext, hcandidate⟩
        obtain ⟨content, hcontent, htext⟩ := bind_ok_iff.1 htext
        obtain rfl := Except.ok.inj htext
        obtain ⟨policy, hpolicy, hcandidate⟩ := bind_ok_iff.1 hcandidate
        obtain rfl := Except.ok.inj hcandidate
        exact .some ⟨content, readFile_ok_iff.1 hcontent, mapError_ok_iff.1 hpolicy⟩
      · rintro (⟨content, hcontent, hpolicy⟩ | -)
        refine ⟨some content, bind_ok_iff.2 ⟨content, readFile_ok_iff.2 hcontent, rfl⟩, ?_⟩
        exact bind_ok_iff.2 ⟨_, mapError_ok_iff.2 hpolicy, rfl⟩

theorem runWith_ok_iff (host : Host) (arguments : Arguments) (text : List Char) :
    runWith rt decode sha256 fromStr host arguments = .ok text ↔
      ∃ reports, Simulated rt decode sha256 fromStr host arguments reports ∧
        text = render '\n' (reports.map SimulationReport.compact) ∧ host.stdout text = true := by
  unfold runWith
  simp only [handed_eq host (compact_ne_nil _), bind_ok_iff, readFile_ok_iff, handed_ok_iff]
  constructor
  · rintro ⟨policyText, hpolicy, trace, htrace, baseline, hbaseline, content, hcontent, candidate,
      hcandidate, reports, hreports, hprinted⟩
    exact ⟨reports, .mk hpolicy (mapError_ok_iff.1 hbaseline)
      ((candidate_ok_iff rt decode sha256).1 ⟨content, hcontent, hcandidate⟩) htrace
      (mapError_ok_iff.1 hreports), hprinted⟩
  · rintro ⟨reports, ⟨hpolicy, hbaseline, hcandidate, htrace, hreports⟩, htext⟩
    obtain ⟨content, hcontent, hcandidate⟩ := (candidate_ok_iff rt decode sha256).2 hcandidate
    exact ⟨_, hpolicy, _, htrace, _, mapError_ok_iff.2 hbaseline, content, hcontent, _, hcandidate,
      reports, mapError_ok_iff.2 hreports, htext⟩

/-- The reports on a trace are numbered from one. -/
theorem sequence_simulateTrace {baseline : SimulationPolicy} {candidate : Option SimulationPolicy}
    {trace : String} {clock : Clock} {reports : List SimulationReport}
    (h : simulateTrace fromStr baseline candidate trace clock = .ok reports) (i : ℕ)
    (report : SimulationReport) (hreport : reports[i]? = some report) :
    report.sequence = i + 1 := by
  obtain ⟨events, hparse, hreports⟩ := bind_ok_iff.1 h
  obtain rfl := Except.ok.inj hreports
  obtain ⟨hlength, hevents⟩ := parseTrace_ok hparse
  have hi : i < (records trace).length := by
    have hreports : (simulateEvents baseline candidate events clock).length = events.length :=
      length_simulateEvents events clock
    rw [← hlength, ← hreports]
    exact (List.getElem?_eq_some_iff.1 hreport).1
  obtain ⟨event, hevent, -, hsequence⟩ := hevents i _ (List.getElem?_eq_getElem hi)
  rw [getElem?_simulateEvents, hevent, Option.map_some] at hreport
  obtain rfl := Option.some.inj hreport
  rw [← hsequence]
  exact (reportOn_simulateEvent baseline candidate event _).sequence_eq

/-- The lines of a text printed on one stream, each a JSON text. Nothing is left over behind the
last newline. -/
def PrintsLines (text : List Char) (lines : List (List Char)) : Prop :=
  linesOf '\n' text = lines ∧ tailOf '\n' text = [] ∧ ∀ line ∈ lines, IsJsonText line

theorem printsLines_render {lines : List (List Char)} (h : ∀ line ∈ lines, CompactValue line) :
    PrintsLines (render '\n' lines) lines := by
  have hnil : '\n' ∉ ([] : List Char) := by simp
  rw [← List.append_nil (render '\n' lines)]
  exact ⟨linesOf_render (fun line hline => (h line hline).newline_notMem) hnil, tailOf_render hnil,
    fun line hline => (h line hline).isJsonText⟩

/-- **What the command prints.**  If its arguments are understood, its files are there and valid,
and standard output takes the reports, the command prints them as JSON texts, one on a line,
numbered in the order of the events, and nothing else.  Otherwise it prints nothing but one line
with a JSON text on standard error. -/
theorem command_prints_lines (host : Host) (arguments : List String) :
    (∃ parsed reports, parseArguments arguments = .ok parsed ∧
      Simulated rt decode sha256 fromStr host parsed reports ∧
      host.stdout (render '\n' (reports.map SimulationReport.compact)) = true ∧
      (main rt decode sha256 fromStr host arguments).status = 0 ∧
      (main rt decode sha256 fromStr host arguments).stderr = [] ∧
      PrintsLines (main rt decode sha256 fromStr host arguments).stdout
        (reports.map SimulationReport.compact) ∧
      ∀ i report, reports[i]? = some report → report.sequence = i + 1) ∨
    ((¬ ∃ parsed reports, parseArguments arguments = .ok parsed ∧
        Simulated rt decode sha256 fromStr host parsed reports ∧
        host.stdout (render '\n' (reports.map SimulationReport.compact)) = true) ∧
      (main rt decode sha256 fromStr host arguments).status = 1 ∧
      (main rt decode sha256 fromStr host arguments).stdout = [] ∧
      ∃ error : CliError,
        PrintsLines (main rt decode sha256 fromStr host arguments).stderr [error.compact]) := by
  unfold main
  cases hrun : run rt decode sha256 fromStr host arguments with
  | ok text =>
      obtain ⟨parsed, hparsed, hwith⟩ := bind_ok_iff.1 hrun
      obtain ⟨reports, hsimulated, rfl, htaken⟩ := (runWith_ok_iff rt decode sha256 fromStr host
        parsed text).1 hwith
      refine .inl ⟨parsed, reports, hparsed, hsimulated, htaken, rfl, rfl,
        printsLines_render ?_, ?_⟩
      · intro line hline
        obtain ⟨report, -, rfl⟩ := List.mem_map.1 hline
        exact compactValue_report report
      · obtain ⟨-, -, -, -, hreports⟩ := hsimulated
        exact sequence_simulateTrace fromStr hreports
  | error error =>
      refine .inr ⟨?_, rfl, rfl, error, ?_⟩
      · rintro ⟨parsed, reports, hparsed, hsimulated, htaken⟩
        have hok : run rt decode sha256 fromStr host arguments = .ok _ :=
          bind_ok_iff.2 ⟨parsed, hparsed, (runWith_ok_iff rt decode sha256 fromStr host parsed
            _).2 ⟨reports, hsimulated, rfl, htaken⟩⟩
        rw [hrun] at hok
        cases hok
      · have hline : error.compact ++ ['\n'] = render '\n' [error.compact] := by simp
        rw [exitOf, hline]
        refine printsLines_render fun line hline => ?_
        obtain rfl := List.mem_singleton.1 hline
        exact compactValue_error error

end

end Simulator
end HpGuardian

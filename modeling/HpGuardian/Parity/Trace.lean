import HpGuardian.Framework.Numbered
import HpGuardian.Python.Trace
import HpGuardian.Simulator.Events

/-!
# The two runtimes read the same traces

Both parsers make the same checks of a record in the same order.  They differ in three kinds of
records (a null `event_id`, a matched-rule index that does not fit `sys.maxsize`, a sequence number
that does not fit `u64`), in what counts as a blank line, and in where lines end.

A trace is read line by line, by a loop that stops at the first line it refuses and reports its
number.  So the two parsers are readers of numbered items, and the comparison of such readers
applies: they read a trace alike if no line is treated differently before the first one that is
refused, and for lines that both cut alike the converse holds as well.

The first part of the module compares the two on a single record.  Each field is compared with its
counterpart; a record that passes the checks up to its sequence number has a header
(`EventHeader`), behind which all errors of the Python parser are about other fields, and this is
what tells the three kinds of records apart (`parseEvent_cases`, `parseEvent_apart`).  The second
part is about lines, and the third about traces.

Where lines end is the one thing that the exact condition leaves open.  The Rust parser ends lines
at `\n` and `\r\n`, Python's `splitlines` at others as well.  When the two cut a trace
differently they look at different texts from there on (`LinesFork`); mostly they then end
differently, but nothing keeps them from agreeing by accident.  With plain boundaries the case does
not arise (`not_linesFork_of_plain`).
-/

namespace HpGuardian

open Framework

/-! ## The same events and errors

A Rust event as the Python runtime holds it, and errors that count as the same. -/

/-- Expected metadata as the Python runtime holds them. -/
def Simulator.ExpectedMetadata.asPython (metadata : Simulator.ExpectedMetadata) :
    Python.ExpectedDecision where
  policyVersion := metadata.policy.version
  policyDigest := metadata.policy.sha256
  decision := metadata.decision.asStr
  matchedRules := metadata.matchedRules.map (fun index : ℕ => (index : ℤ))

/-- An event as the Python runtime holds it. -/
def Simulator.TraceEvent.asPython (event : Simulator.TraceEvent) : Python.TraceEvent where
  sequence := event.sequence
  call := event.call
  eventId := event.eventId
  expected := event.expected.map Simulator.ExpectedMetadata.asPython

/-- Errors with the same code and the same line. -/
def SameTraceError (error : Simulator.TraceError) (error' : Python.TraceError) : Prop :=
  error.code.asStr = error'.code ∧ error.line = error'.line

/-! ## Fields

The checks of field names, of texts, and of calls. -/

section

variable {fields : JsonFields} {line : ℕ}

theorem requireExactFields_eq_jsonKeysAre (fields : JsonFields) (names : List String) :
    requireExactFields fields names [] = Python.jsonKeysAre fields names := by
  unfold requireExactFields Python.jsonKeysAre
  rw [Bool.and_comm, List.all_map]
  simp [Function.comp_def]

theorem requireExactFields_eq_eventFieldsValid (fields : JsonFields) :
    requireExactFields fields ["version", "sequence", "call"] ["event_id", "expected"] =
      Python.eventFieldsValid fields := by
  unfold requireExactFields Python.eventFieldsValid
  rw [Bool.and_comm, List.all_map]
  refine congrArg₂ and (List.all_congr rfl fun entry => ?_) rfl
  simp only [Function.comp_apply, Python.eventFields, List.contains_cons, List.contains_nil]
  cases entry.1 == "version" <;> cases entry.1 == "sequence" <;> cases entry.1 == "event_id" <;>
    cases entry.1 == "call" <;> rfl

/-- A field that the keys name is there. -/
theorem get_of_jsonKeysAre {names : List String} (h : Python.jsonKeysAre fields names = true)
    {name : String} (hname : name ∈ names) :
    JsonFields.get fields name = some (JsonFields.required fields name) := by
  obtain ⟨value, hvalue⟩ := Option.isSome_iff_exists.1
    (List.all_eq_true.1 (Bool.and_eq_true_iff.1 h).2 name hname)
  rw [JsonFields.required, hvalue, Option.getD_some]

theorem okOr_alike {α β ε δ : Type} {rel : α → β → Prop} {same : ε → δ → Prop} {x : Option α}
    {y : Option β} {e : ε} {d : δ} (h : Option.Rel rel x y) (hsame : same e d) :
    Alike rel same (okOr x e) (okOr y d) := by
  cases h with
  | some h => exact .ok h
  | none => exact .error hsame

theorem optionRel_eq {α : Type} (x : Option α) : Option.Rel (· = ·) x x := by
  cases x with
  | none => exact .none
  | some a => exact .some rfl

theorem callText_alike (fields : JsonFields) (name : String) (line : ℕ) :
    Alike (· = ·) SameTraceError
      (okOr (nullableString (JsonFields.required fields name)) ⟨.invalidCall, line⟩)
      (Python.callText fields name line) := by
  unfold Python.callText
  cases JsonFields.required fields name with
  | null => exact .ok rfl
  | string value => exact .ok rfl
  | _ => exact .error ⟨rfl, rfl⟩

/-- The check of the field names, before the same fields are read in both runtimes. -/
theorem checkedFields_alike {σ τ : Type} {rel : σ → τ → Prop} {names : List String} {value : Json}
    {e : Simulator.TraceError} {d : Python.TraceError} (hsame : SameTraceError e d)
    {next : JsonFields → Except Simulator.TraceError σ}
    {next' : JsonFields → Except Python.TraceError τ}
    (hnext : ∀ fields, value.asObject = some fields → Python.jsonKeysAre fields names = true →
      Alike rel SameTraceError (next fields) (next' fields)) :
    Alike rel SameTraceError
      (okOr value.asObject e >>= fun fields =>
        Simulator.checkFields fields names [] e >>= fun _ => next fields)
      (okOr (value.asObject.filter (fun fields => Python.jsonKeysAre fields names)) d >>=
        next') := by
  cases hobject : value.asObject with
  | none => exact .error hsame
  | some fields =>
      unfold Simulator.checkFields
      simp only [okOr, ok_bind, requireExactFields_eq_jsonKeysAre, Option.filter_some]
      by_cases hkeys : Python.jsonKeysAre fields names = true
      · rw [if_pos hkeys, if_pos hkeys]
        exact hnext fields hobject hkeys
      · rw [if_neg hkeys, if_neg hkeys]
        exact .error hsame

/-- Both runtimes read the same calls. -/
theorem parseCall_alike (value : Json) (line : ℕ) :
    Alike (· = ·) SameTraceError (Simulator.parseCall value line)
      (Python.parseCall value line) := by
  unfold Simulator.parseCall Python.parseCall
  refine checkedFields_alike ⟨rfl, rfl⟩ fun fields _ hkeys => ?_
  refine (callText_alike fields "agent" line).bind ?_
  rintro agent - rfl
  refine (callText_alike fields "tool" line).bind ?_
  rintro tool - rfl
  refine (callText_alike fields "user" line).bind ?_
  rintro user - rfl
  rw [@get_of_jsonKeysAre fields _ hkeys "args" (by decide),
    @get_of_jsonKeysAre fields _ hkeys "context" (by decide)]
  refine (okOr_alike (optionRel_eq _) ⟨rfl, rfl⟩).bind ?_
  rintro args - rfl
  refine (okOr_alike (optionRel_eq _) ⟨rfl, rfl⟩).bind ?_
  rintro context - rfl
  exact .ok rfl

/-! ## Scalars

Integers and digests.  The types of the two runtimes have different ranges, which is where two of
the three differences come from. -/

theorem asI64_eq_one_iff (value : Json) :
    value.asI64 = some Simulator.traceVersion ↔ Python.asInt value = some 1 := by
  rw [Simulator.asI64_eq_version, Python.asInt_eq_some, Simulator.traceVersion]

theorem utf8ByteSize_of_ascii {cs : List Char} (h : ∀ c ∈ cs, c.utf8Size = 1) :
    (String.ofList cs).utf8ByteSize = cs.length := by
  induction cs with
  | nil => rfl
  | cons c cs ih =>
      obtain ⟨hc, hcs⟩ := List.forall_mem_cons.1 h
      rw [String.ofList_cons, String.utf8ByteSize_append, String.utf8ByteSize_singleton, hc,
        ih hcs, List.length_cons, Nat.add_comm]

/-- A digest of ASCII digits has as many bytes as characters. -/
theorem isLowercaseSha256_eq_matchesDigest (value : String) :
    Simulator.isLowercaseSha256 value = Python.matchesDigest value := by
  have hdigit : Simulator.isLowercaseHexDigit =
      fun c => ('0' ≤ c && c ≤ '9') || ('a' ≤ c && c ≤ 'f') := rfl
  unfold Simulator.isLowercaseSha256 Python.matchesDigest
  rw [hdigit]
  cases hall : value.toList.all
      (fun c => ('0' ≤ c && c ≤ '9') || ('a' ≤ c && c ≤ 'f')) with
  | false => rw [Bool.and_false, Bool.and_false]
  | true =>
      have hascii : ∀ c ∈ value.toList, c.utf8Size = 1 := by
        intro c hc
        have hc := List.all_eq_true.1 hall c hc
        rw [Char.utf8Size_eq_one_iff]
        simp only [Bool.or_eq_true, Bool.and_eq_true, decide_eq_true_eq] at hc
        rcases hc with ⟨-, hc⟩ | ⟨-, hc⟩
        · exact UInt32.le_trans hc (by decide)
        · exact UInt32.le_trans hc (by decide)
      have hlength := utf8ByteSize_of_ascii hascii
      rw [String.ofList_toList] at hlength
      rw [hlength]

theorem parseAction_asStr (value : String) :
    (Simulator.parseAction value).map Action.asStr =
      if Python.decisions.contains value then some value else none := by
  unfold Simulator.parseAction
  split <;> simp_all [Python.decisions, Action.asStr]

theorem parseAction_rel (value : Option String) :
    Option.Rel (fun action text => action.asStr = text) (value.bind Simulator.parseAction)
      (value.filter Python.decisions.contains) := by
  cases value with
  | none => exact .none
  | some text =>
      have htext := parseAction_asStr text
      rw [Option.bind_some, Option.filter_some]
      cases haction : Simulator.parseAction text with
      | none =>
          rw [haction, Option.map_none] at htext
          rw [← htext]
          exact .none
      | some action =>
          rw [haction, Option.map_some] at htext
          rw [← htext]
          exact .some rfl

/-- An index that fits `usize` but not `sys.maxsize`. On a 64-bit platform the one type has a bit
more than the other. -/
def HugeIndex (value : Json) : Prop := ∃ n : ℤ, value = .int n ∧ Python.maxsize < n ∧ n < 2 ^ 64

theorem matchedRule_eq {value : Json} (h : ¬ HugeIndex value) :
    (Simulator.positiveOrZeroInteger value).map (fun index : ℕ => (index : ℤ)) =
      Python.matchedRule value := by
  unfold Simulator.positiveOrZeroInteger Python.matchedRule
  cases value with
  | int n =>
      have hsmall : ¬ (Python.maxsize < n ∧ n < 2 ^ 64) := fun hn => h ⟨n, rfl, hn⟩
      have hmax : Python.maxsize = 9223372036854775807 := by decide
      simp only [Json.asU64, Python.asInt, Option.filter_some]
      rw [hmax] at hsmall ⊢
      by_cases hn : 0 ≤ n ∧ n < 2 ^ 64
      · rw [if_pos hn, if_pos (by simp; omega), Option.map_some, Int.toNat_of_nonneg hn.1]
      · rw [if_neg hn, if_neg (by simp; omega), Option.map_none]
  | _ => rfl

theorem matchedRule_of_huge {value : Json} (h : HugeIndex value) :
    Python.matchedRule value = none := by
  obtain ⟨n, rfl, hmax, -⟩ := h
  simp [Python.matchedRule, Python.asInt, hmax]

/-- Indices that all fit are read alike. -/
theorem matchedRules_eq {items : List Json} (h : ∀ item ∈ items, ¬ HugeIndex item) :
    (items.mapM Simulator.positiveOrZeroInteger).map
        (fun indices : List ℕ => indices.map (fun index : ℕ => (index : ℤ))) =
      items.mapM Python.matchedRule := by
  induction items with
  | nil => rfl
  | cons item items ih =>
      obtain ⟨hitem, hitems⟩ := List.forall_mem_cons.1 h
      rw [List.mapM_cons, List.mapM_cons, ← matchedRule_eq hitem, ← ih hitems]
      cases Simulator.positiveOrZeroInteger item with
      | none => rfl
      | some index => cases items.mapM Simulator.positiveOrZeroInteger <;> rfl

theorem matchedRules_of_huge {items : List Json} (h : ∃ item ∈ items, HugeIndex item) :
    items.mapM Python.matchedRule = none := by
  obtain ⟨item, hitem, hhuge⟩ := h
  obtain ⟨before, after, rfl⟩ := List.append_of_mem hitem
  induction before with
  | nil => rw [List.nil_append, List.mapM_cons, matchedRule_of_huge hhuge]; rfl
  | cons first before ih =>
      rw [List.cons_append, List.mapM_cons, ih (by simp)]
      cases Python.matchedRule first <;> rfl

/-! ## Expected metadata

The expectation of an event, with its list of indices. -/

theorem parseIdentity_alike (value : Json) (line : ℕ) :
    Alike (fun identity policy => policy = (identity.version, identity.sha256)) SameTraceError
      (Simulator.parseIdentity value line) (Python.parseExpectedPolicy value line) := by
  unfold Simulator.parseIdentity Python.parseExpectedPolicy
  refine checkedFields_alike ⟨rfl, rfl⟩ fun fields _ hkeys => ?_
  rw [@get_of_jsonKeysAre fields _ hkeys "sha256" (by decide)]
  by_cases hversion : Python.asInt (JsonFields.required fields "version") = some 1
  · rw [if_neg (not_not.2 ((asI64_eq_one_iff _).2 hversion)), hversion, Option.bind_some]
    have hdigest : Simulator.isLowercaseSha256 = Python.matchesDigest :=
      funext isLowercaseSha256_eq_matchesDigest
    rw [hdigest]
    refine (okOr_alike (optionRel_eq _) ⟨rfl, rfl⟩).bind ?_
    rintro digest - rfl
    exact .ok rfl
  · rw [if_pos (fun h => hversion ((asI64_eq_one_iff _).1 h))]
    have hnone : (Python.asInt (JsonFields.required fields "version")).filter (fun v => v == 1) =
        none := by
      simp only [Option.filter_eq_none_iff, beq_iff_eq]
      rintro n hn rfl
      exact hversion hn
    rw [hnone]
    exact .error ⟨rfl, rfl⟩

/-- The indices of an expectation, if it has a list of them. -/
def indexItems (value : Json) : List Json :=
  ((value.asObject.bind (fun fields => JsonFields.get fields "matched_rules")).bind
    Json.asArray).getD []

/-- Both runtimes read the same expectations, if every index fits. -/
theorem parseExpected_alike {value : Json} (h : ∀ item ∈ indexItems value, ¬ HugeIndex item)
    (line : ℕ) :
    Alike (fun metadata decision => metadata.asPython = decision) SameTraceError
      (Simulator.parseExpected value line) (Python.parseExpected value line) := by
  unfold Simulator.parseExpected Python.parseExpected
  refine checkedFields_alike ⟨rfl, rfl⟩ fun fields hobject hkeys => ?_
  have hrules := @get_of_jsonKeysAre fields _ hkeys "matched_rules" (by decide)
  rw [@get_of_jsonKeysAre fields _ hkeys "decision" (by decide), hrules]
  refine (parseIdentity_alike _ line).bind ?_
  rintro identity - rfl
  refine (okOr_alike (parseAction_rel _) ⟨rfl, rfl⟩).bind ?_
  rintro action - rfl
  have hitems : ∀ items, (JsonFields.required fields "matched_rules").asArray = some items →
      ∀ item ∈ items, ¬ HugeIndex item := by
    intro items hitems item hitem
    refine h item ?_
    simpa [indexItems, hobject, hrules, hitems] using hitem
  refine Alike.bind (R := fun indices indices' =>
    indices' = indices.map (fun index : ℕ => (index : ℤ))) (okOr_alike ?_ ⟨rfl, rfl⟩) ?_
  · cases harray : (JsonFields.required fields "matched_rules").asArray with
    | none => simp only [Option.bind_some, harray, Option.bind_none]; exact .none
    | some items =>
        simp only [Option.bind_some, harray]
        rw [← matchedRules_eq (hitems items harray)]
        cases items.mapM Simulator.positiveOrZeroInteger with
        | none => exact .none
        | some indices => exact .some rfl
  · rintro indices - rfl
    exact .ok rfl

/-- The Python runtime refuses an expectation with an index that does not fit. -/
theorem python_parseExpected_of_huge {value : Json} (h : ∃ item ∈ indexItems value, HugeIndex item)
    (line : ℕ) (expected : Python.ExpectedDecision) :
    Python.parseExpected value line ≠ .ok expected := by
  intro hresult
  unfold Python.parseExpected at hresult
  obtain ⟨fields, hfields, hresult⟩ := bind_ok_iff.1 hresult
  obtain ⟨⟨version, digest⟩, -, hresult⟩ := bind_ok_iff.1 hresult
  obtain ⟨decision, -, hresult⟩ := bind_ok_iff.1 hresult
  obtain ⟨indices, hindices, -⟩ := bind_ok_iff.1 hresult
  have hfilter : value.asObject.filter (fun fields =>
      Python.jsonKeysAre fields Python.expectedFields) = some fields := by
    cases hfilter : value.asObject.filter (fun fields =>
        Python.jsonKeysAre fields Python.expectedFields) with
    | none => rw [hfilter] at hfields; cases hfields
    | some fields' => rw [hfilter] at hfields; exact congrArg some (Except.ok.inj hfields)
  obtain ⟨hobject, hkeys⟩ := Option.filter_eq_some_iff.1 hfilter
  have hrules := @get_of_jsonKeysAre fields _ hkeys "matched_rules" (by decide)
  unfold indexItems at h
  rw [hobject, Option.bind_some, hrules, Option.bind_some] at h
  cases harray : (JsonFields.required fields "matched_rules").asArray with
  | none => simp [harray] at h
  | some items =>
      rw [harray, Option.getD_some] at h
      rw [harray, Option.bind_some, matchedRules_of_huge h] at hindices
      cases hindices

/-! ## The errors of each part

The errors of the Python parser, by the field that they name. -/

/-- The errors of a part of a Python record. -/
abbrev PythonErrors {α : Type} (code : String) (line : ℕ) (result : Except Python.TraceError α) :
    Prop :=
  ErrorsAre (fun error => error.code = code ∧ error.line = line) result

theorem python_okOr_errors {α : Type} (x : Option α) (code : String) (line : ℕ)
    (message : String) : PythonErrors code line (okOr x ⟨code, line, message⟩) := by
  cases x with
  | none => exact .error ⟨rfl, rfl⟩
  | some a => exact .ok a

theorem python_parseEventId_errors (value : Option Json) (line : ℕ) :
    PythonErrors "invalid_trace_record" line (Python.parseEventId value line) := by
  unfold Python.parseEventId
  cases value with
  | none => exact .ok _
  | some value =>
      cases value with
      | null => exact .ok _
      | string text =>
          dsimp only
          split_ifs
          · exact .error ⟨rfl, rfl⟩
          · exact .ok _
      | _ => exact .error ⟨rfl, rfl⟩

theorem python_parseCall_errors (value : Json) (line : ℕ) :
    PythonErrors "invalid_trace_call" line (Python.parseCall value line) := by
  intro error herror
  have halike := parseCall_alike value line
  rw [herror] at halike
  generalize hrust : Simulator.parseCall value line = result at halike
  obtain - | ⟨hcode, hline⟩ := halike
  have := Simulator.parseCall_errors value line _ hrust
  rw [this] at hcode hline
  exact ⟨hcode.symm, hline.symm⟩

theorem python_parseExpected_errors (value : Json) (line : ℕ) :
    PythonErrors "invalid_trace_expected" line (Python.parseExpected value line) := by
  unfold Python.parseExpected Python.parseExpectedPolicy
  refine (python_okOr_errors _ _ _ _).bind fun fields => ?_
  refine ErrorsAre.bind ?_ fun policy => ?_
  · refine (python_okOr_errors _ _ _ _).bind fun fields => ?_
    refine (python_okOr_errors _ _ _ _).bind fun version => ?_
    exact (python_okOr_errors _ _ _ _).bind fun digest => .ok _
  · refine (python_okOr_errors _ _ _ _).bind fun decision => ?_
    exact (python_okOr_errors _ _ _ _).bind fun matchedRules => .ok _

theorem python_parseExpectedField_errors (value : Option Json) (line : ℕ) :
    PythonErrors "invalid_trace_expected" line (Python.parseExpectedField value line) := by
  cases value with
  | none => exact .ok _
  | some value => exact (python_parseExpected_errors value line).map

/-! ## Events

One record, in both runtimes.  Before the header the two fail alike; behind it a record is treated
alike or is one of three kinds. -/

theorem parseEventId_alike {value : Option Json} (h : value ≠ some .null) (line : ℕ) :
    Alike (· = ·) SameTraceError (Simulator.parseEventId value line)
      (Python.parseEventId value line) := by
  unfold Simulator.parseEventId Python.parseEventId
  cases value with
  | none => exact .ok rfl
  | some value =>
      cases value with
      | null => exact absurd rfl h
      | string text =>
          dsimp only
          split_ifs
          · exact .error ⟨rfl, rfl⟩
          · exact .ok rfl
      | _ => exact .error ⟨rfl, rfl⟩

/-- The indices of an event's expectation. -/
def eventIndexItems (fields : JsonFields) : List Json :=
  ((JsonFields.get fields "expected").map indexItems).getD []

theorem parseExpectedField_alike {fields : JsonFields}
    (h : ∀ item ∈ eventIndexItems fields, ¬ HugeIndex item) (line : ℕ) :
    Alike (fun metadata decision => metadata.map Simulator.ExpectedMetadata.asPython = decision)
      SameTraceError (Simulator.parseExpectedField (JsonFields.get fields "expected") line)
      (Python.parseExpectedField (JsonFields.get fields "expected") line) := by
  unfold eventIndexItems at h
  cases hvalue : JsonFields.get fields "expected" with
  | none => exact .ok rfl
  | some value =>
      rw [hvalue, Option.map_some, Option.getD_some] at h
      refine (parseExpected_alike h line).map ?_
      rintro metadata - rfl
      rfl

theorem python_parseExpectedField_of_huge {fields : JsonFields}
    (h : ∃ item ∈ eventIndexItems fields, HugeIndex item) (line : ℕ) :
    ∃ error, Python.parseExpectedField (JsonFields.get fields "expected") line = .error error := by
  unfold eventIndexItems at h
  cases hvalue : JsonFields.get fields "expected" with
  | none =>
      rw [hvalue] at h
      simp at h
  | some value =>
      rw [hvalue, Option.map_some, Option.getD_some] at h
      unfold Python.parseExpectedField
      cases hresult : Python.parseExpected value line with
      | ok expected => exact absurd hresult (python_parseExpected_of_huge h line expected)
      | error error =>
          refine ⟨error, ?_⟩
          simp only [hresult]
          rfl

/-- A record that passes the checks up to the sign of its sequence number: an object with the
fields of an event, version 1, and a positive integer as its number. -/
structure EventHeader (value : Json) (fields : JsonFields) (sequence : ℤ) : Prop where
  object : value.asObject = some fields
  fieldsValid : Python.eventFieldsValid fields = true
  version : Python.asInt (JsonFields.required fields "version") = some 1
  sequence_eq : Python.asInt (JsonFields.required fields "sequence") = some sequence
  sequence_pos : 0 < sequence

theorem positiveInteger_eq (value : Json) :
    Simulator.positiveInteger value =
      ((Python.asInt value).filter (fun n => 0 < n && n < 2 ^ 64)).map Int.toNat := by
  unfold Simulator.positiveInteger
  cases value with
  | int n =>
      simp only [Json.asU64, Python.asInt, Option.filter_some]
      by_cases hrange : 0 ≤ n ∧ n < 2 ^ 64
      · rw [if_pos hrange, Option.filter_some]
        by_cases hpos : 0 < n
        · rw [if_pos (by simpa using hpos), if_pos (by simp; omega), Option.map_some]
        · rw [if_neg (by simpa using hpos), if_neg (by simp; omega), Option.map_none]
      · rw [if_neg hrange, Option.filter_none, if_neg (by simp; omega), Option.map_none]
  | _ => rfl

variable {value : Json} {sequence : ℤ}

/-- Without a header, both runtimes refuse a record with the same error. -/
theorem parseEvent_alike_of_no_header (h : ∀ fields sequence, ¬ EventHeader value fields sequence)
    (line : ℕ) :
    ∃ error error', Simulator.parseEvent value line = .error error ∧
      Python.parseEvent value line = .error error' ∧ SameTraceError error error' := by
  unfold Simulator.parseEvent Python.parseEvent Simulator.checkFields
  cases hobject : value.asObject with
  | none => exact ⟨_, _, rfl, rfl, rfl, rfl⟩
  | some fields =>
      simp only [okOr, ok_bind, requireExactFields_eq_eventFieldsValid]
      cases hfields : Python.eventFieldsValid fields with
      | false => exact ⟨_, _, rfl, rfl, rfl, rfl⟩
      | true =>
          by_cases hversion : Python.asInt (JsonFields.required fields "version") = some 1
          · rw [if_neg (not_not.2 ((asI64_eq_one_iff _).2 hversion)),
              if_neg (not_not.2 hversion), positiveInteger_eq]
            cases hsequence : Python.asInt (JsonFields.required fields "sequence") with
            | none => exact ⟨_, _, rfl, rfl, rfl, rfl⟩
            | some sequence =>
                have hneg : ¬ 0 < sequence := fun hpos =>
                  h fields sequence ⟨hobject, hfields, hversion, hsequence, hpos⟩
                simp only [Option.filter_some, hneg, decide_false, Bool.false_and,
                  Bool.false_eq_true, if_false, Option.map_none]
                exact ⟨_, _, rfl, rfl, rfl, rfl⟩
          · rw [if_pos (fun h => hversion ((asI64_eq_one_iff _).1 h)), if_pos hversion]
            exact ⟨_, _, rfl, rfl, rfl, rfl⟩

theorem python_parseEvent_eq (h : EventHeader value fields sequence) (line : ℕ) :
    Python.parseEvent value line = (do
      let eventId ← Python.parseEventId (JsonFields.get fields "event_id") line
      let call ← Python.parseCall (JsonFields.required fields "call") line
      let expected ← Python.parseExpectedField (JsonFields.get fields "expected") line
      .ok ⟨sequence, call, eventId, expected⟩) := by
  unfold Python.parseEvent
  simp only [h.object, okOr, ok_bind, h.fieldsValid, Bool.not_true, Bool.false_eq_true, if_false,
    h.version, h.sequence_eq, ne_eq, not_true_eq_false, Option.filter_some, h.sequence_pos,
    decide_true, if_true]

/-- After the header, the Python runtime refuses a record for another field. -/
theorem python_parseEvent_errors (h : EventHeader value fields sequence) (line : ℕ) :
    ErrorsAre (fun error => error.code ≠ "invalid_trace_sequence")
      (Python.parseEvent value line) := by
  rw [python_parseEvent_eq h]
  refine ((python_parseEventId_errors _ line).mono ?_).bind fun eventId => ?_
  · rintro error ⟨hcode, -⟩
    simp [hcode]
  refine ((python_parseCall_errors _ line).mono ?_).bind fun call => ?_
  · rintro error ⟨hcode, -⟩
    simp [hcode]
  refine ((python_parseExpectedField_errors _ line).mono ?_).bind fun expected => .ok _
  rintro error ⟨hcode, -⟩
  simp [hcode]

theorem python_parseEvent_sequence (h : EventHeader value fields sequence) {line : ℕ}
    {event : Python.TraceEvent} (hevent : Python.parseEvent value line = .ok event) :
    event.sequence = sequence := by
  rw [python_parseEvent_eq h] at hevent
  obtain ⟨eventId, -, hevent⟩ := bind_ok_iff.1 hevent
  obtain ⟨call, -, hevent⟩ := bind_ok_iff.1 hevent
  obtain ⟨expected, -, hevent⟩ := bind_ok_iff.1 hevent
  rw [← Except.ok.inj hevent]

theorem rust_parseEvent_eq (h : EventHeader value fields sequence) (hsmall : sequence < 2 ^ 64)
    (line : ℕ) :
    Simulator.parseEvent value line = (do
      let eventId ← Simulator.parseEventId (JsonFields.get fields "event_id") line
      let call ← Simulator.parseCall (JsonFields.required fields "call") line
      let expected ← Simulator.parseExpectedField (JsonFields.get fields "expected") line
      .ok ⟨sequence.toNat, eventId, call, expected⟩) := by
  have hversion := (asI64_eq_one_iff _).2 h.version
  have hsequence : Simulator.positiveInteger (JsonFields.required fields "sequence") =
      some sequence.toNat := by
    rw [positiveInteger_eq, h.sequence_eq, Option.filter_some,
      if_pos (by simp only [h.sequence_pos, hsmall, decide_true, Bool.and_self]),
      Option.map_some]
  unfold Simulator.parseEvent Simulator.checkFields
  simp only [h.object, okOr, ok_bind, requireExactFields_eq_eventFieldsValid, h.fieldsValid,
    if_true, hversion, hsequence, ne_eq, not_true_eq_false, if_false]

/-- A sequence number beyond `u64` is refused by the Rust runtime. -/
theorem rust_parseEvent_huge (h : EventHeader value fields sequence) (hhuge : 2 ^ 64 ≤ sequence)
    (line : ℕ) : Simulator.parseEvent value line = .error ⟨.invalidSequence, line⟩ := by
  have hversion := (asI64_eq_one_iff _).2 h.version
  have hsequence : Simulator.positiveInteger (JsonFields.required fields "sequence") = none := by
    rw [positiveInteger_eq, h.sequence_eq, Option.filter_some,
      if_neg (by simp; omega), Option.map_none]
  unfold Simulator.parseEvent Simulator.checkFields
  simp only [h.object, okOr, ok_bind, requireExactFields_eq_eventFieldsValid, h.fieldsValid,
    if_true, hversion, hsequence, ne_eq, not_true_eq_false, if_false, error_bind]

/-- The records that the two runtimes treat differently when they expect a sequence number. -/
inductive RecordDiffers (line expected : ℕ) (value : Json) : Prop
  /-- The Rust runtime refuses a null `event_id`, the Python runtime takes it for an absent one. -/
  | nullEventId {fields : JsonFields} {sequence : ℤ} (header : EventHeader value fields sequence)
      (small : sequence < 2 ^ 64) (null : JsonFields.get fields "event_id" = some .null)
  /-- The Rust runtime accepts the record, one of whose indices exceeds `sys.maxsize`. -/
  | hugeIndex {fields : JsonFields} {sequence : ℤ} {event : Simulator.TraceEvent}
      (header : EventHeader value fields sequence)
      (accepted : Simulator.parseEvent value line = .ok event)
      (huge : ∃ item ∈ eventIndexItems fields, HugeIndex item)
  /-- The Rust runtime refuses the sequence number first, the Python runtime another field, or
  nothing at all. -/
  | hugeSequence {fields : JsonFields} {sequence : ℤ} (header : EventHeader value fields sequence)
      (large : 2 ^ 64 ≤ sequence)
      (other : (∃ error, Python.parseEvent value line = .error error) ∨ sequence = expected)

/-- A record that is not treated differently: both runtimes take it, both refuse it with the same
error, or the Python runtime leaves the refusal to its check of the sequence. -/
theorem parseEvent_cases {line expected : ℕ} (h : ¬ RecordDiffers line expected value) :
    (∃ event, Simulator.parseEvent value line = .ok event ∧
        Python.parseEvent value line = .ok event.asPython) ∨
      (∃ error error', Simulator.parseEvent value line = .error error ∧
        Python.parseEvent value line = .error error' ∧ SameTraceError error error') ∨
      (Simulator.parseEvent value line = .error ⟨.invalidSequence, line⟩ ∧
        ∃ event, Python.parseEvent value line = .ok event ∧ event.sequence ≠ expected) := by
  by_cases hheader : ∃ fields sequence, EventHeader value fields sequence
  · obtain ⟨fields, sequence, header⟩ := hheader
    by_cases hsmall : sequence < 2 ^ 64
    · have hnull : JsonFields.get fields "event_id" ≠ some .null := fun hnull =>
        h (.nullEventId header hsmall hnull)
      have hrust := rust_parseEvent_eq header hsmall line
      have hpython := python_parseEvent_eq header line
      rcases (parseEventId_alike hnull line).results with
        ⟨eventId, _, hid, hid', rfl⟩ | ⟨error, error', hid, hid', hsame⟩
      · rcases (parseCall_alike (JsonFields.required fields "call") line).results with
          ⟨call, _, hcall, hcall', rfl⟩ | ⟨error, error', hcall, hcall', hsame⟩
        · rw [hid, ok_bind, hcall, ok_bind] at hrust
          rw [hid', ok_bind, hcall', ok_bind] at hpython
          by_cases hhuge : ∃ item ∈ eventIndexItems fields, HugeIndex item
          · obtain ⟨error', hbad'⟩ := python_parseExpectedField_of_huge hhuge line
            obtain ⟨hcode', hline'⟩ := python_parseExpectedField_errors _ line error' hbad'
            rw [hbad', error_bind] at hpython
            cases hmetadata :
              Simulator.parseExpectedField (JsonFields.get fields "expected") line with
            | ok metadata =>
                rw [hmetadata, ok_bind] at hrust
                exact absurd (.hugeIndex header hrust hhuge) h
            | error error =>
                rw [hmetadata, error_bind] at hrust
                obtain rfl := Simulator.parseExpectedField_errors _ line error hmetadata
                exact .inr (.inl ⟨_, error', hrust, hpython, hcode'.symm, hline'.symm⟩)
          · push Not at hhuge
            rcases (parseExpectedField_alike hhuge line).results with
              ⟨metadata, _, hmetadata, hmetadata', rfl⟩ | ⟨error, error', hbad, hbad', hsame⟩
            · rw [hmetadata, ok_bind] at hrust
              rw [hmetadata', ok_bind] at hpython
              refine .inl ⟨_, hrust, hpython.trans ?_⟩
              rw [Simulator.TraceEvent.asPython, Int.toNat_of_nonneg header.sequence_pos.le]
            · rw [hbad, error_bind] at hrust
              rw [hbad', error_bind] at hpython
              exact .inr (.inl ⟨error, error', hrust, hpython, hsame⟩)
        · rw [hid, ok_bind, hcall, error_bind] at hrust
          rw [hid', ok_bind, hcall', error_bind] at hpython
          exact .inr (.inl ⟨error, error', hrust, hpython, hsame⟩)
      · rw [hid, error_bind] at hrust
        rw [hid', error_bind] at hpython
        exact .inr (.inl ⟨error, error', hrust, hpython, hsame⟩)
    · have hlarge : 2 ^ 64 ≤ sequence := not_lt.1 hsmall
      refine .inr (.inr ⟨rust_parseEvent_huge header hlarge line, ?_⟩)
      cases hpython : Python.parseEvent value line with
      | error error => exact absurd (.hugeSequence header hlarge (.inl ⟨error, hpython⟩)) h
      | ok event =>
          refine ⟨event, rfl, fun heq => h (.hugeSequence header hlarge (.inr ?_))⟩
          rw [← python_parseEvent_sequence header hpython, heq]
  · refine .inr (.inl (parseEvent_alike_of_no_header (fun fields sequence header => ?_) line))
    exact hheader ⟨fields, sequence, header⟩

/-- A record that is treated differently: the Rust runtime refuses it with an error that the Python
runtime does not give, or takes it while the Python runtime refuses it. -/
theorem parseEvent_apart {line expected : ℕ} (h : RecordDiffers line expected value) :
    (Simulator.parseEvent value line = .error ⟨.invalidRecord, line⟩ ∧
        ErrorsAre (fun error => error.code ≠ "invalid_trace_record")
          (Python.parseEvent value line)) ∨
      ((∃ event, Simulator.parseEvent value line = .ok event) ∧
        ∃ error, Python.parseEvent value line = .error error ∧
          error.code = "invalid_trace_expected") ∨
      (Simulator.parseEvent value line = .error ⟨.invalidSequence, line⟩ ∧
        ((∃ error, Python.parseEvent value line = .error error ∧
            error.code ≠ "invalid_trace_sequence") ∨
          ∃ event, Python.parseEvent value line = .ok event ∧ event.sequence = expected)) := by
  cases h with
  | nullEventId header small null =>
      refine .inl ⟨?_, ?_⟩
      · rw [rust_parseEvent_eq header small, null]
        rfl
      · rw [python_parseEvent_eq header, null]
        refine ErrorsAre.bind (.ok none) fun eventId => ?_
        refine ((python_parseCall_errors _ line).mono ?_).bind fun call => ?_
        · rintro error ⟨hcode, -⟩
          simp [hcode]
        · refine ((python_parseExpectedField_errors _ line).mono ?_).bind fun expected => .ok _
          rintro error ⟨hcode, -⟩
          simp [hcode]
  | @hugeIndex fields sequence event header accepted huge =>
      refine .inr (.inl ⟨⟨event, accepted⟩, ?_⟩)
      -- the parts before the expectation are accepted by both runtimes
      have hsmall : sequence < 2 ^ 64 := by
        by_contra hlarge
        rw [rust_parseEvent_huge header (not_lt.1 hlarge)] at accepted
        cases accepted
      rw [rust_parseEvent_eq header hsmall] at accepted
      obtain ⟨eventId, hid, accepted⟩ := bind_ok_iff.1 accepted
      obtain ⟨call, hcall, -⟩ := bind_ok_iff.1 accepted
      have hnull : JsonFields.get fields "event_id" ≠ some .null := by
        intro hnull
        rw [hnull] at hid
        cases hid
      obtain ⟨error, herror⟩ := python_parseExpectedField_of_huge huge line
      refine ⟨error, ?_, (python_parseExpectedField_errors _ line error herror).1⟩
      rw [python_parseEvent_eq header]
      rcases (parseEventId_alike hnull line).results with ⟨_, _, -, hid', -⟩ | ⟨_, _, hid', -⟩
      · rcases (parseCall_alike (JsonFields.required fields "call") line).results with
          ⟨_, _, -, hcall', -⟩ | ⟨_, _, hcall', -⟩
        · rw [hid', ok_bind, hcall', ok_bind, herror, error_bind]
        · rw [hcall] at hcall'
          cases hcall'
      · rw [hid] at hid'
        cases hid'
  | hugeSequence header large other =>
      refine .inr (.inr ⟨rust_parseEvent_huge header large line, ?_⟩)
      cases hpython : Python.parseEvent value line with
      | ok event =>
          refine .inr ⟨event, rfl, ?_⟩
          rw [python_parseEvent_sequence header hpython]
          refine other.resolve_left ?_
          rintro ⟨error, herror⟩
          rw [hpython] at herror
          cases herror
      | error error =>
          exact .inl ⟨error, rfl, python_parseEvent_errors header line error hpython⟩

end

/-! ## Lines

A line is decoded and read, or skipped if it is blank.  Texts that come out of a decoder have no
lone surrogates, so the check that Python makes for them finds none. -/

/-- A character is no surrogate. -/
theorem isSurrogate_eq_false (character : Char) : Python.isSurrogate character = false := by
  have hvalid : character.toNat < 0xD800 ∨ 0xDFFF < character.toNat ∧ character.toNat < 0x110000 :=
    character.valid
  simp only [Python.isSurrogate, Bool.and_eq_false_iff, decide_eq_false_iff_not]
  omega

mutual

theorem containsLoneSurrogate_eq_false : ∀ value : Json, Python.containsLoneSurrogate value = false
  | .null | .bool _ | .int _ | .float _ => by simp [Python.containsLoneSurrogate]
  | .string value => by simp [Python.containsLoneSurrogate, isSurrogate_eq_false]
  | .array items => by
      rw [Python.containsLoneSurrogate, itemsContainLoneSurrogate_eq_false items]
  | .object entries => by
      rw [Python.containsLoneSurrogate, entriesContainLoneSurrogate_eq_false entries]

theorem itemsContainLoneSurrogate_eq_false :
    ∀ items : List Json, Python.itemsContainLoneSurrogate items = false
  | [] => by simp [Python.itemsContainLoneSurrogate]
  | item :: items => by
      rw [Python.itemsContainLoneSurrogate, containsLoneSurrogate_eq_false item,
        itemsContainLoneSurrogate_eq_false items, Bool.or_self]

theorem entriesContainLoneSurrogate_eq_false :
    ∀ entries : List (String × Json), Python.entriesContainLoneSurrogate entries = false
  | [] => by simp [Python.entriesContainLoneSurrogate]
  | (key, item) :: entries => by
      rw [Python.entriesContainLoneSurrogate, containsLoneSurrogate_eq_false item,
        entriesContainLoneSurrogate_eq_false entries]
      simp [isSurrogate_eq_false]

end

/-- What the Rust runtime takes for blank, the Python runtime does. -/
theorem python_isBlank {line : String} (h : Simulator.isBlank line = true) :
    Python.isBlank line = true := by
  refine List.all_eq_true.2 fun character hcharacter => ?_
  have hspace := List.all_eq_true.1 h character hcharacter
  simp only [Simulator.isWhitespace, Python.isSpace, Bool.or_eq_true, Bool.and_eq_true,
    decide_eq_true_eq, beq_iff_eq] at hspace ⊢
  omega

section

variable (fromStr : String → Option Json)

/-- A line that the two runtimes treat differently: blank for the Python runtime only, or a record
that they treat differently. -/
def LineDiffers (offset expected : ℕ) (line : String) : Prop :=
  (Python.isBlank line = true ∧ Simulator.isBlank line = false) ∨
    (Python.isBlank line = false ∧
      ∃ value, fromStr line = some value ∧ RecordDiffers (offset + 1) expected value)

/-- The sequence number that is expected after a line, unless the line is refused. -/
def nextSequence (offset expected : ℕ) (line : String) : Option ℕ :=
  if Simulator.isBlank line then some expected
  else
    match fromStr line with
    | none => none
    | some value =>
        match Simulator.parseEvent value (offset + 1) with
        | .ok event => if event.sequence = expected then some (expected + 1) else none
        | .error _ => none

/-- The states of the two parsers after the same events. -/
structure SameTraceState (expected : ℕ) (state : Simulator.TraceState)
    (state' : Python.TraceState) : Prop where
  expected_eq : state.expectedSequence = expected
  expected_eq' : state'.expectedSequence = expected
  events : state'.events = state.events.map Simulator.TraceEvent.asPython

variable {fromStr} {expected offset : ℕ} {state : Simulator.TraceState}
  {state' : Python.TraceState} {line : String}

theorem python_traceLine_none (hblank : Python.isBlank line = false) (hnone : fromStr line = none) :
    Python.traceLine fromStr state' (line, offset) =
      .error ⟨"invalid_trace_json", offset, "trace line is not valid JSON"⟩ := by
  simp only [Python.traceLine, hblank, Bool.false_eq_true, if_false, hnone, Option.filter_none,
    okOr, error_bind]

theorem python_traceLine_some (hblank : Python.isBlank line = false) {value : Json}
    (hvalue : fromStr line = some value) :
    Python.traceLine fromStr state' (line, offset) =
      (Python.parseEvent value offset >>= fun event =>
        if event.sequence ≠ state'.expectedSequence then
          .error ⟨"invalid_trace_sequence", offset,
            "trace sequence must be " ++ toString state'.expectedSequence⟩
        else .ok ⟨state'.expectedSequence + 1, state'.events ++ [event]⟩) := by
  simp only [Python.traceLine, hblank, Bool.false_eq_true, if_false, hvalue, Option.filter_some,
    containsLoneSurrogate_eq_false, Bool.not_false, if_true, okOr, ok_bind]

theorem python_parseEvent_line {value : Json} {line : ℕ} :
    ErrorsAre (fun error => error.line = line) (Python.parseEvent value line) := by
  have hat : ∀ {α : Type} {code : String} {result : Except Python.TraceError α},
      PythonErrors code line result → ErrorsAre (fun error => error.line = line) result :=
    fun h => h.mono fun error herror => herror.2
  unfold Python.parseEvent
  refine (hat (python_okOr_errors _ _ _ _)).bind fun fields => ?_
  split_ifs
  · exact .error rfl
  · exact .error rfl
  · refine (hat (python_okOr_errors _ _ _ _)).bind fun sequence => ?_
    refine (hat (python_parseEventId_errors _ _)).bind fun eventId => ?_
    refine (hat (python_parseCall_errors _ _)).bind fun call => ?_
    exact (hat (python_parseExpectedField_errors _ _)).bind fun expected => .ok _

theorem python_traceLine_line (fromStr : String → Option Json) (state' : Python.TraceState)
    (line : String) (offset : ℕ) :
    ErrorsAre (fun error => error.line = offset)
      (Python.traceLine fromStr state' (line, offset)) := by
  cases hblank : Python.isBlank line with
  | true =>
      rw [Python.traceLine, if_pos hblank]
      exact .ok _
  | false =>
      cases hvalue : fromStr line with
      | none =>
          rw [python_traceLine_none hblank hvalue]
          exact .error rfl
      | some value =>
          rw [python_traceLine_some hblank hvalue]
          refine python_parseEvent_line.bind fun event => ?_
          split_ifs
          · exact .error rfl
          · exact .ok _

/-- A line that is not treated differently is taken by both parsers or refused by both with the
same error. -/
theorem traceLine_alike (hrel : SameTraceState expected state state')
    (h : ¬ LineDiffers fromStr offset expected line) :
    (∃ next state₁ state₁', nextSequence fromStr offset expected line = some next ∧
        Simulator.traceLine fromStr state (line, offset) = .ok state₁ ∧
        Python.traceLine fromStr state' (line, 1 + offset) = .ok state₁' ∧
        SameTraceState next state₁ state₁') ∨
      (nextSequence fromStr offset expected line = none ∧
        ∃ error error', Simulator.traceLine fromStr state (line, offset) = .error error ∧
          Python.traceLine fromStr state' (line, 1 + offset) = .error error' ∧
          SameTraceError error error') := by
  rw [Nat.add_comm 1 offset]
  cases hblank : Simulator.isBlank line with
  | true =>
      refine .inl ⟨expected, state, state', ?_, ?_, ?_, hrel⟩
      · rw [nextSequence, if_pos hblank]
      · rw [Simulator.traceLine, if_pos hblank]
      · rw [Python.traceLine, if_pos (python_isBlank hblank)]
  | false =>
      have hblank' : Python.isBlank line = false := by
        rw [← Bool.not_eq_true]
        exact fun hpython => h (.inl ⟨hpython, hblank⟩)
      cases hvalue : fromStr line with
      | none =>
          refine .inr ⟨?_, _, _, Simulator.traceLine_none hblank hvalue,
            python_traceLine_none hblank' hvalue, rfl, rfl⟩
          simp [nextSequence, hblank, hvalue]
      | some value =>
          rw [Simulator.traceLine_some hblank hvalue, python_traceLine_some hblank' hvalue]
          have hrecord : ¬ RecordDiffers (offset + 1) expected value := fun hrecord =>
            h (.inr ⟨hblank', value, hvalue, hrecord⟩)
          rcases parseEvent_cases hrecord with ⟨event, hrust, hpython⟩ |
            ⟨error, error', hrust, hpython, hsame⟩ | ⟨hrust, event, hpython, hne⟩
          · rw [hrust, hpython, ok_bind, ok_bind, hrel.expected_eq, hrel.expected_eq']
            have hsequence : event.asPython.sequence = event.sequence := rfl
            by_cases hexpected : event.sequence = expected
            · refine .inl ⟨expected + 1, ⟨expected + 1, state.events ++ [event]⟩,
                ⟨expected + 1, state'.events ++ [event.asPython]⟩, ?_, ?_, ?_, rfl, rfl, ?_⟩
              · simp [nextSequence, hblank, hvalue, hrust, hexpected]
              · rw [if_neg (not_not.2 hexpected)]
              · rw [if_neg (not_not.2 (by rw [hsequence, hexpected]))]
              · rw [List.map_append, hrel.events, List.map_singleton]
            · have hexpected' : event.asPython.sequence ≠ expected := by
                rw [hsequence]
                exact_mod_cast hexpected
              refine .inr ⟨?_, _, _, if_pos hexpected, if_pos hexpected', rfl, rfl⟩
              simp [nextSequence, hblank, hvalue, hrust, hexpected]
          · rw [hrust, hpython]
            refine .inr ⟨?_, error, error', rfl, rfl, hsame⟩
            simp [nextSequence, hblank, hvalue, hrust]
          · rw [hrust, hpython, ok_bind, hrel.expected_eq', if_pos hne]
            refine .inr ⟨?_, _, _, rfl, rfl, rfl, rfl⟩
            simp [nextSequence, hblank, hvalue, hrust]

/-- A line that is treated differently is refused by one parser only, or with different errors, if
the decoder refuses a line that is blank for the Python runtime. -/
theorem traceLine_apart (hdecoder : ∀ line, Python.isBlank line = true → fromStr line = none)
    (hrel : SameTraceState expected state state') (h : LineDiffers fromStr offset expected line) :
    (∃ error state₁', Simulator.traceLine fromStr state (line, offset) = .error error ∧
        Python.traceLine fromStr state' (line, 1 + offset) = .ok state₁') ∨
      (∃ state₁ error', Simulator.traceLine fromStr state (line, offset) = .ok state₁ ∧
        Python.traceLine fromStr state' (line, 1 + offset) = .error error') ∨
      ∃ error error', Simulator.traceLine fromStr state (line, offset) = .error error ∧
        Python.traceLine fromStr state' (line, 1 + offset) = .error error' ∧
        ¬ SameTraceError error error' := by
  rw [Nat.add_comm 1 offset]
  rcases h with ⟨hblank', hblank⟩ | ⟨hblank', value, hvalue, hrecord⟩
  · refine .inl ⟨_, state', Simulator.traceLine_none hblank (hdecoder line hblank'), ?_⟩
    rw [Python.traceLine, if_pos hblank']
  · have hblank : Simulator.isBlank line = false := by
      rw [← Bool.not_eq_true]
      intro hblank
      rw [python_isBlank hblank] at hblank'
      cases hblank'
    rw [Simulator.traceLine_some hblank hvalue, python_traceLine_some hblank' hvalue]
    rcases parseEvent_apart hrecord with ⟨hrust, herrors⟩ |
      ⟨⟨event, hrust⟩, error', hpython, hcode⟩ | ⟨hrust, hpython⟩
    · rw [hrust, error_bind]
      cases hpython : Python.parseEvent value (offset + 1) with
      | error error' =>
          refine .inr (.inr ⟨_, error', rfl, rfl, fun hsame => ?_⟩)
          exact herrors error' hpython hsame.1.symm
      | ok event =>
          rw [ok_bind]
          split_ifs
          · refine .inr (.inr ⟨_, _, rfl, rfl, fun hsame => ?_⟩)
            have hcode : Simulator.TraceErrorCode.invalidRecord.asStr = "invalid_trace_sequence" :=
              hsame.1
            exact absurd hcode (by decide)
          · exact .inl ⟨_, _, rfl, rfl⟩
    · rw [hrust, hpython, ok_bind, error_bind]
      split_ifs
      · refine .inr (.inr ⟨_, error', rfl, rfl, fun hsame => ?_⟩)
        have hcode' : Simulator.TraceErrorCode.invalidSequence.asStr = "invalid_trace_expected" :=
          hsame.1.trans hcode
        exact absurd hcode' (by decide)
      · exact .inr (.inl ⟨_, error', rfl, rfl⟩)
    · rw [hrust, error_bind]
      rcases hpython with ⟨error', hpython, hcode⟩ | ⟨event, hpython, hsequence⟩
      · rw [hpython, error_bind]
        exact .inr (.inr ⟨_, error', rfl, rfl, fun hsame => hcode hsame.1.symm⟩)
      · rw [hpython, ok_bind, hrel.expected_eq', if_neg (not_not.2 hsequence)]
        exact .inl ⟨_, _, rfl, rfl⟩

end

/-! ## Traces

The two parsers as readers of numbered lines, and the theorem. -/

section

variable (fromStr : String → Option Json)

/-- The two parsers as readers of numbered lines. -/
theorem traceReaders :
    Readers (fun offset state line => Simulator.traceLine fromStr state (line, offset))
      (fun offset state line => Python.traceLine fromStr state (line, 1 + offset))
      SameTraceState SameTraceError (LineDiffers fromStr) (nextSequence fromStr) where
  taken offset expected state state' line next hrel halike hnext := by
    rcases traceLine_alike hrel halike with ⟨next', state₁, state₁', hnext', hrest⟩ | ⟨hnone, -⟩
    · rw [hnext] at hnext'
      obtain rfl := Option.some.inj hnext'
      exact ⟨state₁, state₁', hrest⟩
    · rw [hnext] at hnone
      cases hnone
  refused offset expected state state' line hrel halike hnext := by
    rcases traceLine_alike hrel halike with ⟨next', _, _, hnext', -⟩ | ⟨-, hrest⟩
    · rw [hnext] at hnext'
      cases hnext'
    · exact hrest

theorem traceReaders_separated
    (hdecoder : ∀ line, Python.isBlank line = true → fromStr line = none) :
    SeparatedReaders (fun offset state line => Simulator.traceLine fromStr state (line, offset))
      (fun offset state line => Python.traceLine fromStr state (line, 1 + offset))
      SameTraceState SameTraceError (fun error => error.line - 1) (fun error => error.line - 1)
      (LineDiffers fromStr) (nextSequence fromStr) where
  toReaders := traceReaders fromStr
  apart offset expected state state' line hrel hdiffers := traceLine_apart hdecoder hrel hdiffers
  number_eq offset state line error herror := by
    rw [Simulator.traceLine_line fromStr state line offset error herror, Nat.add_sub_cancel]
  number_eq' offset state' line error herror := by
    rw [python_traceLine_line fromStr state' line _ error herror, Nat.add_sub_cancel_left]
  same_number error error' hsame := by rw [hsame.2]

/-- Both runtimes read the same events, or refuse the same line with the same code. -/
def ReadAlike (trace : String) : Prop :=
  Alike (fun events events' => events.map Simulator.TraceEvent.asPython = events') SameTraceError
    (Simulator.parseTrace fromStr trace) (Python.parseTrace fromStr trace)

/-- The two runtimes see the same lines up to the first one they refuse, and treat none of them
differently. Behind a line that is refused anything may follow. -/
def LinesInStep (trace : String) : Prop :=
  InStep (LineDiffers fromStr) (nextSequence fromStr) 0 1 (Simulator.lines trace)
    (Python.strSplitlines trace)

/-- The two runtimes end a line in different places, before the first line that is refused or
treated differently. From there on they read different texts, and whether they end alike is not
said. -/
def LinesFork (trace : String) : Prop :=
  Forks (LineDiffers fromStr) (nextSequence fromStr) 0 1 (Simulator.lines trace)
    (Python.strSplitlines trace)

theorem sameTraceState_start : SameTraceState 1 ⟨1, []⟩ ⟨1, []⟩ := ⟨rfl, rfl, rfl⟩

theorem rust_parseTrace_eq (trace : String) :
    Simulator.parseTrace fromStr trace =
      (readFrom (fun offset state line => Simulator.traceLine fromStr state (line, offset)) 0
        ⟨1, []⟩ (Simulator.lines trace) >>= fun state => .ok state.events) := by
  have hread := foldlM_zipIdx (Simulator.traceLine fromStr) 0 0 ⟨1, []⟩ (Simulator.lines trace)
  simp only [Nat.zero_add] at hread
  rw [Simulator.parseTrace, hread]

theorem python_parseTrace_eq (trace : String) :
    Python.parseTrace fromStr trace =
      (readFrom (fun offset state line => Python.traceLine fromStr state (line, 1 + offset)) 0
        ⟨1, []⟩ (Python.strSplitlines trace) >>= fun state => .ok state.events) := by
  rw [Python.parseTrace, ← foldlM_zipIdx]

/-- Comparing the events is comparing the states that hold them. -/
theorem readAlike_iff (trace : String) :
    ReadAlike fromStr trace ↔
      Alike (fun state state' =>
          state.events.map Simulator.TraceEvent.asPython = state'.events) SameTraceError
        (readFrom (fun offset state line => Simulator.traceLine fromStr state (line, offset)) 0
          ⟨1, []⟩ (Simulator.lines trace))
        (readFrom (fun offset state line => Python.traceLine fromStr state (line, 1 + offset)) 0
          ⟨1, []⟩ (Python.strSplitlines trace)) := by
  unfold ReadAlike
  rw [rust_parseTrace_eq, python_parseTrace_eq]
  constructor
  · intro h
    generalize readFrom _ 0 (⟨1, []⟩ : Simulator.TraceState) _ = rust at h ⊢
    generalize readFrom _ 0 (⟨1, []⟩ : Python.TraceState) _ = python at h ⊢
    cases rust with
    | ok state =>
        cases python with
        | ok state' =>
            obtain ⟨hevents⟩ := h
            exact .ok hevents
        | error error' => cases h
    | error error =>
        cases python with
        | ok state' => cases h
        | error error' =>
            obtain - | ⟨hsame⟩ := h
            exact .error hsame
  · intro h
    exact h.bind fun state state' hevents => .ok hevents

/-- **Traces in both runtimes.**  The two runtimes read a trace alike if they see the same lines up
to the first one that is refused and treat none of them differently.  For a decoder that refuses
blank text they read no other trace alike, except one in which they end a line in different
places before. -/
theorem parseTrace_alike (trace : String) :
    (LinesInStep fromStr trace → ReadAlike fromStr trace) ∧
      ((∀ line, Python.isBlank line = true → fromStr line = none) →
        ReadAlike fromStr trace → LinesInStep fromStr trace ∨ LinesFork fromStr trace) := by
  rw [readAlike_iff]
  constructor
  · intro hstep
    refine ((traceReaders fromStr).alike_of_inStep sameTraceState_start hstep).mono ?_
    rintro state state' ⟨expected, hrel⟩
    exact hrel.events.symm
  · intro hdecoder
    exact (traceReaders_separated fromStr hdecoder).inStep_or_forks sameTraceState_start

end

/-! ## Where lines end

A condition on the trace under which both runtimes cut it into the same lines. -/

/-- Every line boundary is `\n` or `\r\n`. -/
def PlainBoundaries : List Char → Prop
  | [] => True
  | [character] => Python.isLineBoundary character = true → character = '\n'
  | character :: next :: rest =>
      (Python.isLineBoundary character = true →
        character = '\n' ∨ (character = '\r' ∧ next = '\n')) ∧ PlainBoundaries (next :: rest)

theorem PlainBoundaries.tail {character : Char} {rest : List Char}
    (h : PlainBoundaries (character :: rest)) : PlainBoundaries rest := by
  cases rest with
  | nil => trivial
  | cons next rest => exact h.2

theorem stripCarriageReturn_of_ne {line : List Char} (h : line.getLast? ≠ some '\r') :
    Simulator.stripCarriageReturn line = line := by
  rw [Simulator.stripCarriageReturn, if_neg h]

theorem getLast?_append_ne {line : List Char} {character : Char} (h : character ≠ '\r') :
    (line ++ [character]).getLast? ≠ some '\r' := by
  simpa using h

/-- With plain boundaries, both runtimes see the same lines. -/
theorem strSplitlinesFrom_eq_splitLines : ∀ (text current : List Char), PlainBoundaries text →
    current.getLast? ≠ some '\r' →
    Python.strSplitlinesFrom current text = Simulator.splitLines current text
  | [], current, _, _ => by
      cases current <;> rfl
  | [character], current, hplain, hcurrent => by
      rw [Python.strSplitlinesFrom, Simulator.splitLines]
      by_cases hnewline : character = '\n'
      · subst hnewline
        rw [if_pos (by decide), if_pos rfl, stripCarriageReturn_of_ne hcurrent]
        rfl
      · rw [if_neg (fun hboundary => hnewline (hplain hboundary)), if_neg hnewline]
        simp [Simulator.splitLines]
  | character :: next :: rest, current, hplain, hcurrent => by
      rw [Python.strSplitlinesFrom, Simulator.splitLines]
      by_cases hnewline : character = '\n'
      · subst hnewline
        have hne : ('\n' == '\r') = false := by decide
        have hboundary : Python.isLineBoundary '\n' = true := by decide
        simp only [hne, Bool.false_and, Bool.false_eq_true, if_false, hboundary, if_true]
        rw [stripCarriageReturn_of_ne hcurrent,
          strSplitlinesFrom_eq_splitLines (next :: rest) [] hplain.tail (by simp)]
      · rw [if_neg hnewline]
        by_cases hpair : character = '\r' ∧ next = '\n'
        · obtain ⟨rfl, rfl⟩ := hpair
          rw [if_pos (by decide), Simulator.splitLines, if_pos rfl, Simulator.stripCarriageReturn,
            if_pos (by simp), List.dropLast_concat,
            strSplitlinesFrom_eq_splitLines rest [] hplain.tail.tail (by simp)]
        · have hboundary : ¬ Python.isLineBoundary character = true := fun hboundary =>
            (hplain.1 hboundary).elim hnewline hpair
          have hreturn : character ≠ '\r' := by
            rintro rfl
            exact hboundary (by decide)
          rw [if_neg (by simpa using hpair), if_neg hboundary,
            strSplitlinesFrom_eq_splitLines (next :: rest) _ hplain.tail
              (getLast?_append_ne hreturn)]

/-- A trace with plain boundaries does not fork. -/
theorem not_linesFork_of_plain (fromStr : String → Option Json) {trace : String}
    (h : PlainBoundaries trace.toList) : ¬ LinesFork fromStr trace := by
  have hlines : Python.strSplitlines trace = Simulator.lines trace := by
    rw [Python.strSplitlines, Simulator.lines,
      strSplitlinesFrom_eq_splitLines trace.toList [] h (by simp)]
  rw [LinesFork, hlines]
  exact not_forks_self 0 1 (Simulator.lines trace)

/-! ## Samples

A null identifier, for which the two runtimes differ. -/

/-- A trace with one event whose identifier is null, as one line and decoded. -/
def nullEventIdTrace : String :=
  "\x7b\"version\":1,\"sequence\":1,\"event_id\":null,\"call\":\x7b\"agent\":null,\"tool\":null," ++
    "\"args\":[],\"user\":null,\"context\":\x7b\x7d\x7d\x7d"

def nullEventIdRecord : Json :=
  .object [
    ("version", .int 1),
    ("sequence", .int 1),
    ("event_id", .null),
    ("call", .object [("agent", .null), ("tool", .null), ("args", .array []), ("user", .null),
      ("context", .object [])])]

def nullEventIdDecoder (line : String) : Option Json :=
  if line = nullEventIdTrace then some nullEventIdRecord else none

/-- A decoder that refuses blank text, on a trace that is refused at its first line. -/
theorem parseTrace_alike_sample :
    ReadAlike nullEventIdDecoder "[]" ∧
      (ReadAlike nullEventIdDecoder nullEventIdTrace →
        LinesInStep nullEventIdDecoder nullEventIdTrace ∨
          LinesFork nullEventIdDecoder nullEventIdTrace) := by
  constructor
  · refine (parseTrace_alike nullEventIdDecoder "[]").1 ?_
    have hlines : Simulator.lines "[]" = ["[]"] := by decide +kernel
    have hlines' : Python.strSplitlines "[]" = ["[]"] := by decide +kernel
    have hnone : nullEventIdDecoder "[]" = none := by decide +kernel
    rw [LinesInStep, hlines, hlines']
    refine ⟨rfl, ?_, fun next hnext => ?_⟩
    · rintro (⟨hblank, -⟩ | ⟨-, value, hvalue, -⟩)
      · exact absurd hblank (by decide +kernel)
      · rw [hnone] at hvalue
        cases hvalue
    · rw [nextSequence, if_neg (by decide +kernel), hnone] at hnext
      cases hnext
  · refine (parseTrace_alike nullEventIdDecoder nullEventIdTrace).2 fun line hblank => ?_
    rw [nullEventIdDecoder, if_neg]
    rintro rfl
    exact absurd hblank (by decide +kernel)

/-- The Python runtime takes a null identifier for an absent one and reads the trace; the Rust
runtime refuses its first line. -/
theorem null_event_id_read_by_python :
    Simulator.parseTrace nullEventIdDecoder nullEventIdTrace = .error ⟨.invalidRecord, 1⟩ ∧
      Python.parseTrace nullEventIdDecoder nullEventIdTrace =
        .ok [⟨1, ⟨none, none, [], none, ∅⟩, none, none⟩] ∧
      ¬ ReadAlike nullEventIdDecoder nullEventIdTrace := by
  have hrust : Simulator.parseTrace nullEventIdDecoder nullEventIdTrace =
      .error ⟨.invalidRecord, 1⟩ := by
    decide +kernel
  have hpython : Python.parseTrace nullEventIdDecoder nullEventIdTrace =
      .ok [⟨1, ⟨none, none, [], none, ∅⟩, none, none⟩] := by
    decide +kernel
  refine ⟨hrust, hpython, fun h => ?_⟩
  rw [ReadAlike, hrust, hpython] at h
  cases h

end HpGuardian

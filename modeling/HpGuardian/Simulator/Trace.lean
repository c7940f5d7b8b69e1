import HpGuardian.Policy.Json
import HpGuardian.Policy.Parser

/-!
# Trace parsing (`src/simulator.rs`)

A trace is a text of JSON lines.  It is validated completely, line by line, before anything is
simulated; an error carries a stable code and the number of the physical line, blank lines counted.

Lines are those of `str::lines`: a line ends at a newline, loses a carriage return before it, and
an unterminated rest is a line unless it is empty.  `InLines` describes this without the loop, and
`inLines_lines` says that the lines of a text are described by it.  A line of white space only is
skipped.

The checks of a record follow the source in their order, since the code of an error is that of the
first check that fails.  The JSON decoder `serde_json::from_str` stands outside the repository and
is a parameter; what it returns is a value with one entry for each key.
-/

namespace HpGuardian
namespace Simulator

/-- `TRACE_VERSION`. -/
def traceVersion : ℤ := 1

/-- The policy version and exact-text SHA-256 associated with a simulation. -/
structure PolicyIdentity where
  version : ℤ
  sha256 : String
  deriving DecidableEq, Repr

/-- Historical expectation metadata carried by a trace event. It is compared with a result only if
the result is of the same policy. -/
structure ExpectedMetadata where
  policy : PolicyIdentity
  decision : Action
  matchedRules : List ℕ
  deriving DecidableEq, Repr

/-- A normalized trace event. -/
structure TraceEvent where
  sequence : ℕ
  eventId : Option String
  call : PolicyCall
  expected : Option ExpectedMetadata
  deriving DecidableEq

/-! ## Errors

Codes, and the line that an error is about. -/

/-- The kinds of trace validation failures. -/
inductive TraceErrorCode where
  | invalidJson
  | invalidRecord
  | unsupportedVersion
  | invalidSequence
  | invalidCall
  | invalidExpected
  deriving DecidableEq, Repr

/-- A stable, line-addressable trace validation failure. Lines count from 1, with the blank ones
counted. -/
structure TraceError where
  code : TraceErrorCode
  line : ℕ
  deriving DecidableEq, Repr

/-- `TraceError::code`. -/
def TraceErrorCode.asStr : TraceErrorCode → String
  | .invalidJson => "invalid_trace_json"
  | .invalidRecord => "invalid_trace_record"
  | .unsupportedVersion => "unsupported_trace_version"
  | .invalidSequence => "invalid_trace_sequence"
  | .invalidCall => "invalid_trace_call"
  | .invalidExpected => "invalid_trace_expected"

/-! ## Lines

The standard library's cut of a text into lines, and the white space of Unicode. -/

/-- Drops one trailing carriage return. -/
def stripCarriageReturn (line : List Char) : List Char :=
  if line.getLast? = some '\r' then line.dropLast else line

/-- `str::lines` on characters, with the current line so far: a line ends at a newline, loses a
carriage return before it, and an unterminated rest is a line unless it is empty. -/
def splitLines (current : List Char) : List Char → List (List Char)
  | [] => if current = [] then [] else [current]
  | character :: rest =>
      if character = '\n' then stripCarriageReturn current :: splitLines [] rest
      else splitLines (current ++ [character]) rest

/-- `str::lines`. -/
def lines (trace : String) : List String := (splitLines [] trace.toList).map String.ofList

/-- A text in lines: each line ends at a newline, together with a carriage return right before it,
or is the rest of the text and not empty. -/
inductive InLines : List Char → List (List Char) → Prop
  | empty : InLines [] []
  | rest {line : List Char} (hne : line ≠ []) (hline : '\n' ∉ line) : InLines line [line]
  | newline {line text : List Char} {lines : List (List Char)} (hline : '\n' ∉ line)
      (hreturn : line.getLast? ≠ some '\r') (htext : InLines text lines) :
      InLines (line ++ '\n' :: text) (line :: lines)
  | carriageReturn {line text : List Char} {lines : List (List Char)} (hline : '\n' ∉ line)
      (htext : InLines text lines) :
      InLines (line ++ '\r' :: '\n' :: text) (line :: lines)

theorem inLines_splitLines {current : List Char} (hcurrent : '\n' ∉ current) (text : List Char) :
    InLines (current ++ text) (splitLines current text) := by
  induction text generalizing current with
  | nil =>
      rw [List.append_nil, splitLines]
      split_ifs with hempty
      · rw [hempty]
        exact .empty
      · exact .rest hempty hcurrent
  | cons character text ih =>
      rw [splitLines]
      split_ifs with hnewline
      · subst hnewline
        have htext : InLines text (splitLines [] text) := @ih [] (by simp)
        unfold stripCarriageReturn
        split_ifs with hreturn
        · -- the current line is its front and the carriage return
          have hsplit := List.dropLast_append_getLast? '\r' hreturn
          rw [← hsplit, List.append_assoc, List.singleton_append, hsplit]
          exact .carriageReturn (fun hmem => hcurrent (List.mem_of_mem_dropLast hmem)) htext
        · exact .newline hcurrent hreturn htext
      · rw [← List.singleton_append, ← List.append_assoc]
        exact ih (by simp [hcurrent, Ne.symm hnewline])

/-- The lines of a trace are the text between its line ends. -/
theorem inLines_lines (trace : String) :
    ∃ pieces, lines trace = pieces.map String.ofList ∧ InLines trace.toList pieces :=
  ⟨_, rfl, @inLines_splitLines [] (by simp) trace.toList⟩

/-- `char::is_whitespace`: the Unicode property `White_Space`. -/
def isWhitespace (character : Char) : Bool :=
  let code := character.toNat
  (0x09 ≤ code && code ≤ 0x0D) || code == 0x20 || code == 0x85 || code == 0xA0 ||
    code == 0x1680 || (0x2000 ≤ code && code ≤ 0x200A) || code == 0x2028 || code == 0x2029 ||
    code == 0x202F || code == 0x205F || code == 0x3000

/-- `line.trim().is_empty()`. -/
def isBlank (line : String) : Bool := line.toList.all isWhitespace

/-! ## Scalars

Integers in range, digests and actions. -/

/-- `positive_integer`. -/
def positiveInteger (value : Json) : Option ℕ := value.asU64.filter (fun value => 0 < value)

/-- `positive_or_zero_integer`; a `usize` has the range of a `u64`. -/
def positiveOrZeroInteger (value : Json) : Option ℕ := value.asU64

/-- An ASCII digit, or an ASCII hexadecimal digit in lower case. -/
def isLowercaseHexDigit (character : Char) : Bool :=
  ('0' ≤ character && character ≤ '9') || ('a' ≤ character && character ≤ 'f')

/-- `is_lowercase_sha256`. -/
def isLowercaseSha256 (value : String) : Bool :=
  value.utf8ByteSize == 64 && value.toList.all isLowercaseHexDigit

/-- `parse_action`. -/
def parseAction (value : String) : Option Action :=
  match value with
  | "allow" => some .allow
  | "deny" => some .deny
  | "throttle" => some .throttle
  | "log" => some .log
  | "require_approval" => some .requireApproval
  | "redirect" => some .redirect
  | _ => none

/-! ## Records

The checks of a record, in the order of the source. -/

/-- `require_exact_fields(..).map_err(..)`. -/
def checkFields (fields : JsonFields) (required optional : List String) (error : TraceError) :
    Except TraceError Unit :=
  if requireExactFields fields required optional then .ok () else .error error

/-- `parse_call`. -/
def parseCall (value : Json) (line : ℕ) : Except TraceError PolicyCall := do
  let error : TraceError := ⟨.invalidCall, line⟩
  let fields ← okOr value.asObject error
  checkFields fields ["agent", "tool", "args", "user", "context"] [] error
  let agent ← okOr (nullableString (JsonFields.required fields "agent")) error
  let tool ← okOr (nullableString (JsonFields.required fields "tool")) error
  let user ← okOr (nullableString (JsonFields.required fields "user")) error
  let args ← okOr ((JsonFields.get fields "args").bind stringArray) error
  let context ← okOr ((JsonFields.get fields "context").bind stringObject) error
  .ok ⟨agent, tool, args, user, context⟩

/-- `parse_identity`. -/
def parseIdentity (value : Json) (line : ℕ) : Except TraceError PolicyIdentity := do
  let error : TraceError := ⟨.invalidExpected, line⟩
  let fields ← okOr value.asObject error
  checkFields fields ["version", "sha256"] [] error
  if (JsonFields.required fields "version").asI64 ≠ some traceVersion then
    .error error
  else
    let sha256 ← okOr (((JsonFields.get fields "sha256").bind Json.asStr).filter isLowercaseSha256)
      error
    .ok ⟨traceVersion, sha256⟩

/-- `parse_expected`. -/
def parseExpected (value : Json) (line : ℕ) : Except TraceError ExpectedMetadata := do
  let error : TraceError := ⟨.invalidExpected, line⟩
  let fields ← okOr value.asObject error
  checkFields fields ["policy", "decision", "matched_rules"] [] error
  let policy ← parseIdentity (JsonFields.required fields "policy") line
  let decision ← okOr
    (((JsonFields.get fields "decision").bind Json.asStr).bind parseAction) error
  let matchedRules ← okOr
    (((JsonFields.get fields "matched_rules").bind Json.asArray).bind
      (fun values => values.mapM positiveOrZeroInteger)) error
  .ok ⟨policy, decision, matchedRules⟩

/-- The optional `event_id` of an event: a non-empty string. -/
def parseEventId (value : Option Json) (line : ℕ) : Except TraceError (Option String) :=
  match value with
  | some (.string value) => if value = "" then .error ⟨.invalidRecord, line⟩ else .ok (some value)
  | some _ => .error ⟨.invalidRecord, line⟩
  | none => .ok none

/-- The optional `expected` of an event. -/
def parseExpectedField (value : Option Json) (line : ℕ) :
    Except TraceError (Option ExpectedMetadata) :=
  match value with
  | some value => (parseExpected value line).map some
  | none => .ok none

/-- `parse_event`. -/
def parseEvent (value : Json) (line : ℕ) : Except TraceError TraceEvent := do
  let fields ← okOr value.asObject ⟨.invalidRecord, line⟩
  checkFields fields ["version", "sequence", "call"] ["event_id", "expected"]
    ⟨.invalidRecord, line⟩
  if (JsonFields.required fields "version").asI64 ≠ some traceVersion then
    .error ⟨.unsupportedVersion, line⟩
  else
    let sequence ← okOr (positiveInteger (JsonFields.required fields "sequence"))
      ⟨.invalidSequence, line⟩
    let eventId ← parseEventId (JsonFields.get fields "event_id") line
    let call ← parseCall (JsonFields.required fields "call") line
    let expected ← parseExpectedField (JsonFields.get fields "expected") line
    .ok ⟨sequence, eventId, call, expected⟩

/-! ## Traces

The loop over the lines, with the next expected sequence number as its state. -/

section

variable (fromStr : String → Option Json)

/-- The next expected sequence number and the events so far. -/
structure TraceState where
  expectedSequence : ℕ
  events : List TraceEvent

/-- One line of a trace, with its offset. -/
def traceLine (state : TraceState) (line : String × ℕ) : Except TraceError TraceState :=
  if isBlank line.1 then
    .ok state
  else do
    let lineNumber := line.2 + 1
    let value ← okOr (fromStr line.1) ⟨.invalidJson, lineNumber⟩
    let event ← parseEvent value lineNumber
    if event.sequence ≠ state.expectedSequence then
      .error ⟨.invalidSequence, lineNumber⟩
    else
      .ok ⟨state.expectedSequence + 1, state.events ++ [event]⟩

/-- `parse_trace`. -/
def parseTrace (trace : String) : Except TraceError (List TraceEvent) := do
  let state ← (lines trace).zipIdx.foldlM (traceLine fromStr) ⟨1, []⟩
  .ok state.events

end

end Simulator
end HpGuardian

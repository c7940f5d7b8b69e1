import HpGuardian.Policy.Json
import HpGuardian.Policy.Parser

/-!
# The Python trace parser (`src/hp_guard/simulator.py`)

The lines of a trace are those of `str.splitlines`, and a line that is empty after `str.strip` is
skipped.  The parser stops at the first line it refuses.  An error carries a stable code, the
number of the line and a message.

A line is decoded first and checked for lone surrogates, which JSON can escape and a text cannot
hold; then the fields of the record are checked one by one.  Types are asked for exactly: a Boolean
is no integer here, although it is an instance of one.

The JSON decoder `json.loads`, without the constants it accepts beyond JSON, stands outside the
repository and is a parameter.
-/

namespace HpGuardian.Python

/-- `ExpectedDecision`. -/
structure ExpectedDecision where
  policyVersion : ℤ
  policyDigest : String
  decision : String
  matchedRules : List ℤ
  deriving DecidableEq, Repr

/-- `TraceEvent`. -/
structure TraceEvent where
  sequence : ℤ
  call : PolicyCall
  eventId : Option String
  expected : Option ExpectedDecision
  deriving DecidableEq

/-- `TraceError`. -/
structure TraceError where
  code : String
  line : ℕ
  message : String
  deriving DecidableEq, Repr

/-! ## Lines

Where a line ends, and when it is blank. -/

/-- The characters at which `str.splitlines` ends a line. -/
def isLineBoundary (character : Char) : Bool :=
  let code := character.toNat
  (0x0A ≤ code && code ≤ 0x0D) || (0x1C ≤ code && code ≤ 0x1E) || code == 0x85 ||
    code == 0x2028 || code == 0x2029

/-- `str.splitlines` after the characters `line` of the current line: `\r\n` ends one line, and the
end of the text ends a line that is not empty. -/
def strSplitlinesFrom (line : List Char) : List Char → List (List Char)
  | [] => if line.isEmpty then [] else [line]
  | [character] => if isLineBoundary character then [line] else [line ++ [character]]
  | character :: next :: rest =>
      if character == '\r' && next == '\n' then line :: strSplitlinesFrom [] rest
      else if isLineBoundary character then line :: strSplitlinesFrom [] (next :: rest)
      else strSplitlinesFrom (line ++ [character]) (next :: rest)

/-- `str.splitlines`. -/
def strSplitlines (text : String) : List String :=
  (strSplitlinesFrom [] text.toList).map String.ofList

/-- `str.isspace` of one character. -/
def isSpace (character : Char) : Bool :=
  let code := character.toNat
  (0x09 ≤ code && code ≤ 0x0D) || (0x1C ≤ code && code ≤ 0x20) || code == 0x85 || code == 0xA0 ||
    code == 0x1680 || (0x2000 ≤ code && code ≤ 0x200A) || code == 0x2028 || code == 0x2029 ||
    code == 0x202F || code == 0x205F || code == 0x3000

/-- `not raw_line.strip()`. -/
def isBlank (line : String) : Bool := line.toList.all isSpace

/-! ## Decoded values

Lone surrogates, integers, and the keys of a dictionary. -/

/-- A surrogate code point. -/
def isSurrogate (character : Char) : Bool :=
  0xD800 ≤ character.toNat && character.toNat ≤ 0xDFFF

mutual

/-- `_contains_lone_surrogate`. -/
def containsLoneSurrogate : Json → Bool
  | .string value => value.toList.any isSurrogate
  | .array items => itemsContainLoneSurrogate items
  | .object entries => entriesContainLoneSurrogate entries
  | .null | .bool _ | .int _ | .float _ => false

/-- The items of a list in `_contains_lone_surrogate`. -/
def itemsContainLoneSurrogate : List Json → Bool
  | [] => false
  | item :: items => containsLoneSurrogate item || itemsContainLoneSurrogate items

/-- The items of a dictionary in `_contains_lone_surrogate`. -/
def entriesContainLoneSurrogate : List (String × Json) → Bool
  | [] => false
  | (key, item) :: entries =>
      key.toList.any isSurrogate || containsLoneSurrogate item ||
        entriesContainLoneSurrogate entries

end

/-- A value whose `type` is `int`. -/
def asInt : Json → Option ℤ
  | .int value => some value
  | _ => none

theorem asInt_eq_some {value : Json} {n : ℤ} : asInt value = some n ↔ value = .int n := by
  cases value <;> simp [asInt]

/-- The keys of a dictionary are exactly these. -/
def jsonKeysAre (fields : JsonFields) (names : List String) : Bool :=
  fields.all (fun entry => names.contains entry.1) &&
    names.all (fun name => (JsonFields.get fields name).isSome)

/-! ## Records

The checks of a record, in the order of the source. -/

/-- `_EVENT_FIELDS`. -/
def eventFields : List String := ["version", "sequence", "event_id", "call", "expected"]

/-- `_CALL_FIELDS`. -/
def callFields : List String := ["agent", "tool", "args", "user", "context"]

/-- `_EXPECTED_FIELDS`. -/
def expectedFields : List String := ["policy", "decision", "matched_rules"]

/-- `_EXPECTED_POLICY_FIELDS`. -/
def expectedPolicyFields : List String := ["version", "sha256"]

/-- `_DECISIONS`. -/
def decisions : List String :=
  ["allow", "deny", "throttle", "log", "require_approval", "redirect"]

/-- `sys.maxsize` of a 64-bit platform. -/
def maxsize : ℤ := 2 ^ 63 - 1

/-- `_DIGEST.fullmatch(digest)`. -/
def matchesDigest (digest : String) : Bool :=
  digest.toList.length == 64 &&
    digest.toList.all (fun c => ('0' ≤ c && c ≤ '9') || ('a' ≤ c && c ≤ 'f'))

/-- One of the identities of a call: a string or null. -/
def callText (fields : JsonFields) (name : String) (line : ℕ) :
    Except TraceError (Option String) :=
  match JsonFields.required fields name with
  | .null => .ok none
  | .string value => .ok (some value)
  | _ => .error ⟨"invalid_trace_call", line, "call." ++ name ++ " must be a string or null"⟩

/-- `_parse_call`. -/
def parseCall (value : Json) (line : ℕ) : Except TraceError PolicyCall := do
  let error (message : String) : TraceError := ⟨"invalid_trace_call", line, message⟩
  let fields ← okOr (value.asObject.filter (fun fields => jsonKeysAre fields callFields))
    (error "call has invalid fields")
  let agent ← callText fields "agent" line
  let tool ← callText fields "tool" line
  let user ← callText fields "user" line
  let args ← okOr (stringArray (JsonFields.required fields "args"))
    (error "call.args must be an array of strings")
  let context ← okOr (stringObject (JsonFields.required fields "context"))
    (error "call.context must be a string map")
  .ok ⟨agent, tool, args, user, context⟩

/-- The `expected.policy` of `_parse_expected`: the version and the digest. -/
def parseExpectedPolicy (policy : Json) (line : ℕ) : Except TraceError (ℤ × String) := do
  let error (message : String) : TraceError := ⟨"invalid_trace_expected", line, message⟩
  let fields ← okOr (policy.asObject.filter (fun fields => jsonKeysAre fields expectedPolicyFields))
    (error "expected.policy has invalid fields")
  let version ← okOr ((asInt (JsonFields.required fields "version")).filter (fun v => v == 1))
    (error "expected policy version must be the integer 1")
  let digest ← okOr ((JsonFields.required fields "sha256").asStr.filter matchesDigest)
    (error "expected policy digest must be lowercase SHA-256")
  .ok (version, digest)

/-- A matched rule of `_parse_expected`. -/
def matchedRule (value : Json) : Option ℤ :=
  (asInt value).filter (fun index => 0 ≤ index && index ≤ maxsize)

/-- `_parse_expected`. -/
def parseExpected (value : Json) (line : ℕ) : Except TraceError ExpectedDecision := do
  let error (message : String) : TraceError := ⟨"invalid_trace_expected", line, message⟩
  let fields ← okOr (value.asObject.filter (fun fields => jsonKeysAre fields expectedFields))
    (error "expected has invalid fields")
  let (version, digest) ← parseExpectedPolicy (JsonFields.required fields "policy") line
  let decision ← okOr ((JsonFields.required fields "decision").asStr.filter decisions.contains)
    (error "expected decision is invalid")
  let matchedRules ← okOr
    ((JsonFields.required fields "matched_rules").asArray.bind
      (fun items => items.mapM matchedRule))
    (error "expected matched rules are invalid")
  .ok ⟨version, digest, decision, matchedRules⟩

/-- The `event_id` of `_parse_event`: absent, null or a non-empty string. -/
def parseEventId (value : Option Json) (line : ℕ) : Except TraceError (Option String) :=
  match value with
  | none | some .null => .ok none
  | some (.string value) =>
      if value = "" then
        .error ⟨"invalid_trace_record", line, "event_id must be a non-empty string"⟩
      else .ok (some value)
  | some _ => .error ⟨"invalid_trace_record", line, "event_id must be a non-empty string"⟩

/-- The `expected` of `_parse_event`. -/
def parseExpectedField (value : Option Json) (line : ℕ) :
    Except TraceError (Option ExpectedDecision) :=
  match value with
  | some value => (parseExpected value line).map some
  | none => .ok none

/-- The fields of an event: none is unknown and none that is required is missing. -/
def eventFieldsValid (fields : JsonFields) : Bool :=
  fields.all (fun entry => eventFields.contains entry.1) &&
    ["version", "sequence", "call"].all (fun name => (JsonFields.get fields name).isSome)

/-- `_parse_event`. -/
def parseEvent (record : Json) (line : ℕ) : Except TraceError TraceEvent := do
  let fields ← okOr record.asObject
    ⟨"invalid_trace_record", line, "trace record must be an object"⟩
  if !eventFieldsValid fields then
    .error ⟨"invalid_trace_record", line, "trace record has invalid fields"⟩
  else if asInt (JsonFields.required fields "version") ≠ some 1 then
    .error ⟨"unsupported_trace_version", line, "trace version must be the integer 1"⟩
  else do
    let sequence ← okOr
      ((asInt (JsonFields.required fields "sequence")).filter (fun value => 0 < value))
      ⟨"invalid_trace_sequence", line, "trace sequence must be a positive integer"⟩
    let eventId ← parseEventId (JsonFields.get fields "event_id") line
    let call ← parseCall (JsonFields.required fields "call") line
    let expected ← parseExpectedField (JsonFields.get fields "expected") line
    .ok ⟨sequence, call, eventId, expected⟩

/-! ## Traces

The loop over the numbered lines. -/

section

variable (loads : String → Option Json)

/-- The next expected sequence number and the events so far. -/
structure TraceState where
  expectedSequence : ℤ
  events : List TraceEvent

/-- One line of a trace, with its number. -/
def traceLine (state : TraceState) (line : String × ℕ) : Except TraceError TraceState :=
  if isBlank line.1 then
    .ok state
  else do
    let record ← okOr ((loads line.1).filter (fun record => !containsLoneSurrogate record))
      ⟨"invalid_trace_json", line.2, "trace line is not valid JSON"⟩
    let event ← parseEvent record line.2
    if event.sequence ≠ state.expectedSequence then
      .error ⟨"invalid_trace_sequence", line.2,
        "trace sequence must be " ++ toString state.expectedSequence⟩
    else
      .ok ⟨state.expectedSequence + 1, state.events ++ [event]⟩

/-- `parse_trace`. -/
def parseTrace (jsonl : String) : Except TraceError (List TraceEvent) := do
  let state ← ((strSplitlines jsonl).zipIdx 1).foldlM (traceLine loads) ⟨1, []⟩
  .ok state.events

end

end HpGuardian.Python

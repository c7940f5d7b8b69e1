import HpGuardian.Audit.TailClasses
import HpGuardian.Framework.Utf8
import HpGuardian.Framework.JsonText

/-!
# An append that was killed

A record is written as one compact JSON object and a newline.  An append that is killed leaves a
strict byte prefix of the object behind, as the tail of the file.  Recovery cuts a tail off if it
is UTF-8 and no JSON value, so two things have to be known of such a prefix.

A strict prefix of a written object is never a JSON text: up to its last character the object has
an open bracket.  This is shown of the writer for every record, by the grammar of JSON, and does
not depend on the JSON library, of which only is assumed that it accepts nothing but JSON texts in
UTF-8.

Whether a prefix is UTF-8 depends on where it ends.  One that ends between two characters is the
encoding of a shorter text; one that ends inside a character is not UTF-8, because the bytes after
the first byte of a character have ranges of their own that the end of the file cannot meet
(`utf8Continues_cut`).  Such a tail is refused.  `killed_append_recovered` has both cases, for
every record and every strict prefix, and at the end of the module there is a record with an
accented letter that is cut in the middle of it.
-/

namespace HpGuardian

open Framework

/-! ## A record as `serde_json` writes it

The members in the order of the struct's fields, those that are `None` skipped, and no blanks. -/

/-- `AuditEvent` in snake case. -/
def AuditEvent.asStr : AuditEvent → String
  | .activation => "activation"
  | .authorization => "authorization"
  | .outcome => "outcome"

/-- `OutcomeStatus` in snake case. -/
def OutcomeStatus.asStr : OutcomeStatus → String
  | .succeeded => "succeeded"
  | .failed => "failed"
  | .timedOut => "timed_out"

/-- An action as a string. -/
def writeAction (action : Action) : List Char := writeString action.asStr

/-- An outcome status as a string. -/
def writeStatus (status : OutcomeStatus) : List Char := writeString status.asStr

/-- A member that is skipped if its value is `None`. -/
def optionalMember {α : Type} (name : String) (write : α → List Char) (value : Option α) :
    List (String × List Char) :=
  value.toList.map (fun value => (name, write value))

/-- The members of an `AuditRecord`, in the order of its fields; `timestampText` is chrono's text
of an instant. -/
def AuditRecord.members (timestampText : Instant → String) (record : AuditRecord) :
    List (String × List Char) :=
  [("timestamp", writeString (timestampText record.timestamp)),
    ("event", writeString record.event.asStr),
    ("correlation_id", writeOption writeString record.correlationId)] ++
  optionalMember "caller_id" writeString record.callerId ++
  optionalMember "deadline_unix_ms" writeNat record.deadlineUnixMs ++
  [("policy_version", writeInt record.policyVersion),
    ("policy_digest", writeString record.policyDigest),
    ("agent", writeOption writeString record.agent),
    ("tool", writeOption writeString record.tool),
    ("user", writeOption writeString record.user),
    ("decision", writeOption writeAction record.decision),
    ("matched_rules", writeArray (record.matchedRules.map writeNat))] ++
  optionalMember "outcome_status" writeStatus record.outcomeStatus ++
  optionalMember "outcome_detail" (writeOption writeString) record.outcomeDetail

/-- The record as a compact JSON object. -/
def AuditRecord.compact (timestampText : Instant → String) (record : AuditRecord) : List Char :=
  writeObject (record.members timestampText)

theorem written_optionalMember {α : Type} (name : String) {write : α → List Char}
    (hwrite : ∀ a, Written (write a)) (value : Option α) :
    ∀ member ∈ optionalMember name write value, Written member.2 := by
  intro member hmember
  obtain ⟨a, -, rfl⟩ := List.mem_map.1 hmember
  exact hwrite a

theorem written_members (timestampText : Instant → String) (record : AuditRecord) :
    ∀ member ∈ record.members timestampText, Written member.2 := by
  have hstring : ∀ value : Option String, Written (writeOption writeString value) :=
    written_writeOption written_writeString
  have haction : ∀ action, Written (writeAction action) :=
    fun action => written_writeString action.asStr
  have hrules : Written (writeArray (record.matchedRules.map writeNat)) := by
    refine written_writeArray (fun t ht => ?_)
    obtain ⟨rule, -, rfl⟩ := List.mem_map.1 ht
    exact written_writeNat rule
  have hstatus : ∀ status, Written (writeStatus status) :=
    fun status => written_writeString status.asStr
  simp only [AuditRecord.members, List.forall_mem_append, List.forall_mem_cons,
    List.not_mem_nil, false_implies, implies_true, and_true]
  refine ⟨⟨⟨⟨⟨⟨?_, ?_, ?_⟩, ?_⟩, ?_⟩, ⟨?_, ?_, ?_, ?_, ?_, ?_, ?_⟩⟩, ?_⟩, ?_⟩
  · exact written_writeString _
  · exact written_writeString _
  · exact hstring _
  · exact written_optionalMember _ written_writeString _
  · exact written_optionalMember _ written_writeNat _
  · exact written_writeInt _
  · exact written_writeString _
  · exact hstring _
  · exact hstring _
  · exact hstring _
  · exact written_writeOption haction _
  · exact hrules
  · exact written_optionalMember _ hstatus _
  · exact written_optionalMember _ hstring _

/-! ## UTF-8 that is cut

The check of UTF-8 carries the ranges in which the continuation bytes of the current character must
lie; at the end of the bytes there must be none left. -/

/-- A continuation byte. -/
def anyContinuation : UInt8 × UInt8 := (0x80, 0xBF)

/-- The ranges of the continuation bytes after the lead byte of a character. -/
def continuationRanges (lead : ℕ) : List (UInt8 × UInt8) :=
  if lead ≤ 0x7F then []
  else if lead ≤ 0xDF then [anyContinuation]
  else if lead = 0xE0 then [(0xA0, 0xBF), anyContinuation]
  else if lead = 0xED then [(0x80, 0x9F), anyContinuation]
  else if lead ≤ 0xEF then [anyContinuation, anyContinuation]
  else if lead = 0xF0 then [(0x90, 0xBF), anyContinuation, anyContinuation]
  else if lead = 0xF4 then [(0x80, 0x8F), anyContinuation, anyContinuation]
  else [anyContinuation, anyContinuation, anyContinuation]

theorem utf8Continues_lead {lead : ℕ} (h : lead ≤ 0x7F ∨ (0xC2 ≤ lead ∧ lead ≤ 0xF4))
    (bytes : Bytes) :
    utf8Continues [] (UInt8.ofNat lead :: bytes) =
      utf8Continues (continuationRanges lead) bytes := by
  have hle : lead ≤ 0xF4 := by omega
  interval_cases lead <;> first | rfl | omega

/-- The byte lies in the range. -/
def InRange (byte : UInt8) (range : UInt8 × UInt8) : Prop :=
  range.1 ≤ byte ∧ byte ≤ range.2

theorem inRange_ofNat (low high : ℕ) {n : ℕ} (hlow : low ≤ n) (hhigh : n ≤ high)
    (hbyte : high < 256) :
    InRange (UInt8.ofNat n) (UInt8.ofNat low, UInt8.ofNat high) := by
  constructor
  · rw [UInt8.le_iff_toNat_le]
    simp only [UInt8.toNat_ofNat']
    omega
  · rw [UInt8.le_iff_toNat_le]
    simp only [UInt8.toNat_ofNat']
    omega

theorem utf8EncodeChar_lead (c : Char) :
    ∃ lead rest, (lead ≤ 0x7F ∨ (0xC2 ≤ lead ∧ lead ≤ 0xF4)) ∧
      String.utf8EncodeChar c = UInt8.ofNat lead :: rest ∧
      List.Forall₂ InRange rest (continuationRanges lead) := by
  have hvalid : c.val.toNat < 0xD800 ∨ (0xDFFF < c.val.toNat ∧ c.val.toNat < 0x110000) := c.valid
  unfold String.utf8EncodeChar
  dsimp only
  generalize c.val.toNat = v at hvalid
  have hany : ∀ n, InRange (UInt8.ofNat (n % 0x40 + 0x80)) anyContinuation := fun n =>
    inRange_ofNat 0x80 0xBF (by omega) (by omega) (by omega)
  split_ifs with h1 h2 h3
  · exact ⟨v, [], .inl h1, rfl, by simp [continuationRanges, h1]⟩
  · refine ⟨v / 64 % 0x20 + 0xc0, _, by omega, rfl, ?_⟩
    have hr : continuationRanges (v / 64 % 0x20 + 0xc0) = [anyContinuation] := by
      unfold continuationRanges
      rw [if_neg (by omega), if_pos (by omega)]
    rw [hr]
    exact .cons (hany _) .nil
  · refine ⟨v / 4096 % 0x10 + 0xe0, _, by omega, rfl, ?_⟩
    unfold continuationRanges
    rw [if_neg (by omega), if_neg (by omega)]
    split_ifs with he0 hed hef
    · exact .cons (inRange_ofNat 0xA0 0xBF (by omega) (by omega) (by omega)) (.cons (hany _) .nil)
    · exact .cons (inRange_ofNat 0x80 0x9F (by omega) (by omega) (by omega)) (.cons (hany _) .nil)
    · exact .cons (hany _) (.cons (hany _) .nil)
    all_goals omega
  · refine ⟨v / 262144 % 8 + 0xf0, _, by omega, rfl, ?_⟩
    unfold continuationRanges
    rw [if_neg (by omega), if_neg (by omega), if_neg (by omega), if_neg (by omega),
      if_neg (by omega)]
    split_ifs with hf0 hf4
    · exact .cons (inRange_ofNat 0x90 0xBF (by omega) (by omega) (by omega))
        (.cons (hany _) (.cons (hany _) .nil))
    · exact .cons (inRange_ofNat 0x80 0x8F (by omega) (by omega) (by omega))
        (.cons (hany _) (.cons (hany _) .nil))
    · exact .cons (hany _) (.cons (hany _) (.cons (hany _) .nil))

/-- The ranges of a character accept its continuation bytes. -/
theorem utf8Continues_append {rest : Bytes} {ranges : List (UInt8 × UInt8)}
    (h : List.Forall₂ InRange rest ranges) (bytes : Bytes) :
    utf8Continues ranges (rest ++ bytes) = utf8Continues [] bytes := by
  induction h with
  | nil => rfl
  | cons hrange _ ih => simp [utf8Continues, hrange.1, hrange.2, ih]

/-- A character without its last bytes is no UTF-8. -/
theorem utf8Continues_cut {rest b : Bytes} {ranges : List (UInt8 × UInt8)}
    (h : List.Forall₂ InRange rest ranges) (hb : b <+: rest) (hcut : b ≠ rest) :
    utf8Continues ranges b = false := by
  induction h generalizing b with
  | nil => exact absurd (List.prefix_nil.1 hb) hcut
  | cons hrange _ ih =>
      cases b with
      | nil => rfl
      | cons byte b =>
          obtain ⟨rfl, hrest⟩ := List.cons_prefix_cons.1 hb
          have htail := ih hrest (fun heq => hcut (by rw [heq]))
          simp [utf8Continues, htail]

theorem utf8Continues_utf8_append (text : List Char) (bytes : Bytes) :
    utf8Continues [] (utf8 text ++ bytes) = utf8Continues [] bytes := by
  induction text with
  | nil => rfl
  | cons c text ih =>
      obtain ⟨lead, rest, hlead, hencode, hranges⟩ := utf8EncodeChar_lead c
      rw [utf8_cons, hencode, List.append_assoc, List.cons_append, utf8Continues_lead hlead,
        utf8Continues_append hranges, ih]

theorem validUtf8_utf8 (text : List Char) : validUtf8 (utf8 text) = true := by
  have h := utf8Continues_utf8_append text []
  rw [List.append_nil] at h
  exact h

/-- A text that is cut inside a character is no UTF-8. -/
theorem validUtf8_cut (q : List Char) {c : Char} {b : Bytes} (hb : b <+: String.utf8EncodeChar c)
    (hne : b ≠ []) (hcut : b ≠ String.utf8EncodeChar c) : validUtf8 (utf8 q ++ b) = false := by
  obtain ⟨lead, rest, hlead, hencode, hranges⟩ := utf8EncodeChar_lead c
  rw [validUtf8, utf8Continues_utf8_append]
  cases b with
  | nil => exact absurd rfl hne
  | cons byte b =>
      rw [hencode] at hb hcut
      obtain ⟨rfl, hrest⟩ := List.cons_prefix_cons.1 hb
      rw [utf8Continues_lead hlead]
      exact utf8Continues_cut hranges hrest (fun heq => hcut (by rw [heq]))

/-! ## Recovery

The tail left by a killed append, cut or refused. -/

/-- `serde_json` as the log uses it: records are written as compact objects in UTF-8, and nothing
but JSON texts in UTF-8 is accepted. -/
structure JsonRuntime.Compact (rt : JsonRuntime) (timestampText : Instant → String) : Prop where
  writes : ∀ record, rt.toVec record = utf8 (record.compact timestampText)
  accepts : ∀ bytes json, rt.fromSlice bytes = some json →
    ∃ text, bytes = utf8 text ∧ IsJsonText text

/-- The bytes end between two characters of the record's text: they are the encoding of a shorter
text. -/
def AtBoundary (timestampText : Instant → String) (record : AuditRecord) (p : Bytes) : Prop :=
  ∃ q, q <+: record.compact timestampText ∧ p = utf8 q

section

variable {rt : JsonRuntime} {timestampText : Instant → String} {record : AuditRecord} {p : Bytes}

/-- An empty line is no JSON value. -/
theorem JsonRuntime.Compact.fromSlice_nil (hrt : rt.Compact timestampText) :
    rt.fromSlice [] = none := by
  cases hjson : rt.fromSlice [] with
  | none => rfl
  | some json =>
      obtain ⟨text, hbytes, htext⟩ := hrt.accepts [] json hjson
      have hnil : text = [] := utf8_injective (hbytes.symm.trans utf8_nil.symm)
      exact absurd hnil htext.ne_nil

/-- An encoded record holds no newline. -/
theorem newline_notMem_compact (timestampText : Instant → String) (record : AuditRecord) :
    newline ∉ utf8 (record.compact timestampText) := by
  intro hmem
  obtain ⟨c, hc, hval⟩ := mem_of_mem_utf8 (by decide) hmem
  have hprintable := (written_writeObject (written_members timestampText record)).printable c hc
  have hspace : 32 ≤ c.val.toNat := hprintable
  have hnewline : newline.toNat = 10 := rfl
  omega

/-- A strict prefix that ends at a character boundary is UTF-8 and no JSON value. -/
theorem AtBoundary.torn (hrt : rt.Compact timestampText)
    (hstrict : p ≠ utf8 (record.compact timestampText))
    (h : AtBoundary timestampText record p) : validUtf8 p = true ∧ rt.fromSlice p = none := by
  obtain ⟨q, hq, rfl⟩ := h
  refine ⟨validUtf8_utf8 q, ?_⟩
  have hcut : ¬ IsJsonText q :=
    not_isJsonText_of_cut (written_members timestampText record) hq
      (fun heq => hstrict (congrArg utf8 heq))
  cases hjson : rt.fromSlice (utf8 q) with
  | none => rfl
  | some json =>
      obtain ⟨text, hbytes, htext⟩ := hrt.accepts _ json hjson
      rw [utf8_injective hbytes] at hcut
      exact absurd htext hcut

/-- A prefix that ends inside a character is no UTF-8. -/
theorem validUtf8_of_not_atBoundary (hwritten : p <+: utf8 (record.compact timestampText))
    (h : ¬ AtBoundary timestampText record p) : validUtf8 p = false := by
  rcases prefix_utf8 hwritten with ⟨q, hq, hp⟩ | ⟨q, c, b, -, hb, hne, hcut, rfl⟩
  · exact absurd ⟨q, hq, hp⟩ h
  · exact validUtf8_cut q hb hne hcut

/-- **A killed append.**  After a non-empty log of JSON object lines, a strict prefix of a record
that ends at a character boundary is cut off and leaves exactly the log; one that ends inside a
character is refused, and the file stays as it is. -/
theorem killed_append_recovered (hrt : rt.Compact timestampText) {lines : List Bytes}
    (hne : lines ≠ []) (hlines : ∀ line ∈ lines, newline ∉ line ∧ isJsonObject rt line = true)
    (hwritten : p <+: rt.toVec record) (hstrict : p ≠ rt.toVec record) {disk : Disk} {path : Path}
    {file : FileData} (hfile : disk.files.lookup path = some file)
    (hcontent : file.content = render newline lines ++ p) (stamp : Instant) :
    (AtBoundary timestampText record p →
      (recoverTail rt stamp path disk).result = .ok () ∧
      (∃ kept, (recoverTail rt stamp path disk).final.files.lookup path = some kept ∧
        kept.content = render newline lines) ∧
      ∀ other, other ≠ path → (recoverTail rt stamp path disk).final.files.lookup other =
        disk.files.lookup other) ∧
    (¬ AtBoundary timestampText record p →
      (recoverTail rt stamp path disk).result = .error .corrupt ∧
      (recoverTail rt stamp path disk).final = disk) := by
  rw [hrt.writes] at hwritten hstrict
  have hp : newline ∉ p :=
    fun hmem => newline_notMem_compact timestampText record (hwritten.subset hmem)
  have hobjects : ∀ line ∈ lines, line ≠ [] ∧ isJsonObject rt line = true := by
    refine fun line hline => ⟨?_, (hlines line hline).2⟩
    rintro rfl
    have hobject := (hlines [] hline).2
    simp [isJsonObject, hrt.fromSlice_nil] at hobject
  have hcheck := @checkTail_render rt lines p (fun line hline => (hlines line hline).1) hp
  rw [← hcontent, if_neg (not_or.2 ⟨hne, not_not.2 hobjects⟩)] at hcheck
  constructor
  · intro hboundary
    by_cases hnil : p = []
    · -- nothing was written
      rw [if_pos hnil] at hcheck
      have hclean : CleanPath rt disk path := by
        intro file' hfile'
        rw [hfile] at hfile'
        obtain rfl := Option.some.inj hfile'
        exact hcheck
      rw [recoverTail_clean hclean]
      exact ⟨rfl, ⟨file, hfile, by rw [hcontent, hnil, List.append_nil]⟩, fun _ _ => rfl⟩
    · rw [if_neg hnil, if_pos (hboundary.torn hrt hstrict)] at hcheck
      rw [recoverTail_torn hfile hcheck]
      have hlookup := lookup_truncateFile (render newline lines).length stamp hfile
      refine ⟨rfl, ⟨_, by rw [hlookup, if_pos rfl], ?_⟩, fun other hother => ?_⟩
      · rw [hcontent, List.take_left]
      · rw [hlookup, if_neg hother]
  · intro hinside
    have hnil : p ≠ [] := fun heq => hinside ⟨[], List.nil_prefix, heq⟩
    have hutf8 := validUtf8_of_not_atBoundary hwritten hinside
    rw [if_neg hnil, if_neg (by simp [hutf8])] at hcheck
    have hrun : recoverTail rt stamp path disk = ⟨[], disk, .error .corrupt⟩ := by
      simp only [recoverTail, Program.read_bind_apply, hfile, hcheck]
      rfl
    rw [hrun]
    exact ⟨rfl, rfl⟩

end

/-! ## A cut inside a character

The same record cut at two neighbouring places. -/

/-- A JSON library that writes records compactly and knows the empty object. -/
def compactRuntime : JsonRuntime where
  toVec record := utf8 (record.compact (fun _ => "1970-01-01T00:00:00Z"))
  fromSlice bytes := if bytes = emptyObject then some (.object []) else none

theorem compactRuntime_compact :
    compactRuntime.Compact (fun _ => "1970-01-01T00:00:00Z") where
  writes _ := rfl
  accepts := by
    intro bytes json hjson
    simp only [compactRuntime, Option.ite_none_right_eq_some] at hjson
    refine ⟨['{', '}'], hjson.1, [], ['{', '}'], [], ?_, ?_, ?_, rfl⟩
    · simp [IsBlank]
    · exact .emptyObject (w := []) (by simp [IsBlank])
    · simp [IsBlank]

/-- An activation by an agent whose name is not ASCII. -/
def accentedRecord : AuditRecord := { sampleRecord with agent := some "é" }

/-- A log of one line and the first bytes of the record. -/
def killedAppend (length : ℕ) : Disk where
  files := (∅ : Files Path FileData).insert .active
    ⟨render newline [emptyObject] ++ (compactRuntime.toVec accentedRecord).take length, 1⟩
  manifest := none

theorem killedAppend_lookup (length : ℕ) :
    (killedAppend length).files.lookup .active =
      some ⟨render newline [emptyObject] ++ (compactRuntime.toVec accentedRecord).take length, 1⟩ :=
  Finmap.lookup_insert _

theorem emptyObject_line :
    ∀ line ∈ [emptyObject], newline ∉ line ∧ isJsonObject compactRuntime line = true := by
  decide +kernel

/-- A cut right after the accented character. -/
theorem killed_append_recovered_sample :
    (recoverTail compactRuntime 2 .active (killedAppend 130)).result = .ok () :=
  ((killed_append_recovered compactRuntime_compact (by simp) emptyObject_line
    (List.take_prefix 130 (compactRuntime.toVec accentedRecord)) (by decide +kernel)
    (killedAppend_lookup 130) rfl 2).1
      ⟨(accentedRecord.compact (fun _ => "1970-01-01T00:00:00Z")).take 129,
        List.take_prefix _ _, by decide +kernel⟩).1

/-- A cut between the two bytes of the accented character is refused: the tail is no UTF-8, and the
file stays as it is. -/
theorem cut_inside_character_refused :
    ¬ ∀ (rt : JsonRuntime) (timestampText : Instant → String) (lines : List Bytes)
      (record : AuditRecord) (p : Bytes) (disk : Disk) (path : Path) (file : FileData)
      (stamp : Instant),
      rt.Compact timestampText → lines ≠ [] →
      (∀ line ∈ lines, newline ∉ line ∧ isJsonObject rt line = true) →
      p <+: rt.toVec record → p ≠ rt.toVec record →
      disk.files.lookup path = some file → file.content = render newline lines ++ p →
        (recoverTail rt stamp path disk).result = .ok () := by
  intro hrecovered
  have hok := hrecovered compactRuntime _ [emptyObject] accentedRecord _ (killedAppend 129) .active
    _ 2 compactRuntime_compact (by simp) emptyObject_line
    (List.take_prefix 129 (compactRuntime.toVec accentedRecord)) (by decide +kernel)
    (killedAppend_lookup 129) rfl
  have hrefused : (recoverTail compactRuntime 2 .active (killedAppend 129)).result =
      .error .corrupt := by decide +kernel
  rw [hrefused] at hok
  cases hok

end HpGuardian

import HpGuardian.Audit.Log
import HpGuardian.Audit.Convergence

/-!
# What the operations of an audit log do

One equation or specification for each part of `append`: the check of a file, recovery of a log at
rest, the parts that do nothing without limits, and the write of a record with the state before
each of its steps.  The modules about single properties start from these and do not look into the
programs.

Contents of files are written as complete lines and a tail throughout.  The complete lines that the
log itself writes, and every reader accepts, are `RecordLine`s, and the tails that tail recovery
cuts off are `TornTail`s; a path whose file consists of record lines only is clean (`CleanPath`),
and recovery leaves a log of clean paths as it is (`recoverTails_clean`).

The write of a record is described step by step (`writeRecord_apply`), because a write can fail
after any of its bytes.  The active file is created if it is absent, then the bytes appear in it
one after the other, so what is left behind by a write that stops is the old content with a prefix
of the line.

What is assumed of the JSON library is `JsonRuntime.Sound`: a record is encoded as one JSON object
without raw line feeds.  At the end of the module there is a library for a single record, on which
statements are tried out.
-/

namespace HpGuardian

open Framework

/-! ## Files

Record lines, torn tails, and what the check of a file makes of them. -/

section

variable {rt : JsonRuntime}

/-- A complete line that tail recovery accepts: a JSON object without a line feed inside it. -/
structure RecordLine (rt : JsonRuntime) (line : Bytes) : Prop where
  ne_nil : line ≠ []
  noNewline : newline ∉ line
  isObject : isJsonObject rt line = true

/-- `serde_json` encodes a record as one JSON object without raw newlines. This is all that most
modules assume of the library. -/
structure JsonRuntime.Sound (rt : JsonRuntime) : Prop where
  recordLine : ∀ record, RecordLine rt (rt.toVec record)

/-- An unterminated rest of a file that tail recovery cuts off: UTF-8 that is no JSON value, such
as a record whose write was interrupted between two characters. -/
structure TornTail (rt : JsonRuntime) (tail : Bytes) : Prop where
  ne_nil : tail ≠ []
  noNewline : newline ∉ tail
  utf8 : validUtf8 tail = true
  notJson : rt.fromSlice tail = none

/-- What the check of a file makes of its lines and its tail. -/
theorem checkTail_render {lines : List Bytes} {tail : Bytes}
    (hlines : ∀ line ∈ lines, newline ∉ line) (htail : newline ∉ tail) :
    checkTail rt (render newline lines ++ tail) =
      if lines = [] ∨ ¬ (∀ line ∈ lines, line ≠ [] ∧ isJsonObject rt line = true) then
        .error .corrupt
      else if tail = [] then .ok none
      else if validUtf8 tail = true ∧ rt.fromSlice tail = none then
        .ok (some (render newline lines).length)
      else .error .corrupt := by
  unfold checkTail
  simp only [completeText_render htail]
  have hdrop : (render newline lines ++ tail).drop (render newline lines).length = tail := by simp
  rw [hdrop]
  by_cases hnil : lines = []
  · subst hnil
    simp
  · have hlength : (render newline lines).length ≠ 0 := by
      rw [ne_eq, List.length_eq_zero_iff, render_eq_nil_iff]
      exact hnil
    have hrecords : (render newline lines ++ tail).take ((render newline lines).length - 1) =
        (render newline lines).dropLast := by
      rw [List.take_append_of_le_length (by omega), List.dropLast_eq_take]
    have hall : ((lines.all fun line => !line.isEmpty && isJsonObject rt line) = true) ↔
        ∀ line ∈ lines, line ≠ [] ∧ isJsonObject rt line = true := by
      simp [List.all_eq_true]
    rw [if_neg hlength, hrecords, splitOn_render hnil hlines]
    by_cases hgood : ∀ line ∈ lines, line ≠ [] ∧ isJsonObject rt line = true
    · rw [if_neg (not_or.2 ⟨hnil, not_not.2 hgood⟩)]
      simp only [hall.2 hgood, Bool.not_true, Bool.false_eq_true, if_false, List.isEmpty_iff]
      cases hutf8 : validUtf8 tail <;> cases hjson : rt.fromSlice tail <;> simp
    · have hbad : (lines.all fun line => !line.isEmpty && isJsonObject rt line) = false := by
        rw [← Bool.not_eq_true, hall]
        exact hgood
      simp [hbad, hgood]

theorem checkTail_clean {lines : List Bytes} (hne : lines ≠ [])
    (hlines : ∀ line ∈ lines, RecordLine rt line) :
    checkTail rt (render newline lines) = .ok none := by
  rw [← List.append_nil (render newline lines),
    checkTail_render (fun line hl => (hlines line hl).noNewline) (by simp), if_neg, if_pos rfl]
  simp only [hne, false_or, not_not]
  exact fun line hl => ⟨(hlines line hl).ne_nil, (hlines line hl).isObject⟩

theorem checkTail_torn {lines : List Bytes} {tail : Bytes} (hne : lines ≠ [])
    (hlines : ∀ line ∈ lines, RecordLine rt line) (htail : TornTail rt tail) :
    checkTail rt (render newline lines ++ tail) = .ok (some (render newline lines).length) := by
  rw [checkTail_render (fun line hl => (hlines line hl).noNewline) htail.noNewline, if_neg,
    if_neg htail.ne_nil, if_pos ⟨htail.utf8, htail.notJson⟩]
  simp only [hne, false_or, not_not]
  exact fun line hl => ⟨(hlines line hl).ne_nil, (hlines line hl).isObject⟩

/-- A path that tail recovery leaves alone: there is no file, or its check finds nothing to cut. -/
def CleanPath (rt : JsonRuntime) (disk : Disk) (path : Path) : Prop :=
  ∀ file ∈ disk.files.lookup path, checkTail rt file.content = .ok none

theorem recoverTail_clean {disk : Disk} {path : Path} (h : CleanPath rt disk path)
    (stamp : Instant) : recoverTail rt stamp path disk = ⟨[], disk, .ok ()⟩ := by
  simp only [recoverTail, Program.read_bind_apply]
  cases hfile : disk.files.lookup path with
  | none => rfl
  | some file =>
      simp only [h file hfile]
      rfl

theorem recoverTail_torn {disk : Disk} {path : Path} {file : FileData} {length : ℕ}
    (hfile : disk.files.lookup path = some file)
    (hcheck : checkTail rt file.content = .ok (some length)) (stamp : Instant) :
    recoverTail rt stamp path disk =
      ⟨[(disk, .truncate path), (truncateFile path length stamp disk, .sync)],
        truncateFile path length stamp disk, .ok ()⟩ := by
  simp only [recoverTail, Program.read_bind_apply, hfile, hcheck]
  rfl

end

/-- A loop whose rounds do nothing does nothing. -/
theorem forEach_silent {σ ο ε ι : Type} {body : ι → Program σ ο ε Unit} {items : List ι} {s : σ}
    (h : ∀ i ∈ items, body i s = ⟨[], s, .ok ()⟩) :
    Program.forEach body items s = ⟨[], s, .ok ()⟩ := by
  induction items with
  | nil => rfl
  | cons i items ih =>
      obtain ⟨hi, hitems⟩ := List.forall_mem_cons.1 h
      rw [Program.forEach_cons, Program.bind_run hi, ih hitems]
      rfl

/-! ## Recovery of a log at rest -/

/-- Without rotation entries, recovery checks the files. -/
theorem recoverTails_of_pending {disk disk' : Disk} {steps : List (Disk × Operation)}
    (hpending : recoverPending disk = ⟨steps, disk', .ok ()⟩)
    (hquiet : disk'.hasRotationEntry = false) (rt : JsonRuntime) (maxRotatedFiles : ℕ)
    (stamp : Instant) :
    recoverTails rt maxRotatedFiles stamp disk =
      let check := Program.forEach (recoverTail rt stamp) (logPaths maxRotatedFiles) disk'
      ⟨steps ++ check.steps, check.final, check.result⟩ := by
  have hleftovers : refuseLeftovers disk' = ⟨[], disk', .ok ()⟩ := by
    simp only [refuseLeftovers, Program.read_bind_apply, hquiet]
    rfl
  rw [recoverTails, Program.bind_run hpending, Program.bind_run hleftovers]
  rfl

theorem recoverPending_quiet {disk : Disk} (hquiet : disk.hasRotationEntry = false) :
    recoverPending disk = ⟨[], disk, .ok ()⟩ := by
  simp only [recoverPending, Program.read_bind_apply,
    (Disk.hasRotationEntry_eq_false_iff.1 hquiet).1]
  rfl

theorem recoverTails_apply {disk : Disk} (hquiet : disk.hasRotationEntry = false)
    (rt : JsonRuntime) (maxRotatedFiles : ℕ) (stamp : Instant) :
    recoverTails rt maxRotatedFiles stamp disk =
      Program.forEach (recoverTail rt stamp) (logPaths maxRotatedFiles) disk :=
  recoverTails_of_pending (recoverPending_quiet hquiet) hquiet rt maxRotatedFiles stamp

/-- A log at rest whose files are all in order is left as it is. -/
theorem recoverTails_clean {disk : Disk} {rt : JsonRuntime} {maxRotatedFiles : ℕ}
    (hquiet : disk.hasRotationEntry = false)
    (hclean : ∀ path ∈ logPaths maxRotatedFiles, CleanPath rt disk path) (stamp : Instant) :
    recoverTails rt maxRotatedFiles stamp disk = ⟨[], disk, .ok ()⟩ := by
  rw [recoverTails_apply hquiet]
  exact forEach_silent fun path hpath => recoverTail_clean (hclean path hpath) stamp

/-! ## The files of a log

The paths that belong to a log, in the order in which recovery checks them and in the order of age,
and what their files hold together. -/

theorem mem_logPaths {maxRotatedFiles : ℕ} {path : Path} :
    path ∈ logPaths maxRotatedFiles ↔ ∃ slot ∈ slots maxRotatedFiles, slot.path = path := by
  simp [logPaths, slots, Slot.path, eq_comm]

/-- What holds of the files before a rotation holds of the files after it. -/
theorem forall_rotatedContents {maxRotatedFiles : ℕ} {W : FileData → Prop} {orig : Contents}
    {active : Option FileData}
    (horig : ∀ path ∈ logPaths maxRotatedFiles, ∀ file ∈ orig path, W file)
    (hactive : ∀ file ∈ active, W file) :
    ∀ path ∈ logPaths maxRotatedFiles, ∀ file ∈ rotatedContents maxRotatedFiles orig active path,
      W file := by
  intro path hpath
  rcases List.mem_cons.1 hpath with rfl | hpath
  · exact hactive
  · obtain ⟨i, hi, rfl⟩ := List.mem_map.1 hpath
    have hrange := mem_indices.1 hi
    rw [rotatedContents, if_pos hrange]
    exact horig _ (mem_logPaths.2 ⟨_, sourceSlot_mem_slots hrange, rfl⟩)

/-- The files of a log with backups `1..=k`, oldest first. -/
def retainedPaths (k : ℕ) : List Path := ((indices k).map .backup).reverse ++ [.active]

/-- What the files at some paths hold, one after the other. -/
def gather {β : Type} (view : FileData → List β) (contents : Contents) (paths : List Path) :
    List β :=
  paths.flatMap (fun path => ((contents path).map view).getD [])

/-! ## Readying the log

`ensure_ready` recovers the log once in the life of a handle; a handle that has recovered before,
or a directory with nothing to recover, passes through it unchanged. -/

/-- The steps of a program on the directory are steps of the process. -/
theorem mem_steps_onDisk {α : Type} {p : DiskProgram α} {state : LogState} {disk : Disk}
    {label : Operation} (h : (disk, label) ∈ (p state.disk).steps) :
    (state.setDisk disk, label) ∈ (onDisk p state).steps :=
  List.mem_map_of_mem h

/-- The state of a log that is ready for an append. -/
def ready (state : LogState) : LogState := { state with lease := true, recoveryComplete := true }

/-- Nothing is done when the log has been recovered before, or there is nothing to recover. -/
theorem ensureReady_apply {config : ValidConfig} {rt : JsonRuntime} (clock : ℕ → Instant)
    {state : LogState} (hopen : state.closed = false)
    (hrecovered : state.recoveryComplete = true ∨
      ∀ stamp, recoverTails rt config.maxRotatedFiles stamp state.disk =
        ⟨[], state.disk, .ok ()⟩) :
    ensureReady config clock rt state = ⟨[], ready state, .ok ()⟩ := by
  simp only [ensureReady, Program.read_bind_apply]
  rw [if_neg (by simp [hopen])]
  simp only [Program.read_bind_apply, Program.modify_bind_apply]
  by_cases hcomplete : state.recoveryComplete = true
  · rw [if_pos hcomplete]
    rfl
  · rw [if_neg hcomplete]
    have h := hrecovered.resolve_left hcomplete
    simp only [Program.read_bind_apply, Program.onFailure, onDisk, Program.zoom, h]
    rfl

/-! ## Preparing an append without an age limit

Without `max_age` the only thing that happens before a write is a rotation, when the active file
would grow beyond `max_bytes`. -/

/-- A rotation is due before a record of this many bytes. -/
def rotationDue (config : ValidConfig) (disk : Disk) (nextRecordBytes : ℕ) : Bool :=
  match disk.files.lookup .active with
  | some file => !file.content.isEmpty && sizeExceeded config file nextRecordBytes
  | none => false

theorem rotateBeforeAppend_apply {config : ValidConfig} (clock : ℕ → Instant)
    (hage : config.maxAge = none) (nanos nextRecordBytes : ℕ) (state : LogState) :
    rotateBeforeAppend config clock nanos nextRecordBytes state =
      if rotationDue config state.disk nextRecordBytes then
        onDisk (rotateCurrent writeManifestAtomically config.maxRotatedFiles nanos) state
      else
        ⟨[], state, .ok ()⟩ := by
  have hprune : pruneExpiredBackups config clock = pure () := by
    funext s
    simp only [pruneExpiredBackups, hage]
  unfold rotationDue
  simp only [rotateBeforeAppend, Program.read_bind_apply, ageExceeded, hage, hprune]
  cases state.disk.files.lookup .active with
  | none => rfl
  | some file =>
      simp only [Program.pure_bind_eq, Bool.or_false]
      by_cases hdue : (!file.content.isEmpty && sizeExceeded config file nextRecordBytes) = true
      · rw [if_pos hdue, if_pos hdue, Program.bind_pure_unit]
      · rw [if_neg hdue, if_neg hdue]
        rfl

/-- Without an age limit, an append only rotates before it writes. -/
theorem prepareAppend_apply {config : ValidConfig} {rt : JsonRuntime} (clock : ℕ → Instant)
    (hage : config.maxAge = none) {state : LogState} (hopen : state.closed = false)
    (hrecovered : state.recoveryComplete = true ∨
      ∀ stamp, recoverTails rt config.maxRotatedFiles stamp state.disk =
        ⟨[], state.disk, .ok ()⟩) (nanos nextRecordBytes : ℕ) :
    prepareAppend config clock rt nanos nextRecordBytes state =
      if rotationDue config state.disk nextRecordBytes then
        onDisk (rotateCurrent writeManifestAtomically config.maxRotatedFiles nanos) (ready state)
      else
        ⟨[], ready state, .ok ()⟩ := by
  have hprune : pruneExpiredBackups config clock (ready state) = ⟨[], ready state, .ok ()⟩ := by
    simp only [pruneExpiredBackups, hage]
    rfl
  rw [prepareAppend, Program.bind_run (ensureReady_apply clock hopen hrecovered),
    Program.bind_run hprune, rotateBeforeAppend_apply clock hage]
  rfl

/-! ## Writing a record

The write is a loop over bytes.  `afterBytes` is the state after some of them, and the equation for
the whole write lists the states in which it can stop. -/

/-- The active file with a given content. -/
def withActive (content : Bytes) (stamp : Instant) (state : LogState) : LogState :=
  state.setDisk (state.disk.setFiles (state.disk.files.insert .active ⟨content, stamp⟩))

@[simp] theorem withActive_withActive (content content' : Bytes) (stamp stamp' : Instant)
    (state : LogState) :
    withActive content' stamp' (withActive content stamp state) =
      withActive content' stamp' state := by
  simp [withActive, LogState.setDisk, Disk.setFiles]

/-- Bytes added to an active file that holds `content`; adding none changes nothing. -/
def putBytes (stamp : Instant) (content bytes : Bytes) (state : LogState) : LogState :=
  if bytes = [] then state else withActive (content ++ bytes) stamp state

@[simp] theorem putBytes_nil (stamp : Instant) (content : Bytes) (state : LogState) :
    putBytes stamp content [] state = state := rfl

/-- The loop that writes the bytes, with the state before each of its steps. -/
theorem writeBytes_apply (stamp : Instant) (bytes : Bytes) (state : LogState) (file : FileData)
    (hfile : state.disk.files.lookup .active = some file) :
    Program.forEach (fun byte => Program.step (ε := AuditError) (Operation.write .active)
        (writeByte stamp byte)) bytes state =
      ⟨(List.range bytes.length).map (fun k =>
          (putBytes stamp file.content (bytes.take k) state, Operation.write .active)),
        putBytes stamp file.content bytes state, .ok ()⟩ := by
  induction bytes generalizing state file with
  | nil => rfl
  | cons byte bytes ih =>
      have hbyte :
          writeByte stamp byte state = withActive (file.content ++ [byte]) stamp state := by
        simp only [writeByte, hfile]
        rfl
      have hnext := ih (withActive (file.content ++ [byte]) stamp state)
        ⟨file.content ++ [byte], stamp⟩ (by simp [withActive, LogState.setDisk, Disk.setFiles])
      have hput : ∀ rest : Bytes, putBytes stamp (file.content ++ [byte]) rest
          (withActive (file.content ++ [byte]) stamp state) =
          putBytes stamp file.content (byte :: rest) state := by
        intro rest
        by_cases hrest : rest = []
        · simp [putBytes, hrest]
        · simp [putBytes, hrest]
      rw [Program.forEach_cons, Program.bind_ok (a := ()) rfl]
      simp only [Program.step, hbyte, hnext, hput, List.length_cons, List.range_succ_eq_map,
        List.map_cons, List.map_map, List.take_zero, putBytes_nil, List.singleton_append]
      rfl

/-- The content of the active file; nothing if there is none. -/
def activeContent (disk : Disk) : Bytes :=
  match disk.files.lookup .active with
  | some file => file.content
  | none => []

/-- The state in which a record is written: the clock has been read. -/
def writing (state : LogState) : LogState := { state with ticks := state.ticks + 1 }

/-- The steps before the first byte: the active file is created if it is absent. -/
def openSteps (state : LogState) : List (LogState × Operation) :=
  if (state.disk.files.lookup .active).isSome then [] else [(writing state, .create .active)]

/-- The state after `bytes` have been written. -/
def afterBytes (clock : ℕ → Instant) (bytes : Bytes) (state : LogState) : LogState :=
  if (state.disk.files.lookup .active).isSome then
    putBytes (clock state.ticks) (activeContent state.disk) bytes (writing state)
  else
    withActive bytes (clock state.ticks) (writing state)

/-- Whether or not the active file exists, written bytes end up behind its content. -/
theorem afterBytes_eq (clock : ℕ → Instant) {bytes : Bytes} (hne : bytes ≠ []) (state : LogState) :
    afterBytes clock bytes state =
      withActive (activeContent state.disk ++ bytes) (clock state.ticks) (writing state) := by
  unfold afterBytes putBytes activeContent
  cases state.disk.files.lookup .active with
  | none => simp
  | some file => simp [hne]

/-- The write of a record, with the state before each of its steps: before the file is created,
before each byte, and before it is waited for. -/
theorem writeRecord_apply (clock : ℕ → Instant) (encoded : Bytes) (state : LogState) :
    writeRecord clock encoded state =
      ⟨openSteps state ++
          (List.range encoded.length).map (fun k =>
            (afterBytes clock (encoded.take k) state, Operation.write .active)) ++
          [(afterBytes clock encoded state, .sync), (afterBytes clock encoded state, .sync)],
        afterBytes clock encoded state, .ok ()⟩ := by
  have hclock : readClock clock state = ⟨[], writing state, .ok (clock state.ticks)⟩ := rfl
  have hsyncs : ∀ t : LogState,
      (Program.step (ε := AuditError) Operation.sync id >>= fun _ =>
        Program.step (ε := AuditError) Operation.sync id) t =
        ⟨[(t, Operation.sync), (t, .sync)], t, .ok ()⟩ := fun t => rfl
  rw [writeRecord, Program.bind_run hclock]
  unfold openSteps afterBytes
  cases hfile : state.disk.files.lookup .active with
  | some file =>
      have hcontent : activeContent state.disk = file.content := by
        simp [activeContent, hfile]
      have hlookup : (writing state).disk.files.lookup .active = some file := hfile
      have hopen : openActive (clock state.ticks) (writing state) =
          ⟨[], writing state, .ok ()⟩ := by
        simp only [openActive, Program.read_bind_apply, hlookup]
        rfl
      have hbytes := writeBytes_apply (clock state.ticks) encoded _ _ hlookup
      rw [Program.bind_run hopen, Program.bind_run hbytes, hsyncs, hcontent]
      simp
  | none =>
      have hlookup : (writing state).disk.files.lookup .active = none := hfile
      have hcreate : createActive (clock state.ticks) (writing state) =
          withActive [] (clock state.ticks) (writing state) := by
        simp only [createActive, hlookup]
        rfl
      have hopen : openActive (clock state.ticks) (writing state) =
          ⟨[(writing state, .create .active)],
            withActive [] (clock state.ticks) (writing state), .ok ()⟩ := by
        simp only [openActive, Program.read_bind_apply, hlookup]
        simp [Program.step, hcreate]
      have hbytes := writeBytes_apply (clock state.ticks) encoded
        (withActive [] (clock state.ticks) (writing state)) ⟨[], clock state.ticks⟩
        (by simp [withActive, LogState.setDisk, Disk.setFiles])
      have hput : ∀ bytes : Bytes, putBytes (clock state.ticks) [] bytes
          (withActive [] (clock state.ticks) (writing state)) =
          withActive bytes (clock state.ticks) (writing state) := by
        intro bytes
        by_cases hnil : bytes = [] <;> simp [putBytes, hnil]
      rw [Program.bind_run hopen, Program.bind_run hbytes, hsyncs]
      simp [hput]

/-! ## Accepted records

What a caller knows of the log: the records whose append returned without an error. -/

/-- The records whose append returned `Ok`, in order. -/
def accepted (trace : List (AppendCall × AppendOutcome)) : List AuditRecord :=
  trace.filterMap (fun exchange =>
    if exchange.2.result = .ok () then some exchange.1.record else none)

theorem accepted_append_ok {trace : List (AppendCall × AppendOutcome)} {outcome : AppendOutcome}
    (h : outcome.result = .ok ())
    (call : AppendCall) :
    accepted (trace ++ [(call, outcome)]) = accepted trace ++ [call.record] := by
  simp [accepted, h]

theorem accepted_append_error {trace : List (AppendCall × AppendOutcome)}
    {outcome : AppendOutcome} {error : AuditError}
    (h : outcome.result = .error error) (call : AppendCall) :
    accepted (trace ++ [(call, outcome)]) = accepted trace := by
  simp [accepted, h]

/-! ## A JSON library on one record

An activation record, its encoding, and a library that knows the two and the empty object; the
sample theorems of the audit modules use it. -/

/-- An activation record. -/
def sampleRecord : AuditRecord where
  timestamp := 0
  event := .activation
  correlationId := none
  callerId := none
  deadlineUnixMs := none
  policyVersion := 1
  policyDigest := "d1"
  agent := none
  tool := none
  user := none
  decision := none
  matchedRules := []
  outcomeStatus := none
  outcomeDetail := none

/-- The record as `serde_json` writes it. -/
def sampleLine : Bytes :=
  ("\x7b\"timestamp\":\"1970-01-01T00:00:00Z\",\"event\":\"activation\"," ++
    "\"correlation_id\":null,\"policy_version\":1,\"policy_digest\":\"d1\",\"agent\":null," ++
    "\"tool\":null,\"user\":null,\"decision\":null,\"matched_rules\":[]\x7d").toUTF8.toList

/-- An empty object. -/
def emptyObject : Bytes := [0x7B, 0x7D]

/-- The JSON library on the record and on an empty object. -/
def sampleRuntime : JsonRuntime where
  toVec record := if record = sampleRecord then sampleLine else emptyObject
  fromSlice bytes :=
    if bytes = sampleLine then
      some (.object [("timestamp", .string "1970-01-01T00:00:00Z"), ("event", .string "activation"),
        ("correlation_id", .null), ("policy_version", .int 1), ("policy_digest", .string "d1"),
        ("agent", .null), ("tool", .null), ("user", .null), ("decision", .null),
        ("matched_rules", .array [])])
    else if bytes = emptyObject then some (.object [])
    else none

theorem sampleRuntime_sound : sampleRuntime.Sound where
  recordLine record := by
    have hboth : ∀ line ∈ [sampleLine, emptyObject], line ≠ [] ∧ newline ∉ line ∧
        isJsonObject sampleRuntime line = true := by decide +kernel
    have hline : sampleRuntime.toVec record ∈ [sampleLine, emptyObject] := by
      simp only [sampleRuntime]
      split_ifs <;> simp
    obtain ⟨hne, hnewline, hobject⟩ := hboth _ hline
    exact ⟨hne, hnewline, hobject⟩

end HpGuardian

import HpGuardian.Audit.Spec

/-!
# Appends whose write fails

A log without rotation is a list of complete lines and an unterminated tail (`LogText`).  A write
that fails after some of its bytes leaves them behind as the tail, returns an error, and nothing in
`append` looks at the tail again: recovery ran before the first append of the process and is not
repeated.  The record of the next append is then written behind the tail and becomes part of a line
that is not JSON, although its append returned `Ok`.

Failed appends damage nothing in the runs in which this does not happen.  A call is `Harmless` if
it puts nothing behind a tail, and if what it puts into the file can be recovered: nothing at all,
the whole line, or a part that recovery will cut off.  The condition is on the log before the call
and on the byte at which the call fails, not on what the call does afterwards.

`AppendHistory` relates the calls so far to the log: the complete lines are the initial ones
followed by one line for each record that was written whole, and the records whose appends returned
`Ok` are among these, in order.  It has one preservation lemma for each kind of harmless call, and
`failed_append_undamaged` follows by induction over the run.  At the end there is a run in which a
torn write damages the record after it.
-/

namespace HpGuardian

open Framework

/-! ## The text of a log

The active file as lines and a tail, and what the next open makes of it. -/

/-- The active file holds these complete lines and this tail; a log without lines has no file. This
is the normal form in which the calls of a run are described. -/
def LogText (lines : List Bytes) (tail : Bytes) (disk : Disk) : Prop :=
  (lines = [] ∧ tail = [] ∧ disk.files.lookup .active = none) ∨
    (lines ≠ [] ∧ ∃ file, disk.files.lookup .active = some file ∧
      file.content = render newline lines ++ tail)

/-- A log at rest: record lines, a tail that can be cut off, and backups that are in order. The
next open recovers such a log. -/
structure LogAt (rt : JsonRuntime) (maxRotatedFiles : ℕ) (lines : List Bytes) (tail : Bytes)
    (disk : Disk) : Prop where
  quiet : disk.hasRotationEntry = false
  text : LogText lines tail disk
  lines : ∀ line ∈ lines, RecordLine rt line
  tail : tail = [] ∨ TornTail rt tail
  backups : ∀ index ∈ indices maxRotatedFiles, CleanPath rt disk (.backup index)

section

variable {rt : JsonRuntime} {maxRotatedFiles : ℕ} {lines : List Bytes} {tail : Bytes}
  {disk : Disk}

theorem LogAt.noNewline (h : LogAt rt maxRotatedFiles lines tail disk) : newline ∉ tail := by
  rcases h.tail with rfl | htail
  · simp
  · exact htail.noNewline

theorem backup_mem_logPaths {path : Path} (h : path ∈ logPaths maxRotatedFiles) :
    path = .active ∨ ∃ index ∈ indices maxRotatedFiles, path = .backup index := by
  rcases List.mem_cons.1 h with h | h
  · exact .inl h
  · obtain ⟨index, hindex, rfl⟩ := List.mem_map.1 h
    exact .inr ⟨index, hindex, rfl⟩

/-- Tail recovery of a log at rest cuts the tail off and changes nothing else. -/
theorem LogAt.recover (h : LogAt rt maxRotatedFiles lines tail disk) (stamp : Instant) :
    (recoverTails rt maxRotatedFiles stamp disk).result = .ok () ∧
      LogText lines [] (recoverTails rt maxRotatedFiles stamp disk).final ∧
      (tail = [] → recoverTails rt maxRotatedFiles stamp disk = ⟨[], disk, .ok ()⟩) := by
  have hclean : tail = [] → recoverTails rt maxRotatedFiles stamp disk = ⟨[], disk, .ok ()⟩ := by
    intro hnil
    refine recoverTails_clean h.quiet (fun path hpath => ?_) stamp
    rcases backup_mem_logPaths hpath with rfl | ⟨index, hindex, rfl⟩
    · intro file hfile
      rcases h.text with ⟨-, -, hnone⟩ | ⟨hne, file', hfile', hcontent⟩
      · rw [hnone] at hfile
        cases hfile
      · rw [hfile'] at hfile
        obtain rfl := Option.some.inj hfile
        rw [hcontent, hnil, List.append_nil]
        exact checkTail_clean hne h.lines
    · exact h.backups index hindex
  rcases h.tail with hnil | htorn
  · rw [hclean hnil]
    exact ⟨rfl, hnil ▸ h.text, fun _ => rfl⟩
  · refine ⟨?_, ?_, hclean⟩
    all_goals
      rcases h.text with ⟨-, htail, -⟩ | ⟨hne, file, hfile, hcontent⟩
      · exact absurd htail htorn.ne_nil
      have hcheck : checkTail rt file.content = .ok (some (render newline lines).length) := by
        rw [hcontent]
        exact checkTail_torn hne h.lines htorn
      have hbackups : Program.forEach (recoverTail rt stamp)
          ((indices maxRotatedFiles).map .backup)
          (truncateFile .active (render newline lines).length stamp disk) =
          ⟨[], truncateFile .active (render newline lines).length stamp disk, .ok ()⟩ := by
        refine forEach_silent fun path hpath => recoverTail_clean ?_ stamp
        obtain ⟨index, hindex, rfl⟩ := List.mem_map.1 hpath
        intro backup hbackup
        refine h.backups index hindex backup ?_
        simpa [truncateFile, hfile] using hbackup
      rw [recoverTails_apply h.quiet, logPaths, Program.forEach_cons,
        Program.bind_run (recoverTail_torn hfile hcheck stamp), hbackups]
    refine .inr ⟨hne, ⟨file.content.take (render newline lines).length, stamp⟩,
      by simp [truncateFile, hfile], ?_⟩
    simp [hcontent]

end

/-! ## One call

What a call that fails has put into the file, by the step at which it fails, and which of these
failures are harmless. -/

/-- The number of bytes that a call puts into the file, by the step at which it fails. -/
def bytesPut (activeExists : Bool) (fault : Option ℕ) (length : ℕ) : ℕ :=
  match fault with
  | none => length
  | some k => min (if activeExists then k else k - 1) length

/-- The bytes that a call puts into the file. -/
def bytesOf (rt : JsonRuntime) (state : LogState) (call : AppendCall) : Bytes :=
  (encodedLine rt call.record).take
    (bytesPut (state.disk.files.lookup .active).isSome call.fault
      (encodedLine rt call.record).length)

/-- The call puts nothing behind a tail, and what it puts into the file can be recovered: nothing,
the whole line, or a part that is valid UTF-8 and no JSON value, behind a complete line. -/
structure Harmless (rt : JsonRuntime) (state : LogState) (call : AppendCall) : Prop where
  created : state.disk.files.lookup .active = none →
    call.fault = some 0 ∨ bytesOf rt state call = encodedLine rt call.record
  unglued : ∀ file ∈ state.disk.files.lookup .active,
    tailOf newline file.content ≠ [] → bytesOf rt state call = []
  recoverable : ∀ file ∈ state.disk.files.lookup .active, bytesOf rt state call = [] ∨
    bytesOf rt state call = encodedLine rt call.record ∨
    (validUtf8 (bytesOf rt state call) = true ∧ rt.fromSlice (bytesOf rt state call) = none)

instance (rt : JsonRuntime) (state : LogState) (call : AppendCall) :
    Decidable (Harmless rt state call) :=
  decidable_of_iff
    ((state.disk.files.lookup .active = none →
        call.fault = some 0 ∨ bytesOf rt state call = encodedLine rt call.record) ∧
      (∀ file ∈ state.disk.files.lookup .active,
        tailOf newline file.content ≠ [] → bytesOf rt state call = []) ∧
      ∀ file ∈ state.disk.files.lookup .active, bytesOf rt state call = [] ∨
        bytesOf rt state call = encodedLine rt call.record ∨
        (validUtf8 (bytesOf rt state call) = true ∧
          (rt.fromSlice (bytesOf rt state call)).isNone = true))
    ⟨fun ⟨created, unglued, recoverable⟩ => ⟨created, unglued, by simpa using recoverable⟩,
      fun ⟨created, unglued, recoverable⟩ => ⟨created, unglued, by simpa using recoverable⟩⟩

section

variable {config : ValidConfig} {clock : ℕ → Instant} {rt : JsonRuntime}

/-- Without limits a call goes straight to its write, once the log has been recovered. -/
theorem append_eq_writeRecord (clock : ℕ → Instant) (rt : JsonRuntime)
    (hbytes : config.maxBytes = none) (hage : config.maxAge = none)
    {state : LogState} (hopen : state.closed = false)
    (hrecovered : state.recoveryComplete = true ∨
      ∀ stamp, recoverTails rt config.maxRotatedFiles stamp state.disk =
        ⟨[], state.disk, .ok ()⟩) (record : AuditRecord) (nanos : ℕ) :
    append config clock rt record nanos state =
      writeRecord clock (encodedLine rt record) (ready state) := by
  have hdue : ∀ length, rotationDue config state.disk length = false := by
    intro length
    unfold rotationDue
    cases state.disk.files.lookup .active with
    | none => rfl
    | some file => simp [sizeExceeded, hbytes]
  have hprepare : ∀ length, prepareAppend config clock rt nanos length state =
      ⟨[], ready state, .ok ()⟩ := by
    intro length
    rw [prepareAppend_apply clock hage hopen hrecovered, hdue]
    rfl
  rw [append]
  simp only [Program.bind_run (hprepare _), List.nil_append]

/-- Where the write of the bytes and the two syncs can fail. -/
theorem writeSteps_getElem? (clock : ℕ → Instant) (state : LogState) (encoded : Bytes) (j : ℕ) :
    let steps := (List.range encoded.length).map (fun k =>
        (afterBytes clock (encoded.take k) state, Operation.write .active)) ++
      [(afterBytes clock encoded state, .sync), (afterBytes clock encoded state, .sync)]
    (∃ label, steps[j]? = some (afterBytes clock (encoded.take (min j encoded.length)) state,
        label)) ∨
      (steps[j]? = none ∧ min j encoded.length = encoded.length) := by
  intro steps
  by_cases hj : j < encoded.length
  · left
    refine ⟨.write .active, ?_⟩
    rw [List.getElem?_append_left (by simpa using hj), min_eq_left hj.le]
    simp [hj]
  · have hle : encoded.length ≤ j := not_lt.1 hj
    rw [min_eq_right hle, List.take_length, List.getElem?_append_right (by simpa using hle)]
    simp only [List.length_map, List.length_range]
    rcases hrest : j - encoded.length with _ | _ | n
    · exact .inl ⟨.sync, rfl⟩
    · exact .inl ⟨.sync, rfl⟩
    · exact .inr ⟨rfl, trivial⟩

/-- A failing write: before the file is created nothing happens; otherwise some of the bytes are
in the file, all of them if the write succeeds. -/
theorem writeRecord_failing (fault : Option ℕ) (encoded : Bytes) (state : LogState) :
    let run := Program.failingAt fault ioError (writeRecord clock encoded) state
    (state.disk.files.lookup .active = none ∧ fault = some 0 ∧ run.final = writing state ∧
        run.result = .error ioError) ∨
      (¬ (state.disk.files.lookup .active = none ∧ fault = some 0) ∧
        run.final = afterBytes clock (encoded.take
          (bytesPut (state.disk.files.lookup .active).isSome fault encoded.length)) state ∧
        (run.result = .error ioError ∨ (run.result = .ok () ∧
          bytesPut (state.disk.files.lookup .active).isSome fault encoded.length =
            encoded.length))) := by
  intro run
  have hrun := writeRecord_apply clock encoded state
  cases fault with
  | none =>
      right
      simp [run, hrun, bytesPut]
  | some k =>
      -- the steps after the file is open, counted from there
      have hsteps : ∀ j, (writeRecord clock encoded state).steps[k]? =
          ((List.range encoded.length).map (fun k =>
            (afterBytes clock (encoded.take k) state, Operation.write .active)) ++
            [(afterBytes clock encoded state, .sync),
              (afterBytes clock encoded state, .sync)])[j]? →
          bytesPut (state.disk.files.lookup .active).isSome (some k) encoded.length =
            min j encoded.length →
          run.final = afterBytes clock (encoded.take
              (bytesPut (state.disk.files.lookup .active).isSome (some k) encoded.length)) state ∧
            (run.result = .error ioError ∨ (run.result = .ok () ∧
              bytesPut (state.disk.files.lookup .active).isSome (some k) encoded.length =
                encoded.length)) := by
        intro j hj hput
        rw [hput]
        rcases writeSteps_getElem? clock state encoded j with ⟨label, hlabel⟩ | ⟨hnone, hall⟩
        · simp [run, Program.failingAt_step (hj.trans hlabel)]
        · simp [run, Program.failingAt_late (hj.trans hnone), hrun, hall]
      cases hfile : state.disk.files.lookup .active with
      | some file =>
          right
          rw [hfile] at hsteps
          refine ⟨by simp, hsteps k ?_ rfl⟩
          rw [hrun]
          simp [openSteps, hfile]
      | none =>
          cases k with
          | zero =>
              left
              have hfirst : (writeRecord clock encoded state).steps[0]? =
                  some (writing state, .create .active) := by
                rw [hrun]
                simp [openSteps, hfile]
              simp [run, Program.failingAt_step hfirst]
          | succ k =>
              right
              rw [hfile] at hsteps
              refine ⟨by simp, hsteps k ?_ (by simp [bytesPut])⟩
              rw [hrun]
              simp [openSteps, hfile]

end

/-! ## Runs

The invariant, its preservation by the three kinds of harmless calls, and the runs. -/

/-- Nothing that was appended is damaged: the file consists of the initial lines, one line for
each record that was written whole, all accepted ones among them in call order, and at most a
part of one record at its end, and the next open recovers it. -/
structure Undamaged (rt : JsonRuntime) (maxRotatedFiles : ℕ) (initial : List Bytes)
    (trace : List (AppendCall × AppendOutcome)) (disk : Disk) (written : List AuditRecord)
    (tail : Bytes) : Prop where
  kept : (accepted trace).Sublist written
  recorded : written.Sublist (trace.map (fun exchange => exchange.1.record))
  text : LogText (initial ++ written.map rt.toVec) tail disk
  objects : ∀ line ∈ initial ++ written.map rt.toVec, RecordLine rt line
  unterminated : newline ∉ tail
  torn : tail = [] ∨ ∃ exchange ∈ trace, exchange.2.result ≠ .ok () ∧
    tail <+: rt.toVec exchange.1.record
  recoverable : ∀ stamp, (recoverTails rt maxRotatedFiles stamp disk).result = .ok () ∧
    LogText (initial ++ written.map rt.toVec) []
      (recoverTails rt maxRotatedFiles stamp disk).final

/-- What the calls so far have made of the log: its lines are the initial ones and those of the
records that were written whole, in call order, behind which there may be the part of one record
that failed. -/
structure AppendHistory (rt : JsonRuntime) (maxRotatedFiles : ℕ) (initial : List Bytes)
    (trace : List (AppendCall × AppendOutcome)) (state : LogState) (written : List AuditRecord)
    (tail : Bytes) : Prop where
  kept : (accepted trace).Sublist written
  recorded : written.Sublist (trace.map (fun exchange => exchange.1.record))
  log : LogAt rt maxRotatedFiles (initial ++ written.map rt.toVec) tail state.disk
  torn : tail = [] ∨ ∃ exchange ∈ trace, exchange.2.result ≠ .ok () ∧
    tail <+: rt.toVec exchange.1.record
  recovered : state.recoveryComplete = true ∨ tail = []
  opened : state.closed = false

theorem AppendHistory.undamaged {rt : JsonRuntime} {maxRotatedFiles : ℕ} {initial : List Bytes}
    {trace : List (AppendCall × AppendOutcome)} {state : LogState} {written : List AuditRecord}
    {tail : Bytes} (h : AppendHistory rt maxRotatedFiles initial trace state written tail) :
    Undamaged rt maxRotatedFiles initial trace state.disk written tail where
  kept := h.kept
  recorded := h.recorded
  text := h.log.text
  objects := h.log.lines
  unterminated := h.log.noNewline
  torn := h.torn
  recoverable stamp := ⟨(h.log.recover stamp).1, (h.log.recover stamp).2.1⟩

section

variable {config : ValidConfig} {clock : ℕ → Instant} {rt : JsonRuntime} {initial : List Bytes}
  {trace : List (AppendCall × AppendOutcome)} {state : LogState} {written : List AuditRecord}
  {tail : Bytes}

/-- Only the active file changes in a write. -/
theorem LogAt.withActive {maxRotatedFiles : ℕ} {lines lines' : List Bytes} {tail' : Bytes}
    {content : Bytes} {stamp : Instant} {disk : Disk}
    (h : LogAt rt maxRotatedFiles lines tail disk) (hne : lines' ≠ [])
    (hcontent : content = render newline lines' ++ tail')
    (hlines : ∀ line ∈ lines', RecordLine rt line) (htail : tail' = [] ∨ TornTail rt tail') :
    LogAt rt maxRotatedFiles lines' tail'
      (disk.setFiles (disk.files.insert .active ⟨content, stamp⟩)) where
  quiet := by
    obtain ⟨hmanifest, hfiles⟩ := Disk.hasRotationEntry_eq_false_iff.1 h.quiet
    refine Disk.hasRotationEntry_eq_false_iff.2 ⟨hmanifest, fun path hpath => ?_⟩
    rw [Disk.files_setFiles, Finmap.lookup_insert_of_ne _ (by rintro rfl; cases hpath)]
    exact hfiles path hpath
  text := .inr ⟨hne, ⟨content, stamp⟩, by simp, hcontent⟩
  lines := hlines
  tail := htail
  backups index hindex := by
    intro file hfile
    rw [Disk.files_setFiles, Finmap.lookup_insert_of_ne _ (by simp)] at hfile
    exact h.backups index hindex file hfile

theorem activeContent_of_logText {lines : List Bytes} {disk : Disk}
    (h : LogText lines tail disk) : activeContent disk = render newline lines ++ tail := by
  rcases h with ⟨rfl, rfl, hnone⟩ | ⟨-, file, hfile, hcontent⟩
  · simp [activeContent, hnone]
  · simp [activeContent, hfile, hcontent]

/-- A failing call that leaves the directory as it was changes nothing in the history. -/
theorem AppendHistory.silent
    (h : AppendHistory rt config.maxRotatedFiles initial trace state written tail)
    {state' : LogState} (hdisk : state'.disk = state.disk)
    (hrecovered : state'.recoveryComplete = true) (hopened : state'.closed = false)
    (call : AppendCall) {outcome : AppendOutcome} {error : AuditError}
    (houtcome : outcome.result = .error error) :
    AppendHistory rt config.maxRotatedFiles initial (trace ++ [(call, outcome)]) state' written
      tail where
  kept := by
    rw [accepted_append_error houtcome]
    exact h.kept
  recorded := by
    rw [List.map_append]
    exact h.recorded.trans (List.sublist_append_left _ _)
  log := hdisk ▸ h.log
  torn := h.torn.imp_right fun ⟨exchange, hexchange, hrest⟩ =>
    ⟨exchange, List.mem_append_left _ hexchange, hrest⟩
  recovered := .inl hrecovered
  opened := hopened

/-- A call that writes its whole line adds a line to a file without a tail. -/
theorem AppendHistory.whole (hsound : rt.Sound)
    (h : AppendHistory rt config.maxRotatedFiles initial trace state written [])
    {state' : LogState} (stamp : Instant) (call : AppendCall)
    (hdisk : state'.disk = state.disk.setFiles (state.disk.files.insert .active
      ⟨activeContent state.disk ++ encodedLine rt call.record, stamp⟩))
    (hrecovered : state'.recoveryComplete = true) (hopened : state'.closed = false)
    {outcome : AppendOutcome} :
    AppendHistory rt config.maxRotatedFiles initial (trace ++ [(call, outcome)]) state'
      (written ++ [call.record]) [] where
  kept := by
    rcases hresult : outcome.result with error | ⟨⟩
    · rw [accepted_append_error hresult]
      exact h.kept.trans (List.sublist_append_left _ _)
    · rw [accepted_append_ok hresult]
      exact h.kept.append (List.Sublist.refl _)
  recorded := by
    rw [List.map_append]
    exact h.recorded.append (List.Sublist.refl _)
  log := by
    rw [hdisk]
    refine h.log.withActive (by simp) ?_ ?_ (.inl rfl)
    · rw [activeContent_of_logText h.log.text]
      simp [encodedLine]
    · intro line hline
      rw [List.map_append, ← List.append_assoc] at hline
      rcases List.mem_append.1 hline with hline | hline
      · exact h.log.lines line hline
      · obtain rfl := List.mem_singleton.1 hline
        exact hsound.recordLine call.record
  torn := .inl rfl
  recovered := .inl hrecovered
  opened := hopened

/-- A call that writes a part of its line, one that recovery cuts off, leaves it as the tail. -/
theorem AppendHistory.part (hsound : rt.Sound)
    (h : AppendHistory rt config.maxRotatedFiles initial trace state written [])
    {state' : LogState} (stamp : Instant) (call : AppendCall) {n : ℕ}
    (hlines : initial ++ written.map rt.toVec ≠ [])
    (hpart : (encodedLine rt call.record).take n ≠ encodedLine rt call.record)
    (hne : (encodedLine rt call.record).take n ≠ [])
    (hutf8 : validUtf8 ((encodedLine rt call.record).take n) = true)
    (hjson : rt.fromSlice ((encodedLine rt call.record).take n) = none)
    (hdisk : state'.disk = state.disk.setFiles (state.disk.files.insert .active
      ⟨activeContent state.disk ++ (encodedLine rt call.record).take n, stamp⟩))
    (hrecovered : state'.recoveryComplete = true) (hopened : state'.closed = false)
    {outcome : AppendOutcome} {error : AuditError} (houtcome : outcome.result = .error error) :
    AppendHistory rt config.maxRotatedFiles initial (trace ++ [(call, outcome)]) state' written
      ((encodedLine rt call.record).take n) := by
  have hprefix : (encodedLine rt call.record).take n <+: rt.toVec call.record := by
    have hn : n ≤ (rt.toVec call.record).length := by
      by_contra hlong
      exact hpart (List.take_of_length_le (by simp [encodedLine]; omega))
    rw [encodedLine, List.take_append_of_le_length hn]
    exact List.take_prefix _ _
  have htorn : TornTail rt ((encodedLine rt call.record).take n) :=
    ⟨hne, fun hmem =>
      (hsound.recordLine call.record).noNewline (List.IsPrefix.subset hprefix hmem), hutf8,
      hjson⟩
  have hsilent :=
    h.silent (show (ready state).disk = state.disk from rfl) rfl h.opened call houtcome
  exact {
    kept := hsilent.kept
    recorded := hsilent.recorded
    log := by
      rw [hdisk]
      refine h.log.withActive hlines ?_ h.log.lines (.inr htorn)
      rw [activeContent_of_logText h.log.text, List.append_nil]
    torn := .inr ⟨(call, outcome), by simp, by simp [houtcome], hprefix⟩
    recovered := .inl hrecovered
    opened := hopened }

/-- One harmless call. -/
theorem AppendHistory.step (hsound : rt.Sound) (hbytes : config.maxBytes = none)
    (hage : config.maxAge = none)
    (h : AppendHistory rt config.maxRotatedFiles initial trace state written tail)
    {call : AppendCall} (hcall : Harmless rt state call) :
    ∃ written' tail', AppendHistory rt config.maxRotatedFiles initial
      (trace ++ [(call, ((auditLog config clock rt).step state call).2)])
      ((auditLog config clock rt).step state call).1 written' tail' := by
  have happend := append_eq_writeRecord clock rt hbytes hage h.opened
    (h.recovered.imp_right fun htail stamp => (h.log.recover stamp).2.2 htail)
    call.record call.nanos
  have hrun : Program.failingAt call.fault ioError (append config clock rt call.record call.nanos)
      state = Program.failingAt call.fault ioError (writeRecord clock (encodedLine rt call.record))
      (ready state) := Program.failingAt_congr happend _ _
  have hencoded : encodedLine rt call.record ≠ [] := by simp [encodedLine]
  simp only [auditLog, hrun]
  rcases writeRecord_failing call.fault (encodedLine rt call.record) (ready state) with
    ⟨-, -, hfinal, hresult⟩ | ⟨hstarted, hfinal, hresult⟩
  · rw [hfinal, hresult]
    exact ⟨written, tail, h.silent (by rfl) (by rfl) (by exact h.opened) call rfl⟩
  have hdisk : (ready state).disk = state.disk := rfl
  rw [hdisk] at hstarted hfinal hresult
  change _ = afterBytes _ (bytesOf rt state call) _ at hfinal
  by_cases hnil : bytesOf rt state call = []
  · -- nothing was written, so the call failed
    obtain ⟨file, hfile⟩ : ∃ file, state.disk.files.lookup .active = some file := by
      cases hfile : state.disk.files.lookup .active with
      | some file => exact ⟨file, rfl⟩
      | none =>
          rcases hcall.created hfile with hfault | hall
          · exact absurd ⟨hfile, hfault⟩ hstarted
          · exact absurd (hall.symm.trans hnil) hencoded
    have herror := hresult.resolve_right fun hok => hencoded <| by
      rw [← hnil, bytesOf, hok.2, List.take_length]
    rw [hfinal, herror, hnil, afterBytes, hdisk, hfile]
    exact ⟨written, tail, h.silent (by rfl) (by rfl) (by exact h.opened) call rfl⟩
  · have htail : tail = [] := by
      rcases h.log.text with ⟨-, htail, -⟩ | ⟨-, file, hfile, hcontent⟩
      · exact htail
      · by_contra htail
        refine hnil (hcall.unglued file hfile ?_)
        rwa [hcontent, tailOf_render h.log.noNewline]
    subst htail
    rw [afterBytes_eq clock hnil] at hfinal
    rw [hfinal]
    by_cases hall : bytesOf rt state call = encodedLine rt call.record
    · refine ⟨written ++ [call.record], [],
        h.whole hsound (clock state.ticks) call ?_ (by rfl) (by exact h.opened)⟩
      rw [← hall]
      rfl
    · have herror := hresult.resolve_right fun hok => hall <| by
        rw [bytesOf, hok.2, List.take_length]
      obtain ⟨file, hfile⟩ : ∃ file, state.disk.files.lookup .active = some file := by
        cases hfile : state.disk.files.lookup .active with
        | some file => exact ⟨file, rfl⟩
        | none =>
            rcases hcall.created hfile with hfault | hwhole
            · exact absurd ⟨hfile, hfault⟩ hstarted
            · exact absurd hwhole hall
      obtain ⟨hutf8, hjson⟩ := ((hcall.recoverable file hfile).resolve_left hnil).resolve_left hall
      have hlines : initial ++ written.map rt.toVec ≠ [] := by
        rcases h.log.text with ⟨-, -, hnone⟩ | ⟨hlines, -⟩
        · rw [hnone] at hfile
          cases hfile
        · exact hlines
      exact ⟨written, _, h.part hsound (clock state.ticks) call hlines hall hnil hutf8 hjson
        (by rfl) (by rfl)
        (by exact h.opened) herror⟩

end

/-- **A failed append never damages a later successful one**, as long as every call is harmless:
in a run without limits that starts from complete record lines, every record whose append
returned `Ok` ends up as a line of its own, in call order, a partial record can only be the
unterminated end of the file, and the next open recovers the log. -/
theorem failed_append_undamaged (config : ValidConfig) (clock : ℕ → Instant) (rt : JsonRuntime)
    (hsound : rt.Sound) (hbytes : config.maxBytes = none) (hage : config.maxAge = none)
    (initial : List Bytes) (disk : Disk) (ticks : ℕ)
    (hinitial : LogAt rt config.maxRotatedFiles initial [] disk) (calls : List AppendCall)
    (hcalls : (auditLog config clock rt).Along (Harmless rt) (LogState.fresh disk ticks) calls) :
    ∃ written tail, Undamaged rt config.maxRotatedFiles initial
      ((auditLog config clock rt).trace (LogState.fresh disk ticks) calls)
      ((auditLog config clock rt).final (LogState.fresh disk ticks) calls).disk written tail := by
  have hstart : AppendHistory rt config.maxRotatedFiles initial [] (LogState.fresh disk ticks) []
      [] := {
    kept := List.Sublist.refl _
    recorded := List.Sublist.refl _
    log := by simpa [LogState.fresh] using hinitial
    torn := .inl rfl
    recovered := .inr rfl
    opened := rfl }
  obtain ⟨written, tail, h⟩ := (auditLog config clock rt).history_invariant
    (I := fun trace state => ∃ written tail,
      AppendHistory rt config.maxRotatedFiles initial trace state written tail)
    (fun trace state call ⟨written, tail, h⟩ hcall => h.step hsound hbytes hage hcall)
    ⟨[], [], hstart⟩ hcalls
  exact ⟨written, tail, h.undamaged⟩

/-! ## A torn write and what follows it

The two calls of the smallest run in which a record is damaged that was reported as written. -/

/-- A log with one record, an empty object. -/
def shortLog : Disk where
  files := (∅ : Files Path FileData).insert .active ⟨emptyObject ++ [newline], 0⟩
  manifest := none

/-- No limits. -/
def unlimited : ValidConfig := ⟨⟨none, none, 1⟩, rfl⟩

theorem shortLog_logAt :
    LogAt sampleRuntime unlimited.maxRotatedFiles [emptyObject] [] shortLog where
  quiet := by decide +kernel
  text := .inr ⟨by simp, _, Finmap.lookup_insert _, by simp⟩
  lines := by
    intro line hline
    obtain rfl := List.mem_singleton.1 hline
    exact ⟨by decide, by decide, by decide +kernel⟩
  tail := .inl rfl
  backups index _ := by
    intro file hfile
    have hnone : shortLog.files.lookup (.backup index) = none := by
      rw [shortLog, Finmap.lookup_insert_of_ne _ (by simp), Finmap.lookup_empty]
    rw [hnone] at hfile
    cases hfile

/-- One append that succeeds, and one that fails after its first byte. -/
theorem failed_append_undamaged_sample :
    ∃ written tail, Undamaged sampleRuntime unlimited.maxRotatedFiles [emptyObject]
      ((auditLog unlimited (fun _ => 0) sampleRuntime).trace (LogState.fresh shortLog 0)
        [⟨sampleRecord, 0, none⟩, ⟨sampleRecord, 0, some 1⟩])
      ((auditLog unlimited (fun _ => 0) sampleRuntime).final (LogState.fresh shortLog 0)
        [⟨sampleRecord, 0, none⟩, ⟨sampleRecord, 0, some 1⟩]).disk written tail :=
  failed_append_undamaged unlimited (fun _ => 0) sampleRuntime sampleRuntime_sound rfl rfl
    [emptyObject] shortLog 0 shortLog_logAt _ (by decide +kernel)

/-- A torn write damages the record after it: the first append fails after one byte, the second
returns `Ok` behind that byte, and the next open refuses the log. Both records are in one line of
the file, which is no JSON. -/
theorem torn_write_damages_next :
    ((auditLog unlimited (fun _ => 0) sampleRuntime).trace (LogState.fresh shortLog 0)
        [⟨sampleRecord, 0, some 1⟩, ⟨sampleRecord, 0, none⟩]).map
          (fun exchange => exchange.2.result)
        = [.error ioError, .ok ()] ∧
      ¬ ∃ written tail, Undamaged sampleRuntime unlimited.maxRotatedFiles [emptyObject]
        ((auditLog unlimited (fun _ => 0) sampleRuntime).trace (LogState.fresh shortLog 0)
          [⟨sampleRecord, 0, some 1⟩, ⟨sampleRecord, 0, none⟩])
        ((auditLog unlimited (fun _ => 0) sampleRuntime).final (LogState.fresh shortLog 0)
          [⟨sampleRecord, 0, some 1⟩, ⟨sampleRecord, 0, none⟩]).disk written tail := by
  refine ⟨by decide +kernel, ?_⟩
  rintro ⟨written, tail, h⟩
  have hcorrupt : (recoverTails sampleRuntime unlimited.maxRotatedFiles 0
      ((auditLog unlimited (fun _ => 0) sampleRuntime).final (LogState.fresh shortLog 0)
        [⟨sampleRecord, 0, some 1⟩, ⟨sampleRecord, 0, none⟩]).disk).result = .error .corrupt := by
    decide +kernel
  have hrecovered := (h.recoverable 0).1
  rw [hcorrupt] at hrecovered
  cases hrecovered

end HpGuardian

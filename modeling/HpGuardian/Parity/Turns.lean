import HpGuardian.Parity.Handles

/-!
# Appends in turn

As long as nobody is killed, processes of both runtimes that share a log never get in each other's
way: every append that is answered has succeeded, and the directory is what the appends make of it
one after the other, in the order of their answers (`handles_append_in_turn`).

An append maps the layout of the directory, and as long as the times of files are in whole
microseconds, the map of an append does not depend on the runtime.  So the layout is followed
through a run as a value of its own (`layoutOf`), and the lease gives the rest: between two calls
the directory has this layout, and during a call only its holder writes.  A call that finds the
lock held is refused before it does anything; such refusals are no events here.

The layouts are tidy: no file of a rotation, and every file of the log consists of lines that both
recoveries accept.  A process that opens the log in the middle of the run recovers it first, and
that is why tidiness matters: recovery finds nothing to do, in either runtime.  An append keeps it,
since its record is one line that both runtimes read.

The configuration is one for all processes, as in the module about handles, and each call takes
place at one time, in whole microseconds.
-/

namespace HpGuardian

open Framework

/-- Both tail recoveries leave the file alone: it consists of lines, each of them one record, at
least one line, and no carriage return in any. -/
def TidyFile (rt : JsonRuntime) (file : FileData) : Prop :=
  ∃ lines ≠ [], file.content = render newline lines ∧
    ∀ line ∈ lines, RecordLine rt line ∧ Python.carriageReturn ∉ line

/-- A layout without files of a rotation in which every file of the log is tidy. Appends keep it,
and both recoveries leave it alone. -/
structure Tidy (rt : JsonRuntime) (contents : Contents) : Prop where
  quiet : Quiet contents
  files : ∀ slot : Slot, ∀ file ∈ contents slot.path, TidyFile rt file

/-- The log is open, there is no manifest, and the files are these, whether or not the process has
recovered it yet. -/
structure Serves (contents : Contents) (state : LogState) : Prop where
  isOpen : state.closed = false
  settled : state.disk.manifest = none
  files : ∀ path, state.disk.files.lookup path = contents path

section

variable {rt : JsonRuntime} {contents : Contents} {file : FileData} {config : ValidConfig}
  {now : Instant}

theorem TidyFile.content_ne_nil (h : TidyFile rt file) : file.content ≠ [] := by
  obtain ⟨lines, hne, hcontent, -⟩ := h
  rw [hcontent, ne_eq, render_eq_nil_iff]
  exact hne

theorem Tidy.settled (h : Tidy rt contents) : Settled contents :=
  ⟨h.quiet, fun file hfile => (h.files .active file hfile).content_ne_nil⟩

/-! ## Recovery

A tidy directory passes through both recoveries as it is. -/

/-- The Rust recovery accepts the file. -/
theorem TidyFile.checkTail (h : TidyFile rt file) : checkTail rt file.content = .ok none := by
  obtain ⟨lines, hne, hcontent, hlines⟩ := h
  rw [hcontent]
  exact checkTail_clean hne fun line hline => (hlines line hline).1

/-- So does the Python recovery. -/
theorem TidyFile.checkFileTail (h : TidyFile rt file) (path : String) :
    Python.checkFileTail rt path file.content = .ok none := by
  obtain ⟨lines, hne, hcontent, hlines⟩ := h
  have hnewline : ∀ line ∈ lines, newline ∉ line :=
    fun line hline => (hlines line hline).1.noNewline
  have hsplit : linesOf newline file.content = lines ∧ tailOf newline file.content = [] := by
    rw [hcontent, ← List.append_nil (render newline lines)]
    exact ⟨linesOf_render hnewline List.not_mem_nil, tailOf_render List.not_mem_nil⟩
  have hreturn : Python.carriageReturn ∉ file.content := by
    rw [hcontent, render, List.mem_flatMap]
    rintro ⟨line, hline, hmem⟩
    rcases List.mem_append.1 hmem with hmem | hmem
    · exact (hlines line hline).2 hmem
    · exact absurd (List.mem_singleton.1 hmem) (by decide)
  have hkept : ¬ PythonRefuses rt file.content := by
    rw [PythonRefuses, splitlines_completeText hreturn, hsplit.1]
    rintro (⟨line, hline, hbad⟩ | ⟨htail, -⟩)
    · have hrecord := (hlines line hline).1
      exact (not_badLine_iff rt).2 ⟨hrecord.ne_nil, hrecord.isObject⟩ hbad
    · exact htail hsplit.2
  have haccepted := (checkFileTail_checksTail rt id).accepted path _ hkept
  rwa [if_pos hsplit.2] at haccepted

/-- A directory with a tidy layout. -/
theorem Tidy.recoverTails (h : Tidy rt contents) {disk : Disk}
    (hquiet : disk.hasRotationEntry = false)
    (hfiles : ∀ path, disk.files.lookup path = contents path) (maxRotatedFiles : ℕ)
    (stamp : Instant) :
    recoverTails rt maxRotatedFiles stamp disk = ⟨[], disk, .ok ()⟩ := by
  refine recoverTails_clean hquiet (fun path hpath file hfile => ?_) stamp
  obtain ⟨slot, -, rfl⟩ := mem_logPaths.1 hpath
  rw [hfiles] at hfile
  exact (h.files slot file hfile).checkTail

theorem Tidy.python_recoverTails (h : Tidy rt contents) {disk : Disk}
    (hquiet : disk.hasRotationEntry = false)
    (hfiles : ∀ path, disk.files.lookup path = contents path) (log : String)
    (recoverManifest : Program Disk Operation Python.AuditError Unit) (stamp : Instant) :
    Python.recoverTails rt log recoverManifest stamp disk = ⟨[], disk, .ok ()⟩ := by
  rw [Python.recoverTails_apply hquiet]
  refine forEach_silent fun path hpath => ?_
  obtain ⟨slot, rfl⟩ : ∃ slot : Slot, slot.path = path := by
    rcases List.mem_cons.1 hpath with rfl | hpath
    · exact ⟨.active, rfl⟩
    · obtain ⟨index, -, rfl⟩ := List.mem_map.1 hpath
      exact ⟨.backup index, rfl⟩
  simp only [Python.recoverFileTail, Program.read_bind_apply, hfiles]
  cases hfile : contents slot.path with
  | none => rfl
  | some file =>
      simp only [(h.files slot file hfile).checkFileTail (Python.pathText log slot.path)]
      rfl

theorem Serves.hasRotationEntry {state : LogState} (h : Serves contents state)
    (hquiet : Quiet contents) : state.disk.hasRotationEntry = false :=
  Disk.hasRotationEntry_eq_false_iff.2 ⟨h.settled, fun path hpath => by
    rw [h.files, hquiet path hpath]⟩

/-- An open log with a tidy layout is ready, whether or not it has been recovered. -/
theorem Tidy.ensureReady_ends (h : Tidy rt contents) :
    Ends (Serves contents) (ensureReady config (fun _ => now) rt) (Shows contents) := by
  intro state hstate
  rw [ensureReady_apply _ hstate.isOpen (.inr (h.recoverTails (hstate.hasRotationEntry h.quiet)
    hstate.files _))]
  exact ⟨fun _ _ => trivial, hstate.isOpen, rfl, hstate.settled, hstate.files⟩

theorem Tidy.python_ensureReady_ends (h : Tidy rt contents) (table : Python.AlnumTable)
    (dumps : Json → Bytes) (log : String) :
    Ends (Serves contents) (Python.ensureReady (fun _ => now) rt table dumps log)
      (Shows contents) := by
  intro state hstate
  have hinterrupted : Python.recoverInterrupted rt table dumps state.disk =
      ⟨[], state.disk, .ok ()⟩ := by
    simp only [Python.recoverInterrupted, Program.read_bind_apply, hstate.settled]
    rfl
  have hrecovered : ∀ stamp, Python.recoverTails rt log (pure ()) stamp state.disk =
      ⟨[], state.disk, .ok ()⟩ :=
    h.python_recoverTails (hstate.hasRotationEntry h.quiet) hstate.files log _
  have honDisk : ∀ {p : Python.DiskProgram Unit}, p state.disk = ⟨[], state.disk, .ok ()⟩ →
      Python.onDisk p { state with lease := true } =
        ⟨[], { state with lease := true }, .ok ()⟩ := by
    intro p hp
    rw [Python.onDisk, Program.zoom, hp]
    rfl
  simp only [Python.ensureReady, Program.read_bind_apply]
  rw [if_neg (by simp [hstate.isOpen])]
  simp only [Program.modify_bind_apply, Program.read_bind_apply]
  split
  · rename_i hcomplete
    exact ⟨fun _ _ => trivial, hstate.isOpen, hcomplete, hstate.settled, hstate.files⟩
  · have hmapped : Program.mapError Python.ManifestError.auditError
        (Python.recoverTails rt log (pure ()) now) state.disk = ⟨[], state.disk, .ok ()⟩ := by
      rw [Program.mapError, hrecovered]
      rfl
    rw [Program.read_bind_apply, Program.bind_run (honDisk hinterrupted),
      Program.bind_run (honDisk hmapped)]
    exact ⟨fun _ _ => trivial, hstate.isOpen, rfl, hstate.settled, hstate.files⟩

/-! ## Layouts

What an append does to a tidy layout. -/

theorem Tidy.unexpired (h : Tidy rt contents) (config : ValidConfig) (old : FileData → Bool) :
    Tidy rt (unexpired config old contents) :=
  ⟨h.quiet.unexpired config old, fun slot file hfile => h.files slot file (unexpired_subset hfile)⟩

theorem Tidy.rotated (h : Tidy rt contents) (maxRotatedFiles : ℕ) :
    Tidy rt (rotatedContents maxRotatedFiles contents none) := by
  refine ⟨fun _ => rotatedContents_unmarked h.quiet, fun slot file hfile => ?_⟩
  cases slot with
  | active => cases hfile
  | backup index =>
      simp only [Slot.path, rotatedContents] at hfile
      split at hfile
      · exact h.files _ file hfile
      · exact h.files (.backup index) file hfile

/-- One more record keeps the active file tidy. -/
theorem TidyFile.append {file : Option FileData} (h : ∀ old ∈ file, TidyFile rt old) {line : Bytes}
    (hline : RecordLine rt line ∧ Python.carriageReturn ∉ line) (now : Instant) :
    TidyFile rt ⟨(file.map FileData.content).getD [] ++ (line ++ [newline]), now⟩ := by
  cases file with
  | none => exact ⟨[line], by simp, by simp [render], by simpa using hline⟩
  | some old =>
      obtain ⟨lines, hne, hcontent, hlines⟩ := h old rfl
      refine ⟨lines ++ [line], by simp, ?_, ?_⟩
      · simp [hcontent, render]
      · intro other hother
        rcases List.mem_append.1 hother with hother | hother
        · exact hlines other hother
        · rw [List.mem_singleton.1 hother]
          exact hline

/-- An append leads from one tidy layout to the next. -/
theorem Tidy.afterAppend (h : Tidy rt contents) (config : ValidConfig) (old : FileData → Bool)
    (now : Instant) (due : Option FileData → Bool) {line : Bytes}
    (hline : RecordLine rt line ∧ Python.carriageReturn ∉ line) :
    Tidy rt (afterAppend config old now due (line ++ [newline]) contents) := by
  refine ⟨(h.settled.afterAppend due (by simp)).quiet, fun slot file hfile => ?_⟩
  have hkept : Tidy rt (if due (HpGuardian.unexpired config old contents .active) then
      HpGuardian.unexpired config old (rotatedContents config.maxRotatedFiles
        (HpGuardian.unexpired config old contents) none)
      else HpGuardian.unexpired config old contents) := by
    split
    · exact ((h.unexpired config old).rotated _).unexpired config old
    · exact h.unexpired config old
  simp only [HpGuardian.afterAppend, extended] at hfile
  split at hfile
  · obtain rfl := Option.some.inj hfile
    exact TidyFile.append (hkept.files .active) hline now
  · exact hkept.files slot file hfile

end

/-! ## Calls

Whole calls, the layout after them, and the theorem. -/

namespace SharedLog

variable (log : SharedLog)

/-- Every record is one line that both runtimes read as one record. -/
def PlainLines : Prop :=
  ∀ runtime record, RecordLine log.rt (log.line runtime record) ∧
    Python.carriageReturn ∉ log.line runtime record

/-- The layout after an append of a call. -/
def layoutAfter (runtime : Runtime) (call : HandleCall) (contents : Contents) : Contents :=
  let line := log.line runtime call.record ++ [newline]
  let old := expired log.config (call.clock 0)
  HpGuardian.afterAppend log.config old (call.clock 0) (dueBefore log.config old line.length) line
    contents

variable {π : Type} (runtime : π → Runtime)

/-- The call of an answer. -/
def answeredCall : Sighting π → Option (π × HandleCall)
  | .answered party call _ => some (party, call)
  | _ => none

/-- The layout after the calls that were answered, one after the other. -/
def layoutOf (contents : Contents) (seen : List (Sighting π)) : Contents :=
  (seen.filterMap answeredCall).foldl
    (fun contents answer => log.layoutAfter (runtime answer.1) answer.2 contents) contents

end SharedLog

/-- The clock stands still during the call, at a whole microsecond. -/
def HandleCall.AtOneTime (call : HandleCall) : Prop :=
  ∃ now, Python.InMicroseconds now ∧ call.clock = fun _ => now

/-- What holds of processes that share a log if nobody is killed: every answer is a success, and
between two calls the directory has the layout of the answered appends. -/
structure InTurn {π : Type} [DecidableEq π] (log : SharedLog) (runtime : π → Runtime)
    (contents : Contents) (seen : List (SharedLog.Sighting π))
    (W : World π LogState Disk Operation (AuditError ⊕ Python.ManifestError) HandleCall) :
    Prop where
  /-- Every call is answered with `Ok`. -/
  answered : ∀ party call result, .answered party call result ∈ seen → result = .ok ()
  /-- Between two calls, the layout is what the answered calls make of it. -/
  between : (∀ party call pending final result,
      W.phase party ≠ .inFlight call pending final result) →
    W.shared.manifest = none ∧
      ∀ path, W.shared.files.lookup path = log.layoutOf runtime contents seen path
  /-- A call under way is alone and undisturbed, and it will do its part. -/
  underway : ∀ party call pending final result,
    W.phase party = .inFlight call pending final result →
    W.holder = some party ∧ W.shared = (log.handles runtime).expects pending final ∧
      result = .ok () ∧
      Shows (log.layoutAfter (runtime party) call (log.layoutOf runtime contents seen)) final

section

variable {log : SharedLog} {π : Type} {runtime : π → Runtime} {contents : Contents}

theorem Ends.mapError {ε ε' : Type} {P Q : LogState → Prop} {p : Program LogState Operation ε Unit}
    (h : Ends P p Q) (f : ε → ε') : Ends P (Program.mapError f p) Q := by
  intro state hstate
  obtain ⟨⟨⟩, hresult, hfinal⟩ := h.exists_ok hstate
  refine ⟨fun _ _ => trivial, ?_⟩
  simp only [Program.mapError, hresult, Except.mapError]
  exact hfinal

/-- At one time, an append of either runtime carries out the same map of the layout. -/
theorem SharedLog.append_ends (h : Tidy log.rt contents) (htimes : TimesInMicroseconds contents)
    (runtime : Runtime) {call : HandleCall} (hclock : call.AtOneTime) :
    Ends (Serves contents) (log.append runtime call)
      (Shows (log.layoutAfter runtime call contents)) := by
  obtain ⟨record, clock, number⟩ := call
  obtain ⟨now, -, rfl⟩ : ∃ now, Python.InMicroseconds now ∧ clock = fun _ => now := hclock
  cases runtime with
  | rust => exact (append_ends_of_ready record number h.quiet h.ensureReady_ends).mapError _
  | python =>
      have hends : Ends (Serves contents)
          (Python.append log.config (fun _ => now) log.rt log.table log.dumps log.times log.name
            (log.payload record) number) _ :=
        python_append_ends_of_ready (log.payload record) number log.fits h.quiet
          (h.python_ensureReady_ends log.table log.dumps log.name)
      rw [afterAppend_congr (htimes.expired_eq log.config log.times now),
        ← h.settled.layouts_eq] at hends
      exact hends.mapError _

theorem Tidy.layoutAfter (hplain : log.PlainLines) (h : Tidy log.rt contents) (runtime : Runtime)
    (call : HandleCall) : Tidy log.rt (log.layoutAfter runtime call contents) :=
  h.afterAppend log.config _ _ _ (hplain runtime call.record)

theorem TimesInMicroseconds.layoutAfter (h : TimesInMicroseconds contents) (runtime : Runtime)
    {call : HandleCall} (hclock : call.AtOneTime) :
    TimesInMicroseconds (log.layoutAfter runtime call contents) := by
  obtain ⟨now, hnow, hcall⟩ := hclock
  refine h.afterAppend ?_ _ _ _
  rw [hcall]
  exact hnow

/-- What whole calls preserve, as long as none of them is cut. The layout is a function of what was
seen, and the directory has it. -/
structure Turned {π : Type} (log : SharedLog) (runtime : π → Runtime) (contents : Contents)
    (seen : List (SharedLog.Sighting π)) (A : LeaseProtocol.Parties π LogState Disk) : Prop where
  answered : ∀ party call result, .answered party call result ∈ seen → result = .ok ()
  tidy : Tidy log.rt (log.layoutOf runtime contents seen)
  times : TimesInMicroseconds (log.layoutOf runtime contents seen)
  settled : A.shared.manifest = none
  files : ∀ path, A.shared.files.lookup path = log.layoutOf runtime contents seen path

variable {seen : List (SharedLog.Sighting π)}

/-- Until a call is answered, it makes no difference to the layout. -/
theorem answeredCall_underway (party : π) (call : HandleCall)
    (steps : List (LogState × Operation)) :
    (Event.began party call :: steps.map (Event.took party)).filterMap SharedLog.answeredCall =
      ([] : List (π × HandleCall)) := by
  rw [List.filterMap_cons, List.filterMap_map]
  exact List.filterMap_eq_nil_iff.2 fun _ _ => rfl

theorem layoutOf_append_underway (party : π) (call : HandleCall)
    (steps : List (LogState × Operation)) :
    log.layoutOf runtime contents
        (seen ++ (Event.began party call :: steps.map (Event.took party))) =
      log.layoutOf runtime contents seen := by
  rw [SharedLog.layoutOf, List.filterMap_append, answeredCall_underway, List.append_nil]
  rfl

theorem layoutOf_append_answered (party : π) (call : HandleCall)
    (steps : List (LogState × Operation))
    (result : Except (AuditError ⊕ Python.ManifestError) Unit) :
    log.layoutOf runtime contents
        (seen ++ (Event.began party call :: steps.map (Event.took party) ++
          [Event.answered party call result])) =
      log.layoutAfter (runtime party) call (log.layoutOf runtime contents seen) := by
  rw [SharedLog.layoutOf, List.filterMap_append, List.filterMap_append, answeredCall_underway,
    List.foldl_append]
  rfl

variable [DecidableEq π] {A : LeaseProtocol.Parties π LogState Disk}

/-- Whoever begins a call will do their part. -/
theorem Turned.call_ends (h : Turned log runtime contents seen A) {party : π}
    {state : LogState} {call : HandleCall}
    (hmay : (log.handles runtime).mayCall A party = some state) (hclock : call.AtOneTime) :
    (log.append (runtime party) call (state.setDisk A.shared)).result = .ok () ∧
      Shows (log.layoutAfter (runtime party) call (log.layoutOf runtime contents seen))
        (log.append (runtime party) call (state.setDisk A.shared)).final := by
  obtain ⟨-, hopen, -⟩ := LeaseProtocol.mayCall_eq_some.1 hmay
  have hserves : Serves (log.layoutOf runtime contents seen) (state.setDisk A.shared) :=
    ⟨by simpa [SharedLog.handles, LogState.setDisk] using hopen, h.settled, h.files⟩
  obtain ⟨⟨⟩, hresult, hfinal⟩ :=
    (SharedLog.append_ends h.tidy h.times (runtime party) hclock).exists_ok hserves
  exact ⟨hresult, hfinal⟩

theorem Turned.step (hplain : log.PlainLines) (h : Turned log runtime contents seen A)
    {action : LeaseProtocol.Whole π HandleCall} (hcut : ∀ party, action.cause ≠ .kill party)
    (hclock : ∀ party call,
      .began party call ∈ ((log.handles runtime).serial.step A action).2 → call.AtOneTime) :
    Turned log runtime contents (seen ++ ((log.handles runtime).serial.step A action).2)
      ((log.handles runtime).serial.step A action).1 := by
  have hnothing : Turned log runtime contents (seen ++ []) A := by
    rw [List.append_nil]
    exact h
  cases action with
  | call party call =>
      simp only [LeaseProtocol.serial] at hclock ⊢
      cases hmay : (log.handles runtime).mayCall A party with
      | none => exact hnothing
      | some state =>
          rw [hmay] at hclock
          have htime : call.AtOneTime := hclock party call (by simp)
          obtain ⟨hresult, hfinal⟩ := h.call_ends hmay htime
          dsimp only [SharedLog.handles]
          rw [hresult]
          have hlayout := @layoutOf_append_answered log π runtime contents seen party call
            (log.append (runtime party) call (state.setDisk A.shared)).steps (.ok ())
          refine ⟨fun other call' result hanswered => ?_, ?_, ?_,
            hfinal.settled, ?_⟩
          · rcases List.mem_append.1 hanswered with hanswered | hanswered
            · exact h.answered other call' result hanswered
            · obtain ⟨-, -, hresult'⟩ : other = party ∧ call' = call ∧ result = .ok () := by
                simpa using hanswered
              exact hresult'
          · rw [hlayout]
            exact h.tidy.layoutAfter hplain (runtime party) call
          · rw [hlayout]
            exact h.times.layoutAfter (runtime party) htime
          · rw [hlayout]
            exact hfinal.files
  | cut party call steps => exact absurd rfl (hcut party)
  | close party =>
      simp only [LeaseProtocol.serial]
      cases A.party party with
      | none => exact hnothing
      | some state => exact ⟨hnothing.answered, hnothing.tidy, hnothing.times, hnothing.settled,
          hnothing.files⟩
  | leave party => exact absurd rfl (hcut party)

end

/-- **Appends in turn.**  Processes of both runtimes share a log whose files both recoveries
accept, nobody is killed, and the times of the files and of the calls are in whole microseconds.
Whatever the order of their steps, every call that is answered has
succeeded, and between two calls the directory is what the answered calls make of it one after the
other, whichever runtimes they are of. -/
theorem handles_append_in_turn (log : SharedLog) (hplain : log.PlainLines) {π : Type}
    [DecidableEq π] (runtime : π → Runtime) (disk : Disk) (hsettled : disk.manifest = none)
    (htidy : Tidy log.rt disk.files.lookup) (htimes : TimesInMicroseconds disk.files.lookup)
    {actions : List (LeaseAction π HandleCall)}
    {seen : List (SharedLog.Sighting π)}
    {W : World π LogState Disk Operation (AuditError ⊕ Python.ManifestError) HandleCall}
    (h : (log.handles runtime).Reaches (LeaseProtocol.resting (SharedLog.opened π disk)) actions
      seen W)
    (halive : ∀ party, .kill party ∉ actions)
    (hclock : ∀ party call, .began party call ∈ seen → call.AtOneTime) :
    InTurn log runtime disk.files.lookup seen W := by
  obtain ⟨history, sofar, hcause, hcorresponds, hseen⟩ := LeaseProtocol.Reaches.serial h
  have hcut : ∀ action ∈ history, ∀ party, action.cause ≠ .kill party :=
    fun action haction party hkill =>
      halive party (hkill ▸ hcause.subset (List.mem_map_of_mem haction))
  -- the calls of the history read the clock at one time, those of `seen` do
  have hturned : (∀ party call,
      .began party call ∈ (log.handles runtime).events (SharedLog.opened π disk) history →
        call.AtOneTime) →
      Turned log runtime disk.files.lookup
        ((log.handles runtime).events (SharedLog.opened π disk) history)
        ((log.handles runtime).serial.final (SharedLog.opened π disk) history) := by
    refine (log.handles runtime).serial.history_invariant
      (G := fun _ action => ∀ party, action.cause ≠ .kill party)
      (I := fun trace A => (∀ party call,
          .began party call ∈ trace.flatMap Prod.snd → call.AtOneTime) →
        Turned log runtime disk.files.lookup (trace.flatMap Prod.snd) A)
      (fun trace A action hI hcut hbegan => ?_) (fun _ => ?_)
      (Machine.along_of_mem _ hcut _)
    · rw [List.flatMap_append, List.flatMap_singleton] at hbegan ⊢
      exact (hI fun party call hmem => hbegan party call (List.mem_append_left _ hmem)).step hplain
        hcut fun party call hmem => hbegan party call (List.mem_append_right _ hmem)
    · exact ⟨by simp, htidy, htimes, hsettled, fun _ => rfl⟩
  have hnow := hturned fun party call hmem =>
    hclock party call (hseen ▸ List.mem_append_left _ hmem)
  cases hcorresponds with
  | atRest hrest =>
      subst hrest
      rw [List.append_nil] at hseen
      rw [hseen] at hnow
      exact ⟨hnow.answered, fun _ => ⟨hnow.settled, hnow.files⟩,
        fun party call pending final result hphase =>
          absurd hphase LeaseProtocol.phase_resting_ne⟩
  | @inCall holder state call steps hmay hflying =>
      let run := log.append (runtime holder) call (state.setDisk
        ((log.handles runtime).serial.final (SharedLog.opened π disk) history).shared)
      have hphase : W.phase holder =
          .inFlight call (run.steps.drop steps) run.final run.result := by
        rw [hflying]
        exact Function.update_self ..
      have hlayout : log.layoutOf runtime disk.files.lookup seen =
          log.layoutOf runtime disk.files.lookup
            ((log.handles runtime).events (SharedLog.opened π disk) history) := by
        rw [← hseen]
        exact layoutOf_append_underway holder call (run.steps.take steps)
      have hbegan : call.AtOneTime := hclock holder call (hseen ▸ by simp)
      refine ⟨fun party call' result hanswered => ?_, fun hidle => absurd hphase (hidle _ _ _ _ _),
        fun party call' pending final result hunderway => ?_⟩
      · rw [← hseen] at hanswered
        rcases List.mem_append.1 hanswered with hanswered | hanswered
        · exact hnow.answered party call' result hanswered
        · have hmem := List.mem_filterMap.2 ⟨_, hanswered, (rfl :
            SharedLog.answeredCall (.answered party call' result) = some (party, call'))⟩
          rw [answeredCall_underway] at hmem
          cases hmem
      · obtain ⟨hholder, hshared, halone⟩ := LeaseProtocol.Reaches.undisturbed h hunderway
        obtain rfl := halone _ _ _ _ _ hphase
        rw [hphase, Phase.inFlight.injEq] at hunderway
        obtain ⟨rfl, rfl, rfl, rfl⟩ := hunderway
        obtain ⟨hresult, hfinal⟩ := hnow.call_ends hmay hbegan
        rw [hlayout]
        exact ⟨hholder, hshared, hresult, hfinal⟩

theorem servedDisk_tidy : Tidy sampleRuntime servedDisk.files.lookup := by
  have hfile : ∀ modified, TidyFile sampleRuntime ⟨"\x7b\x7d\n".toUTF8.toList, modified⟩ := by
    intro modified
    refine ⟨[emptyObject], by simp, (by decide +kernel : "\x7b\x7d\n".toUTF8.toList = _), ?_⟩
    have hempty : RecordLine sampleRuntime emptyObject := by
      have hall : emptyObject ≠ [] ∧ newline ∉ emptyObject ∧
          isJsonObject sampleRuntime emptyObject = true := by decide +kernel
      exact ⟨hall.1, hall.2.1, hall.2.2⟩
    have hreturn : Python.carriageReturn ∉ emptyObject := by decide +kernel
    simpa using ⟨hempty, hreturn⟩
  refine ⟨(Disk.hasRotationEntry_eq_false_iff.1 (by decide +kernel)).2, fun slot file hmem => ?_⟩
  cases slot with
  | active =>
      have hlookup : servedDisk.files.lookup .active = some ⟨"\x7b\x7d\n".toUTF8.toList, 2000⟩ := by
        decide +kernel
      obtain rfl := Option.some.inj (hlookup.symm.trans hmem)
      exact hfile 2000
  | backup index =>
      by_cases hindex : index = 1
      · subst hindex
        obtain rfl := Option.some.inj ((Finmap.lookup_insert _).symm.trans hmem)
        exact hfile 1000
      · have hnone : servedDisk.files.lookup (.backup index) = none := by
          simp [servedDisk, Finmap.lookup_insert_of_ne, hindex]
        simp [Slot.path, hnone] at hmem

theorem sampleShared_plainLines : sampleShared.PlainLines := by
  have hreturn : ∀ record, Python.carriageReturn ∉ sampleRuntime.toVec record := by
    intro record
    have hboth : ∀ line ∈ [sampleLine, emptyObject], Python.carriageReturn ∉ line := by
      decide +kernel
    refine hboth _ ?_
    simp only [sampleRuntime]
    split_ifs <;> simp
  rintro (_ | _) record
  · exact ⟨sampleRuntime_sound.recordLine record, hreturn record⟩
  · exact ⟨sampleRuntime_sound.recordLine record, hreturn record⟩

/-- The Rust process is in its first append. -/
theorem handles_append_in_turn_sample :
    InTurn sampleShared oneOfEach servedDisk.files.lookup [.began true sampleAppend]
      sampleBegun := by
  have hstart : (sampleShared.handles oneOfEach).Step
      (LeaseProtocol.resting (SharedLog.opened Bool servedDisk)) (.start true sampleAppend)
      (some (.began true sampleAppend)) sampleBegun :=
    .started rfl rfl fun other hother => by cases hother
  refine handles_append_in_turn sampleShared sampleShared_plainLines oneOfEach servedDisk rfl
    servedDisk_tidy servedDisk_times (LeaseProtocol.Reaches.refl.step hstart) (by simp)
    fun party call hbegan => ?_
  obtain ⟨rfl, rfl⟩ : party = true ∧ call = sampleAppend := by simpa using hbegan
  exact ⟨3000, by decide, rfl⟩

end HpGuardian

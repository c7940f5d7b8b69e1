import HpGuardian.Audit.Underway

/-!
# Appends whose rotation fails

The lines of a directory are those of the files that the next recovery drops, of the backups and of
the active file, oldest first (`Holding`).  They do not depend on how far a rotation has come: a
failing rotation leaves them as they are, and so does the recovery that carries it on; only the
removal of the oldest backup takes lines away, and they are counted as dropped.

An append adds one line at the end, with two exceptions.  If a rotation has failed with the active
file staged, the append creates a second active file next to it, and the next recovery finds a file
in the way of the one it wants to install.  And an append that starts another rotation over staged
files writes a new manifest over the one that describes them, after which they are leftovers.
`Resumable` is the condition that keeps both out: the call meets no staged file, or a rotation that
is installing and does not need another one.

`RotationHistory` is the invariant of the runs whose calls are resumable and fail only in their
rotations, and `failed_rotation_preserves` what it says of the next process: it opens the log, and
every record whose append returned `Ok` is in the active file, in a backup, or in a file that a
rotation dropped.

The last section runs into the first exception.
-/

namespace HpGuardian

open Framework

/-! ## Lines of files

A file of the log consists of record lines only; what a write adds to it is one more. -/

/-- The complete lines of a file. -/
def fileLines (file : FileData) : List Bytes := linesOf newline file.content

/-- A file of complete record lines, at least one of them, and nothing behind the last. Whole files
are what appends leave and what recovery accepts. -/
def Whole (rt : JsonRuntime) (file : FileData) : Prop :=
  ∃ lines, lines ≠ [] ∧ (∀ line ∈ lines, RecordLine rt line) ∧
    file.content = render newline lines

section

variable {rt : JsonRuntime} {maxRotatedFiles : ℕ} {disk : Disk} {lines : List Bytes}

theorem Whole.checkTail {file : FileData} (h : Whole rt file) :
    checkTail rt file.content = .ok none := by
  obtain ⟨lines, hne, hlines, hcontent⟩ := h
  rw [hcontent]
  exact checkTail_clean hne hlines

theorem fileLines_render {lines : List Bytes} (hlines : ∀ line ∈ lines, RecordLine rt line)
    (stamp : Instant) : fileLines ⟨render newline lines, stamp⟩ = lines := by
  have h := linesOf_render (fun line hline => (hlines line hline).noNewline)
    (List.not_mem_nil (a := newline))
  rw [List.append_nil] at h
  exact h

/-- A record written behind whole lines is one more line. -/
theorem Whole.extend (hsound : rt.Sound) {active : Option FileData}
    (h : ∀ file ∈ active, Whole rt file) (record : AuditRecord) (stamp : Instant) :
    Whole rt ⟨(active.map FileData.content).getD [] ++ encodedLine rt record, stamp⟩ ∧
      fileLines ⟨(active.map FileData.content).getD [] ++ encodedLine rt record, stamp⟩ =
        (active.map fileLines).getD [] ++ [rt.toVec record] := by
  obtain ⟨lines, hlines, hcontent, hread⟩ : ∃ lines, (∀ line ∈ lines, RecordLine rt line) ∧
      (active.map FileData.content).getD [] = render newline lines ∧
      (active.map fileLines).getD [] = lines := by
    cases active with
    | none => exact ⟨[], by simp, rfl, rfl⟩
    | some file =>
        obtain ⟨lines, -, hlines, hcontent⟩ := h file rfl
        refine ⟨lines, hlines, hcontent, ?_⟩
        have hfile := fileLines_render hlines file.modified
        rw [← hcontent] at hfile
        exact hfile
  have hall : ∀ line ∈ lines ++ [rt.toVec record], RecordLine rt line := by
    intro line hline
    rcases List.mem_append.1 hline with hline | hline
    · exact hlines line hline
    · obtain rfl := List.mem_singleton.1 hline
      exact hsound.recordLine record
  have htext : render newline lines ++ encodedLine rt record =
      render newline (lines ++ [rt.toVec record]) := by simp [encodedLine]
  rw [hcontent, hread, htext]
  exact ⟨⟨_, by simp, hall, rfl⟩, fileLines_render hall stamp⟩

/-! ## Lines of directories

The order of the files is that of their age, and a rotation keeps it: gathering what they hold
gives the same before and after, less the oldest file. -/

theorem gather_retainedPaths {β : Type} (view : FileData → List β) (contents : Contents) (k : ℕ) :
    gather view contents (retainedPaths k) =
      gather view contents ((indices k).map .backup).reverse ++
        ((contents .active).map view).getD [] := by
  simp [gather, retainedPaths]

theorem gather_backups_succ {β : Type} (view : FileData → List β) (contents : Contents) (n : ℕ) :
    gather view contents ((indices (n + 1)).map .backup).reverse =
      ((contents (.backup (n + 1))).map view).getD [] ++
        gather view contents ((indices n).map .backup).reverse := by
  simp [gather, indices, List.range'_1_concat, Nat.add_comm]

/-- The first backups after a rotation are the active file and the backups before it. -/
theorem gather_rotated_backups {β : Type} (view : FileData → List β) (orig : Contents)
    (active : Option FileData) {n : ℕ} (hn : n + 1 ≤ maxRotatedFiles) :
    gather view (rotatedContents maxRotatedFiles orig active)
        ((indices (n + 1)).map .backup).reverse =
      gather view orig ((indices n).map .backup).reverse ++ ((orig .active).map view).getD [] := by
  have hbackup : ∀ i, i + 1 ≤ maxRotatedFiles →
      rotatedContents maxRotatedFiles orig active (.backup (i + 1)) =
        orig (sourceSlot (i + 1)).path := by
    intro i hi
    rw [rotatedContents, if_pos ⟨by omega, hi⟩]
  induction n with
  | zero =>
      rw [gather_backups_succ, hbackup 0 hn]
      simp [sourceSlot, Slot.path, gather, indices]
  | succ n ih =>
      have hsource : (sourceSlot (n + 1 + 1)).path = .backup (n + 1) := by
        simp [sourceSlot, Slot.path]
      rw [gather_backups_succ, hbackup (n + 1) hn, hsource, ih (by omega), gather_backups_succ,
        List.append_assoc]

/-- One slot further, the files of a log are the same, less the oldest one, and with the active
file as given. -/
theorem gather_rotatedContents {β : Type} (view : FileData → List β) (hmax : 1 ≤ maxRotatedFiles)
    (orig : Contents) (active : Option FileData) :
    (orig (.backup maxRotatedFiles)).toList.flatMap view ++
        gather view (rotatedContents maxRotatedFiles orig active) (retainedPaths maxRotatedFiles) =
      gather view orig (retainedPaths maxRotatedFiles) ++ (active.map view).getD [] := by
  obtain ⟨n, rfl⟩ : ∃ n, maxRotatedFiles = n + 1 := ⟨maxRotatedFiles - 1, by omega⟩
  have hactive : rotatedContents (n + 1) orig active .active = active := rfl
  have holdest : (orig (.backup (n + 1))).toList.flatMap view =
      ((orig (.backup (n + 1))).map view).getD [] := by
    cases orig (.backup (n + 1)) <;> simp
  rw [gather_retainedPaths, gather_retainedPaths, gather_rotated_backups view orig active le_rfl,
    gather_backups_succ, hactive, holdest]
  simp only [List.append_assoc]

/-- What holds of the files after a rotation, and of the oldest one, holds of the files before. -/
theorem forall_of_rotatedContents {W : FileData → Prop} {orig : Contents}
    {active : Option FileData} (hmax : 1 ≤ maxRotatedFiles)
    (holdest : ∀ file ∈ (orig (.backup maxRotatedFiles)).toList, W file)
    (hrotated : ∀ path ∈ logPaths maxRotatedFiles,
      ∀ file ∈ rotatedContents maxRotatedFiles orig active path, W file) :
    ∀ path ∈ logPaths maxRotatedFiles, ∀ file ∈ orig path, W file := by
  intro path hpath file hfile
  obtain ⟨slot, hslot, rfl⟩ := mem_logPaths.1 hpath
  rcases eq_sourceSlot_or_last hmax hslot with ⟨i, hi, rfl⟩ | rfl
  · have hmem : Path.backup i ∈ logPaths maxRotatedFiles :=
      List.mem_cons_of_mem _ (List.mem_map_of_mem (mem_indices.2 hi))
    refine hrotated _ hmem file ?_
    rw [rotatedContents, if_pos hi]
    exact hfile
  · exact holdest file (Option.mem_toList.2 hfile)

/-- The lines that a directory holds, whatever rotation is under way in it: those of the files that
recovery drops, and those of the files that it leaves. A rotation moves lines from the second part
to the first and never loses one. -/
structure Holding (rt : JsonRuntime) (maxRotatedFiles : ℕ) (pending : List FileData)
    (settled : Contents) (disk : Disk) (lines : List Bytes) : Prop where
  underway : Underway maxRotatedFiles pending settled disk
  pendingWhole : ∀ file ∈ pending, Whole rt file
  settledWhole : ∀ path ∈ logPaths maxRotatedFiles, ∀ file ∈ settled path, Whole rt file
  lines : pending.flatMap fileLines ++ gather fileLines settled (retainedPaths maxRotatedFiles) =
    lines

/-- While nothing is staged, the lines are those of the files in their slots. -/
theorem Holding.unstaged {pending : List FileData} {settled : Contents}
    (h : Holding rt maxRotatedFiles pending settled disk lines) (hmax : 1 ≤ maxRotatedFiles)
    (hquiet : NoRotationFiles disk) :
    gather fileLines disk.files.lookup (retainedPaths maxRotatedFiles) = lines ∧
      ∀ path ∈ logPaths maxRotatedFiles, ∀ file ∈ disk.files.lookup path, Whole rt file := by
  obtain ⟨hunderway, hpending, hsettled, hlines⟩ := h
  cases hunderway with
  | resting => exact ⟨hlines, hsettled⟩
  | @staging _ _ orig hdescribes hm hunmarked hstaging =>
      have horig := hstaging.unmoved hdescribes hquiet
      rw [gather_rotatedContents fileLines hmax] at hlines
      refine ⟨?_, fun path hpath file hfile => ?_⟩
      · rw [show disk.files.lookup = orig from funext horig]
        simpa using hlines
      · exact forall_of_rotatedContents hmax hpending hsettled path hpath file
          (horig path ▸ hfile)
  | @installing _ _ orig active _ hdescribes hm hunmarked holdest hinstalling =>
      subst hm
      obtain ⟨rfl, hmoved⟩ := hinstalling.allMoved hdescribes hquiet
      refine ⟨?_, fun path hpath file hfile => hsettled path hpath file (hmoved path ▸ hfile)⟩
      rw [show disk.files.lookup = rotatedContents _ orig active from funext hmoved]
      exact hlines

/-- Where a rotation over unstaged files halts, the lines are dropped or still there. -/
theorem Holding.rotateCurrent {pending : List FileData} {settled : Contents}
    (h : Holding rt maxRotatedFiles pending settled disk lines) (hmax : 1 ≤ maxRotatedFiles)
    (hquiet : NoRotationFiles disk) (hactive : (disk.files.lookup .active).isSome = true)
    (nanos : ℕ) {steps : List (Disk × Operation)} {disk' : Disk}
    (hhalts : (rotateCurrent writeManifestAtomically maxRotatedFiles nanos disk).Halts
      steps disk') :
    ∃ pending' settled' lines', Holding rt maxRotatedFiles pending' settled' disk' lines' ∧
      (droppedFiles maxRotatedFiles steps).flatMap fileLines ++ lines' = lines := by
  obtain ⟨hlines, hwhole⟩ := h.unstaged hmax hquiet
  rcases rotateCurrent_halts nanos hmax hquiet hactive hhalts with ⟨rfl, rfl⟩ |
    ⟨pending', hunderway, hdropped⟩
  · exact ⟨pending, settled, lines, h, rfl⟩
  · have holdest : ∀ file ∈ (disk.files.lookup (.backup maxRotatedFiles)).toList, Whole rt file :=
      fun file hfile => hwhole _ (List.mem_cons_of_mem _ (List.mem_map_of_mem
        (mem_indices.2 ⟨hmax, le_refl _⟩))) file (by simpa using hfile)
    refine ⟨pending', _, _, ⟨hunderway, fun file hfile => holdest file ?_,
      forall_rotatedContents hwhole (by simp), rfl⟩, ?_⟩
    · rw [← hdropped]
      exact List.mem_append_right _ hfile
    · rw [← List.append_assoc, ← List.flatMap_append, hdropped, ← hlines]
      exact (gather_rotatedContents fileLines hmax disk.files.lookup none).trans (by simp)

theorem activeContent_eq (disk : Disk) :
    activeContent disk = ((disk.files.lookup .active).map FileData.content).getD [] := by
  unfold activeContent
  cases disk.files.lookup .active <;> rfl

/-- One more line in the active file. -/
theorem gather_extend {contents contents' : Contents} {file : FileData} {line : Bytes} (k : ℕ)
    (hactive : contents' .active = some file)
    (hbackup : ∀ index, contents' (.backup index) = contents (.backup index))
    (hfile : fileLines file = ((contents .active).map fileLines).getD [] ++ [line]) :
    gather fileLines contents' (retainedPaths k) =
      gather fileLines contents (retainedPaths k) ++ [line] := by
  have hbackups : gather fileLines contents' ((indices k).map .backup).reverse =
      gather fileLines contents ((indices k).map .backup).reverse := by
    simp [gather, ← List.map_reverse, List.flatMap_map, hbackup]
  rw [gather_retainedPaths, gather_retainedPaths, hactive, hbackups]
  simp [hfile]

/-- An append adds its line, while nothing is staged or the rotation is installing. -/
theorem Holding.write (hsound : rt.Sound) {pending : List FileData} {settled : Contents}
    (h : Holding rt maxRotatedFiles pending settled disk lines) (hmax : 1 ≤ maxRotatedFiles)
    (hsafe : NoRotationFiles disk ∨
      ∃ manifest, disk.manifest = some (.record manifest) ∧ manifest.phase = "installing")
    (record : AuditRecord) (stamp : Instant) :
    ∃ pending' settled', Holding rt maxRotatedFiles pending' settled'
      (disk.putActive ⟨activeContent disk ++ encodedLine rt record, stamp⟩)
      (lines ++ [rt.toVec record]) := by
  have hactivePath : Path.active ∈ logPaths maxRotatedFiles := List.mem_cons_self
  rw [activeContent_eq]
  -- the files in their slots, as long as nothing is staged
  have hunstaged : NoRotationFiles disk → ∀ file,
      file = ⟨((disk.files.lookup .active).map FileData.content).getD [] ++
        encodedLine rt record, stamp⟩ →
      gather fileLines (disk.putActive file).files.lookup (retainedPaths maxRotatedFiles) =
          lines ++ [rt.toVec record] ∧
        ∀ path ∈ logPaths maxRotatedFiles, ∀ file' ∈ (disk.putActive file).files.lookup path,
          Whole rt file' := by
    rintro hquiet file rfl
    obtain ⟨hlines, hwhole⟩ := h.unstaged hmax hquiet
    obtain ⟨hfile, hadded⟩ := Whole.extend hsound (hwhole _ hactivePath) record stamp
    refine ⟨?_, fun path hpath file' hfile' => ?_⟩
    · rw [← hlines]
      exact gather_extend _ (by rw [lookup_putActive, if_pos rfl])
        (fun index => by rw [lookup_putActive, if_neg (by simp)]) hadded
    · rw [lookup_putActive] at hfile'
      split_ifs at hfile' with hactive
      · obtain rfl := Option.some.inj hfile'
        exact hfile
      · exact hwhole path hpath file' hfile'
  obtain ⟨hunderway, hpending, hsettled, hlines⟩ := id h
  cases hunderway with
  | resting hmanifest hquiet =>
      obtain ⟨hgather, hwhole⟩ := hunstaged hquiet _ rfl
      exact ⟨[], _, .resting hmanifest (hquiet.putActive _), by simp, hwhole, hgather⟩
  | staging hdescribes hm hunmarked hstaging =>
      have hquiet : NoRotationFiles disk := by
        refine hsafe.resolve_right ?_
        rintro ⟨manifest', hmanifest', hphase⟩
        rw [hstaging.written] at hmanifest'
        obtain rfl := ManifestFile.record.inj (Option.some.inj hmanifest')
        rw [hstaging.phase] at hphase
        exact absurd hphase (by decide)
      obtain ⟨hgather, hwhole⟩ := hunstaged hquiet _ rfl
      obtain ⟨hdescribes', hstaging'⟩ := hstaging.putActive hdescribes hquiet
        ⟨((disk.files.lookup .active).map FileData.content).getD [] ++ encodedLine rt record, stamp⟩
      refine ⟨_, _, .staging hdescribes' hm (hquiet.putActive _) hstaging', ?_,
        forall_rotatedContents hwhole (by simp), ?_⟩
      · exact fun file hfile => hwhole _ (List.mem_cons_of_mem _ (List.mem_map_of_mem
          (mem_indices.2 ⟨hmax, le_refl _⟩))) file (Option.mem_toList.1 hfile)
      · rw [← hgather]
        exact
          (gather_rotatedContents fileLines hmax (Disk.putActive _ disk).files.lookup none).trans
          (List.append_nil _)
  | @installing _ _ orig active _ hdescribes hm hunmarked holdest hinstalling =>
      have hactive := hinstalling.lookup_active
      rw [hactive]
      obtain ⟨hfile, hadded⟩ := Whole.extend hsound (hsettled _ hactivePath) record stamp
      refine ⟨_, _, .installing hdescribes hm hunmarked holdest (hinstalling.putActive _), hpending,
        fun path hpath file' hfile' => ?_, ?_⟩
      · by_cases hpath' : path = .active
        · subst hpath'
          obtain rfl := Option.some.inj hfile'
          exact hfile
        · refine hsettled path hpath file' ?_
          cases path with
          | active => exact absurd rfl hpath'
          | _ => exact hfile'
      · rw [← hlines, List.append_assoc]
        congr 1
        exact gather_extend _ rfl (fun index => rfl) hadded

/-- Recovery drops what is pending and leaves the rest in the backups and the active file. -/
theorem Holding.recover {pending : List FileData} {settled : Contents}
    (h : Holding rt maxRotatedFiles pending settled disk lines) (stamp : Instant) :
    (recoverTails rt maxRotatedFiles stamp disk).result = .ok () ∧
      (droppedFiles maxRotatedFiles (recoverTails rt maxRotatedFiles stamp disk).steps).flatMap
          fileLines ++
        gather fileLines (recoverTails rt maxRotatedFiles stamp disk).final.files.lookup
          (retainedPaths maxRotatedFiles) = lines := by
  obtain ⟨hresult, hfiles, hdropped⟩ := h.underway.recover
    (fun path hpath file hfile => (h.settledWhole path hpath file hfile).checkTail) stamp
  refine ⟨hresult, ?_⟩
  rw [hdropped, show (recoverTails rt maxRotatedFiles stamp disk).final.files.lookup = settled from
    funext hfiles]
  exact h.lines

end

/-! ## Runs

The condition on a call, the invariant, and one lemma for each way in which a call can end. -/

/-- The manifest in the directory is in its installing phase. -/
def Disk.isInstalling (disk : Disk) : Bool :=
  match disk.manifest with
  | some (.record manifest) => manifest.phase == "installing"
  | _ => false

/-- A call that meets no staged file, or a rotation in its installing phase and room for its
record. The other calls write next to a staged active file, or start a rotation over staged
files. -/
def Resumable (config : ValidConfig) (rt : JsonRuntime) (state : LogState) (call : AppendCall) :
    Prop :=
  state.disk.hasRotationFile = false ∨ (state.disk.isInstalling = true ∧
    rotationDue config state.disk (encodedLine rt call.record).length = false)

instance (config : ValidConfig) (rt : JsonRuntime) (state : LogState) (call : AppendCall) :
    Decidable (Resumable config rt state call) :=
  inferInstanceAs (Decidable (_ ∨ _))

/-- If a step of the call fails, it is one of its rotation: the log is still being prepared, and no
byte of the record has been written. -/
def FailsInRotation (config : ValidConfig) (clock : ℕ → Instant) (rt : JsonRuntime)
    (state : LogState) (call : AppendCall) : Prop :=
  ∀ k ∈ call.fault, k < (prepareAppend config clock rt call.nanos
    (encodedLine rt call.record).length state).steps.length

instance (config : ValidConfig) (clock : ℕ → Instant) (rt : JsonRuntime) (state : LogState)
    (call : AppendCall) : Decidable (FailsInRotation config clock rt state call) :=
  inferInstanceAs (Decidable (∀ k ∈ call.fault, _))

/-- The steps of a process as steps on its directory. -/
def diskSteps (steps : List (LogState × Operation)) : List (Disk × Operation) :=
  steps.map (fun step => (step.1.disk, step.2))

/-- The files that the rotations of a run dropped. -/
def droppedInRun (maxRotatedFiles : ℕ) (trace : List (AppendCall × AppendOutcome)) :
    List FileData :=
  trace.flatMap (fun exchange => droppedFiles maxRotatedFiles (diskSteps exchange.2.steps))

/-- No record is lost or stranded: a fresh process opens the log, the lines of the dropped files
and of the files it finds are the initial ones and those of the accepted records, in order, and
so each accepted record is in the active file, in a backup, or in a dropped file. -/
structure Preserved (rt : JsonRuntime) (maxRotatedFiles : ℕ) (start : Disk)
    (trace : List (AppendCall × AppendOutcome)) (disk : Disk) (stamp : Instant) : Prop where
  opens : (recoverTails rt maxRotatedFiles stamp disk).result = .ok ()
  lines : (droppedInRun maxRotatedFiles trace ++ droppedFiles maxRotatedFiles
        (recoverTails rt maxRotatedFiles stamp disk).steps).flatMap fileLines ++
      gather fileLines (recoverTails rt maxRotatedFiles stamp disk).final.files.lookup
        (retainedPaths maxRotatedFiles) =
    gather fileLines start.files.lookup (retainedPaths maxRotatedFiles) ++
      (accepted trace).map rt.toVec
  present : ∀ record ∈ accepted trace,
    (∃ path ∈ logPaths maxRotatedFiles,
      ∃ file ∈ (recoverTails rt maxRotatedFiles stamp disk).final.files.lookup path,
        rt.toVec record ∈ fileLines file) ∨
    ∃ file ∈ droppedInRun maxRotatedFiles trace ++ droppedFiles maxRotatedFiles
      (recoverTails rt maxRotatedFiles stamp disk).steps, rt.toVec record ∈ fileLines file

/-- What the calls so far have made of the log: with the lines of the dropped files in front, its
lines are the initial ones and those of the accepted records, in order. -/
structure RotationHistory (config : ValidConfig) (rt : JsonRuntime) (initial : List Bytes)
    (trace : List (AppendCall × AppendOutcome)) (state : LogState) (pending : List FileData)
    (settled : Contents) (lines : List Bytes) : Prop where
  holding : Holding rt config.maxRotatedFiles pending settled state.disk lines
  kept : (droppedInRun config.maxRotatedFiles trace).flatMap fileLines ++ lines =
    initial ++ (accepted trace).map rt.toVec
  recovered : state.recoveryComplete = true ∨ ∀ stamp,
    recoverTails rt config.maxRotatedFiles stamp state.disk = ⟨[], state.disk, .ok ()⟩
  opened : state.closed = false

section

variable {config : ValidConfig} {clock : ℕ → Instant} {rt : JsonRuntime} {initial : List Bytes}
  {trace : List (AppendCall × AppendOutcome)} {state : LogState} {pending : List FileData}
  {settled : Contents} {lines : List Bytes}

theorem droppedInRun_append (maxRotatedFiles : ℕ) (call : AppendCall) (outcome : AppendOutcome) :
    droppedInRun maxRotatedFiles (trace ++ [(call, outcome)]) =
      droppedInRun maxRotatedFiles trace ++
        droppedFiles maxRotatedFiles (diskSteps outcome.steps) := by
  simp [droppedInRun]

/-- The write of a record removes nothing. -/
theorem droppedFiles_writeRecord (maxRotatedFiles : ℕ) (clock : ℕ → Instant) (encoded : Bytes)
    (state : LogState) :
    droppedFiles maxRotatedFiles (diskSteps (writeRecord clock encoded state).steps) = [] := by
  refine droppedFiles_eq_nil _ fun step hstep path hpath => ?_
  obtain ⟨step', hstep', rfl⟩ := List.mem_map.1 hstep
  rw [writeRecord_apply] at hstep'
  simp only [openSteps, List.mem_append, List.mem_map] at hstep'
  rcases hstep' with (hstep' | ⟨k, -, rfl⟩) | hstep'
  · split_ifs at hstep'
    · cases hstep'
    · obtain rfl := List.mem_singleton.1 hstep'
      cases hpath
  · cases hpath
  · simp only [List.mem_cons, List.not_mem_nil, or_false, or_self] at hstep'
    subst hstep'
    cases hpath

/-- The steps of a program on the directory, taken by a process. -/
theorem diskSteps_onDisk {α : Type} (p : DiskProgram α) (state : LogState) :
    diskSteps (onDisk p state).steps = (p state.disk).steps := by
  simp only [diskSteps, onDisk, Program.zoom, List.map_map]
  exact List.map_id _

theorem diskSteps_append (steps steps' : List (LogState × Operation)) :
    diskSteps (steps ++ steps') = diskSteps steps ++ diskSteps steps' :=
  List.map_append

/-- A call that has prepared the log writes its record. -/
theorem RotationHistory.written (hsound : rt.Sound)
    (h : RotationHistory config rt initial trace state pending settled lines) {call : AppendCall}
    (hfault : call.fault = none) {run : Run LogState Operation AuditError Unit}
    (hprepare : prepareAppend config clock rt call.nanos (encodedLine rt call.record).length state =
      run) (hok : run.result = .ok ()) {pending' : List FileData} {settled' : Contents}
    {lines' : List Bytes}
    (hholding : Holding rt config.maxRotatedFiles pending' settled' run.final.disk lines')
    (hdropped : (droppedFiles config.maxRotatedFiles (diskSteps run.steps)).flatMap fileLines ++
      lines' = lines)
    (hsafe : NoRotationFiles run.final.disk ∨ ∃ manifest,
      run.final.disk.manifest = some (.record manifest) ∧ manifest.phase = "installing")
    (hrecovered : run.final.recoveryComplete = true) (hopened : run.final.closed = false) :
    ∃ pending' settled' lines', RotationHistory config rt initial
      (trace ++ [(call, ((auditLog config clock rt).step state call).2)])
      ((auditLog config clock rt).step state call).1 pending' settled' lines' := by
  have happend : append config clock rt call.record call.nanos state =
      ⟨run.steps ++ (writeRecord clock (encodedLine rt call.record) run.final).steps,
        withActive (activeContent run.final.disk ++ encodedLine rt call.record)
          (clock run.final.ticks) (writing run.final), .ok ()⟩ := by
    refine (Program.bind_ok (hprepare ▸ hok)).trans ?_
    rw [hprepare, writeRecord_apply, afterBytes_eq clock (by simp [encodedLine])]
  simp only [auditLog, hfault, Program.failingAt_none, happend]
  obtain ⟨pending'', settled'', hholding'⟩ := hholding.write hsound config.one_le_maxRotatedFiles
    hsafe call.record (clock run.final.ticks)
  refine ⟨pending'', settled'', _, hholding', ?_, .inl hrecovered, hopened⟩
  have hkept := h.kept
  rw [← hdropped] at hkept
  rw [droppedInRun_append, diskSteps_append, droppedFiles_append, droppedFiles_writeRecord,
    accepted_append_ok rfl, List.append_nil, List.flatMap_append, List.map_append,
    ← List.append_assoc, ← List.append_assoc, ← hkept]
  simp

/-- A call whose rotation fails writes nothing. -/
theorem RotationHistory.failed
    (h : RotationHistory config rt initial trace state pending settled lines) {call : AppendCall}
    {k : ℕ} (hfault : call.fault = some k)
    (hprepare : prepareAppend config clock rt call.nanos (encodedLine rt call.record).length state =
      onDisk (rotateCurrent writeManifestAtomically config.maxRotatedFiles call.nanos)
        (ready state))
    (hk : k < (onDisk (rotateCurrent writeManifestAtomically config.maxRotatedFiles call.nanos)
      (ready state)).steps.length)
    (hquiet : NoRotationFiles state.disk)
    (hactive : (state.disk.files.lookup .active).isSome = true) :
    ∃ pending' settled' lines', RotationHistory config rt initial
      (trace ++ [(call, ((auditLog config clock rt).step state call).2)])
      ((auditLog config clock rt).step state call).1 pending' settled' lines' := by
  obtain ⟨t, label, hstep, hrun⟩ := Program.failingAt_bind (hprepare ▸ hk)
    (fun _ => writeRecord clock (encodedLine rt call.record)) ioError
  have hcall : Program.failingAt (some k) ioError
      (append config clock rt call.record call.nanos) state = _ := hrun
  rw [hprepare] at hstep hcall
  simp only [auditLog, hfault, hcall]
  -- the step of the process is a step of the rotation
  have hmap : ((rotateCurrent writeManifestAtomically config.maxRotatedFiles call.nanos
      state.disk).steps.map fun step => ((ready state).setDisk step.1, step.2))[k]? =
      some (t, label) := by
    simpa [onDisk, Program.zoom, LogState.setDisk, ready] using hstep
  rw [List.getElem?_map, Option.map_eq_some_iff] at hmap
  obtain ⟨⟨disk', label'⟩, hinner, heq⟩ := hmap
  obtain ⟨rfl, rfl⟩ := Prod.mk.inj heq
  obtain ⟨pending', settled', lines', hholding, hdropped⟩ := h.holding.rotateCurrent
    config.one_le_maxRotatedFiles hquiet hactive call.nanos (Program.halts_of_getElem? hinner)
  refine ⟨pending', settled', lines', hholding, ?_, .inl rfl, h.opened⟩
  have hsteps : diskSteps ((onDisk (rotateCurrent writeManifestAtomically config.maxRotatedFiles
      call.nanos) (ready state)).steps.take k) =
      (rotateCurrent writeManifestAtomically config.maxRotatedFiles call.nanos
        state.disk).steps.take k := by
    have hall := diskSteps_onDisk (rotateCurrent writeManifestAtomically config.maxRotatedFiles
      call.nanos) (ready state)
    rw [diskSteps, List.map_take, ← diskSteps, hall]
    rfl
  have hkept := h.kept
  rw [← hdropped] at hkept
  rw [droppedInRun_append, hsteps, accepted_append_error rfl, ← hkept]
  simp

/-- One call: it meets no staged file, or a rotation in its installing phase and room for its
record, and if it fails, then in its rotation. -/
theorem RotationHistory.step (hsound : rt.Sound) (hage : config.maxAge = none)
    (h : RotationHistory config rt initial trace state pending settled lines) {call : AppendCall}
    (hresumable : Resumable config rt state call)
    (hfails : FailsInRotation config clock rt state call) :
    ∃ pending' settled' lines', RotationHistory config rt initial
      (trace ++ [(call, ((auditLog config clock rt).step state call).2)])
      ((auditLog config clock rt).step state call).1 pending' settled' lines' := by
  have hmax := config.one_le_maxRotatedFiles
  have hprepare := prepareAppend_apply clock hage h.opened h.recovered call.nanos
    (encodedLine rt call.record).length
  by_cases hdue : rotationDue config state.disk (encodedLine rt call.record).length = true
  · -- a rotation is due, so nothing is staged
    have hquiet : NoRotationFiles state.disk := by
      refine Disk.hasRotationFile_eq_false_iff.1 (hresumable.resolve_right fun hinstalling => ?_)
      rw [hdue] at hinstalling
      exact absurd hinstalling.2 (by simp)
    have hactive : (state.disk.files.lookup .active).isSome = true := by
      unfold rotationDue at hdue
      split at hdue
      · rename_i hfile
        rw [hfile]
        rfl
      · cases hdue
    rw [if_pos hdue] at hprepare
    obtain ⟨⟨⟩, hok, hrotated⟩ :=
      (rotateCurrent_triple call.nanos hmax hquiet hactive).exists_ok rfl
    cases hfault : call.fault with
    | none =>
        obtain ⟨pending', settled', lines', hholding, hdropped⟩ :=
          h.holding.rotateCurrent hmax hquiet hactive call.nanos (.inr ⟨rfl, rfl⟩)
        refine h.written hsound hfault hprepare hok hholding ?_ (.inl fun path hpath => ?_) rfl
          h.opened
        · rw [diskSteps_onDisk]
          exact hdropped
        · exact (hrotated.files path).trans (rotatedContents_unmarked hquiet hpath)
    | some k =>
        exact h.failed hfault hprepare (hprepare ▸ hfails k hfault) hquiet hactive
  · have hnone : call.fault = none := by
      cases hfault : call.fault with
      | none => rfl
      | some k =>
          have hk := hfails k hfault
          rw [hprepare, if_neg hdue] at hk
          cases hk
    rw [if_neg hdue] at hprepare
    refine h.written hsound hnone hprepare rfl h.holding rfl ?_ rfl h.opened
    refine hresumable.imp Disk.hasRotationFile_eq_false_iff.1 fun hinstalling => ?_
    obtain ⟨hinstalling, -⟩ := hinstalling
    unfold Disk.isInstalling at hinstalling
    split at hinstalling
    · exact ⟨_, ‹_›, by simpa using hinstalling⟩
    · cases hinstalling

theorem mem_logPaths_of_retained {k : ℕ} {path : Path} (h : path ∈ retainedPaths k) :
    path ∈ logPaths k := by
  rcases List.mem_append.1 h with h | h
  · exact List.mem_cons_of_mem _ (List.mem_reverse.1 h)
  · obtain rfl := List.mem_singleton.1 h
    exact List.mem_cons_self

theorem RotationHistory.preserved {start : Disk} (h : RotationHistory config rt
      (gather fileLines start.files.lookup (retainedPaths config.maxRotatedFiles)) trace state
      pending settled lines) (stamp : Instant) :
    Preserved rt config.maxRotatedFiles start trace state.disk stamp := by
  obtain ⟨hopens, hlines⟩ := h.holding.recover stamp
  have hall := h.kept
  rw [← hlines, ← List.append_assoc, ← List.flatMap_append] at hall
  refine ⟨hopens, hall, fun record hrecord => ?_⟩
  have hmem : rt.toVec record ∈
      gather fileLines start.files.lookup (retainedPaths config.maxRotatedFiles) ++
        (accepted trace).map rt.toVec :=
    List.mem_append_right _ (List.mem_map_of_mem hrecord)
  rw [← hall] at hmem
  rcases List.mem_append.1 hmem with hmem | hmem
  · obtain ⟨file, hfile, hline⟩ := List.mem_flatMap.1 hmem
    exact .inr ⟨file, hfile, hline⟩
  · obtain ⟨path, hpath, hline⟩ := List.mem_flatMap.1 hmem
    left
    refine ⟨path, mem_logPaths_of_retained hpath, ?_⟩
    cases hfile : (recoverTails rt config.maxRotatedFiles stamp state.disk).final.files.lookup
      path with
    | none => simp [hfile] at hline
    | some file => exact ⟨file, rfl, by simpa [hfile] using hline⟩

end

/-- **A failing rotation loses and strands no record**, as long as no call writes next to a staged
active file or starts a rotation over staged files: in a run without an age limit that starts
from whole files, whatever steps of rotations fail, the next process opens the log and finds each
accepted record in the active file or a backup, unless a rotation dropped its file. -/
theorem failed_rotation_preserves (config : ValidConfig) (clock : ℕ → Instant) (rt : JsonRuntime)
    (hsound : rt.Sound) (hage : config.maxAge = none) (disk : Disk) (ticks : ℕ)
    (hquiet : disk.hasRotationEntry = false)
    (hwhole : ∀ path ∈ logPaths config.maxRotatedFiles, ∀ file ∈ disk.files.lookup path,
      Whole rt file) (calls : List AppendCall)
    (hcalls : (auditLog config clock rt).Along (fun state call =>
      Resumable config rt state call ∧ FailsInRotation config clock rt state call)
      (LogState.fresh disk ticks) calls) (stamp : Instant) :
    Preserved rt config.maxRotatedFiles disk
      ((auditLog config clock rt).trace (LogState.fresh disk ticks) calls)
      ((auditLog config clock rt).final (LogState.fresh disk ticks) calls).disk stamp := by
  obtain ⟨hmanifest, hfiles⟩ := Disk.hasRotationEntry_eq_false_iff.1 hquiet
  have hstart : RotationHistory config rt
      (gather fileLines disk.files.lookup (retainedPaths config.maxRotatedFiles)) []
      (LogState.fresh disk ticks) [] disk.files.lookup
      (gather fileLines disk.files.lookup (retainedPaths config.maxRotatedFiles)) := {
    holding := ⟨.resting hmanifest hfiles, by simp, hwhole, rfl⟩
    kept := by simp [droppedInRun, accepted]
    recovered := .inr fun stamp => recoverTails_clean hquiet
      (fun path hpath file hfile => (hwhole path hpath file hfile).checkTail) stamp
    opened := rfl }
  have hrun := (auditLog config clock rt).history_invariant
    (I := fun trace state => ∃ pending settled lines, RotationHistory config rt
      (gather fileLines disk.files.lookup (retainedPaths config.maxRotatedFiles)) trace state
      pending settled lines) (by
        rintro trace state call ⟨pending, settled, lines, h⟩ hcall
        exact h.step hsound hage hcall.1 hcall.2) ⟨_, _, _, hstart⟩ hcalls
  obtain ⟨pending, settled, lines, h⟩ := hrun
  exact h.preserved stamp

/-! ## A failing rotation and what follows it

Three calls under tight limits: one that starts the log, one whose rotation fails, one after it. -/

/-- One backup, and a rotation before every append but the first. -/
def tight : ValidConfig := ⟨⟨some 1, none, 1⟩, rfl⟩

/-- The removal of the manifest fails, and the next append creates the active file. -/
theorem failed_rotation_preserves_sample :
    Preserved sampleRuntime tight.maxRotatedFiles Disk.empty
      ((auditLog tight (fun _ => 0) sampleRuntime).trace (LogState.fresh Disk.empty 0)
        [⟨sampleRecord, 1, none⟩, ⟨sampleRecord, 2, some 8⟩, ⟨sampleRecord, 3, none⟩])
      ((auditLog tight (fun _ => 0) sampleRuntime).final (LogState.fresh Disk.empty 0)
        [⟨sampleRecord, 1, none⟩, ⟨sampleRecord, 2, some 8⟩, ⟨sampleRecord, 3, none⟩]).disk 0 :=
  failed_rotation_preserves tight (fun _ => 0) sampleRuntime sampleRuntime_sound rfl Disk.empty 0
    (by decide +kernel) (fun path _ file hfile => by cases hfile) _ (by decide +kernel) 0

/-- The manifest of the installing phase cannot be written, the next append creates a second active
file next to the staged one and returns `Ok`, and a fresh process refuses the log. The record of
the second append is in a file that no process will open. -/
theorem failed_rotation_strands_records :
    ((auditLog tight (fun _ => 0) sampleRuntime).trace (LogState.fresh Disk.empty 0)
        [⟨sampleRecord, 1, none⟩, ⟨sampleRecord, 2, some 4⟩, ⟨sampleRecord, 3, none⟩]).map
        (fun exchange => exchange.2.result) = [.ok (), .error ioError, .ok ()] ∧
      ¬ Preserved sampleRuntime tight.maxRotatedFiles Disk.empty
        ((auditLog tight (fun _ => 0) sampleRuntime).trace (LogState.fresh Disk.empty 0)
          [⟨sampleRecord, 1, none⟩, ⟨sampleRecord, 2, some 4⟩, ⟨sampleRecord, 3, none⟩])
        ((auditLog tight (fun _ => 0) sampleRuntime).final (LogState.fresh Disk.empty 0)
          [⟨sampleRecord, 1, none⟩, ⟨sampleRecord, 2, some 4⟩, ⟨sampleRecord, 3, none⟩]).disk
        0 := by
  refine ⟨by decide +kernel, fun h => ?_⟩
  have hrefused : (recoverTails sampleRuntime tight.maxRotatedFiles 0
      ((auditLog tight (fun _ => 0) sampleRuntime).final (LogState.fresh Disk.empty 0)
        [⟨sampleRecord, 1, none⟩, ⟨sampleRecord, 2, some 4⟩,
          ⟨sampleRecord, 3, none⟩]).disk).result =
      .error .recoveryFailed := by decide +kernel
  have hopens := h.opens
  rw [hrefused] at hopens
  cases hopens

end HpGuardian

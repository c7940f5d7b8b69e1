import HpGuardian.Parity.Accounts
import HpGuardian.Parity.Log

/-!
# Appends keep the balance

An append of either runtime keeps the balance of lines wherever it is stopped: up to its last byte
nothing is new, and from there on its line is one of the lines of the log.  What it assumes of its
process is that a log it takes for recovered is at rest and ends with a complete line, and this it
leaves behind again.

The assumption is about what the process remembers (`MayAppend`).  A process that has not recovered
its log may find it in any state that keeps the balance, with a rotation under way and a torn tail;
it recovers first.  A process that has recovered it skips that, so the log must not have been
touched since, which the lock sees to.

The parts of an append come one after the other, each with a metered triple in both runtimes:
readying the log, removing expired backups, rotating, and writing.  Between them the process is in
charge of a log that is ready (`InCharge`).  The two runtimes differ in what they check and in the
order of their checks, but they write in the same way, so the write has one description: the bytes
that are there and the bytes that are still to come (`Writing`).
-/

namespace HpGuardian

open Framework

/-- The file that a step of a process takes out of the log. -/
def retiredBy (maxRotatedFiles : ℕ) (step : LogState × Operation) : List FileData :=
  retired maxRotatedFiles (step.1.disk, step.2)

/-- A process that may append: a log that it takes for recovered is ready. Of a log that it has yet
to recover only the balance is known. -/
structure MayAppend (table : Python.AlnumTable) (maxRotatedFiles : ℕ) (all : List Bytes)
    (gone : List FileData) (state : LogState) : Prop where
  isOpen : state.closed = false
  accounts : Accounts table maxRotatedFiles all gone state.disk
  ready : state.recoveryComplete = true → Ready maxRotatedFiles all gone state.disk

/-- A process that has readied its log: it is open, recovered, at rest, and ends with a complete
line. Between the parts of an append the process is in this state. -/
structure InCharge (maxRotatedFiles : ℕ) (all : List Bytes) (gone : List FileData)
    (state : LogState) : Prop where
  isOpen : state.closed = false
  recovered : state.recoveryComplete = true
  ready : Ready maxRotatedFiles all gone state.disk

section

variable {config : ValidConfig} {clock : ℕ → Instant} {rt : JsonRuntime}
  {table : Python.AlnumTable} {dumps : Json → Bytes} {times : Python.FileTimes} {log : String}
  {maxRotatedFiles : ℕ}
  {all : List Bytes} {gone : List FileData} {disk : Disk} {state : LogState}
  {E : List FileData → LogState → Prop}

theorem Ready.accounts (h : Ready maxRotatedFiles all gone disk) :
    Accounts table maxRotatedFiles all gone disk := h.toAtRest.accounts

theorem InCharge.mayAppend (h : InCharge maxRotatedFiles all gone state) :
    MayAppend table maxRotatedFiles all gone state :=
  ⟨h.isOpen, h.ready.accounts, fun _ => h.ready⟩

theorem InCharge.tick (h : InCharge maxRotatedFiles all gone state) :
    InCharge maxRotatedFiles all gone { state with ticks := state.ticks + 1 } :=
  ⟨h.isOpen, h.recovered, h.ready⟩

theorem logState_lens : Program.Lens LogState.disk LogState.setDisk :=
  ⟨fun _ _ => rfl, fun _ _ _ => rfl, fun _ => rfl⟩

/-- A program on the directory, run by a process that leaves its flags alone. -/
theorem onDisk_metered {ε : Type} {p : Program Disk Operation ε Unit}
    {P C E : List FileData → Disk → Prop} {Q : Unit → List FileData → Disk → Prop}
    (h : Program.Metered (retired maxRotatedFiles) P p C Q E) (closed recovered : Bool) :
    Program.Metered (retiredBy maxRotatedFiles)
      (fun gone state => (state.closed = closed ∧ state.recoveryComplete = recovered) ∧
        P gone state.disk)
      (Program.zoom LogState.disk LogState.setDisk p) (fun gone state => C gone state.disk)
      (fun a gone state => (state.closed = closed ∧ state.recoveryComplete = recovered) ∧
        Q a gone state.disk)
      (fun gone state => (state.closed = closed ∧ state.recoveryComplete = recovered) ∧
        E gone state.disk) :=
  (h.zoom logState_lens (F := fun state : LogState =>
    state.closed = closed ∧ state.recoveryComplete = recovered) fun _ _ h => h).conseq
    (fun _ _ h => h) (fun _ _ h => h.2) (fun _ _ _ h => h) fun _ _ h => h

/-! ## Readying the log

Recovery, unless the process remembers having done it. -/

theorem ensureReady_metered (hmax : config.maxRotatedFiles = maxRotatedFiles) :
    Program.Metered (retiredBy maxRotatedFiles) (MayAppend table maxRotatedFiles all)
      (ensureReady config clock rt)
      (fun gone state => Accounts table maxRotatedFiles all gone state.disk)
      (fun _ => InCharge maxRotatedFiles all) (MayAppend table maxRotatedFiles all) := by
  subst hmax
  refine .read_bind fun closed => ?_
  split
  · exact .raise fun _ _ h => ⟨h.1.accounts, h.1⟩
  · refine .modify_bind (MayAppend table config.maxRotatedFiles all)
      (fun _ _ h => ⟨h.1.isOpen, h.1.accounts, h.1.ready⟩) (.read_bind fun complete => ?_)
    refine .modify_bind (fun gone state => (state.closed = false ∧
      state.recoveryComplete = true) ∧ Accounts table config.maxRotatedFiles all gone state.disk ∧
        (complete = true → Ready config.maxRotatedFiles all gone state.disk))
      (fun _ _ h => ⟨⟨h.1.isOpen, rfl⟩, h.1.accounts, fun hcomplete =>
        h.1.ready (h.2.trans hcomplete)⟩) ?_
    split
    · rename_i hcomplete
      exact .pure fun _ _ h => ⟨h.2.1, h.1.1, h.1.2, h.2.2 hcomplete⟩
    · refine .read_bind fun stamp => ?_
      have hrecover := onDisk_metered
        (recoverTails_metered table config.maxRotatedFiles all rt stamp) false true
      refine (hrecover.conseq (fun _ _ h => ⟨h.1.1, h.1.2.1⟩) (fun _ _ h => h)
        (fun _ _ _ h => (⟨h.1.1, h.1.2, h.2⟩ : InCharge config.maxRotatedFiles all _ _))
        fun _ _ h => h).onFailure (fun _ _ => rfl) (fun _ _ h => h) fun _ _ h => ?_
      exact ⟨h.1.1, h.2.accounts, fun hrecovered => by cases hrecovered⟩

theorem python_ensureReady_metered :
    Program.Metered (retiredBy maxRotatedFiles) (MayAppend table maxRotatedFiles all)
      (Python.ensureReady clock rt table dumps log)
      (fun gone state => Accounts table maxRotatedFiles all gone state.disk)
      (fun _ => InCharge maxRotatedFiles all) (MayAppend table maxRotatedFiles all) := by
  refine .read_bind fun closed => ?_
  split
  · exact .raise fun _ _ h => ⟨h.1.accounts, h.1⟩
  · refine .modify_bind (MayAppend table maxRotatedFiles all)
      (fun _ _ h => ⟨h.1.isOpen, h.1.accounts, h.1.ready⟩) (.read_bind fun complete => ?_)
    split
    · rename_i hcomplete
      exact .pure fun _ _ h => ⟨h.1.accounts, h.1.isOpen, h.2.trans hcomplete,
        h.1.ready (h.2.trans hcomplete)⟩
    · rename_i hcomplete
      rw [Bool.not_eq_true] at hcomplete
      refine .read_bind fun stamp => ?_
      have hrecover := onDisk_metered
        (python_recoverTails_metered table maxRotatedFiles all rt dumps log stamp) false false
      rw [Program.zoom_bind logState_lens] at hrecover
      unfold Python.onDisk
      rw [← Program.bind_assoc_eq]
      refine (hrecover.conseq (fun _ _ h => ⟨⟨h.1.1.isOpen, h.1.2.trans hcomplete⟩,
        h.1.1.accounts⟩) (fun _ _ h => h) (fun _ _ _ h => h) fun _ _ h =>
          (⟨h.1.1, h.2.accounts, fun hrecovered => ?_⟩ :
            MayAppend table maxRotatedFiles all _ _)).bind
        fun _ => .modify fun _ _ h => ⟨h.2.accounts, h.1.1, rfl, h.2⟩
      rw [h.1.2] at hrecovered
      cases hrecovered

/-! ## Removing expired backups

Each backup that is removed takes its lines out of the log and is counted as gone. -/

theorem retainedPaths_nodup (k : ℕ) : (retainedPaths k).Nodup := by
  have hreverse : retainedPaths k = (logPaths k).reverse := by simp [retainedPaths, logPaths]
  rw [hreverse, List.nodup_reverse]
  exact logPaths_nodup

/-- The lines of a directory from which one file is removed. -/
theorem gather_erase {β : Type} (view : FileData → List β) {contents contents' : Contents}
    {paths : List Path} (hnodup : paths.Nodup) {path : Path} (hpath : path ∈ paths)
    {file : FileData} (hfile : contents path = some file) (hnone : contents' path = none)
    (hother : ∀ other, other ≠ path → contents' other = contents other) :
    ∃ before after, gather view contents paths = before ++ view file ++ after ∧
      gather view contents' paths = before ++ after := by
  obtain ⟨before, after, rfl⟩ := List.append_of_mem hpath
  obtain ⟨hbefore, hafter⟩ : path ∉ before ∧ path ∉ after := by
    rw [List.nodup_append] at hnodup
    exact ⟨fun hmem => hnodup.2.2 _ hmem _ (by simp) rfl, (List.nodup_cons.1 hnodup.2.1).1⟩
  have hsame : ∀ {others : List Path}, path ∉ others →
      gather view contents' others = gather view contents others := by
    intro others hnot
    refine List.flatMap_congr fun other hmem => ?_
    rw [hother other (fun heq => hnot (heq ▸ hmem))]
  refine ⟨gather view contents before, gather view contents after, ?_, ?_⟩
  · simp [gather, hfile]
  · rw [← hsame hbefore, ← hsame hafter]
    simp [gather, hnone]

/-- The directory without one of its backups. -/
theorem Ready.eraseBackup (h : Ready maxRotatedFiles all gone disk) {index : ℕ}
    (hindex : index ∈ indices maxRotatedFiles) {file : FileData}
    (hfile : disk.files.lookup (.backup index) = some file) :
    Ready maxRotatedFiles all (gone ++ [file])
      (disk.setFiles (disk.files.erase (.backup index))) := by
  have hother : ∀ path, path ≠ .backup index →
      (disk.files.erase (.backup index)).lookup path = disk.files.lookup path :=
    fun path hpath => Finmap.lookup_erase_ne hpath
  obtain ⟨hmanifest, hfiles⟩ := Disk.hasRotationEntry_eq_false_iff.1 h.quiet
  refine ⟨⟨Disk.hasRotationEntry_eq_false_iff.2 ⟨hmanifest, fun path hpath => ?_⟩, ?_⟩, ?_⟩
  · rw [Disk.files_setFiles, hother path (by rintro rfl; cases hpath), hfiles path hpath]
  · have hmem : Path.backup index ∈ retainedPaths maxRotatedFiles :=
      List.mem_append_left _ (List.mem_reverse.2 (List.mem_map_of_mem hindex))
    obtain ⟨before, after, hbefore, hafter⟩ := gather_erase fileLines
      (retainedPaths_nodup maxRotatedFiles) hmem hfile (Finmap.lookup_erase _ _) hother
    obtain ⟨hcomplete, hordered⟩ := h.balanced
    rw [hbefore] at hcomplete hordered
    rw [Disk.files_setFiles, hafter]
    refine ⟨?_, .trans (by simp) hordered⟩
    rw [List.flatMap_append, List.flatMap_singleton, List.append_assoc]
    refine .trans (.append_left _ ?_) hcomplete
    rw [← List.append_assoc]
    exact List.perm_append_comm.append_right _
  · intro active hactive
    rw [Disk.files_setFiles, hother _ (by simp)] at hactive
    exact h.terminated active hactive

/-- Removing a backup keeps the balance. -/
theorem removeBackup_metered {ε : Type} {index : ℕ} (hindex : index ∈ indices maxRotatedFiles)
    {file : FileData} :
    Program.Metered (retiredBy maxRotatedFiles)
      (fun gone state => InCharge maxRotatedFiles all gone state ∧
        state.disk.files.lookup (.backup index) = some file)
      (do
        Program.step (.remove (.backup index))
          (fun state =>
            state.setDisk (state.disk.setFiles (state.disk.files.erase (.backup index))))
        Program.step .sync id : Program LogState Operation ε Unit)
      (fun gone state => Accounts table maxRotatedFiles all gone state.disk)
      (fun _ => InCharge maxRotatedFiles all) E := by
  refine .bind (R := fun _ => InCharge maxRotatedFiles all) (.step fun gone state h => ?_)
    fun _ => .step fun gone state h => ?_
  · have hgone : retiredBy maxRotatedFiles (state, .remove (.backup index)) = [file] := by
      simp [retiredBy, retired, h.2]
    rw [hgone]
    have herased := h.1.ready.eraseBackup hindex h.2
    exact ⟨h.1.ready.accounts, herased.accounts, h.1.isOpen, h.1.recovered, herased⟩
  · simp only [retiredBy, retired, List.append_nil]
    exact ⟨h.ready.accounts, h.ready.accounts, h⟩

/-- A reading of the clock spends nothing. -/
theorem readClock_metered {P C : List FileData → LogState → Prop}
    (htick : ∀ gone state, P gone state → P gone { state with ticks := state.ticks + 1 })
    (hC : ∀ gone state, P gone state → C gone state) :
    Program.Metered (retiredBy maxRotatedFiles) P (readClock clock) C (fun _ => P) E :=
  .read_bind fun _ => .modify_bind P (fun _ _ h => htick _ _ h.1)
    (.pure fun gone state h => ⟨hC gone state h, h⟩)

theorem python_readClock_mirrors (state : LogState) :
    Program.Mirrors SameFailure (Python.readClock clock) (readClock clock) state :=
  (Program.Mirrors.read _ _).bind fun _ _ =>
    (Program.Mirrors.modify _ _).bind fun _ _ => .pure _ _

theorem pruneExpiredBackups_metered (hmax : config.maxRotatedFiles = maxRotatedFiles) :
    Program.Metered (retiredBy maxRotatedFiles) (InCharge maxRotatedFiles all)
      (pruneExpiredBackups config clock)
      (fun gone state => Accounts table maxRotatedFiles all gone state.disk)
      (fun _ => InCharge maxRotatedFiles all) E := by
  subst hmax
  unfold pruneExpiredBackups
  cases config.maxAge with
  | none => exact .pure fun _ _ h => ⟨h.ready.accounts, h⟩
  | some maxAge =>
      refine .forEach (I := fun _ => InCharge config.maxRotatedFiles all)
        (fun _ _ h => h.ready.accounts) fun index rest hdone => ?_
      have hindex : index ∈ indices config.maxRotatedFiles := by
        obtain ⟨done, hdone⟩ := hdone
        rw [hdone]
        simp
      refine .read_bind fun backup => ?_
      cases backup with
      | none => exact .pure fun _ _ h => ⟨h.1.ready.accounts, h.1⟩
      | some file =>
          refine (readClock_metered (fun _ _ h => ⟨h.1.tick, h.2⟩)
            fun _ _ h => h.1.ready.accounts).bind fun now => ?_
          split
          · exact removeBackup_metered hindex
          · exact .pure fun _ _ h => ⟨h.1.ready.accounts, h.1⟩

theorem python_pruneExpiredRotatedFiles_metered
    (hmax : config.maxRotatedFiles = maxRotatedFiles) :
    Program.Metered (retiredBy maxRotatedFiles) (InCharge maxRotatedFiles all)
      (Python.pruneExpiredRotatedFiles config clock times)
      (fun gone state => Accounts table maxRotatedFiles all gone state.disk)
      (fun _ => InCharge maxRotatedFiles all) E := by
  subst hmax
  unfold Python.pruneExpiredRotatedFiles
  cases config.maxAge with
  | none => exact .pure fun _ _ h => ⟨h.ready.accounts, h⟩
  | some maxAge =>
      refine ((readClock_metered (fun _ _ h => h.tick) fun _ _ h => h.ready.accounts).of_mirrors
        SameFailure fun _ state _ => python_readClock_mirrors state).bind fun now => ?_
      refine .forEach (I := fun _ => InCharge config.maxRotatedFiles all)
        (fun _ _ h => h.ready.accounts) fun index rest hdone => ?_
      have hindex : index ∈ indices config.maxRotatedFiles := by
        obtain ⟨done, hdone⟩ := hdone
        rw [hdone]
        simp
      refine .read_bind fun rotated => ?_
      cases rotated with
      | none => exact .pure fun _ _ h => ⟨h.1.ready.accounts, h.1⟩
      | some file =>
          dsimp only
          split
          · exact removeBackup_metered hindex
          · exact .pure fun _ _ h => ⟨h.1.ready.accounts, h.1⟩

/-! ## Rotating

After a rotation there is no active file, so the process stays in charge. -/

/-- A rotation of a log in charge leaves it in charge: there is no active file. -/
theorem rotating_metered {ε : Type} {p : Program Disk Operation ε Unit}
    (h : Program.Metered (retired maxRotatedFiles)
      (fun gone disk => AtRest maxRotatedFiles all gone disk ∧
        (disk.files.lookup .active).isSome = true)
      p (Accounts table maxRotatedFiles all) (fun _ => AtRest maxRotatedFiles all)
      (fun _ _ => False))
    (hrotated : ∀ disk, disk.hasRotationEntry = false →
      (disk.files.lookup .active).isSome = true →
      Rotated maxRotatedFiles disk.files.lookup none (p disk).final) :
    Program.Metered (retiredBy maxRotatedFiles)
      (fun gone state => InCharge maxRotatedFiles all gone state ∧
        (state.disk.files.lookup .active).isSome = true)
      (Program.zoom LogState.disk LogState.setDisk p)
      (fun gone state => Accounts table maxRotatedFiles all gone state.disk)
      (fun _ => InCharge maxRotatedFiles all) E := by
  have hgone := h.and_final (R := fun _ disk => disk.files.lookup .active = none)
    fun _ disk hdisk _ _ => (hrotated disk hdisk.1.quiet hdisk.2).files .active
  refine (onDisk_metered hgone false true).conseq
    (fun _ _ h => ⟨⟨h.1.isOpen, h.1.recovered⟩, h.1.ready.toAtRest, h.2⟩) (fun _ _ h => h)
    (fun _ _ _ h => ⟨h.1.1, h.1.2, h.2.1, fun file hfile => ?_⟩) fun _ _ h => h.2.elim
  rw [h.2.2] at hfile
  cases hfile

theorem rotateBeforeAppend_metered (hmax : config.maxRotatedFiles = maxRotatedFiles)
    (hfits : maxRotatedFiles < 2 ^ 64) (nanos nextRecordBytes : ℕ) :
    Program.Metered (retiredBy maxRotatedFiles) (InCharge maxRotatedFiles all)
      (rotateBeforeAppend config clock nanos nextRecordBytes)
      (fun gone state => Accounts table maxRotatedFiles all gone state.disk)
      (fun _ => InCharge maxRotatedFiles all) E := by
  subst hmax
  refine .read_bind fun active => ?_
  cases active with
  | none => exact .pure fun _ _ h => ⟨h.1.ready.accounts, h.1⟩
  | some file =>
      have hage : Program.Metered (retiredBy config.maxRotatedFiles)
          (fun gone state => InCharge config.maxRotatedFiles all gone state ∧
            state.disk.files.lookup .active = some file)
          (ageExceeded config clock file)
          (fun gone state => Accounts table config.maxRotatedFiles all gone state.disk)
          (fun _ gone state => InCharge config.maxRotatedFiles all gone state ∧
            state.disk.files.lookup .active = some file) E := by
        unfold ageExceeded
        cases config.maxAge with
        | none => exact .pure fun _ _ h => ⟨h.1.ready.accounts, h⟩
        | some limit =>
            exact (readClock_metered (fun _ _ h => ⟨h.1.tick, h.2⟩)
              fun _ _ h => h.1.ready.accounts).bind
                fun now => .pure fun _ _ h => ⟨h.1.ready.accounts, h⟩
      refine hage.bind fun aged => ?_
      split
      · refine ((rotating_metered (rotateCurrent_metered nanos config.one_le_maxRotatedFiles hfits)
          fun disk hquiet hactive => ?_).conseq (fun _ _ h => ⟨h.1, by rw [h.2]; rfl⟩)
            (fun _ _ h => h) (fun _ _ _ h => h) fun _ _ h => h).bind
          fun _ => pruneExpiredBackups_metered rfl
        obtain ⟨⟨⟩, -, hrotated⟩ := (rotateCurrent_triple nanos config.one_le_maxRotatedFiles
          (Disk.hasRotationEntry_eq_false_iff.1 hquiet).2 hactive).exists_ok rfl
        exact hrotated
      · exact .pure fun _ _ h => ⟨h.1.ready.accounts, h.1⟩

/-- The Python log decides by the active file, and rotates only if there is one. -/
theorem shouldRotate_metered (lineSize : ℕ) :
    Program.Metered (retiredBy maxRotatedFiles) (InCharge maxRotatedFiles all)
      (Python.shouldRotate config clock times lineSize)
      (fun gone state => Accounts table maxRotatedFiles all gone state.disk)
      (fun due gone state => InCharge maxRotatedFiles all gone state ∧
        (due = true → (state.disk.files.lookup .active).isSome = true)) E := by
  refine .read_bind fun metadata => ?_
  cases metadata with
  | none => exact .pure fun _ _ h => ⟨h.1.ready.accounts, h.1, fun hdue => by cases hdue⟩
  | some file =>
      dsimp only
      split
      · exact .pure fun _ _ h => ⟨h.1.ready.accounts, h.1, fun _ => by rw [h.2]; rfl⟩
      · cases config.maxAge with
        | none => exact .pure fun _ _ h => ⟨h.1.ready.accounts, h.1, fun hdue => by cases hdue⟩
        | some maxAge =>
            refine ((readClock_metered (fun _ _ h => ⟨h.1.tick, h.2⟩)
              fun _ _ h => h.1.ready.accounts).of_mirrors SameFailure
                fun _ state _ => python_readClock_mirrors state).bind fun now => ?_
            exact .pure fun _ _ h => ⟨h.1.ready.accounts, h.1, fun _ => by rw [h.2]; rfl⟩

theorem makeWay_metered (hmax : config.maxRotatedFiles = maxRotatedFiles)
    (hfits : maxRotatedFiles < 2 ^ 64) (random lineSize : ℕ) :
    Program.Metered (retiredBy maxRotatedFiles) (InCharge maxRotatedFiles all)
      (Python.makeWay config clock rt table dumps times random lineSize)
      (fun gone state => Accounts table maxRotatedFiles all gone state.disk)
      (fun _ => InCharge maxRotatedFiles all) E := by
  subst hmax
  refine (python_pruneExpiredRotatedFiles_metered rfl).bind fun _ =>
    (shouldRotate_metered lineSize).bind fun due => ?_
  split
  · refine ((rotating_metered (python_rotate_metered random config.one_le_maxRotatedFiles hfits)
      fun disk hquiet hactive => ?_).conseq (fun _ _ h => ⟨h.1, h.2 (by assumption)⟩)
        (fun _ _ h => h) (fun _ _ _ h => h) fun _ _ h => h).bind
      fun _ => python_pruneExpiredRotatedFiles_metered rfl
    exact (python_rotate_rotated random config.one_le_maxRotatedFiles hfits hquiet hactive).2
  · exact .pure fun _ _ h => ⟨h.1.ready.accounts, h.1⟩

/-! ## Writing

A line becomes one of the log with its last byte, the line feed.  Before that it is a tail, which
the next recovery cuts off. -/

/-- Part of a line has been written, and this is the rest of it. Until the rest is empty, the part
is a tail of the active file. -/
structure Writing (maxRotatedFiles : ℕ) (all : List Bytes) (line rest : Bytes)
    (gone : List FileData) (state : LogState) : Prop where
  isOpen : state.closed = false
  recovered : state.recoveryComplete = true
  quiet : state.disk.hasRotationEntry = false
  active : ∃ text done stamp stamp', done ++ rest = line ++ [newline] ∧
    tailOf newline text = [] ∧
    state.disk.files.lookup .active = some ⟨text ++ done, stamp⟩ ∧
    AtRest maxRotatedFiles all gone (state.disk.putActive ⟨text, stamp'⟩)

theorem hasRotationEntry_putActive (file : FileData) (disk : Disk) :
    (disk.putActive file).hasRotationEntry = disk.hasRotationEntry := by
  rw [Bool.eq_iff_iff, ← not_iff_not, Bool.not_eq_true, Bool.not_eq_true,
    Disk.hasRotationEntry_eq_false_iff, Disk.hasRotationEntry_eq_false_iff]
  refine and_congr_right fun _ => forall₂_congr fun path hpath => ?_
  rw [lookup_putActive, if_neg (by rintro rfl; cases hpath)]

theorem putActive_putActive (file file' : FileData) (disk : Disk) :
    (disk.putActive file').putActive file = disk.putActive file := by
  refine Disk.ext_lookup (fun path => ?_) rfl
  simp only [lookup_putActive]
  split_ifs <;> rfl

theorem putActive_self {file : FileData} (hfile : disk.files.lookup .active = some file) :
    disk.putActive file = disk := by
  refine Disk.ext_lookup (fun path => ?_) rfl
  rw [lookup_putActive]
  split_ifs with hpath
  · rw [hpath, hfile]
  · rfl

/-- The lines of a text behind which a part of a line or a whole line was written. -/
theorem linesOf_written {text done rest line : Bytes} (htext : tailOf newline text = [])
    (hnewline : newline ∉ line) (hdone : done ++ rest = line ++ [newline]) :
    linesOf newline (text ++ done) =
        linesOf newline text ++ (if rest = [] then [line] else []) ∧
      (rest = [] → tailOf newline (text ++ done) = []) := by
  obtain ⟨lines, tail, rfl, hlines, htail⟩ := exists_render newline text
  rw [tailOf_render htail] at htext
  subst htext
  rw [linesOf_render hlines htail]
  by_cases hrest : rest = []
  · subst hrest
    rw [List.append_nil] at hdone
    subst hdone
    have hwritten : render newline lines ++ [] ++ (line ++ [newline]) =
        render newline (lines ++ [line]) ++ [] := by simp
    have hall : ∀ line' ∈ lines ++ [line], newline ∉ line' := by
      intro line' hline'
      rcases List.mem_append.1 hline' with hline' | hline'
      · exact hlines line' hline'
      · rwa [List.mem_singleton.1 hline']
    rw [hwritten, linesOf_render hall htail, tailOf_render htail, if_pos rfl]
    exact ⟨rfl, fun _ => rfl⟩
  · have hpart : newline ∉ done := by
      intro hmem
      obtain ⟨front, last, rfl⟩ := List.eq_nil_or_concat rest |>.resolve_left hrest
      rw [List.concat_eq_append, ← List.append_assoc] at hdone
      have hfront := (List.append_inj' hdone rfl).1
      exact hnewline (hfront ▸ List.mem_append_left _ hmem)
    rw [List.append_nil, linesOf_render hlines hpart, if_neg hrest, List.append_nil]
    exact ⟨rfl, fun h => absurd h hrest⟩

/-- As long as bytes are missing, nothing is new. -/
theorem Writing.atRest {line rest : Bytes} (hnewline : newline ∉ line)
    (h : Writing maxRotatedFiles all line rest gone state) (hrest : rest ≠ []) :
    AtRest maxRotatedFiles all gone state.disk := by
  obtain ⟨text, done, stamp, stamp', hdone, htext, hactive, hbefore⟩ := h.active
  refine hbefore.congr h.quiet fun path => ?_
  rw [lookup_putActive]
  split_ifs with hpath
  · have hlines := (linesOf_written htext hnewline hdone).1
    rw [if_neg hrest, List.append_nil] at hlines
    rw [hpath, hactive]
    exact hlines
  · rfl

/-- With its last byte the line is one of the lines of the log. -/
theorem Writing.ready {line : Bytes} (hnewline : newline ∉ line)
    (h : Writing maxRotatedFiles all line [] gone state) :
    Ready maxRotatedFiles (all ++ [line]) gone state.disk := by
  obtain ⟨text, done, stamp, stamp', hdone, htext, hactive, hbefore⟩ := h.active
  obtain ⟨hlines, htail⟩ := linesOf_written htext hnewline hdone
  rw [if_pos rfl] at hlines
  have hgather : gather fileLines state.disk.files.lookup (retainedPaths maxRotatedFiles) =
      gather fileLines (state.disk.putActive ⟨text, stamp'⟩).files.lookup
        (retainedPaths maxRotatedFiles) ++ [line] := by
    refine gather_extend maxRotatedFiles hactive (fun index => ?_) ?_
    · rw [lookup_putActive, if_neg (by simp)]
    · rw [lookup_putActive, if_pos rfl]
      exact hlines
  obtain ⟨hcomplete, hordered⟩ := hbefore.balanced
  refine ⟨⟨h.quiet, ?_⟩, fun file hfile => ?_⟩
  · rw [hgather]
    refine ⟨?_, hordered.append (List.Sublist.refl _)⟩
    rw [← List.append_assoc]
    exact hcomplete.append_right _
  · obtain rfl := Option.some.inj (hactive.symm.trans hfile)
    exact htail rfl

/-- The line is not yet one of the lines of the log, or it is. This is all that is known of an
append that is stopped somewhere in its write. -/
def Extended (table : Python.AlnumTable) (maxRotatedFiles : ℕ) (all : List Bytes) (line : Bytes)
    (gone : List FileData) (state : LogState) : Prop :=
  Accounts table maxRotatedFiles all gone state.disk ∨
    Accounts table maxRotatedFiles (all ++ [line]) gone state.disk

theorem Writing.extended {line rest : Bytes} (hnewline : newline ∉ line)
    (h : Writing maxRotatedFiles all line rest gone state) :
    Extended table maxRotatedFiles all line gone state := by
  by_cases hrest : rest = []
  · subst hrest
    exact .inr (h.ready hnewline).accounts
  · exact .inl (h.atRest hnewline hrest).accounts

/-- One more byte. -/
theorem Writing.put {line rest : Bytes} {byte : UInt8}
    (h : Writing maxRotatedFiles all line (byte :: rest) gone state) (stamp : Instant) :
    Writing maxRotatedFiles all line rest gone (writeByte stamp byte state) := by
  obtain ⟨text, done, stamp₀, stamp', hdone, htext, hactive, hbefore⟩ := h.active
  have hwrite : writeByte stamp byte state =
      state.setDisk (state.disk.putActive ⟨text ++ done ++ [byte], stamp⟩) := by
    simp only [writeByte, hactive]
    rfl
  rw [hwrite]
  refine ⟨h.isOpen, h.recovered, ?_, text, done ++ [byte], stamp, stamp', ?_, htext, ?_, ?_⟩
  · exact (hasRotationEntry_putActive _ _).trans h.quiet
  · rw [List.append_assoc, List.singleton_append, hdone]
  · simp [LogState.setDisk, lookup_putActive]
  · simp only [LogState.setDisk, putActive_putActive]
    exact hbefore

/-- The active file is open, and nothing has been written. -/
theorem InCharge.writing (h : InCharge maxRotatedFiles all gone state) {file : FileData}
    (hfile : state.disk.files.lookup .active = some file) (line : Bytes) :
    Writing maxRotatedFiles all line (line ++ [newline]) gone state := by
  refine ⟨h.isOpen, h.recovered, h.ready.quiet, file.content, [], file.modified, file.modified,
    rfl, h.ready.terminated file hfile, ?_, ?_⟩
  · rw [List.append_nil]
    exact hfile
  · rw [putActive_self hfile]
    exact h.ready.toAtRest

/-- Creating the active file adds no line. -/
theorem InCharge.create (h : InCharge maxRotatedFiles all gone state)
    (hnone : state.disk.files.lookup .active = none) (stamp : Instant) :
    InCharge maxRotatedFiles all gone (createActive stamp state) ∧
      (createActive stamp state).disk.files.lookup .active = some ⟨[], stamp⟩ := by
  have hcreate : createActive stamp state = state.setDisk (state.disk.putActive ⟨[], stamp⟩) := by
    simp only [createActive, hnone]
    rfl
  have hactive : (state.disk.putActive ⟨[], stamp⟩).files.lookup .active = some ⟨[], stamp⟩ := by
    rw [lookup_putActive, if_pos rfl]
  rw [hcreate]
  refine ⟨⟨h.isOpen, h.recovered, ⟨h.ready.toAtRest.congr
    ((hasRotationEntry_putActive _ _).trans h.ready.quiet) fun path => ?_, fun file hfile => ?_⟩⟩,
    hactive⟩
  · rw [LogState.setDisk, lookup_putActive]
    split_ifs with hpath
    · rw [hpath, hnone]
      rfl
    · rfl
  · obtain rfl := Option.some.inj (hactive.symm.trans hfile)
    rfl

/-- Writing a line, up to the last byte and after it. -/
theorem writeRecord_metered {line : Bytes} (hnewline : newline ∉ line) :
    Program.Metered (retiredBy maxRotatedFiles) (InCharge maxRotatedFiles all)
      (writeRecord clock (line ++ [newline])) (Extended table maxRotatedFiles all line)
      (fun _ => InCharge maxRotatedFiles (all ++ [line])) E := by
  have hkeep : ∀ {gone state}, InCharge maxRotatedFiles all gone state →
      Extended table maxRotatedFiles all line gone state := fun h => .inl h.ready.accounts
  refine (readClock_metered (fun _ _ h => h.tick) fun _ _ h => hkeep h).bind fun stamp => ?_
  have hopen : Program.Metered (retiredBy maxRotatedFiles) (InCharge maxRotatedFiles all)
      (openActive stamp) (Extended table maxRotatedFiles all line)
      (fun _ => Writing maxRotatedFiles all line (line ++ [newline])) E := by
    refine .read_bind fun activeExists => ?_
    split
    · rename_i hexists
      refine .pure fun _ state h => ⟨hkeep h.1, ?_⟩
      obtain ⟨file, hfile⟩ := Option.isSome_iff_exists.1 (h.2.trans hexists)
      exact h.1.writing hfile line
    · rename_i hexists
      rw [Bool.not_eq_true] at hexists
      refine .step fun _ state h => ?_
      have hnone : state.disk.files.lookup .active = none := by
        rw [← Option.not_isSome_iff_eq_none, h.2, hexists]
        exact Bool.false_ne_true
      obtain ⟨hcharge, hactive⟩ := h.1.create hnone stamp
      simp only [retiredBy, retired, List.append_nil]
      exact ⟨hkeep h.1, hkeep hcharge, hcharge.writing hactive line⟩
  refine hopen.bind fun _ => ?_
  have hbytes : Program.Metered (retiredBy maxRotatedFiles)
      (Writing maxRotatedFiles all line (line ++ [newline]))
      (Program.forEach (fun byte => Program.step (.write .active) (writeByte stamp byte))
        (line ++ [newline]) : LogProgram Unit)
      (Extended table maxRotatedFiles all line)
      (fun _ => Writing maxRotatedFiles all line []) E := by
    refine .forEach (I := Writing maxRotatedFiles all line)
      (fun _ _ h => h.extended hnewline) fun byte rest _ => .step fun gone state h => ?_
    simp only [retiredBy, retired, List.append_nil]
    exact ⟨h.extended hnewline, (h.put stamp).extended hnewline, h.put stamp⟩
  have hsync : ∀ {P : List FileData → LogState → Prop},
      (∀ gone state, P gone state → Extended table maxRotatedFiles all line gone state) →
      Program.Metered (retiredBy maxRotatedFiles) P (Program.step .sync id : LogProgram Unit)
        (Extended table maxRotatedFiles all line) (fun _ => P) E := by
    refine fun {P} hP => .step fun gone state h => ?_
    simp only [retiredBy, retired, List.append_nil, id]
    exact ⟨hP _ _ h, hP _ _ h, h⟩
  refine hbytes.bind fun _ => (hsync fun _ _ h => h.extended hnewline).bind fun _ => ?_
  exact (hsync fun _ _ h => h.extended hnewline).conseq (fun _ _ h => h) (fun _ _ h => h)
    (fun _ _ _ h => ⟨h.isOpen, h.recovered, h.ready hnewline⟩) fun _ _ h => h

/-! ## Appends

The parts in order, for the two runtimes. -/

theorem append_metered (hmax : config.maxRotatedFiles = maxRotatedFiles)
    (hfits : maxRotatedFiles < 2 ^ 64) (record : AuditRecord) (nanos : ℕ)
    (hnewline : newline ∉ rt.toVec record) :
    Program.Metered (retiredBy maxRotatedFiles) (MayAppend table maxRotatedFiles all)
      (append config clock rt record nanos)
      (Extended table maxRotatedFiles all (rt.toVec record))
      (fun _ => InCharge maxRotatedFiles (all ++ [rt.toVec record]))
      (MayAppend table maxRotatedFiles all) := by
  have hprepare : Program.Metered (retiredBy maxRotatedFiles)
      (MayAppend table maxRotatedFiles all)
      (prepareAppend config clock rt nanos (encodedLine rt record).length)
      (fun gone state => Accounts table maxRotatedFiles all gone state.disk)
      (fun _ => InCharge maxRotatedFiles all) (MayAppend table maxRotatedFiles all) :=
    (ensureReady_metered hmax).bind fun _ => (pruneExpiredBackups_metered hmax).bind fun _ =>
      rotateBeforeAppend_metered hmax hfits nanos _
  exact (hprepare.conseq (fun _ _ h => h) (fun _ _ h => .inl h) (fun _ _ _ h => h)
    fun _ _ h => h).bind fun _ => writeRecord_metered hnewline

theorem python_append_metered (hmax : config.maxRotatedFiles = maxRotatedFiles)
    (hfits : maxRotatedFiles < 2 ^ 64) {payload : Bytes} (random : ℕ)
    (hnewline : newline ∉ payload) :
    Program.Metered (retiredBy maxRotatedFiles) (MayAppend table maxRotatedFiles all)
      (Python.append config clock rt table dumps times log payload random)
      (Extended table maxRotatedFiles all payload)
      (fun _ => InCharge maxRotatedFiles (all ++ [payload]))
      (MayAppend table maxRotatedFiles all) := by
  have hprepare : Program.Metered (retiredBy maxRotatedFiles)
      (MayAppend table maxRotatedFiles all)
      (Python.ensureReady clock rt table dumps log >>= fun _ =>
        Python.makeWay config clock rt table dumps times random (payload ++ [newline]).length)
      (fun gone state => Accounts table maxRotatedFiles all gone state.disk)
      (fun _ => InCharge maxRotatedFiles all) (MayAppend table maxRotatedFiles all) :=
    python_ensureReady_metered.bind fun _ => makeWay_metered hmax hfits random _
  unfold Python.append
  rw [← Program.bind_assoc_eq]
  exact (hprepare.conseq (fun _ _ h => h) (fun _ _ h => .inl h) (fun _ _ _ h => h)
    fun _ _ h => h).bind fun _ => (writeRecord_metered hnewline).of_mirrors SameFailure
      fun _ state _ => appendLine_mirrors clock _ state

end

end HpGuardian

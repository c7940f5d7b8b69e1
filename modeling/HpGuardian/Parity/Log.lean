import HpGuardian.Audit.Layouts
import HpGuardian.Parity.Rotation
import HpGuardian.Python.Log

/-!
# Appends in both runtimes

The two appends read the clock at different places and name their rotations differently, but at one
time both map the layout of a log in the same way, except where a rotation is due: the age limit of
the Rust log spares an empty active file.  So a single append leaves the two directories different
iff such a file is old enough and there is a younger backup (`appends_agree_iff`), and a log whose
active file is not empty never gets there: over every run of appends the two directories stay the
same (`appends_agree_over_runs`).

What is compared is the layout, the map of `Layouts` with each runtime's own rules for the age of
files and for rotations.  Names of transactions do not occur in it, since no file of a rotation is
left when an append is done.

The age of a file is where the clocks come in.  Rust compares times as they are, Python rounds the
time of a file to a microsecond, so that the two may differ within half a microsecond of the limit.
At times in whole microseconds, of the files and of the appends, the ages are the same
(`TimesInMicroseconds.expired_eq`), and appends at such times keep them so.  This condition is part
of both statements.
-/

namespace HpGuardian

open Framework

/-! ## The Python append on layouts

The Python append carries out the map with its own rules, by the same steps of argument as the Rust
append in `Layouts`. -/

/-- The file has reached the age limit, as far as Python can tell. -/
def Python.expired (config : ValidConfig) (times : Python.FileTimes) (now : Instant)
    (file : FileData) : Bool :=
  config.maxAge.any (fun maxAge => maxAge ≤ now - times.fromTimestamp file.modified)

/-- When `_should_rotate` answers `True`. -/
def Python.dueBefore (config : ValidConfig) (old : FileData → Bool) (lineSize : ℕ)
    (active : Option FileData) : Bool :=
  active.any (fun file => config.maxBytes.any (fun limit =>
    0 < file.content.length && limit < file.content.length + lineSize) || old file)

section

variable {config : ValidConfig} {now : Instant} {contents : Contents} {rt : JsonRuntime}
  {table : Python.AlnumTable} {dumps : Json → Bytes} {times : Python.FileTimes} {log : String}

theorem pruneRotatedFile_prunesOne {maxAge : ℤ} (hage : config.maxAge = some maxAge) :
    PrunesOne (Python.expired config times now) (Python.pruneRotatedFile times maxAge now) := by
  intro index contents state h
  have hexpired : ∀ file : FileData, Python.expired config times now file =
      decide (maxAge ≤ now - times.fromTimestamp file.modified) := by
    intro file
    simp [Python.expired, hage]
  simp only [Python.pruneRotatedFile, Program.read_bind_apply, h.files]
  cases hfile : contents (.backup index) with
  | none =>
      rw [withoutExpired_eq_self (by simp [hfile])]
      exact ⟨fun _ _ => trivial, h⟩
  | some file =>
      by_cases hold : maxAge ≤ now - times.fromTimestamp file.modified
      · simp only [if_pos hold]
        exact ⟨fun _ _ => trivial, h.eraseBackup hfile (by simp [hexpired, hold])⟩
      · simp only [if_neg hold]
        rw [withoutExpired_eq_self (by simp [hfile, hexpired, hold])]
        exact ⟨fun _ _ => trivial, h⟩

/-- `_prune_expired_rotated_files` at one time. -/
theorem pruneExpiredRotatedFiles_ends (contents : Contents) :
    Ends (Shows contents) (Python.pruneExpiredRotatedFiles config (fun _ => now) times)
      (Shows (unexpired config (Python.expired config times now) contents)) := by
  unfold Python.pruneExpiredRotatedFiles
  cases hage : config.maxAge with
  | none =>
      rw [unexpired_eq_self fun file => by simp [Python.expired, hage]]
      exact .pure fun _ h => h
  | some maxAge =>
      intro state h
      exact (pruneRotatedFile_prunesOne hage).forEach contents _ h.tick

/-- A Python rotation rotates the directory. -/
theorem python_rotate_rotated (random : ℕ) {maxRotatedFiles : ℕ} (hmax : 1 ≤ maxRotatedFiles)
    (hfits : maxRotatedFiles < 2 ^ 64) {disk : Disk} (hquiet : disk.hasRotationEntry = false)
    (hactive : (disk.files.lookup .active).isSome = true) :
    (Python.rotate rt table dumps maxRotatedFiles random disk).result = .ok () ∧
      Rotated maxRotatedFiles disk.files.lookup none
        (Python.rotate rt table dumps maxRotatedFiles random disk).final := by
  have hfiles := (Disk.hasRotationEntry_eq_false_iff.1 hquiet).2
  have hstaging := withManifest_staging (Begun.python random).name_isAlphanum hmax hfiles hactive
  obtain ⟨⟨⟩, hresult, hrotated⟩ := (recoverManifest_staging
    (begun_describes (.python random) hmax hquiet hactive)).exists_ok hstaging
  have hmirrors : Program.Mirrors SameFailure (Python.recoverManifest rt table dumps)
      (recoverManifest writeManifestAtomically)
      (withManifest (newRotation (Begun.python random).name maxRotatedFiles hmax disk) disk) :=
    mirrors_of_rotating (.python random) hmax hfits (.inl hstaging)
  have hrun := @python_rotate_apply rt table dumps _ _ random hmax hfits hquiet hactive
  constructor
  · rw [hrun]
    dsimp only
    exact (hmirrors.result_ok_iff ()).2 hresult
  · rw [hrun]
    dsimp only
    rw [hmirrors.final]
    exact hrotated

theorem python_rotate_ends (random : ℕ) (hfits : config.maxRotatedFiles < 2 ^ 64)
    (hquiet : Quiet contents) (hactive : (contents .active).isSome = true) :
    Ends (Shows contents)
      (Python.onDisk (Python.rotate rt table dumps config.maxRotatedFiles random))
      (Shows (rotatedContents config.maxRotatedFiles contents none)) := by
  refine ends_of_rotated fun disk hsettled hfiles => ?_
  obtain rfl : disk.files.lookup = contents := funext hfiles
  exact python_rotate_rotated random config.one_le_maxRotatedFiles hfits
    (Disk.hasRotationEntry_eq_false_iff.2 ⟨hsettled, hquiet⟩) hactive

variable (config now times) in
/-- `_should_rotate` decides by the active file, and the log shows the same files. -/
theorem shouldRotate_apply (lineSize : ℕ) {state : LogState} (h : Shows contents state) :
    ∃ state', Python.shouldRotate config (fun _ => now) times lineSize state =
      ⟨[], state', .ok (Python.dueBefore config (Python.expired config times now) lineSize
        (contents .active))⟩ ∧
      Shows contents state' := by
  simp only [Python.shouldRotate, Program.read_bind_apply, h.files]
  cases hactive : contents .active with
  | none => exact ⟨state, rfl, h⟩
  | some file =>
      simp only [Python.dueBefore, Option.any_some]
      split
      · rename_i hsize
        exact ⟨state, by rw [hsize]; rfl, h⟩
      · rename_i hsize
        rw [Bool.not_eq_true] at hsize
        rw [hsize, Bool.false_or]
        cases hmax : config.maxAge with
        | none => exact ⟨state, by simp [Python.expired, hmax], h⟩
        | some maxAge =>
            refine ⟨{ state with ticks := state.ticks + 1 }, ?_, h.tick⟩
            simp only [Python.expired, hmax, Option.any_some]
            rfl

theorem makeWay_ends (random lineSize : ℕ) (hfits : config.maxRotatedFiles < 2 ^ 64)
    (hquiet : Quiet contents) :
    let old := Python.expired config times now
    Ends (Shows contents)
      (Python.makeWay config (fun _ => now) rt table dumps times random lineSize)
      (Shows (if Python.dueBefore config old lineSize (unexpired config old contents .active) then
        unexpired config old
          (rotatedContents config.maxRotatedFiles (unexpired config old contents) none)
      else unexpired config old contents)) := by
  intro old
  refine (pruneExpiredRotatedFiles_ends contents).bind fun _ state h => ?_
  obtain ⟨state', hrun, h'⟩ := shouldRotate_apply config now times lineSize h
  rw [Program.bind_run hrun]
  by_cases hdue : Python.dueBefore config old lineSize (unexpired config old contents .active) =
      true
  · have hactive : (unexpired config old contents .active).isSome = true := by
      cases hfile : unexpired config old contents .active with
      | none => simp [hfile, Python.dueBefore] at hdue
      | some file => rfl
    rw [if_pos hdue]
    simp only [old, hdue, if_true]
    exact ((python_rotate_ends random hfits (hquiet.unexpired config old) hactive).bind
      fun _ => pruneExpiredRotatedFiles_ends _) state' h'
  · rw [if_neg hdue]
    simp only [old, hdue]
    exact ⟨fun _ _ => trivial, h'⟩

/-- The write of a line takes the same steps in both runtimes. -/
theorem appendLine_mirrors (clock : ℕ → Instant) (line : Bytes) (state : LogState) :
    Program.Mirrors SameFailure (Python.appendLine clock line) (writeRecord clock line) state := by
  have hclock : Program.Mirrors SameFailure (Python.readClock clock) (readClock clock) state :=
    (Program.Mirrors.read _ _).bind fun _ _ =>
      (Program.Mirrors.modify _ _).bind fun _ _ => .pure _ _
  refine hclock.bind fun stamp _ => ?_
  have hopen : ∀ state, Program.Mirrors SameFailure (Python.openActive stamp) (openActive stamp)
      state := by
    intro state
    refine (Program.Mirrors.read _ _).bind fun activeExists _ => ?_
    split
    · exact .pure () _
    · exact .step _ _ _
  refine (hopen _).bind fun _ _ => ?_
  refine (Program.Mirrors.forEach (fun byte _ state => .step _ _ state) _).bind fun _ _ => ?_
  exact (Program.Mirrors.step _ _ _).bind fun _ _ => .step _ _ _

/-- Once the log is ready, a Python append at one time maps the layout as well, with its own rule
for rotations. -/
theorem python_append_ends_of_ready {P : LogState → Prop} (payload : Bytes) (random : ℕ)
    (hfits : config.maxRotatedFiles < 2 ^ 64) (hquiet : Quiet contents)
    (hready : Ends P (Python.ensureReady (fun _ => now) rt table dumps log) (Shows contents)) :
    Ends P (Python.append config (fun _ => now) rt table dumps times log payload random)
      (Shows (afterAppend config (Python.expired config times now) now
        (Python.dueBefore config (Python.expired config times now) (payload ++ [newline]).length)
        (payload ++ [newline]) contents)) := by
  have hline : payload ++ [newline] ≠ [] := by simp
  exact hready.bind fun _ => (makeWay_ends random _ hfits hquiet).bind fun _ =>
    Program.Mirrors.triple (fun state _ => appendLine_mirrors _ _ state)
      (writeRecord_ends hline _)

variable (config now rt table dumps times log) in
theorem python_append_ends (payload : Bytes) (random : ℕ)
    (hfits : config.maxRotatedFiles < 2 ^ 64) (hquiet : Quiet contents) :
    Ends (Shows contents)
      (Python.append config (fun _ => now) rt table dumps times log payload random)
      (Shows (afterAppend config (Python.expired config times now) now
        (Python.dueBefore config (Python.expired config times now) (payload ++ [newline]).length)
        (payload ++ [newline]) contents)) := by
  refine python_append_ends_of_ready payload random hfits hquiet fun state h => ?_
  simp only [Python.ensureReady, Program.read_bind_apply]
  rw [if_neg (by simp [h.isOpen])]
  simp only [Program.modify_bind_apply, Program.read_bind_apply]
  rw [if_pos h.recovered]
  exact ⟨fun _ _ => trivial, h.isOpen, h.recovered, h.settled, h.files⟩

/-! ## Where the layouts differ

The two rules for rotations are compared with one rule for the age of files. -/

section

variable {old old' : FileData → Bool}

/-- The Python log also rotates an empty active file that is old enough. -/
theorem python_dueBefore_eq (size : ℕ) (active : Option FileData) :
    Python.dueBefore config old size active =
      (dueBefore config old size active ||
        active.any (fun file => file.content.isEmpty && old file)) := by
  cases active with
  | none => rfl
  | some file =>
      cases hcontent : file.content with
      | nil =>
          cases hmax : config.maxBytes <;>
            simp [Python.dueBefore, dueBefore, hcontent, hmax]
      | cons byte bytes =>
          cases hmax : config.maxBytes <;>
            simp [Python.dueBefore, dueBefore, hcontent, hmax, sizeExceeded]

/-- A backup of the layout after an empty, expired active file was rotated and pruned. -/
theorem rotated_backup {file : FileData} (hactive : contents .active = some file)
    (hexpired : old file = true) {index : ℕ}
    (hindex : index ∈ indices config.maxRotatedFiles) :
    unexpired config old
        (rotatedContents config.maxRotatedFiles (unexpired config old contents) none)
        (.backup index) =
      if index = 1 then none else unexpired config old contents (.backup (index - 1)) := by
  have hrange := mem_indices.1 hindex
  rw [unexpired, if_pos hindex, rotatedContents, if_pos hrange, sourceSlot]
  by_cases hone : index = 1
  · rw [if_pos hone, if_pos hone]
    simp [Slot.path, unexpired, hactive, hexpired]
  · have hprevious : index - 1 ∈ indices config.maxRotatedFiles := mem_indices.2 (by omega)
    rw [if_neg hone, if_neg hone]
    simp [Slot.path, unexpired, hprevious, unlessExpired_idem]

/-- Rotating and pruning an empty, expired active file makes no difference iff there is no younger
backup. -/
theorem afterAppend_eq_iff {file : FileData} (hactive : contents .active = some file)
    (hempty : file.content = []) (hexpired : old file = true) (line : Bytes) :
    extended now line (unexpired config old contents) =
        extended now line (unexpired config old
          (rotatedContents config.maxRotatedFiles (unexpired config old contents) none)) ↔
      ∀ index ∈ indices config.maxRotatedFiles,
        unexpired config old contents (.backup index) = none := by
  constructor
  · intro heq index
    have hshift : ∀ index ∈ indices config.maxRotatedFiles,
        unexpired config old contents (.backup index) =
          if index = 1 then none else unexpired config old contents (.backup (index - 1)) := by
      intro index hindex
      have hpath := congrFun heq (.backup index)
      simp only [extended, reduceCtorEq, if_false] at hpath
      rw [hpath, rotated_backup hactive hexpired hindex]
    -- each backup is what the one before it was, and the first is absent
    induction index with
    | zero => exact fun hindex => absurd (mem_indices.1 hindex).1 (by omega)
    | succ index ih =>
        intro hindex
        rw [hshift _ hindex]
        by_cases hone : index + 1 = 1
        · rw [if_pos hone]
        · rw [if_neg hone, Nat.add_sub_cancel]
          have hrange := mem_indices.1 hindex
          exact ih (mem_indices.2 (by omega))
  · intro hnone
    funext path
    cases path with
    | active => simp [extended, unexpired, hactive, hempty, rotatedContents]
    | backup index =>
        simp only [extended, reduceCtorEq, if_false]
        by_cases hindex : index ∈ indices config.maxRotatedFiles
        · rw [rotated_backup hactive hexpired hindex, hnone index hindex]
          split_ifs with hone
          · rfl
          · have hrange := mem_indices.1 hindex
            exact (hnone _ (mem_indices.2 (by omega))).symm
        · have hrange : ¬ (1 ≤ index ∧ index ≤ config.maxRotatedFiles) :=
            fun h => hindex (mem_indices.2 h)
          simp [unexpired, rotatedContents, hindex, hrange]
    | _ => rfl

theorem unexpired_backup_eq_none_iff {index : ℕ}
    (hindex : index ∈ indices config.maxRotatedFiles) :
    unexpired config old contents (.backup index) = none ↔
      ∀ file, contents (.backup index) = some file → old file = true := by
  rw [unexpired, if_pos hindex]
  cases hfile : contents (.backup index) with
  | none => simp
  | some file => cases h : old file <;> simp [h]

theorem Shows.disk_eq_iff {contents' : Contents} {state state' : LogState}
    (h : Shows contents state) (h' : Shows contents' state') :
    state.disk = state'.disk ↔ contents = contents' := by
  constructor
  · intro heq
    funext path
    rw [← h.files, ← h'.files, heq]
  · intro heq
    refine Disk.ext_lookup (fun path => ?_) (by rw [h.settled, h'.settled])
    rw [h.files, h'.files, heq]

/-- The active file is empty and has reached the age limit, and there is a younger backup: the one
layout that the two rules for rotations treat differently. -/
def EmptyButAged (config : ValidConfig) (old : FileData → Bool) (contents : Contents) : Prop :=
  (∃ file, contents .active = some file ∧ file.content = [] ∧ old file = true) ∧
    ∃ index ∈ indices config.maxRotatedFiles, ∃ backup,
      contents (.backup index) = some backup ∧ old backup = false

/-- The two rules for rotations lead to the same layout unless the active file is empty but aged
beside a younger backup. -/
theorem layouts_eq_iff (size : ℕ) (line : Bytes) :
    afterAppend config old now (dueBefore config old size) line contents =
        afterAppend config old now (Python.dueBefore config old size) line contents ↔
      ¬ EmptyButAged config old contents := by
  have hkept : unexpired config old contents .active = contents .active := rfl
  unfold afterAppend
  simp only [hkept, python_dueBefore_eq]
  cases hactive : contents .active with
  | none => simp [EmptyButAged, hactive]
  | some file =>
      by_cases haged : file.content = [] ∧ old file = true
      · obtain ⟨hempty, hexpired⟩ := haged
        have hrust : dueBefore config old size (some file) = false := by
          simp [dueBefore, hempty]
        have hpython : (some file).any (fun file =>
            file.content.isEmpty && old file) = true := by
          simp [hempty, hexpired]
        rw [hrust, hpython, Bool.false_or, if_neg Bool.false_ne_true, if_pos rfl,
          afterAppend_eq_iff hactive hempty hexpired]
        constructor
        · rintro hnone ⟨-, index, hindex, backup, hbackup, hyoung⟩
          rw [(unexpired_backup_eq_none_iff hindex).1 (hnone index hindex) backup hbackup] at hyoung
          cases hyoung
        · intro hnot index hindex
          rw [unexpired_backup_eq_none_iff hindex]
          intro backup hbackup
          by_contra hyoung
          exact hnot ⟨⟨file, hactive, hempty, hexpired⟩, index, hindex, backup, hbackup,
            Bool.not_eq_true _ ▸ hyoung⟩
      · have hsame : (some file).any (fun file =>
            file.content.isEmpty && old file) = false := by
          rw [Option.any_some, Bool.and_eq_false_iff, List.isEmpty_eq_false_iff]
          by_cases hempty : file.content = []
          · exact .inr (Bool.not_eq_true _ ▸ fun h => haged ⟨hempty, h⟩)
          · exact .inl hempty
        rw [hsame, Bool.or_false]
        refine iff_of_true rfl ?_
        rintro ⟨⟨file', hfile', haged'⟩, -⟩
        obtain rfl := Option.some.inj (hactive.symm.trans hfile')
        exact haged haged'

/-! ## The age of a file

Times in whole microseconds make no difference between the runtimes, and the appends keep them
so. -/

/-- Every file of the layout is like this. -/
def Everywhere (P : FileData → Prop) (contents : Contents) : Prop :=
  ∀ path, ∀ file ∈ contents path, P file

theorem Everywhere.unexpired {P : FileData → Prop} (h : Everywhere P contents)
    (config : ValidConfig) (old : FileData → Bool) : Everywhere P (unexpired config old contents) :=
  fun path file hfile => h path file (unexpired_subset hfile)

theorem Everywhere.rotated {P : FileData → Prop} (h : Everywhere P contents)
    (maxRotatedFiles : ℕ) : Everywhere P (rotatedContents maxRotatedFiles contents none) := by
  intro path file hfile
  cases path with
  | active => cases hfile
  | backup index =>
      simp only [rotatedContents] at hfile
      split at hfile
      · exact h _ file hfile
      · exact h _ file hfile
  | _ => exact h _ file hfile

theorem unexpired_congr (hold : Everywhere (fun file => old file = old' file) contents) :
    unexpired config old contents = unexpired config old' contents := by
  funext path
  cases path with
  | backup index =>
      cases hfile : contents (.backup index) with
      | none => simp [unexpired, hfile]
      | some file => simp [unexpired, hfile, hold _ file hfile]
  | _ => rfl

/-- Rules for the age of files that agree on the layout lead to the same layout. -/
theorem afterAppend_congr (hold : Everywhere (fun file => old file = old' file) contents)
    (lineSize : ℕ) (line : Bytes) :
    afterAppend config old now (Python.dueBefore config old lineSize) line contents =
      afterAppend config old' now (Python.dueBefore config old' lineSize) line contents := by
  have hkept := hold.unexpired config old
  have hdue : Python.dueBefore config old lineSize (unexpired config old contents .active) =
      Python.dueBefore config old' lineSize (unexpired config old contents .active) := by
    cases hactive : unexpired config old contents .active with
    | none => rfl
    | some file => simp only [Python.dueBefore, Option.any_some, hkept _ file hactive]
  unfold afterAppend
  dsimp only
  rw [hdue, unexpired_congr hold, ← unexpired_congr hold,
    unexpired_congr (hkept.rotated config.maxRotatedFiles), unexpired_congr hold]

/-- The times of the files are in whole microseconds. Then the rounding of the Python runtime
changes none of them. -/
def TimesInMicroseconds (contents : Contents) : Prop :=
  Everywhere (fun file => Python.InMicroseconds file.modified) contents

/-- Then both runtimes see the same ages. -/
theorem TimesInMicroseconds.expired_eq (h : TimesInMicroseconds contents) (config : ValidConfig)
    (times : Python.FileTimes) (now : Instant) :
    Everywhere (fun file => Python.expired config times now file = expired config now file)
      contents := by
  intro path file hfile
  rw [Python.expired, times.inMicroseconds _ (h path file hfile)]
  rfl

/-- An append at such a time keeps them so. -/
theorem TimesInMicroseconds.afterAppend (h : TimesInMicroseconds contents)
    (hnow : Python.InMicroseconds now) (old : FileData → Bool) (due : Option FileData → Bool)
    (line : Bytes) : TimesInMicroseconds (afterAppend config old now due line contents) := by
  have hkept : TimesInMicroseconds (if due (HpGuardian.unexpired config old contents .active) then
      HpGuardian.unexpired config old (rotatedContents config.maxRotatedFiles
        (HpGuardian.unexpired config old contents) none)
      else HpGuardian.unexpired config old contents) := by
    split
    · exact ((h.unexpired config old).rotated _).unexpired config old
    · exact h.unexpired config old
  intro path file hfile
  simp only [HpGuardian.afterAppend, extended] at hfile
  split at hfile
  · obtain rfl := Option.some.inj hfile
    exact hnow
  · exact hkept path file hfile

end

end

/-! ## One append

The two appends from the same directory, both ready to append. -/

/-- A log in service: open, recovered, and without a rotation under way. This is what a process is
left with by its first append. -/
structure InService (state : LogState) : Prop where
  isOpen : state.closed = false
  recovered : state.recoveryComplete = true
  quiet : state.disk.hasRotationEntry = false

theorem InService.shows {state : LogState} (h : InService state) :
    Shows state.disk.files.lookup state :=
  ⟨h.isOpen, h.recovered, (Disk.hasRotationEntry_eq_false_iff.1 h.quiet).1, fun _ => rfl⟩

theorem InService.quiet_files {state : LogState} (h : InService state) :
    Quiet state.disk.files.lookup :=
  (Disk.hasRotationEntry_eq_false_iff.1 h.quiet).2

/-- **One append in both runtimes.**  At one time, on a log in service whose files have times in
whole microseconds, both appends of a record succeed, and they leave the same directory unless the
active file is empty but aged beside a younger backup. -/
theorem appends_agree_iff (config : ValidConfig) (now : Instant) (rt : JsonRuntime)
    (table : Python.AlnumTable) (dumps : Json → Bytes) (times : Python.FileTimes) (log : String)
    (record : AuditRecord) (nanos random : ℕ) (state : LogState) (hservice : InService state)
    (htimes : TimesInMicroseconds state.disk.files.lookup)
    (hfits : config.maxRotatedFiles < 2 ^ 64) :
    let rust := append config (fun _ => now) rt record nanos state
    let python := Python.append config (fun _ => now) rt table dumps times log (rt.toVec record)
      random state
    rust.result = .ok () ∧ python.result = .ok () ∧
      (rust.final.disk = python.final.disk ↔
        ¬ EmptyButAged config (expired config now) state.disk.files.lookup) := by
  intro rust python
  obtain ⟨⟨⟩, hrust, hrustShows⟩ := (append_ends config now rt record nanos
    hservice.quiet_files).exists_ok hservice.shows
  obtain ⟨⟨⟩, hpython, hpythonShows⟩ := (python_append_ends config now rt table dumps times log
    (rt.toVec record) random hfits hservice.quiet_files).exists_ok hservice.shows
  rw [afterAppend_congr (htimes.expired_eq config times now)] at hpythonShows
  refine ⟨hrust, hpython, ?_⟩
  rw [hrustShows.disk_eq_iff hpythonShows]
  exact layouts_eq_iff _ _

/-! ## Whole runs

Two machines that get the same appends at the same times.  A layout with a file that is not empty
is kept, and on such layouts the two maps are equal. -/

/-- An append, with the time at which it happens and the numbers a rotation may take its name
from. -/
structure TimedAppend where
  record : AuditRecord
  now : Instant
  nanos : ℕ
  random : ℕ

section

variable (config : ValidConfig) (rt : JsonRuntime) (table : Python.AlnumTable)
  (dumps : Json → Bytes) (times : Python.FileTimes) (log : String)

/-- The Rust log as a machine. -/
def rustLog : Machine LogState TimedAppend (Except AuditError Unit) where
  step state call :=
    let run := append config (fun _ => call.now) rt call.record call.nanos state
    (run.final, run.result)

/-- The Python log as a machine. -/
def pythonLog : Machine LogState TimedAppend (Except Python.ManifestError Unit) where
  step state call :=
    let run := Python.append config (fun _ => call.now) rt table dumps times log
      (rt.toVec call.record) call.random state
    (run.final, run.result)

end

/-- The layouts that appends lead to: no file of a rotation, and no empty active file. An append
leaves an active file with a line in it, so a run stays among these layouts. -/
structure Settled (contents : Contents) : Prop where
  quiet : Quiet contents
  filled : ∀ file, contents .active = some file → file.content ≠ []

theorem Settled.not_emptyButAged {contents : Contents} (h : Settled contents)
    (config : ValidConfig) (old : FileData → Bool) : ¬ EmptyButAged config old contents := by
  rintro ⟨⟨file, hactive, hempty, -⟩, -⟩
  exact h.filled file hactive hempty

/-- There both runtimes lay the log out alike, if they see the same ages. -/
theorem Settled.layouts_eq {contents : Contents} (h : Settled contents) (config : ValidConfig)
    (old : FileData → Bool) (now : Instant) (line : Bytes) :
    afterAppend config old now (dueBefore config old line.length) line contents =
      afterAppend config old now (Python.dueBefore config old line.length) line contents :=
  (layouts_eq_iff line.length line).2 (h.not_emptyButAged config old)

/-- An append leads from one such layout to the next. -/
theorem Settled.afterAppend {config : ValidConfig} {old : FileData → Bool} {now : Instant}
    {contents : Contents} (h : Settled contents) (due : Option FileData → Bool) {line : Bytes}
    (hline : line ≠ []) : Settled (afterAppend config old now due line contents) where
  quiet := by
    intro path hpath
    have hextended : path ≠ .active := by
      rintro rfl
      cases hpath
    have hkept := h.quiet.unexpired config old
    simp only [HpGuardian.afterAppend, extended, if_neg hextended]
    split
    · exact Quiet.unexpired config old (fun _ => rotatedContents_unmarked hkept) path hpath
    · exact hkept path hpath
  filled := by
    intro file hfile
    simp only [HpGuardian.afterAppend, extended, if_true, Option.some.injEq] at hfile
    rw [← hfile]
    exact List.append_ne_nil_of_right_ne_nil _ hline

/-- **Appends in both runtimes.**  Two logs in service that have the same directory, with an active
file that is not empty, keep the same directory over every run of appends, and every append
succeeds in both.  The times of the files at the start and of the appends are in whole microseconds
and otherwise arbitrary. -/
theorem appends_agree_over_runs (config : ValidConfig) (rt : JsonRuntime)
    (table : Python.AlnumTable) (dumps : Json → Bytes) (times : Python.FileTimes) (log : String)
    (rust python : LogState) (hrust : InService rust) (hpython : InService python)
    (hsame : rust.disk = python.disk)
    (hfilled : ∀ file, rust.disk.files.lookup .active = some file → file.content ≠ [])
    (htimes : TimesInMicroseconds rust.disk.files.lookup)
    (hfits : config.maxRotatedFiles < 2 ^ 64) (calls : List TimedAppend)
    (hcalls : ∀ call ∈ calls, Python.InMicroseconds call.now) :
    ((rustLog config rt).final rust calls).disk =
        ((pythonLog config rt table dumps times log).final python calls).disk ∧
      (∀ entry ∈ (rustLog config rt).trace rust calls, entry.2 = .ok ()) ∧
      ∀ entry ∈ (pythonLog config rt table dumps times log).trace python calls,
        entry.2 = .ok () := by
  -- the layout that both logs show is the invariant
  have hruns : ∀ (calls : List TimedAppend) (contents : Contents) (rust python : LogState),
      (∀ call ∈ calls, Python.InMicroseconds call.now) → Settled contents →
      TimesInMicroseconds contents → Shows contents rust → Shows contents python →
      ((rustLog config rt).final rust calls).disk =
          ((pythonLog config rt table dumps times log).final python calls).disk ∧
        (∀ entry ∈ (rustLog config rt).trace rust calls, entry.2 = .ok ()) ∧
        ∀ entry ∈ (pythonLog config rt table dumps times log).trace python calls,
          entry.2 = .ok () := by
    intro calls
    induction calls with
    | nil =>
        intro contents rust python _ _ _ hrust hpython
        exact ⟨(hrust.disk_eq_iff hpython).2 rfl, by simp, by simp⟩
    | cons call calls ih =>
        intro contents rust python hcalls hsettled htimes hrust hpython
        obtain ⟨hcall, hcalls⟩ := List.forall_mem_cons.1 hcalls
        obtain ⟨⟨⟩, hrustOk, hrustNext⟩ := (append_ends config call.now rt call.record
          call.nanos hsettled.quiet).exists_ok hrust
        obtain ⟨⟨⟩, hpythonOk, hpythonNext⟩ := (python_append_ends config call.now rt table
          dumps times log (rt.toVec call.record) call.random hfits hsettled.quiet).exists_ok hpython
        rw [hsettled.layouts_eq config _ call.now (encodedLine rt call.record)] at hrustNext
        rw [afterAppend_congr (htimes.expired_eq config times call.now)] at hpythonNext
        have hnext := ih _ _ _ hcalls (hsettled.afterAppend _ (by simp [encodedLine]))
          (htimes.afterAppend hcall _ _ _) hrustNext hpythonNext
        exact ⟨hnext.1, List.forall_mem_cons.2 ⟨hrustOk, hnext.2.1⟩,
          List.forall_mem_cons.2 ⟨hpythonOk, hnext.2.2⟩⟩
  refine hruns calls _ rust python hcalls ⟨hrust.quiet_files, hfilled⟩ htimes hrust.shows ?_
  rw [hsame]
  exact hpython.shows

/-- An active file and a backup of one record each, of the second and the first microsecond. -/
def servedDisk : Disk where
  files := ((∅ : Files Path FileData).insert .active ⟨"\x7b\x7d\n".toUTF8.toList, 2000⟩).insert
    (.backup 1) ⟨"\x7b\x7d\n".toUTF8.toList, 1000⟩
  manifest := none

theorem servedDisk_times : TimesInMicroseconds servedDisk.files.lookup := by
  intro path file hfile
  by_cases hbackup : path = .backup 1
  · subst hbackup
    obtain rfl := Option.some.inj ((Finmap.lookup_insert _).symm.trans hfile)
    decide
  · have hrest := (Finmap.lookup_insert_of_ne _ hbackup).symm.trans hfile
    by_cases hactive : path = .active
    · subst hactive
      obtain rfl := Option.some.inj ((Finmap.lookup_insert _).symm.trans hrest)
      decide
    · rw [Finmap.lookup_insert_of_ne _ hactive, Finmap.lookup_empty] at hrest
      cases hrest

/-- A log in service. -/
def servedLog : LogState := ⟨servedDisk, 0, true, false, true⟩

theorem servedLog_inService : InService servedLog := ⟨rfl, rfl, by decide +kernel⟩

/-- Rotation at four bytes or after a microsecond. -/
def eager : ValidConfig := ⟨⟨some 4, some 1000, 2⟩, rfl⟩

/-- The nearest microsecond. -/
def nearestMicrosecond : Python.FileTimes where
  fromTimestamp time := (time + 500) / 1000 * 1000
  inMicroseconds time h := by
    obtain ⟨⟨micros, rfl⟩, -⟩ := h
    show (1000 * micros + 500) / 1000 * 1000 = 1000 * micros
    omega

theorem appends_agree_sample :
    let rust := append eager (fun _ => 3000) sampleRuntime sampleRecord 3 servedLog
    let python := Python.append eager (fun _ => 3000) sampleRuntime asciiTable (fun _ => [])
      nearestMicrosecond "audit.jsonl" (sampleRuntime.toVec sampleRecord) 4 servedLog
    rust.result = .ok () ∧ python.result = .ok () ∧
      (rust.final.disk = python.final.disk ↔
        ¬ EmptyButAged eager (expired eager 3000) servedLog.disk.files.lookup) :=
  appends_agree_iff eager 3000 sampleRuntime asciiTable (fun _ => []) nearestMicrosecond
    "audit.jsonl" sampleRecord 3 4 servedLog servedLog_inService servedDisk_times (by decide)

theorem appends_agree_over_runs_sample :
    let calls : List TimedAppend := [⟨sampleRecord, 3000, 3, 4⟩, ⟨sampleRecord, 5000, 5, 6⟩]
    let python := pythonLog eager sampleRuntime asciiTable (fun _ => []) nearestMicrosecond
      "audit.jsonl"
    ((rustLog eager sampleRuntime).final servedLog calls).disk =
        (python.final servedLog calls).disk ∧
      (∀ entry ∈ (rustLog eager sampleRuntime).trace servedLog calls, entry.2 = .ok ()) ∧
      ∀ entry ∈ python.trace servedLog calls, entry.2 = .ok () := by
  intro calls python
  refine appends_agree_over_runs eager sampleRuntime asciiTable (fun _ => []) nearestMicrosecond
    "audit.jsonl" servedLog servedLog servedLog_inService servedLog_inService rfl ?_
    servedDisk_times (by decide) calls (by simp only [calls]; decide)
  intro file hfile
  have hcontent : (servedDisk.files.lookup .active).any (fun file => !file.content.isEmpty) =
      true := by decide +kernel
  have hlookup : servedDisk.files.lookup .active = some file := hfile
  rw [hlookup] at hcontent
  simpa using hcontent

end HpGuardian

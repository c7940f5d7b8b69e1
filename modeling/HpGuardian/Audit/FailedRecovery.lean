import HpGuardian.Audit.Spec
import HpGuardian.Framework.Scans

/-!
# Recoveries that fail

Recovery is a sequence of scans: over the slots that are staged, over the slots that are installed,
and over the files whose tails are checked.  Each scan looks at its items in order and changes one
when it has found that it may, so a later item that is refused leaves the earlier changes in place.

That a recovery which fails has changed nothing is therefore a matter of order.  A scan that fails
leaves the directory as it was iff it has not acted on an item before the one that fails, and once
a rotation has been carried on, a failure of what follows comes too late.  `FailsHarmlessly` puts
this together for all directories, as a condition on the files before the recovery; it has one part
for each state in which recovery can find the log: at rest, with a manifest that is refused, and
with a rotation in either phase.

`failed_recovery_unchanged_iff` says that the condition is exact.  One direction is the rule that a
scan which fails first is idle; for the other, an item that was acted on has to be missed: a cut
file has lost its tail, a moved file is gone from its place (`not_sameContents_of_moved`).

What comes after a rotation is found in the files as they will be when it is complete, and these
can be told from the directory before it (`nothingWrong_iff`), so the condition needs no run of the
program to be evaluated.
-/

namespace HpGuardian

open Framework

/-! ## Unchanged directories

Files are compared by their contents; their times of modification are left aside. -/

/-- Every managed file has the content it had, and the manifest is the same. The times of the files
may differ. -/
structure SameContents (disk disk' : Disk) : Prop where
  manifest : disk'.manifest = disk.manifest
  contents : ∀ path, (disk'.files.lookup path).map FileData.content =
    (disk.files.lookup path).map FileData.content

theorem SameContents.refl (disk : Disk) : SameContents disk disk := ⟨rfl, fun _ => rfl⟩

/-- If recovery fails as `Corrupt` or as `RecoveryFailed`, nothing has changed. Nothing is said of
a recovery that succeeds. -/
def FailsUnchanged (rt : JsonRuntime) (maxRotatedFiles : ℕ) (stamp : Instant) (disk : Disk) :
    Prop :=
  let run := recoverTails rt maxRotatedFiles stamp disk
  run.result = .error .corrupt ∨ run.result = .error .recoveryFailed → SameContents disk run.final

/-! ## The scan of the tails

The check of the files as a scan.  It acts on a file by cutting its tail off. -/

/-- What the check of a file finds. -/
def fileVerdict (rt : JsonRuntime) : Option FileData → Verdict
  | none => .skip
  | some file =>
      match checkTail rt file.content with
      | .error _ => .fail
      | .ok none => .skip
      | .ok (some _) => .act

/-- What the check of a path finds. -/
def tailVerdict (rt : JsonRuntime) (path : Path) (disk : Disk) : Verdict :=
  fileVerdict rt (disk.files.lookup path)

/-- A file that ends with a complete line. -/
def Terminated (path : Path) (disk : Disk) : Prop :=
  ∀ file ∈ disk.files.lookup path, tailOf newline file.content = []

section

variable {rt : JsonRuntime} {maxRotatedFiles : ℕ} {disk : Disk} {stamp : Instant}

theorem checkTail_error {content : Bytes} {error : AuditError}
    (h : checkTail rt content = .error error) : error = .corrupt := by
  unfold checkTail at h
  dsimp only at h
  split_ifs at h <;> cases h <;> rfl

/-- A file that is cut has a tail, and loses it. -/
theorem checkTail_some {content : Bytes} {length : ℕ}
    (h : checkTail rt content = .ok (some length)) :
    tailOf newline content ≠ [] ∧ tailOf newline (content.take length) = [] := by
  obtain ⟨lines, tail, rfl, hlines, htail⟩ := exists_render newline content
  rw [checkTail_render hlines htail] at h
  split_ifs at h with _ hnil
  · simp at h
  · obtain rfl := Option.some.inj (Except.ok.inj h)
    refine ⟨by rwa [tailOf_render htail], ?_⟩
    rw [List.take_left, ← List.append_nil (render newline lines)]
    exact tailOf_render (by simp)

theorem lookup_truncateFile {path : Path} {file : FileData} (length : ℕ) (stamp : Instant)
    (hfile : disk.files.lookup path = some file) (path' : Path) :
    (truncateFile path length stamp disk).files.lookup path' =
      if path' = path then some ⟨file.content.take length, stamp⟩
      else disk.files.lookup path' := by
  simp only [truncateFile, hfile, Disk.files_setFiles]
  by_cases hpath : path' = path
  · subst hpath
    simp
  · rw [Finmap.lookup_insert_of_ne _ hpath, if_neg hpath]

theorem truncateFile_manifest (path : Path) (length : ℕ) (disk : Disk) :
    (truncateFile path length stamp disk).manifest = disk.manifest := by
  unfold truncateFile
  split <;> rfl

theorem logPaths_nodup : (logPaths maxRotatedFiles).Nodup := by
  refine List.nodup_cons.2 ⟨by simp, ?_⟩
  exact List.Nodup.map (fun _ _ h => by simpa using h) (List.nodup_range' 1 (by simp))

/-- The check of the files is a scan. -/
theorem recoverTail_scans (rt : JsonRuntime) (maxRotatedFiles : ℕ) (stamp : Instant) :
    Scans (recoverTail rt stamp) (tailVerdict rt) Terminated .corrupt
      (logPaths maxRotatedFiles) where
  nodup := logPaths_nodup
  skip path _ disk hskip := by
    refine recoverTail_clean (fun file hfile => ?_) stamp
    have hlookup : disk.files.lookup path = some file := hfile
    simp only [tailVerdict, fileVerdict, hlookup] at hskip
    cases hcheck : checkTail rt file.content with
    | error error => simp [hcheck] at hskip
    | ok cut =>
        cases cut with
        | none => rfl
        | some length => simp [hcheck] at hskip
  fail path _ disk hfail := by
    cases hlookup : disk.files.lookup path with
    | none => simp [tailVerdict, fileVerdict, hlookup] at hfail
    | some file =>
        simp only [tailVerdict, fileVerdict, hlookup] at hfail
        simp only [recoverTail, Program.read_bind_apply, hlookup]
        cases hcheck : checkTail rt file.content with
        | error error =>
            obtain rfl := checkTail_error hcheck
            rfl
        | ok cut => cases cut <;> simp [hcheck] at hfail
  act path _ disk hact := by
    cases hlookup : disk.files.lookup path with
    | none => simp [tailVerdict, fileVerdict, hlookup] at hact
    | some file =>
        simp only [tailVerdict, fileVerdict, hlookup] at hact
        cases hcheck : checkTail rt file.content with
        | error error => simp [hcheck] at hact
        | ok cut =>
            cases cut with
            | none => simp [hcheck] at hact
            | some length =>
                have hnext := lookup_truncateFile length stamp hlookup
                refine ⟨_, _, recoverTail_torn hlookup hcheck stamp, fun file' hfile' => ?_,
                  fun other _ hne => ?_⟩
                · rw [hnext, if_pos rfl] at hfile'
                  obtain rfl := Option.some.inj hfile'
                  exact (checkTail_some hcheck).2
                · simp only [tailVerdict, Terminated, hnext, if_neg hne]
                  exact ⟨trivial, fun h => h⟩

/-- A file that was to be cut and ends with a complete line is not the same. -/
theorem not_sameContents_of_terminated {path : Path} {disk' : Disk}
    (hact : tailVerdict rt path disk = .act) (hdone : Terminated path disk') :
    ¬ SameContents disk disk' := by
  intro hsame
  have hcontents := hsame.contents path
  cases hlookup : disk.files.lookup path with
  | none => simp [tailVerdict, fileVerdict, hlookup] at hact
  | some file =>
      rw [hlookup, Option.map_some, Option.map_eq_some_iff] at hcontents
      obtain ⟨file', hfile', hcontent⟩ := hcontents
      simp only [tailVerdict, fileVerdict, hlookup] at hact
      cases hcheck : checkTail rt file.content with
      | error error => simp [hcheck] at hact
      | ok cut =>
          cases cut with
          | none => simp [hcheck] at hact
          | some length =>
              refine (checkTail_some hcheck).1 ?_
              rw [← hcontent]
              exact hdone file' hfile'

/-! ## After the rotation

The last part of recovery, for a log at rest and after a rotation that has been carried on. -/

/-- Without a manifest, recovery refuses leftovers or checks the files. -/
theorem recoverTails_of_settled {disk' : Disk} {steps : List (Disk × Operation)}
    (hpending : recoverPending disk = ⟨steps, disk', .ok ()⟩) (hsettled : disk'.manifest = none) :
    recoverTails rt maxRotatedFiles stamp disk =
      if disk'.hasRotationFile = true then ⟨steps, disk', .error .recoveryFailed⟩
      else
        let check := Program.forEach (recoverTail rt stamp) (logPaths maxRotatedFiles) disk'
        ⟨steps ++ check.steps, check.final, check.result⟩ := by
  have hentry : disk'.hasRotationEntry = disk'.hasRotationFile := by
    simp [Disk.hasRotationEntry, hsettled]
  cases hfile : disk'.hasRotationFile with
  | false => exact recoverTails_of_pending hpending (hentry.trans hfile) rt maxRotatedFiles stamp
  | true =>
      have hrefuse : refuseLeftovers disk' = ⟨[], disk', .error .recoveryFailed⟩ := by
        simp only [refuseLeftovers, Program.read_bind_apply, hentry, hfile]
        rfl
      rw [recoverTails, Program.bind_run hpending,
        Program.bind_error (e := .recoveryFailed) (by rw [hrefuse]), hrefuse, if_pos rfl]
      simp

/-- The check of the files writes no manifest. -/
theorem forEach_recoverTail_manifest (paths : List Path) :
    (Program.forEach (recoverTail rt stamp) paths disk).final.manifest = disk.manifest := by
  refine Program.forEach_final (P := fun disk' : Disk => disk'.manifest = disk.manifest)
    (fun path disk' h => ?_) paths rfl
  simp only [recoverTail, Program.read_bind_apply]
  cases hlookup : disk'.files.lookup path with
  | none => exact h
  | some file =>
      simp only
      cases hcheck : checkTail rt file.content with
      | error error => exact h
      | ok cut =>
          cases cut with
          | none => exact h
          | some length => exact (truncateFile_manifest path length disk').trans h

/-- A log at rest: leftovers change nothing, and the check of the files must fail first. -/
theorem failsUnchanged_of_rest (hrest : disk.manifest = none) :
    FailsUnchanged rt maxRotatedFiles stamp disk ↔ disk.hasRotationFile = true ∨
      FailsFirst (fun path => tailVerdict rt path disk) (logPaths maxRotatedFiles) := by
  have hpending : recoverPending disk = ⟨[], disk, .ok ()⟩ := by
    simp only [recoverPending, Program.read_bind_apply, hrest]
    rfl
  have hscan := recoverTail_scans rt maxRotatedFiles stamp
  unfold FailsUnchanged
  rw [recoverTails_of_settled hpending hrest]
  by_cases hfile : disk.hasRotationFile = true
  · rw [if_pos hfile]
    exact ⟨fun _ => .inl hfile, fun _ _ => .refl disk⟩
  · rw [if_neg hfile, or_iff_right hfile]
    rcases hscan.result disk with ⟨hok, hnone⟩ | ⟨herror, hfail⟩
    · simp only [hok, reduceCtorEq, or_self, false_imp_iff, true_iff]
      exact failsFirst_of_forall hnone
    · simp only [herror, true_or, true_imp_iff]
      exact hscan.unchanged_iff SameContents (.refl disk)
        (fun path _ hact disk' hdone => not_sameContents_of_terminated hact hdone) hfail

/-- A rotation that has been carried on has changed the directory: nothing may fail after it. -/
theorem failsUnchanged_of_completed {disk' : Disk} {steps : List (Disk × Operation)}
    (hpending : recoverPending disk = ⟨steps, disk', .ok ()⟩)
    (hwritten : disk.manifest ≠ none) (hsettled : disk'.manifest = none) :
    FailsUnchanged rt maxRotatedFiles stamp disk ↔ disk'.hasRotationFile = false ∧
      ∀ path ∈ logPaths maxRotatedFiles, tailVerdict rt path disk' ≠ .fail := by
  have hchanged : ∀ final : Disk, final.manifest = none → ¬ SameContents disk final :=
    fun final hfinal hsame => hwritten (hsame.manifest.symm.trans hfinal)
  unfold FailsUnchanged
  rw [recoverTails_of_settled hpending hsettled]
  by_cases hfile : disk'.hasRotationFile = true
  · simp [hfile, hchanged _ hsettled]
  · have hfinal := hchanged (Program.forEach (recoverTail rt stamp)
      (logPaths maxRotatedFiles) disk').final (by rw [forEach_recoverTail_manifest, hsettled])
    rw [if_neg hfile]
    rcases (recoverTail_scans rt maxRotatedFiles stamp).result disk' with
      ⟨hok, hnone⟩ | ⟨herror, path, hpath, hfail⟩
    · simp only [hok, reduceCtorEq, or_self, false_imp_iff, true_iff]
      exact ⟨by simpa using hfile, hnone⟩
    · simp only [herror, true_or, true_imp_iff, hfinal, false_iff, not_and]
      exact fun _ hall => hall path hpath hfail

/-- A recovery that fails while it carries on the rotation. -/
theorem failsUnchanged_of_pending_error
    (hpending : (recoverPending disk).result = .error .recoveryFailed) :
    FailsUnchanged rt maxRotatedFiles stamp disk ↔
      SameContents disk (recoverPending disk).final := by
  unfold FailsUnchanged
  rw [recoverTails, Program.bind_error hpending]
  simp

end

/-! ## Carrying on a rotation

The files that recovery will find when the rotation is complete, and the two loops over moves as
scans of the directory. -/

/-- The files of the log once the rotation is complete: those that it installs, the active file
that it leaves, and the backups out of its reach. -/
def completedFile (manifest : RotationManifest) (installs : ℕ → Option FileData)
    (active : Option FileData) (disk : Disk) : Path → Option FileData
  | .active => active
  | .backup index =>
      if 1 ≤ index ∧ index ≤ manifest.maxRotatedFiles then installs index
      else disk.files.lookup (.backup index)
  | path => disk.files.lookup path

/-- What comes after the rotation finds nothing wrong: there are no rotation files but the staged
ones of the manifest, and no file of the log is corrupt once the rotation is complete. -/
structure NothingWrong (rt : JsonRuntime) (maxRotatedFiles : ℕ) (manifest : RotationManifest)
    (installs : ℕ → Option FileData) (active : Option FileData) (disk : Disk) : Prop where
  noLeftover : ∀ path, path.isRotation = true →
    (∀ slot ∈ slots manifest.maxRotatedFiles, path ≠ stagingPath manifest.transactionId slot) →
    disk.files.lookup path = none
  noCorrupt : ∀ path ∈ logPaths maxRotatedFiles,
    fileVerdict rt (completedFile manifest installs active disk path) ≠ .fail

/-- The directory as it was before the rotation, with the files of the slots given. -/
def beforeRotation (manifest : RotationManifest) (file : Slot → Option FileData) (disk : Disk) :
    Contents
  | .active => file .active
  | .backup index =>
      if 1 ≤ index ∧ index ≤ manifest.maxRotatedFiles then file (.backup index)
      else disk.files.lookup (.backup index)
  | .stage transaction slot =>
      if transaction = manifest.transactionId ∧ slot ∈ slots manifest.maxRotatedFiles then none
      else disk.files.lookup (.stage transaction slot)
  | path => disk.files.lookup path

section

variable {rt : JsonRuntime} {maxRotatedFiles : ℕ} {manifest : RotationManifest}
  {file : Slot → Option FileData} {disk : Disk} {stamp : Instant}

theorem beforeRotation_slot {slot : Slot} (hslot : slot ∈ slots manifest.maxRotatedFiles) :
    beforeRotation manifest file disk slot.path = file slot := by
  rcases mem_slots.1 hslot with rfl | ⟨index, hindex, rfl⟩
  · rfl
  · simp [beforeRotation, Slot.path, hindex]

theorem beforeRotation_stage {slot : Slot} (hslot : slot ∈ slots manifest.maxRotatedFiles) :
    beforeRotation manifest file disk (.stage manifest.transactionId slot) = none := by
  simp [beforeRotation, hslot]

/-- Away from the slots and their staged places, nothing is different. -/
theorem beforeRotation_other (file : Slot → Option FileData) {path : Path}
    (hpath : ∀ slot ∈ slots manifest.maxRotatedFiles, path ≠ slot.path ∧
      path ≠ .stage manifest.transactionId slot) :
    beforeRotation manifest file disk path = disk.files.lookup path := by
  cases path with
  | active => exact absurd rfl (hpath .active (mem_slots.2 (.inl rfl))).1
  | backup index =>
      refine if_neg fun hindex => ?_
      exact (hpath (.backup index) (mem_slots.2 (.inr ⟨index, hindex, rfl⟩))).1 rfl
  | stage transaction slot =>
      refine if_neg ?_
      rintro ⟨rfl, hslot⟩
      exact (hpath slot hslot).2 rfl
  | temporary transaction => rfl
  | stray suffix => rfl

/-- Whether something is wrong after the rotation can be told from the directory before it. -/
theorem nothingWrong_iff {installs : ℕ → Option FileData} {active : Option FileData}
    {disk' : Disk}
    (hinstalls : ∀ i, 1 ≤ i ∧ i ≤ manifest.maxRotatedFiles → file (sourceSlot i) = installs i)
    (hrotated : Rotated manifest.maxRotatedFiles (beforeRotation manifest file disk) active
      disk') :
    (disk'.hasRotationFile = false ∧
        ∀ path ∈ logPaths maxRotatedFiles, tailVerdict rt path disk' ≠ .fail) ↔
      NothingWrong rt maxRotatedFiles manifest installs active disk := by
  have hfile : ∀ path ∈ logPaths maxRotatedFiles, disk'.files.lookup path =
      completedFile manifest installs active disk path := by
    intro path hpath
    rw [hrotated.files]
    rcases List.mem_cons.1 hpath with rfl | hpath
    · rfl
    · obtain ⟨index, -, rfl⟩ := List.mem_map.1 hpath
      simp only [rotatedContents, completedFile]
      split_ifs with hindex
      · rw [beforeRotation_slot (sourceSlot_mem_slots hindex), hinstalls index hindex]
      · simp [beforeRotation, hindex]
  have hrotation : ∀ path, path.isRotation = true →
      disk'.files.lookup path = beforeRotation manifest file disk path := by
    intro path hpath
    rw [hrotated.files]
    cases path <;> simp_all [rotatedContents, Path.isRotation]
  rw [Disk.hasRotationFile_eq_false_iff]
  constructor
  · rintro ⟨hquiet, hfine⟩
    refine ⟨fun path hpath hother => ?_, fun path hpath => ?_⟩
    · rw [← beforeRotation_other file fun slot hslot => ⟨fun h => ?_, hother slot hslot⟩,
        ← hrotation path hpath]
      · exact hquiet path hpath
      · rw [h] at hpath
        cases slot <;> cases hpath
    · rw [← hfile path hpath]
      exact hfine path hpath
  · rintro ⟨hquiet, hfine⟩
    refine ⟨fun path hpath => ?_, fun path hpath => ?_⟩
    · rw [hrotation path hpath]
      by_cases hplanned : ∃ slot ∈ slots manifest.maxRotatedFiles,
          path = .stage manifest.transactionId slot
      · obtain ⟨slot, hslot, rfl⟩ := hplanned
        exact beforeRotation_stage hslot
      · push Not at hplanned
        rw [beforeRotation_other file fun slot hslot => ⟨fun h => ?_, hplanned slot hslot⟩]
        · exact hquiet path hpath hplanned
        · rw [h] at hpath
          cases slot <;> cases hpath
    · rw [tailVerdict, hfile path hpath]
      exact hfine path hpath

/-- A loop over the moves of a plan, with the directory around it. -/
theorem plan_apply {ι : Type} (moveOf : ι → Move Path) (plan : List ι) (disk : Disk) :
    Disk.onFiles (Program.forEach
        (fun i => move Operation.rename .sync AuditError.recoveryFailed (moveOf i)) plan) disk =
      let loop := Program.forEach (ε := AuditError)
        (fun i => move Operation.rename .sync .recoveryFailed (moveOf i)) plan disk.files
      ⟨loop.steps.map (fun step => (disk.setFiles step.1, step.2)), disk.setFiles loop.final,
        loop.result⟩ := rfl

/-- A file that a move has taken away is missed. -/
theorem not_sameContents_of_moved {m : Move Path} {files : Files Path FileData}
    (hact : m.verdict disk.files = .act) (hmoved : files.lookup m.source = none) :
    ¬ SameContents disk (disk.setFiles files) := by
  intro hsame
  have hcontents := hsame.contents m.source
  obtain ⟨file, hfile⟩ := Option.isSome_iff_exists.1 (Move.of_verdict_act hact)
  rw [Disk.files_setFiles, hmoved, hfile] at hcontents
  cases hcontents

/-- A plan that fails leaves the directory as it was iff it fails first; one that does not fail,
iff it has nothing to move. -/
theorem plan_sameContents_iff {ι : Type} {moveOf : ι → Move Path} {plan : List ι}
    (hsep : Separate moveOf plan) (disk : Disk) :
    let loop := Disk.onFiles (Program.forEach
      (fun i => move Operation.rename .sync AuditError.recoveryFailed (moveOf i)) plan) disk
    (loop.result = .error .recoveryFailed ∧ (∃ i ∈ plan, (moveOf i).verdict disk.files = .fail) ∧
        (SameContents disk loop.final ↔
          FailsFirst (fun i => (moveOf i).verdict disk.files) plan)) ∨
      (loop.result = .ok () ∧ (∀ i ∈ plan, (moveOf i).verdict disk.files ≠ .fail) ∧
        (SameContents disk loop.final ↔
          ∀ i ∈ plan, (moveOf i).verdict disk.files = .skip)) := by
  have hscan := move_scans (ν := FileData) Operation.rename .sync AuditError.recoveryFailed hsep
  have hchanged : ∀ i ∈ plan, (moveOf i).verdict disk.files = .act → ∀ files : Files Path FileData,
      files.lookup (moveOf i).source = none → ¬ SameContents disk (disk.setFiles files) :=
    fun i _ hact files hmoved => not_sameContents_of_moved hact hmoved
  rw [plan_apply]
  rcases hscan.result disk.files with ⟨hok, hnone⟩ | ⟨herror, hfail⟩
  · exact .inr ⟨hok, hnone, hscan.unchanged_iff_idle
      (fun _ files => SameContents disk (disk.setFiles files)) (.refl disk) hchanged hnone⟩
  · exact .inl ⟨herror, hfail, hscan.unchanged_iff
      (fun _ files => SameContents disk (disk.setFiles files)) (.refl disk) hchanged hfail⟩

/-! ## Staging phase

Staging ends with a write of the manifest, which is refused if the name of its temporary file is
taken: a third way to fail, after every file has been staged. -/

/-- The file of a slot in the staging phase. -/
def stagingFile (manifest : RotationManifest) (disk : Disk) (slot : Slot) : Option FileData :=
  (stageMoveOf manifest slot).file disk.files

/-- In the staging phase, if no slot is in conflict, recovery can carry the rotation on. -/
theorem staging_flight
    (hfine : ∀ slot ∈ slots manifest.maxRotatedFiles,
      (stageMoveOf manifest slot).verdict disk.files ≠ .fail) :
    InFlight (stageMoveOf manifest) (slots manifest.maxRotatedFiles)
      (fun slot => beforeRotation manifest (stagingFile manifest disk) disk slot.path)
      (beforeRotation manifest (stagingFile manifest disk) disk) disk.files where
  each slot hslot := by
    simp only [beforeRotation_slot hslot]
    exact (Move.of_verdict_ne_fail (hfine slot hslot)).2
  frame path hpath := (beforeRotation_other _ hpath).symm

theorem staging_expects
    (hfine : ∀ slot ∈ slots manifest.maxRotatedFiles,
      (stageMoveOf manifest slot).verdict disk.files ≠ .fail) :
    ∀ slot ∈ slots manifest.maxRotatedFiles, manifest.expects slot =
      (beforeRotation manifest (stagingFile manifest disk) disk slot.path).isSome := by
  intro slot hslot
  rw [beforeRotation_slot hslot]
  exact (Move.of_verdict_ne_fail (hfine slot hslot)).1

/-- In the staging phase recovery fails harmlessly if the first slot that is not staged yet comes
after a slot in conflict; if the name of the temporary manifest is taken and nothing is left to be
staged; or if nothing is wrong after the rotation. -/
structure StagingHarmless (rt : JsonRuntime) (maxRotatedFiles : ℕ) (manifest : RotationManifest)
    (disk : Disk) : Prop where
  first : FailsFirst (fun slot => (stageMoveOf manifest slot).verdict disk.files)
    (slots manifest.maxRotatedFiles)
  taken : (∀ slot ∈ slots manifest.maxRotatedFiles,
      (stageMoveOf manifest slot).verdict disk.files ≠ .fail) →
    Path.temporary manifest.transactionId ∈ disk.files →
    ∀ slot ∈ slots manifest.maxRotatedFiles,
      (stageMoveOf manifest slot).verdict disk.files = .skip
  rest : (∀ slot ∈ slots manifest.maxRotatedFiles,
      (stageMoveOf manifest slot).verdict disk.files ≠ .fail) →
    Path.temporary manifest.transactionId ∉ disk.files →
    NothingWrong rt maxRotatedFiles manifest
      (fun index => (stageMoveOf manifest (sourceSlot index)).file disk.files) none disk

theorem recoverPending_some {disk : Disk} {file : ManifestFile}
    (hwritten : disk.manifest = some file) :
    recoverPending disk = recoverManifest writeManifestAtomically disk := by
  simp only [recoverPending, Program.read_bind_apply, hwritten]
  rfl

theorem recoverPending_record (hwritten : disk.manifest = some (.record manifest))
    (haccepted : manifest.accepted = true) :
    recoverPending disk = recoverAccepted writeManifestAtomically manifest disk := by
  rw [recoverPending_some hwritten, recoverManifest_apply _ hwritten haccepted]

theorem recoverPending_ok {disk : Disk} (hwritten : disk.manifest = some (.record manifest))
    (hresult : (recoverManifest writeManifestAtomically disk).result = .ok ()) :
    recoverPending disk = ⟨(recoverManifest writeManifestAtomically disk).steps,
      (recoverManifest writeManifestAtomically disk).final, .ok ()⟩ := by
  rw [recoverPending_some hwritten, ← hresult]

/-- The switch to the installing phase is refused when the name of the temporary file is taken. -/
theorem switch_refused {disk : Disk}
    (htaken : Path.temporary manifest.transactionId ∈ disk.files) :
    (writeManifestAtomically manifest.installing >>= fun _ =>
      finishRotation manifest.installing) disk = ⟨[], disk, .error .recoveryFailed⟩ := by
  have hwrite : writeManifestAtomically manifest.installing disk =
      ⟨[], disk, .error .recoveryFailed⟩ := by
    simp only [writeManifestAtomically, Program.read_bind_apply, installing_transactionId, htaken]
    rfl
  rw [Program.bind_error (e := .recoveryFailed) (by rw [hwrite]), hwrite]

/-- Staging is carried out, and the switch to the installing phase is refused. -/
theorem recoverPending_taken {file : Slot → Option FileData} {other : Contents}
    (hwritten : disk.manifest = some (.record manifest)) (haccepted : manifest.accepted = true)
    (hphase : manifest.phase = "staging")
    (hexpects : ∀ slot ∈ slots manifest.maxRotatedFiles,
      manifest.expects slot = (file slot).isSome)
    (hflight : InFlight (stageMoveOf manifest) (slots manifest.maxRotatedFiles) file other
      disk.files) (htaken : Path.temporary manifest.transactionId ∈ disk.files) :
    (recoverPending disk).result = .error .recoveryFailed ∧
      (recoverPending disk).final = (Disk.onFiles (Program.forEach
        (fun slot => move Operation.rename .sync AuditError.recoveryFailed
          (stageMoveOf manifest slot)) (slots manifest.maxRotatedFiles)) disk).final := by
  have hpending := recoverPending_record hwritten haccepted
  rw [recoverAccepted_staging _ hphase, stageAll_eq, Program.bind_assoc_eq] at hpending
  have hplan := plan_triple other (stage_separate manifest) hexpects (some (.record manifest))
  obtain ⟨⟨⟩, hok, ⟨-, hflight'⟩, -⟩ := hplan.exists_ok ⟨hwritten, hflight⟩
  have huntouched : Untouched (stageMoveOf manifest) (slots manifest.maxRotatedFiles)
      (.temporary manifest.transactionId) := fun slot _ =>
    ⟨by cases slot <;> simp [stageMoveOf, stageMove, Slot.path],
      by simp [stageMoveOf, stageMove, stagingPath]⟩
  have hstill : Path.temporary manifest.transactionId ∈ (Disk.onFiles (Program.forEach
      (fun slot => move Operation.rename .sync AuditError.recoveryFailed
        (stageMoveOf manifest slot)) (slots manifest.maxRotatedFiles)) disk).final.files := by
    rw [mem_iff_lookup, hflight'.frame _ huntouched, ← hflight.frame _ huntouched]
    exact mem_iff_lookup.1 htaken
  rw [Program.bind_ok hok, switch_refused hstill] at hpending
  rw [hpending]
  exact ⟨rfl, rfl⟩

theorem failsUnchanged_of_staging (hwritten : disk.manifest = some (.record manifest))
    (haccepted : manifest.accepted = true) (hphase : manifest.phase = "staging") :
    FailsUnchanged rt maxRotatedFiles stamp disk ↔
      StagingHarmless rt maxRotatedFiles manifest disk := by
  have hpending := recoverPending_record hwritten haccepted
  rw [recoverAccepted_staging _ hphase, stageAll_eq, Program.bind_assoc_eq] at hpending
  rcases plan_sameContents_iff (stage_separate manifest) disk with
    ⟨herror, ⟨slot, hslot, hfail⟩, hsame⟩ | ⟨-, hfine, hsame⟩
  · -- a slot is in conflict
    rw [Program.bind_error herror] at hpending
    rw [failsUnchanged_of_pending_error (by rw [hpending]), hpending, hsame]
    exact ⟨fun h => ⟨h, fun hfine => absurd hfail (hfine slot hslot),
      fun hfine => absurd hfail (hfine slot hslot)⟩, fun h => h.first⟩
  · have hfirst := failsFirst_of_forall hfine
    by_cases htaken : Path.temporary manifest.transactionId ∈ disk.files
    · obtain ⟨herror, hfinal⟩ := recoverPending_taken hwritten haccepted hphase
        (staging_expects hfine) (staging_flight hfine) htaken
      rw [failsUnchanged_of_pending_error herror, hfinal, hsame]
      exact ⟨fun h => ⟨hfirst, fun _ _ => h, fun _ hfree => absurd htaken hfree⟩,
        fun h => h.taken hfine htaken⟩
    · have hdescribes : Describes manifest
          (beforeRotation manifest (stagingFile manifest disk) disk) :=
        ⟨haccepted, staging_expects hfine, fun _ hslot => beforeRotation_stage hslot,
          Finmap.lookup_eq_none.2 htaken⟩
      obtain ⟨⟨⟩, hresult, hrotated⟩ := (recoverManifest_staging hdescribes).exists_ok
        ⟨hphase, hwritten, staging_flight hfine⟩
      rw [failsUnchanged_of_completed (recoverPending_ok hwritten hresult) (by simp [hwritten])
        hrotated.settled, nothingWrong_iff (fun _ _ => rfl) hrotated]
      exact ⟨fun h => ⟨hfirst, fun _ h => absurd h htaken, fun _ _ => h⟩,
        fun h => h.rest hfine htaken⟩

/-! ## Installing phase

The same for the second phase, which begins with whatever is staged. -/

/-- The file of a slot in the installing phase. -/
def installingFile (manifest : RotationManifest) (disk : Disk) : Slot → Option FileData
  | .active => (installMoveOf manifest 1).file disk.files
  | .backup index =>
      if index = manifest.maxRotatedFiles then
        disk.files.lookup (.stage manifest.transactionId (.backup index))
      else (installMoveOf manifest (index + 1)).file disk.files

theorem installingFile_source {index : ℕ}
    (hindex : 1 ≤ index ∧ index ≤ manifest.maxRotatedFiles) :
    installingFile manifest disk (sourceSlot index) =
      (installMoveOf manifest index).file disk.files := by
  by_cases hone : index = 1
  · subst hone
    rfl
  · have hsource : sourceSlot index = .backup (index - 1) := if_neg hone
    rw [hsource]
    simp only [installingFile]
    rw [if_neg (by omega), Nat.sub_add_cancel hindex.1]

/-- In the installing phase, if no slot is in conflict, recovery can carry the rotation on. -/
theorem installing_phase_of_fine (hwritten : disk.manifest = some (.record manifest))
    (haccepted : manifest.accepted = true) (hphase : manifest.phase = "installing")
    (hfine : ∀ index ∈ indices manifest.maxRotatedFiles,
      (installMoveOf manifest index).verdict disk.files ≠ .fail) :
    Installable manifest (beforeRotation manifest (installingFile manifest disk) disk) ∧
      InstallingPhase manifest (beforeRotation manifest (installingFile manifest disk) disk)
        (disk.files.lookup .active) disk := by
  have hmax := RotationManifest.accepted.one_le haccepted
  have hfile : ∀ index ∈ indices manifest.maxRotatedFiles,
      beforeRotation manifest (installingFile manifest disk) disk (sourceSlot index).path =
        (installMoveOf manifest index).file disk.files := fun index hindex => by
    rw [beforeRotation_slot (sourceSlot_mem_slots (mem_indices.1 hindex)),
      installingFile_source (mem_indices.1 hindex)]
  have hlast : Slot.backup manifest.maxRotatedFiles ∈ slots manifest.maxRotatedFiles :=
    mem_slots.2 (.inr ⟨_, ⟨hmax, le_refl _⟩, rfl⟩)
  refine ⟨⟨haccepted, fun index hindex => ?_, fun _ hslot => beforeRotation_stage hslot⟩,
    disk.files.lookup (.stage manifest.transactionId (.backup manifest.maxRotatedFiles)),
    .inl ?_, hphase, hwritten, fun index hindex => ?_, fun path hpath => ?_⟩
  · rw [hfile index hindex]
    exact (Move.of_verdict_ne_fail (hfine index hindex)).1
  · rw [show Path.backup manifest.maxRotatedFiles =
      (Slot.backup manifest.maxRotatedFiles).path from rfl, beforeRotation_slot hlast]
    exact (if_pos rfl).symm
  · rw [hfile index hindex]
    exact (Move.of_verdict_ne_fail (hfine index hindex)).2
  · unfold installingFrame
    split_ifs with hactive holdest
    · rw [hactive]
    · rw [holdest]
    · refine (beforeRotation_other _ fun slot hslot => ?_).symm
      rcases mem_slots.1 hslot with rfl | ⟨index, hindex, rfl⟩
      · exact ⟨hactive, (hpath 1 (mem_indices.2 ⟨le_refl 1, hmax⟩)).1⟩
      · refine ⟨(hpath index (mem_indices.2 hindex)).2, ?_⟩
        rcases eq_sourceSlot_or_last hmax hslot with ⟨i, hi, hsource⟩ | hsource
        · rw [hsource]
          exact (hpath i (mem_indices.2 hi)).1
        · rw [hsource]
          exact holdest

/-- In the installing phase recovery fails harmlessly if no file that is still staged comes before
the first slot in conflict, and if nothing is wrong after the rotation. -/
structure InstallingHarmless (rt : JsonRuntime) (maxRotatedFiles : ℕ)
    (manifest : RotationManifest) (disk : Disk) : Prop where
  first : FailsFirst (fun index => (installMoveOf manifest index).verdict disk.files)
    (indices manifest.maxRotatedFiles)
  rest : (∀ index ∈ indices manifest.maxRotatedFiles,
      (installMoveOf manifest index).verdict disk.files ≠ .fail) →
    NothingWrong rt maxRotatedFiles manifest
      (fun index => (installMoveOf manifest index).file disk.files) (disk.files.lookup .active) disk

theorem failsUnchanged_of_installing (hwritten : disk.manifest = some (.record manifest))
    (haccepted : manifest.accepted = true) (hphase : manifest.phase = "installing") :
    FailsUnchanged rt maxRotatedFiles stamp disk ↔
      InstallingHarmless rt maxRotatedFiles manifest disk := by
  have hpending := recoverPending_record hwritten haccepted
  rw [recoverAccepted_installing _ hphase, finishRotation, installAll_eq] at hpending
  rcases plan_sameContents_iff (install_separate manifest) disk with
    ⟨herror, ⟨index, hindex, hfail⟩, hsame⟩ | ⟨-, hfine, -⟩
  · rw [Program.bind_error herror] at hpending
    rw [failsUnchanged_of_pending_error (by rw [hpending]), hpending, hsame]
    exact ⟨fun h => ⟨h, fun hfine => absurd hfail (hfine index hindex)⟩, fun h => h.first⟩
  · obtain ⟨hinstallable, hinstalling⟩ :=
      installing_phase_of_fine hwritten haccepted hphase hfine
    obtain ⟨⟨⟩, hresult, hrotated⟩ :=
      (recoverManifest_installing hinstallable).exists_ok hinstalling
    rw [failsUnchanged_of_completed (recoverPending_ok hwritten hresult) (by simp [hwritten])
      hrotated.settled, nothingWrong_iff (fun _ h => installingFile_source h) hrotated]
    exact ⟨fun h => ⟨failsFirst_of_forall hfine, fun _ => h⟩, fun h => h.rest hfine⟩

end

/-! ## All directories

The condition for every directory, and an example of a recovery that cuts one file before it finds
another corrupt. -/

/-- When recovery, if it fails, changes nothing: a log at rest has leftovers of a rotation, or no
file to be cut comes before the first corrupt one; a manifest is refused; or the rotation of the
manifest fails harmlessly. All of it can be seen in the directory before the recovery. -/
def FailsHarmlessly (rt : JsonRuntime) (maxRotatedFiles : ℕ) (disk : Disk) : Prop :=
  match disk.manifest with
  | none => disk.hasRotationFile = true ∨
      FailsFirst (fun path => tailVerdict rt path disk) (logPaths maxRotatedFiles)
  | some (.malformed _) => True
  | some (.record manifest) =>
      manifest.accepted = true →
        if manifest.phase = "staging" then StagingHarmless rt maxRotatedFiles manifest disk
        else InstallingHarmless rt maxRotatedFiles manifest disk

/-- **Failed recoveries.** A recovery that returns `Corrupt` or `RecoveryFailed` leaves every
managed file as it was iff it fails harmlessly. The condition is about the directory before the
recovery, in whatever state it is: at rest, with any manifest, and with a rotation in either
phase. -/
theorem failed_recovery_unchanged_iff (rt : JsonRuntime) (maxRotatedFiles : ℕ) (stamp : Instant)
    (disk : Disk) :
    FailsUnchanged rt maxRotatedFiles stamp disk ↔ FailsHarmlessly rt maxRotatedFiles disk := by
  have hrefused : recoverPending disk = ⟨[], disk, .error .recoveryFailed⟩ →
      FailsUnchanged rt maxRotatedFiles stamp disk := by
    intro hpending
    rw [failsUnchanged_of_pending_error (by rw [hpending]), hpending]
    exact .refl disk
  unfold FailsHarmlessly
  cases hmanifest : disk.manifest with
  | none => exact failsUnchanged_of_rest hmanifest
  | some file =>
      cases file with
      | malformed content =>
          refine iff_of_true (hrefused ?_) trivial
          rw [recoverPending_some hmanifest]
          simp only [recoverManifest, Program.read_bind_apply, hmanifest]
          rfl
      | record manifest =>
          by_cases haccepted : manifest.accepted = true
          · simp only [haccepted, true_imp_iff]
            split_ifs with hphase
            · exact failsUnchanged_of_staging hmanifest haccepted hphase
            · refine failsUnchanged_of_installing hmanifest haccepted ?_
              have hphases := haccepted
              simp only [RotationManifest.accepted, Bool.and_eq_true, Bool.or_eq_true,
                beq_iff_eq] at hphases
              exact hphases.1.1.1.1.1.2.resolve_left hphase
          · refine iff_of_true (hrefused ?_) fun h => absurd h haccepted
            rw [recoverPending_some hmanifest]
            simp only [recoverManifest, Program.read_bind_apply, hmanifest, haccepted]
            rfl

/-- A torn active file, and a backup that is corrupt. -/
def tornAndCorrupt : Disk where
  files := ((∅ : Files Path FileData).insert .active ⟨"\x7b\x7d\n\x7b".toUTF8.toList, 1⟩).insert
    (.backup 1) ⟨"x\n".toUTF8.toList, 0⟩
  manifest := none

/-- Recovery cuts the active file before it finds the backup corrupt: the files are checked and cut
one by one. -/
theorem failed_recovery_cuts :
    (recoverTails sampleRuntime 1 2 tornAndCorrupt).result = .error .corrupt ∧
      ¬ FailsUnchanged sampleRuntime 1 2 tornAndCorrupt := by
  have hresult : (recoverTails sampleRuntime 1 2 tornAndCorrupt).result = .error .corrupt := by
    decide +kernel
  refine ⟨hresult, fun h => ?_⟩
  have hcontents := (h (.inl hresult)).contents .active
  revert hcontents
  decide +kernel

end HpGuardian

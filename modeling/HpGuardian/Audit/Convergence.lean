import HpGuardian.Audit.Rotation

/-!
# Rotations converge

A rotation can be stopped between any two of its operations, and so can the recovery that carries
it on, any number of times.  All of these runs lead to one directory.

What the directory looks like in the meantime is described for each of the two phases of a
rotation.  In the staging phase each slot's file is at its slot or staged (`Staging`); in the
installing phase it is staged or one slot further (`Installing`).  Neither says which moves were
carried out, so each holds before the phase, throughout it and after it, however often the phase
was begun again.  `Rotating` is the one or the other, `Rotated` the directory after an
uninterrupted rotation, and `Converging` the disjunction that carries the proof: a rotation is
under way, or it is complete.

The steps of the proof follow the source.  Each phase is the loop over a plan of separate moves,
and plans restart from any state in flight; the switch of the manifest's phase turns the end of the
first phase into the beginning of the second (`Installing.start`); the removal of the oldest file
leaves the installing phase where it is, and the removal of the manifest ends it.  Together they
are a triple for `recover_manifest` that starts in `Rotating`, cannot fail, ends in `Rotated`, and
has `Converging` as its crash condition (`recoverManifest_rotating`).  The triple for a whole
rotation is the same with the manifest written first.

`Interrupted` collects the directories that stopped rotations and recoveries leave behind, as an
inductive predicate with one rule for each stop; every one of them is converging
(`Interrupted.converging`), and `rotation_converges` says what that means for the next recovery.
The same triples also say which file a rotation removes: the oldest, in its staged place, and no
other.

The manifest is written in one step here.  The step has its own module, `ManifestCrash`.
-/

namespace HpGuardian

open Framework

/-! ## The plans

The slots of a rotation and the two plans over them.  Paths of different slots are different, and a
staged path is no slot's path, so both plans are separate. -/

/-- The slots of a rotation: the active file and backups `1..=max_rotated_files`. -/
def slots (maxRotatedFiles : ℕ) : List Slot := .active :: (indices maxRotatedFiles).map .backup

theorem mem_indices {maxRotatedFiles index : ℕ} :
    index ∈ indices maxRotatedFiles ↔ 1 ≤ index ∧ index ≤ maxRotatedFiles := by
  simp only [indices, List.mem_range'_1]
  omega

theorem mem_slots {maxRotatedFiles : ℕ} {slot : Slot} :
    slot ∈ slots maxRotatedFiles ↔
      slot = .active ∨ ∃ index, (1 ≤ index ∧ index ≤ maxRotatedFiles) ∧ slot = .backup index := by
  simp only [slots, List.mem_cons, List.mem_map, mem_indices]
  refine or_congr_right ⟨?_, ?_⟩
  · rintro ⟨index, hindex, rfl⟩
    exact ⟨index, hindex, rfl⟩
  · rintro ⟨index, hindex, rfl⟩
    exact ⟨index, hindex, rfl⟩

theorem Slot.path_injective : Function.Injective Slot.path := by
  intro slot slot' h
  cases slot <;> cases slot' <;> simp_all [Slot.path]

theorem Slot.path_ne_stage (slot slot' : Slot) (transaction : String) :
    slot.path ≠ .stage transaction slot' := by
  cases slot <;> simp [Slot.path]

theorem sourceSlot_injOn {i j : ℕ} (hi : 1 ≤ i) (hj : 1 ≤ j) (h : sourceSlot i = sourceSlot j) :
    i = j := by
  unfold sourceSlot at h
  split_ifs at h with h₁ h₂ h₂
  · omega
  · simp only [Slot.backup.injEq] at h
    omega

/-- The slot that is installed as backup `i` is one of the slots but the last. -/
theorem sourceSlot_mem_slots {maxRotatedFiles i : ℕ} (hi : 1 ≤ i ∧ i ≤ maxRotatedFiles) :
    sourceSlot i ∈ slots maxRotatedFiles := by
  rw [mem_slots]
  unfold sourceSlot
  split_ifs with h
  · exact .inl rfl
  · exact .inr ⟨i - 1, by omega, rfl⟩

theorem sourceSlot_ne_last {maxRotatedFiles i : ℕ} (hi : 1 ≤ i ∧ i ≤ maxRotatedFiles) :
    sourceSlot i ≠ .backup maxRotatedFiles := by
  unfold sourceSlot
  split_ifs with h
  · simp
  · simp only [ne_eq, Slot.backup.injEq]
    omega

/-- Every slot but the last is installed somewhere. -/
theorem eq_sourceSlot_or_last {maxRotatedFiles : ℕ} (hmax : 1 ≤ maxRotatedFiles) {slot : Slot}
    (hslot : slot ∈ slots maxRotatedFiles) :
    (∃ i, (1 ≤ i ∧ i ≤ maxRotatedFiles) ∧ slot = sourceSlot i) ∨
      slot = .backup maxRotatedFiles := by
  rcases mem_slots.1 hslot with rfl | ⟨index, hindex, rfl⟩
  · exact .inl ⟨1, ⟨le_refl 1, hmax⟩, by simp [sourceSlot]⟩
  · by_cases hlast : index = maxRotatedFiles
    · exact .inr (by rw [hlast])
    · refine .inl ⟨index + 1, by omega, ?_⟩
      simp [sourceSlot, Nat.ne_of_gt hindex.1]

section Plans

variable (manifest : RotationManifest)

/-- The staging moves, by slot. -/
def stageMoveOf (slot : Slot) : Move Path :=
  stageMove manifest.transactionId slot (manifest.expects slot)

/-- The installing moves, by target. -/
def installMoveOf (index : ℕ) : Move Path :=
  installMove manifest.transactionId (sourceSlot index) index (manifest.expects (sourceSlot index))

theorem stage_separate :
    Separate (stageMoveOf manifest) (slots manifest.maxRotatedFiles) where
  nodup := by
    refine List.nodup_cons.2 ⟨by simp, ?_⟩
    exact List.Nodup.map (fun _ _ h => by simpa using h) (List.nodup_range' 1 (by simp))
  self slot _ := Slot.path_ne_stage slot slot _
  source slot _ slot' _ hne :=
    ⟨fun h => hne (Slot.path_injective h), Slot.path_ne_stage slot slot' _⟩
  target slot _ slot' _ hne :=
    ⟨(Slot.path_ne_stage slot' slot _).symm, fun h => hne (by simpa [stageMoveOf, stageMove,
      stagingPath] using h)⟩

theorem install_separate :
    Separate (installMoveOf manifest) (indices manifest.maxRotatedFiles) where
  nodup := List.nodup_range' 1 (by simp)
  self i _ := by simp [installMoveOf, installMove, stagingPath]
  source i hi j hj hne := by
    refine ⟨fun h => hne ?_, by simp [installMoveOf, installMove, stagingPath]⟩
    simp only [installMoveOf, installMove, stagingPath, Path.stage.injEq, true_and] at h
    exact sourceSlot_injOn (mem_indices.1 hi).1 (mem_indices.1 hj).1 h
  target i _ j _ hne :=
    ⟨by simp [installMoveOf, installMove, stagingPath], fun h => hne (by
      simpa [installMoveOf, installMove] using h)⟩

end Plans

/-! ## The phases

What holds of the directory in each phase.  `orig` is the directory before the rotation, and stays
the same throughout: the phases say where its files are now. -/

/-- The files of a directory, by path. -/
abbrev Contents := Path → Option FileData

/-- The directory after a rotation: every slot one further, with the active file as given. -/
def rotatedContents (maxRotatedFiles : ℕ) (orig : Contents) (active : Option FileData) : Contents
  | .active => active
  | .backup index =>
      if 1 ≤ index ∧ index ≤ maxRotatedFiles then orig (sourceSlot index).path
      else orig (.backup index)
  | path => orig path

/-- A manifest that describes the directory a rotation starts from: it passes the checks of
recovery, expects a file exactly where there is one, and its transaction's names are free. -/
structure Describes (manifest : RotationManifest) (orig : Contents) : Prop where
  accepted : manifest.accepted = true
  expects : ∀ slot ∈ slots manifest.maxRotatedFiles,
    manifest.expects slot = (orig slot.path).isSome
  unstaged : ∀ slot ∈ slots manifest.maxRotatedFiles,
    orig (.stage manifest.transactionId slot) = none
  noTemporary : orig (.temporary manifest.transactionId) = none

/-- A manifest that describes the files a rotation installs. Of the files before the rotation only
those that are moved further count; the oldest may or may not be there. -/
structure Installable (manifest : RotationManifest) (orig : Contents) : Prop where
  accepted : manifest.accepted = true
  expects : ∀ index ∈ indices manifest.maxRotatedFiles,
    manifest.expects (sourceSlot index) = (orig (sourceSlot index).path).isSome
  unstaged : ∀ slot ∈ slots manifest.maxRotatedFiles,
    orig (.stage manifest.transactionId slot) = none

/-- The staging phase: the manifest is written and in its staging phase, and each slot's file is at
the slot or staged. It holds before the first move, after the last, and whichever moves have been
carried out in between. -/
structure Staging (manifest : RotationManifest) (orig : Contents) (disk : Disk) : Prop where
  phase : manifest.phase = "staging"
  written : disk.manifest = some (.record manifest)
  flight : InFlight (stageMoveOf manifest) (slots manifest.maxRotatedFiles)
    (fun slot => orig slot.path) orig disk.files

/-- What the installing phase leaves alone: the active file, which may have been created again,
the oldest file, which is removed at the end, and everything outside the rotation. -/
def installingFrame (manifest : RotationManifest) (orig : Contents)
    (active oldest : Option FileData) : Contents := fun path =>
  if path = .active then active
  else if path = .stage manifest.transactionId (.backup manifest.maxRotatedFiles) then oldest
  else orig path

/-- The installing phase: the manifest is written and in its installing phase, and each slot's file
is staged or one slot further. The active file and the oldest file are treated apart, since the one
may be created again and the other is removed. -/
structure Installing (manifest : RotationManifest) (orig : Contents)
    (active oldest : Option FileData) (disk : Disk) : Prop where
  phase : manifest.phase = "installing"
  written : disk.manifest = some (.record manifest)
  flight : InFlight (installMoveOf manifest) (indices manifest.maxRotatedFiles)
    (fun index => orig (sourceSlot index).path) (installingFrame manifest orig active oldest)
    disk.files

/-- The directory after a rotation: every slot holds what the slot before it held, the oldest file
is gone, and no file of the rotation is left. -/
structure Rotated (maxRotatedFiles : ℕ) (orig : Contents) (active : Option FileData)
    (disk : Disk) : Prop where
  settled : disk.manifest = none
  files : ∀ path, disk.files.lookup path = rotatedContents maxRotatedFiles orig active path

theorem Rotated.unique {maxRotatedFiles : ℕ} {orig : Contents} {active : Option FileData}
    {disk disk' : Disk} (h : Rotated maxRotatedFiles orig active disk)
    (h' : Rotated maxRotatedFiles orig active disk') : disk = disk' :=
  Disk.ext_lookup (fun path => by rw [h.files, h'.files]) (by rw [h.settled, h'.settled])

theorem rotatedContents_unmarked {maxRotatedFiles : ℕ} {orig : Contents}
    {active : Option FileData} (hunmarked : ∀ path, path.isRotation = true → orig path = none)
    {path : Path} (hpath : path.isRotation = true) :
    rotatedContents maxRotatedFiles orig active path = none := by
  have horig := hunmarked path hpath
  cases path with
  | active => cases hpath
  | backup index => cases hpath
  | _ => exact horig

/-- A rotation leaves no rotation entries. -/
theorem Rotated.quiet {maxRotatedFiles : ℕ} {orig : Contents} {active : Option FileData}
    {disk : Disk} (h : Rotated maxRotatedFiles orig active disk)
    (hunmarked : ∀ path, path.isRotation = true → orig path = none) :
    disk.hasRotationEntry = false :=
  Disk.hasRotationEntry_eq_false_iff.2 ⟨h.settled, fun path hpath =>
    (h.files path).trans (rotatedContents_unmarked hunmarked hpath)⟩

/-- The oldest file of a rotation is still staged, or it has been removed. The last phase is
stopped on either side of the removal. -/
def OldestStaged (manifest : RotationManifest) (orig : Contents) (oldest : Option FileData) :
    Prop :=
  oldest = orig (.backup manifest.maxRotatedFiles) ∨ oldest = none

/-- The installing phase, at any point: before or after the removal of the oldest file. -/
def InstallingPhase (manifest : RotationManifest) (orig : Contents) (active : Option FileData)
    (disk : Disk) : Prop :=
  ∃ oldest, OldestStaged manifest orig oldest ∧ Installing manifest orig active oldest disk

/-- A rotation under way, in one of its phases. Whoever finds the directory so, after however many
interruptions, has a recovery to carry out that cannot fail. -/
def Rotating (manifest : RotationManifest) (orig : Contents) (disk : Disk) : Prop :=
  Staging manifest orig disk ∨ InstallingPhase manifest.installing orig none disk

/-- The only file a rotation removes is the oldest one, in its staged place. A condition on a step
and the directory before it, which is how losses are excluded. -/
def RemovesOldest (manifest : RotationManifest) (orig : Contents) (disk : Disk)
    (label : Operation) : Prop :=
  ∀ path, label = .remove path →
    path = .stage manifest.transactionId (.backup manifest.maxRotatedFiles) ∧
      disk.files.lookup path = orig (.backup manifest.maxRotatedFiles)

/-- A step that removes no file. -/
def RemovesNothing (label : Operation) : Prop := ∀ path, label ≠ .remove path

theorem RemovesNothing.removesOldest {manifest : RotationManifest} {orig : Contents} {disk : Disk}
    {label : Operation} (h : RemovesNothing label) : RemovesOldest manifest orig disk label :=
  fun path hpath => absurd hpath (h path)

/-! ## From one phase to the next

A manifest that passed its checks in the staging phase passes them in the installing phase, and the
end of each phase is the beginning of the next. -/

section

variable {manifest : RotationManifest} {orig : Contents} {active oldest : Option FileData}
  {disk : Disk}

@[simp] theorem installing_phase : manifest.installing.phase = "installing" := rfl

@[simp] theorem installing_transactionId :
    manifest.installing.transactionId = manifest.transactionId := rfl

@[simp] theorem installing_maxRotatedFiles :
    manifest.installing.maxRotatedFiles = manifest.maxRotatedFiles := rfl

@[simp] theorem installing_expects (slot : Slot) :
    manifest.installing.expects slot = manifest.expects slot := rfl

theorem RotationManifest.accepted.one_le (h : manifest.accepted = true) :
    1 ≤ manifest.maxRotatedFiles := by
  simp only [RotationManifest.accepted, Bool.and_eq_true, bne_iff_ne] at h
  omega

theorem RotationManifest.accepted.installing (h : manifest.accepted = true) :
    manifest.installing.accepted = true := by
  simp only [RotationManifest.accepted, Bool.and_eq_true] at h ⊢
  simp only [RotationManifest.installing]
  exact ⟨⟨⟨⟨⟨⟨h.1.1.1.1.1.1, by simp⟩, h.1.1.1.1.2⟩, h.1.1.1.2⟩, h.1.1.2⟩, h.1.2⟩, h.2⟩

theorem Describes.installing (h : Describes manifest orig) :
    Installable manifest.installing orig :=
  ⟨RotationManifest.accepted.installing h.accepted,
    fun _ hi => h.expects _ (sourceSlot_mem_slots (mem_indices.1 hi)), h.unstaged⟩

/-- Before anything is staged, the directory is in the staging phase. -/
theorem Staging.start (hdescribes : Describes manifest orig) (hphase : manifest.phase = "staging")
    (hmanifest : disk.manifest = some (.record manifest))
    (hfiles : ∀ path, disk.files.lookup path = orig path) : Staging manifest orig disk where
  phase := hphase
  written := hmanifest
  flight := {
    each := fun slot hslot => .inl ⟨hfiles _, by
      rw [hfiles]
      exact hdescribes.unstaged slot hslot⟩
    frame := fun path _ => hfiles path }

/-- When everything is staged, the installing phase can begin. -/
theorem Installing.start (hdescribes : Describes manifest orig)
    (hflight : InFlight (stageMoveOf manifest) (slots manifest.maxRotatedFiles)
      (fun slot => orig slot.path) orig disk.files)
    (hstaged : ∀ slot ∈ slots manifest.maxRotatedFiles,
      (stageMoveOf manifest slot).Moved (orig slot.path) disk.files) :
    Installing manifest.installing orig none (orig (.backup manifest.maxRotatedFiles))
      { disk with manifest := some (.record manifest.installing) } where
  phase := rfl
  written := rfl
  flight := by
    have hmax := RotationManifest.accepted.one_le hdescribes.accepted
    have hslot : ∀ slot ∈ slots manifest.maxRotatedFiles, disk.files.lookup slot.path = none ∧
        disk.files.lookup (.stage manifest.transactionId slot) = orig slot.path := hstaged
    refine ⟨fun i hi => .inl ⟨?_, ?_⟩, fun path hpath => ?_⟩
    · exact (hslot _ (sourceSlot_mem_slots (mem_indices.1 hi))).2
    · exact (hslot (.backup i) (mem_slots.2 (.inr ⟨i, mem_indices.1 hi, rfl⟩))).1
    · unfold installingFrame
      split_ifs with hactive holdest
      · rw [hactive]
        exact (hslot .active (mem_slots.2 (.inl rfl))).1
      · rw [holdest]
        exact (hslot _ (mem_slots.2 (.inr ⟨_, ⟨hmax, le_refl _⟩, rfl⟩))).2
      · refine hflight.frame path fun slot hs => ⟨?_, ?_⟩
        · rcases mem_slots.1 hs with rfl | ⟨i, hi, rfl⟩
          · exact hactive
          · exact (hpath i (mem_indices.2 hi)).2
        · rcases eq_sourceSlot_or_last hmax hs with ⟨i, hi, rfl⟩ | rfl
          · exact (hpath i (mem_indices.2 hi)).1
          · exact holdest

/-- When everything is installed and the oldest file is gone, only the manifest is left. -/
theorem Rotated.of_installed (hinstallable : Installable manifest orig)
    (hflight : InFlight (installMoveOf manifest) (indices manifest.maxRotatedFiles)
      (fun index => orig (sourceSlot index).path) (installingFrame manifest orig active none)
      disk.files)
    (hinstalled : ∀ i ∈ indices manifest.maxRotatedFiles,
      (installMoveOf manifest i).Moved (orig (sourceSlot i).path) disk.files) :
    Rotated manifest.maxRotatedFiles orig active { disk with manifest := none } where
  settled := rfl
  files := by
    intro path
    have hmax := RotationManifest.accepted.one_le hinstallable.accepted
    -- outside the plan the frame says what is there
    have hframe : Untouched (installMoveOf manifest) (indices manifest.maxRotatedFiles) path →
        disk.files.lookup path = installingFrame manifest orig active none path :=
      hflight.frame path
    cases path with
    | active =>
        rw [hframe fun i _ => ⟨by simp [installMoveOf, installMove, stagingPath],
          by simp [installMoveOf, installMove]⟩]
        simp [installingFrame, rotatedContents]
    | backup index =>
        by_cases hindex : 1 ≤ index ∧ index ≤ manifest.maxRotatedFiles
        · rw [rotatedContents, if_pos hindex]
          exact (hinstalled index (mem_indices.2 hindex)).2
        · rw [hframe fun i hi => ⟨by simp [installMoveOf, installMove, stagingPath], by
            rintro h
            simp only [installMoveOf, installMove, Path.backup.injEq] at h
            exact hindex (h ▸ mem_indices.1 hi)⟩]
          simp [installingFrame, rotatedContents, hindex]
    | stage transaction slot =>
        by_cases hplan : ∃ i ∈ indices manifest.maxRotatedFiles,
            Path.stage transaction slot = .stage manifest.transactionId (sourceSlot i)
        · obtain ⟨i, hi, heq⟩ := hplan
          rw [heq]
          exact (hinstalled i hi).1.trans
            (hinstallable.unstaged _ (sourceSlot_mem_slots (mem_indices.1 hi))).symm
        · rw [hframe fun i hi => ⟨fun h => hplan ⟨i, hi, h⟩, by simp [installMoveOf, installMove]⟩]
          simp only [installingFrame, rotatedContents, reduceCtorEq, if_false]
          split_ifs with holdest
          · rw [holdest, hinstallable.unstaged _ (mem_slots.2 (.inr ⟨_, ⟨hmax, le_refl _⟩, rfl⟩))]
          · rfl
    | temporary transaction =>
        rw [hframe fun i _ => ⟨by simp [installMoveOf, installMove, stagingPath],
          by simp [installMoveOf, installMove]⟩]
        simp [installingFrame, rotatedContents]
    | stray suffix =>
        rw [hframe fun i _ => ⟨by simp [installMoveOf, installMove, stagingPath],
          by simp [installMoveOf, installMove]⟩]
        simp [installingFrame, rotatedContents]

end

/-! ## Recovery of a rotation

The triples of the parts of `recover_manifest`.  None of the parts can fail from where the phase
says the files are, so the error postcondition is `False` in all of them. -/

section

variable {manifest : RotationManifest} {orig : Contents} {active oldest : Option FileData}
  {disk : Disk}

theorem writeManifestAtomically_apply
    (htemporary : disk.files.lookup (.temporary manifest.transactionId) = none) :
    writeManifestAtomically manifest disk =
      ⟨[(disk, .writeManifest manifest),
        ({ disk with manifest := some (.record manifest) }, .sync)],
        { disk with manifest := some (.record manifest) }, .ok ()⟩ := by
  have hread : decide (Path.temporary manifest.transactionId ∈ disk.files) = false := by
    rw [decide_eq_false_iff_not, ← Finmap.lookup_eq_none]
    exact htemporary
  simp only [writeManifestAtomically, Program.read_bind_apply, hread]
  rfl

theorem stageAll_eq (writeManifest : RotationManifest → DiskProgram Unit) :
    stageAll writeManifest manifest =
      (Disk.onFiles (Program.forEach
          (fun slot => move .rename .sync .recoveryFailed (stageMoveOf manifest slot))
          (slots manifest.maxRotatedFiles)) >>= fun _ =>
        writeManifest manifest.installing) := by
  rw [Disk.onFiles, Program.zoom_forEach Disk.files_lens, slots, Program.forEach_cons,
    Program.forEach_map, Program.bind_assoc_eq]
  rfl

theorem installAll_eq :
    installAll manifest = Disk.onFiles (Program.forEach
      (fun index => move .rename .sync .recoveryFailed (installMoveOf manifest index))
      (indices manifest.maxRotatedFiles)) := by
  rw [Disk.onFiles, Program.zoom_forEach Disk.files_lens]
  rfl

/-- The steps of a plan remove nothing. -/
theorem removesNothing_of_planStep {ι : Type} {moveOf : ι → Move Path} {plan : List ι}
    {label : Operation} (h : PlanStep Operation.rename .sync moveOf plan label) :
    RemovesNothing label := by
  rintro path rfl
  rcases h with h | ⟨i, -, h⟩ <;> cases h

/-- A plan on the files of the directory, with the manifest as it is. -/
theorem plan_triple {ι : Type} {moveOf : ι → Move Path} {plan : List ι}
    {file : ι → Option FileData} (other : Contents) (hsep : Separate moveOf plan)
    (hexpected : ∀ i ∈ plan, (moveOf i).expected = (file i).isSome)
    (written : Option ManifestFile) :
    Program.Triple
      (fun disk => disk.manifest = written ∧ InFlight moveOf plan file other disk.files)
      (Disk.onFiles (Program.forEach
        (fun i => move Operation.rename .sync AuditError.recoveryFailed (moveOf i)) plan))
      (fun disk label =>
        (disk.manifest = written ∧ InFlight moveOf plan file other disk.files) ∧
          PlanStep Operation.rename .sync moveOf plan label)
      (fun _ disk => (disk.manifest = written ∧ InFlight moveOf plan file other disk.files) ∧
        ∀ i ∈ plan, (moveOf i).Moved (file i) disk.files)
      (fun _ _ => False) := by
  have hzoom := Program.Triple.zoom
    (forEach_move Operation.rename Operation.sync AuditError.recoveryFailed other hsep hexpected)
    Disk.files_lens (F := fun disk => disk.manifest = written) (fun _ _ h => h)
  exact hzoom.conseq (fun _ h => h) (fun _ _ h => ⟨⟨h.1, h.2.1⟩, h.2.2⟩)
    (fun _ _ h => ⟨⟨h.1, h.2.1⟩, h.2.2⟩) (fun _ _ h => h.2)

/-- Staging, from wherever it stands, ends with the switch to the installing phase. -/
theorem stageAll_triple (hdescribes : Describes manifest orig)
    (hphase : manifest.phase = "staging") :
    Program.Triple (Staging manifest orig) (stageAll writeManifestAtomically manifest)
      (fun disk label => (Staging manifest orig disk ∨ Installing manifest.installing orig none
        (orig (.backup manifest.maxRotatedFiles)) disk) ∧ RemovesNothing label)
      (fun _ disk => Installing manifest.installing orig none
        (orig (.backup manifest.maxRotatedFiles)) disk)
      (fun _ _ => False) := by
  have hloop := plan_triple orig (stage_separate manifest) hdescribes.expects
    (some (.record manifest))
  rw [stageAll_eq]
  refine (hloop.conseq (fun disk h => ⟨h.written, h.flight⟩)
    (fun disk label h => ⟨.inl ⟨hphase, h.1.1, h.1.2⟩, removesNothing_of_planStep h.2⟩)
    (fun _ _ h => h) (fun _ _ h => h)).bind (fun _ disk h => ?_)
  obtain ⟨⟨hwritten, hflight⟩, hmoved⟩ := h
  have htemporary : disk.files.lookup (.temporary manifest.transactionId) = none := by
    rw [hflight.frame _ fun slot _ => ⟨by cases slot <;> simp [stageMoveOf, stageMove, Slot.path],
      by simp [stageMoveOf, stageMove, stagingPath]⟩]
    exact hdescribes.noTemporary
  have hnext := Installing.start hdescribes hflight hmoved
  have hwrite : writeManifestAtomically manifest.installing disk = _ :=
    writeManifestAtomically_apply htemporary
  rw [hwrite]
  refine ⟨?_, hnext⟩
  intro step hstep
  rcases List.mem_cons.1 hstep with rfl | hstep
  · exact ⟨.inl ⟨hphase, hwritten, hflight⟩, fun path h => by cases h⟩
  · obtain rfl := List.mem_singleton.1 hstep
    exact ⟨.inr hnext, fun path h => by cases h⟩

/-- The state of the files when everything is installed. -/
def Installed (manifest : RotationManifest) (orig : Contents) (disk : Disk) : Prop :=
  ∀ i ∈ indices manifest.maxRotatedFiles,
    (installMoveOf manifest i).Moved (orig (sourceSlot i).path) disk.files

theorem installAll_triple (active oldest : Option FileData)
    (hinstallable : Installable manifest orig)
    (hphase : manifest.phase = "installing") :
    Program.Triple (Installing manifest orig active oldest) (installAll manifest)
      (fun disk label => Installing manifest orig active oldest disk ∧ RemovesNothing label)
      (fun _ disk => Installing manifest orig active oldest disk ∧ Installed manifest orig disk)
      (fun _ _ => False) := by
  have hexpected : ∀ i ∈ indices manifest.maxRotatedFiles,
      (installMoveOf manifest i).expected = (orig (sourceSlot i).path).isSome :=
    hinstallable.expects
  have hloop := plan_triple (installingFrame manifest orig active oldest)
    (install_separate manifest) hexpected (some (.record manifest))
  rw [installAll_eq]
  exact hloop.conseq (fun disk h => ⟨h.written, h.flight⟩) (fun disk label h =>
      ⟨⟨hphase, h.1.1, h.1.2⟩, removesNothing_of_planStep h.2⟩)
    (fun _ disk h => ⟨⟨hphase, h.1.1, h.1.2⟩, h.2⟩) (fun _ _ h => h)

/-- The oldest staged file is outside the installing plan. -/
theorem oldest_untouched (manifest : RotationManifest) :
    Untouched (installMoveOf manifest) (indices manifest.maxRotatedFiles)
      (.stage manifest.transactionId (.backup manifest.maxRotatedFiles)) := by
  intro i hi
  refine ⟨?_, by simp [installMoveOf, installMove]⟩
  simp only [installMoveOf, installMove, stagingPath, ne_eq, Path.stage.injEq, true_and]
  exact (sourceSlot_ne_last (mem_indices.1 hi)).symm

theorem Installing.lookup_oldest (h : Installing manifest orig active oldest disk) :
    disk.files.lookup (.stage manifest.transactionId (.backup manifest.maxRotatedFiles)) =
      oldest := by
  rw [h.flight.frame _ (oldest_untouched manifest)]
  simp [installingFrame]

/-- The directory without the oldest file of a rotation. -/
def withoutOldest (manifest : RotationManifest) (disk : Disk) : Disk :=
  disk.setFiles (disk.files.erase
    (.stage manifest.transactionId (.backup manifest.maxRotatedFiles)))

/-- Without the oldest file the installing phase goes on. -/
theorem Installing.erase_oldest (h : Installing manifest orig active oldest disk)
    (hinstalled : Installed manifest orig disk) :
    Installing manifest orig active none (withoutOldest manifest disk) ∧
      Installed manifest orig (withoutOldest manifest disk) := by
  have hlookup : ∀ path, path ≠
      .stage manifest.transactionId (.backup manifest.maxRotatedFiles) →
      (disk.files.erase (.stage manifest.transactionId
        (.backup manifest.maxRotatedFiles))).lookup path = disk.files.lookup path :=
    fun path hpath => Finmap.lookup_erase_ne hpath
  have hmoved : Installed manifest orig (disk.setFiles (disk.files.erase
      (.stage manifest.transactionId (.backup manifest.maxRotatedFiles)))) := by
    intro i hi
    obtain ⟨hs, ht⟩ := oldest_untouched manifest i hi
    refine ⟨?_, ?_⟩
    · rw [Disk.files_setFiles, hlookup _ hs.symm]
      exact (hinstalled i hi).1
    · rw [Disk.files_setFiles, hlookup _ ht.symm]
      exact (hinstalled i hi).2
  refine ⟨⟨h.phase, h.written, fun i hi => .inr (hmoved i hi), fun path hpath => ?_⟩, hmoved⟩
  rw [withoutOldest, Disk.files_setFiles]
  by_cases hpath' : path = .stage manifest.transactionId (.backup manifest.maxRotatedFiles)
  · subst hpath'
    simp [installingFrame]
  · rw [hlookup path hpath', h.flight.frame path hpath]
    simp [installingFrame, hpath']

theorem Installing.removeOldest_none (h : Installing manifest orig active none disk) :
    removeOldest manifest disk = ⟨[], disk, .ok ()⟩ := by
  simp only [removeOldest, stagingPath, Program.read_bind_apply, mem_iff_lookup, h.lookup_oldest]
  rfl

theorem Installing.removeOldest_some {file : FileData}
    (h : Installing manifest orig active (some file) disk) :
    removeOldest manifest disk =
      ⟨[(disk, .remove (.stage manifest.transactionId (.backup manifest.maxRotatedFiles))),
        (withoutOldest manifest disk, .sync)], withoutOldest manifest disk, .ok ()⟩ := by
  simp only [removeOldest, stagingPath, Program.read_bind_apply, mem_iff_lookup, h.lookup_oldest]
  rfl

theorem removeOldest_triple (active : Option FileData)
    (holdest : OldestStaged manifest orig oldest) :
    Program.Triple
      (fun disk => Installing manifest orig active oldest disk ∧ Installed manifest orig disk)
      (removeOldest manifest)
      (fun disk label => InstallingPhase manifest orig active disk ∧
        RemovesOldest manifest orig disk label)
      (fun _ disk => Installing manifest orig active none disk ∧ Installed manifest orig disk)
      (fun _ _ => False) := by
  rintro disk ⟨hinstalling, hinstalled⟩
  cases oldest with
  | none =>
      rw [hinstalling.removeOldest_none]
      exact ⟨by simp, hinstalling, hinstalled⟩
  | some file =>
      have horig : orig (.backup manifest.maxRotatedFiles) = some file := by
        rcases holdest with h | h
        · exact h.symm
        · cases h
      have hnext := hinstalling.erase_oldest hinstalled
      rw [hinstalling.removeOldest_some]
      refine ⟨?_, hnext⟩
      intro step hstep
      rcases List.mem_cons.1 hstep with rfl | hstep
      · refine ⟨⟨_, holdest, hinstalling⟩, fun path hpath => ?_⟩
        obtain rfl := (Operation.remove.inj hpath).symm
        exact ⟨rfl, by rw [hinstalling.lookup_oldest, horig]⟩
      · obtain rfl := List.mem_singleton.1 hstep
        exact ⟨⟨none, .inr rfl, hnext.1⟩, fun path h => by cases h⟩

/-- A rotation in its installing phase, or one that is complete. This is the crash condition of
everything behind the switch of the phase. -/
def Completing (manifest : RotationManifest) (orig : Contents) (active : Option FileData)
    (disk : Disk) : Prop :=
  InstallingPhase manifest orig active disk ∨ Rotated manifest.maxRotatedFiles orig active disk

theorem removeManifest_triple (hinstallable : Installable manifest orig) :
    Program.Triple
      (fun disk => Installing manifest orig active none disk ∧ Installed manifest orig disk)
      removeManifest
      (fun disk label => Completing manifest orig active disk ∧
        RemovesOldest manifest orig disk label)
      (fun _ disk => Rotated manifest.maxRotatedFiles orig active disk) (fun _ _ => False) := by
  rintro disk ⟨hinstalling, hinstalled⟩
  have hrotated := Rotated.of_installed hinstallable hinstalling.flight hinstalled
  refine ⟨?_, hrotated⟩
  intro step hstep
  rcases List.mem_cons.1 hstep with rfl | hstep
  · exact ⟨.inl ⟨none, .inr rfl, hinstalling⟩, fun path h => by cases h⟩
  · obtain rfl := List.mem_singleton.1 hstep
    exact ⟨.inr hrotated, fun path h => by cases h⟩

/-- The part of recovery after staging. -/
def finishRotation (manifest : RotationManifest) : DiskProgram Unit := do
  installAll manifest
  removeOldest manifest
  removeManifest

theorem finishRotation_triple (active : Option FileData)
    (hinstallable : Installable manifest orig) :
    Program.Triple (InstallingPhase manifest orig active) (finishRotation manifest)
      (fun disk label => Completing manifest orig active disk ∧
        RemovesOldest manifest orig disk label)
      (fun _ disk => Rotated manifest.maxRotatedFiles orig active disk) (fun _ _ => False) := by
  rintro disk ⟨oldest, holdest, hinstalling⟩
  have hinstall := (installAll_triple active oldest hinstallable hinstalling.phase).conseq
    (fun _ h => h) (fun disk label h => (⟨.inl ⟨oldest, holdest, h.1⟩, h.2.removesOldest⟩ :
      Completing manifest orig active disk ∧ RemovesOldest manifest orig disk label))
    (fun _ _ h => h) (fun _ _ h => h)
  have hremove := (removeOldest_triple active holdest).conseq
    (fun _ h => h) (fun _ _ h => (⟨.inl h.1, h.2⟩ : Completing manifest orig active _ ∧ _))
    (fun _ _ h => h) (fun _ _ h => h)
  exact (hinstall.bind fun _ => hremove.bind fun _ => removeManifest_triple hinstallable)
    disk hinstalling

end

/-! ## Recovery from a manifest

The parts put together, first for a manifest in either phase, then for a rotation in whichever
phase it is. -/

section

variable {manifest : RotationManifest} {orig : Contents} {active : Option FileData} {disk : Disk}

theorem recoverManifest_apply (writeManifest : RotationManifest → DiskProgram Unit)
    (hwritten : disk.manifest = some (.record manifest)) (haccepted : manifest.accepted = true) :
    recoverManifest writeManifest disk = recoverAccepted writeManifest manifest disk := by
  simp only [recoverManifest, Program.read_bind_apply, hwritten, haccepted, if_true]

theorem recoverAccepted_staging (writeManifest : RotationManifest → DiskProgram Unit)
    (hphase : manifest.phase = "staging") :
    recoverAccepted writeManifest manifest =
      (stageAll writeManifest manifest >>= fun _ => finishRotation manifest.installing) := by
  simp only [recoverAccepted, hphase, if_true]
  rfl

theorem recoverAccepted_installing (writeManifest : RotationManifest → DiskProgram Unit)
    (hphase : manifest.phase = "installing") :
    recoverAccepted writeManifest manifest = finishRotation manifest := by
  simp only [recoverAccepted, hphase]
  rfl

/-- A rotation under way with nothing appended since, or one that is complete. This is the
invariant of interrupted rotations: every step of a rotation and of a recovery keeps it, and so
does being stopped. -/
def Converging (manifest : RotationManifest) (orig : Contents) (disk : Disk) : Prop :=
  Rotating manifest orig disk ∨ Rotated manifest.maxRotatedFiles orig none disk

theorem Converging.of_completing (h : Completing manifest.installing orig none disk) :
    Converging manifest orig disk := by
  rcases h with h | h
  · exact .inl (.inr h)
  · exact .inr h

/-- Recovery completes a rotation that was interrupted while staging. -/
theorem recoverManifest_staging (hdescribes : Describes manifest orig) :
    Program.Triple (Staging manifest orig) (recoverManifest writeManifestAtomically)
      (fun disk label => Converging manifest orig disk ∧ RemovesOldest manifest orig disk label)
      (fun _ disk => Rotated manifest.maxRotatedFiles orig none disk) (fun _ _ => False) := by
  intro disk h
  rw [recoverManifest_apply _ h.written hdescribes.accepted, recoverAccepted_staging _ h.phase]
  have hstage := (stageAll_triple hdescribes h.phase).conseq (fun _ h => h)
    (fun disk label h => (⟨.inl (h.1.imp_right fun h => ⟨_, .inl rfl, h⟩), h.2.removesOldest⟩ :
      Converging manifest orig disk ∧ RemovesOldest manifest orig disk label))
    (fun _ _ h => (⟨_, .inl rfl, h⟩ : InstallingPhase manifest.installing orig none _))
    (fun _ _ h => h)
  have hfinish := (finishRotation_triple none hdescribes.installing).conseq
    (fun _ h => h) (fun _ _ h => (⟨.of_completing h.1, h.2⟩ : Converging manifest orig _ ∧ _))
    (fun _ _ h => h) (fun _ _ h => h)
  exact (hstage.bind fun _ => hfinish) disk h

/-- Recovery completes a rotation that was interrupted while installing. -/
theorem recoverManifest_installing (hinstallable : Installable manifest orig) :
    Program.Triple (InstallingPhase manifest orig active) (recoverManifest writeManifestAtomically)
      (fun disk label => Completing manifest orig active disk ∧
        RemovesOldest manifest orig disk label)
      (fun _ disk => Rotated manifest.maxRotatedFiles orig active disk) (fun _ _ => False) := by
  intro disk h
  obtain ⟨oldest, -, hinstalling⟩ := id h
  rw [recoverManifest_apply _ hinstalling.written hinstallable.accepted,
    recoverAccepted_installing _ hinstalling.phase]
  exact finishRotation_triple active hinstallable disk h

/-- Recovery completes a rotation, wherever it was interrupted: it cannot fail, ends in the rotated
directory, and leaves a converging one wherever it is stopped. -/
theorem recoverManifest_rotating (hdescribes : Describes manifest orig) :
    Program.Triple (Rotating manifest orig) (recoverManifest writeManifestAtomically)
      (fun disk label => Converging manifest orig disk ∧ RemovesOldest manifest orig disk label)
      (fun _ disk => Rotated manifest.maxRotatedFiles orig none disk) (fun _ _ => False) := by
  rintro disk (h | h)
  · exact recoverManifest_staging hdescribes disk h
  · exact (recoverManifest_installing hdescribes.installing).conseq (fun _ h => h)
      (fun _ _ h => (⟨.of_completing h.1, h.2⟩ : Converging manifest orig _ ∧ _))
      (fun _ _ h => h) (fun _ _ h => h) disk h

end

/-! ## Whole rotations

A rotation makes its own manifest, which passes the checks of recovery and describes the directory
it was made from.  So `rotate_current` is its manifest put in place and a recovery. -/

theorem digitChar_isAlphanum {digit : ℕ} (h : digit < 16) :
    (Nat.digitChar digit).isAlphanum = true := by
  have hall : ∀ digit < 16, (Nat.digitChar digit).isAlphanum = true := by decide
  exact hall digit h

theorem toDigitsCore_isAlphanum (fuel n : ℕ) {digits : List Char}
    (hdigits : ∀ c ∈ digits, c.isAlphanum = true) :
    ∀ c ∈ Nat.toDigitsCore 16 fuel n digits, c.isAlphanum = true := by
  induction fuel generalizing n digits with
  | zero => exact hdigits
  | succ fuel ih =>
      have hnext : ∀ c ∈ Nat.digitChar (n % 16) :: digits, c.isAlphanum = true :=
        List.forall_mem_cons.2 ⟨digitChar_isAlphanum (Nat.mod_lt n (by omega)), hdigits⟩
      rw [Nat.toDigitsCore]
      split
      · exact hnext
      · exact ih (n / 16) hnext

theorem sortedDedup_eq {backups : List ℕ} (h : backups.Pairwise (· < ·)) :
    sortedDedup backups = backups := by
  have hsorted : backups.insertionSort (· ≤ ·) = backups :=
    List.Pairwise.insertionSort_eq (h.imp le_of_lt)
  rw [sortedDedup, hsorted, List.dedup_eq_self]
  exact h.imp ne_of_lt

/-- A directory without rotation files other than a manifest: nothing is staged, and no temporary
manifest is left over. -/
def NoRotationFiles (disk : Disk) : Prop :=
  ∀ path, path.isRotation = true → disk.files.lookup path = none

section

variable {maxRotatedFiles nanos : ℕ} {disk : Disk}

/-- The manifest a rotation writes passes its own checks. -/
theorem newManifest_accepted (hmax : 1 ≤ maxRotatedFiles) :
    (newManifest maxRotatedFiles nanos disk).accepted = true := by
  have hsorted : ((indices maxRotatedFiles).filter
      (fun index => decide (Path.backup index ∈ disk.files))).Pairwise (· < ·) :=
    List.Pairwise.filter _ (List.pairwise_lt_range' 1 (by simp))
  have hid : ∀ c ∈ Nat.toDigits 16 nanos, c.isAlphanum = true :=
    toDigitsCore_isAlphanum _ _ (by simp)
  simp only [RotationManifest.accepted, newManifest, transactionId, sortedDedup_eq hsorted,
    Bool.and_eq_true, beq_self_eq_true, bne_iff_ne, List.all_eq_true, String.toList_ofList,
    Bool.or_eq_true, true_and, and_true, decide_eq_true_eq, List.mem_filter, mem_indices]
  refine ⟨⟨⟨by simp, by omega⟩, fun c hc => .inr (hid c hc)⟩, fun i hi =>
    ⟨by omega, decide_eq_true hi.1.2⟩⟩

/-- The manifest a rotation writes describes the directory. -/
theorem newManifest_describes (nanos : ℕ) (hmax : 1 ≤ maxRotatedFiles)
    (hquiet : NoRotationFiles disk)
    (hactive : (disk.files.lookup .active).isSome = true) :
    Describes (newManifest maxRotatedFiles nanos disk) disk.files.lookup where
  accepted := newManifest_accepted hmax
  expects := by
    intro slot hslot
    rcases mem_slots.1 hslot with rfl | ⟨index, hindex, rfl⟩
    · simpa [RotationManifest.expects, Slot.path] using hactive
    · have hmem : index ∈ indices maxRotatedFiles := mem_indices.2 hindex
      rw [Bool.eq_iff_iff]
      simp [RotationManifest.expects, newManifest, Slot.path, hmem, mem_iff_lookup]
  unstaged slot _ := hquiet _ rfl
  noTemporary := hquiet _ rfl

/-- The directory just after the manifest of a rotation was put in place. -/
def placed (maxRotatedFiles nanos : ℕ) (disk : Disk) : Disk :=
  { disk with manifest := some (.record (newManifest maxRotatedFiles nanos disk)) }

theorem placed_staging (nanos : ℕ) (hmax : 1 ≤ maxRotatedFiles) (hquiet : NoRotationFiles disk)
    (hactive : (disk.files.lookup .active).isSome = true) :
    Staging (newManifest maxRotatedFiles nanos disk) disk.files.lookup
      (placed maxRotatedFiles nanos disk) :=
  .start (newManifest_describes nanos hmax hquiet hactive) rfl rfl fun _ => rfl

/-- A rotation puts its manifest in place and recovers from it. -/
theorem rotateCurrent_apply (hquiet : NoRotationFiles disk) :
    rotateCurrent writeManifestAtomically maxRotatedFiles nanos disk =
      let recovery := recoverManifest writeManifestAtomically (placed maxRotatedFiles nanos disk)
      ⟨(disk, .writeManifest (newManifest maxRotatedFiles nanos disk)) ::
          (placed maxRotatedFiles nanos disk, .sync) :: recovery.steps,
        recovery.final, recovery.result⟩ := by
  have hwrite : writeManifestAtomically (newManifest maxRotatedFiles nanos disk) disk = _ :=
    writeManifestAtomically_apply (hquiet _ rfl)
  simp only [rotateCurrent, Program.read_bind_apply]
  rw [Program.bind_ok (a := ()) (by rw [hwrite]), hwrite]
  rfl

/-- A rotation from a directory without rotation files succeeds. -/
theorem rotateCurrent_triple (nanos : ℕ) (hmax : 1 ≤ maxRotatedFiles)
    (hquiet : NoRotationFiles disk)
    (hactive : (disk.files.lookup .active).isSome = true) :
    let manifest := newManifest maxRotatedFiles nanos disk
    Program.Triple (fun disk' => disk' = disk)
      (rotateCurrent writeManifestAtomically maxRotatedFiles nanos)
      (fun disk' label => (disk' = disk ∧ label = .writeManifest manifest) ∨
        Converging manifest disk.files.lookup disk' ∧
          RemovesOldest manifest disk.files.lookup disk' label)
      (fun _ disk' => Rotated maxRotatedFiles disk.files.lookup none disk')
      (fun _ _ => False) := by
  rintro manifest _ rfl
  have hstaging := placed_staging nanos hmax hquiet hactive
  obtain ⟨hsteps, hend⟩ := recoverManifest_staging (newManifest_describes nanos hmax hquiet hactive)
    _ hstaging
  rw [rotateCurrent_apply hquiet]
  refine ⟨fun step hstep => ?_, hend⟩
  rcases List.mem_cons.1 hstep with rfl | hstep
  · exact .inl ⟨rfl, rfl⟩
  · right
    rcases List.mem_cons.1 hstep with rfl | hstep
    · exact ⟨.inl (.inl hstaging), fun path h => by cases h⟩
    · exact hsteps step hstep

/-- A rotation that starts with an oldest backup removes it, in its staged place. -/
theorem rotateCurrent_removes (nanos : ℕ) (hmax : 1 ≤ maxRotatedFiles)
    (hquiet : NoRotationFiles disk)
    (hactive : (disk.files.lookup .active).isSome = true) {file : FileData}
    (hfile : disk.files.lookup (.backup maxRotatedFiles) = some file) :
    ∃ disk', disk'.files.lookup (stagingPath (transactionId nanos) (.backup maxRotatedFiles)) =
        some file ∧
      (disk', Operation.remove (stagingPath (transactionId nanos) (.backup maxRotatedFiles))) ∈
        (rotateCurrent writeManifestAtomically maxRotatedFiles nanos disk).steps := by
  have hdescribes := newManifest_describes nanos hmax hquiet hactive
  have hplaced := placed_staging nanos hmax hquiet hactive
  obtain ⟨⟨⟩, hstaged, hinstalling⟩ := (stageAll_triple hdescribes rfl).exists_ok hplaced
  obtain ⟨⟨⟩, hdone, hinstalled⟩ := (installAll_triple none _ hdescribes.installing
    rfl).exists_ok hinstalling
  have holdest := hinstalled.1.lookup_oldest.trans hfile
  refine ⟨_, holdest, ?_⟩
  rw [rotateCurrent_apply hquiet]
  refine List.mem_cons_of_mem _ (List.mem_cons_of_mem _ ?_)
  rw [recoverManifest_apply _ hplaced.written hdescribes.accepted,
    recoverAccepted_staging _ hplaced.phase]
  refine Program.mem_steps_bind_right hstaged (Program.mem_steps_bind_right hdone
    (Program.mem_steps_bind_left ?_))
  simp only [removeOldest, Program.read_bind_apply, mem_iff_lookup]
  rw [if_pos (decide_eq_true (by simpa [stagingPath] using congrArg Option.isSome holdest))]
  exact List.mem_cons_self

end

/-! ## Convergence

Stops and recoveries in any number.  The rotation is stopped once its manifest is in place, since
before that nothing has changed; a recovery is stopped before any of its operations or at its
end. -/

/-- The directories that an interrupted rotation can leave behind: the rotation is stopped once
its manifest is in place, and while there is a manifest, a recovery can start and be stopped. -/
inductive Interrupted (maxRotatedFiles nanos : ℕ) (disk : Disk) : Disk → Prop
  | rotation {disk'} (h : (rotateCurrent writeManifestAtomically maxRotatedFiles nanos).StopsAfter
      (fun label => ∃ manifest, label = .writeManifest manifest) disk disk') :
      Interrupted maxRotatedFiles nanos disk disk'
  | recovery {disk' disk''} (h : Interrupted maxRotatedFiles nanos disk disk')
      (hmanifest : disk'.manifest.isSome = true)
      (hstop : (recoverManifest writeManifestAtomically).Stops disk' disk'') :
      Interrupted maxRotatedFiles nanos disk disk''

section

variable {maxRotatedFiles nanos : ℕ} {disk disk' : Disk}

/-- Every directory left behind is on its way to the rotated one. By induction on the
interruptions: the first is a stop of the rotation, and each further one a stop of a recovery that
started from a converging directory. -/
theorem Interrupted.converging (hmax : 1 ≤ maxRotatedFiles) (hquiet : NoRotationFiles disk)
    (hactive : (disk.files.lookup .active).isSome = true)
    (h : Interrupted maxRotatedFiles nanos disk disk') :
    Converging (newManifest maxRotatedFiles nanos disk) disk.files.lookup disk' := by
  have hdescribes := newManifest_describes nanos hmax hquiet hactive
  have hrecovery := recoverManifest_rotating hdescribes
  have hstops : ∀ {start stop : Disk}, Rotating (newManifest maxRotatedFiles nanos disk)
      disk.files.lookup start → (recoverManifest writeManifestAtomically).Stops start stop →
      Converging (newManifest maxRotatedFiles nanos disk) disk.files.lookup stop :=
    fun hstart hstop => hrecovery.stops (fun _ _ h => h.1) (fun _ _ h => .inr h)
      (fun _ _ h => h.elim) hstart hstop
  induction h with
  | @rotation stop h =>
      have hstaging := placed_staging nanos hmax hquiet hactive
      obtain ⟨before, start, label, after, hsteps, -, hstop⟩ := h
      rw [rotateCurrent_apply hquiet] at hsteps hstop
      -- what follows the first step is the synced placement and the recovery
      rcases hstop with ⟨label', hstop⟩ | hstop
      · have hafter : (stop, label') ∈ (placed maxRotatedFiles nanos disk, Operation.sync) ::
            (recoverManifest writeManifestAtomically
              (placed maxRotatedFiles nanos disk)).steps := by
          cases before with
          | nil =>
              obtain ⟨-, rfl⟩ := List.cons.inj hsteps
              exact hstop
          | cons first before =>
              obtain ⟨-, hrest⟩ := List.cons.inj hsteps
              rw [hrest]
              exact List.mem_append_right _ (List.mem_cons_of_mem _ hstop)
        rcases List.mem_cons.1 hafter with heq | hafter
        · obtain ⟨rfl, -⟩ := Prod.mk.inj heq
          exact .inl (.inl hstaging)
        · exact hstops (.inl hstaging) (.inl ⟨label', hafter⟩)
      · exact hstops (.inl hstaging) (.inr hstop)
  | recovery _ hmanifest hstop ih =>
      rcases ih with ih | ih
      · exact hstops ih hstop
      · rw [ih.settled] at hmanifest
        cases hmanifest

/-- **Crash-transactional rotation converges.**  From a directory without manifest or staging
files there is one rotated directory: an uninterrupted rotation ends in it, and however often the
rotation and the recoveries after it are stopped, either the manifest is gone and the directory
is that one, or the next uninterrupted recovery succeeds and ends in it. -/
theorem rotation_converges (hmax : 1 ≤ maxRotatedFiles) (nanos : ℕ)
    (hquiet : disk.hasRotationEntry = false)
    (hactive : (disk.files.lookup .active).isSome = true) :
    ∃ rotated, Rotated maxRotatedFiles disk.files.lookup none rotated ∧
      (rotateCurrent writeManifestAtomically maxRotatedFiles nanos disk).result = .ok () ∧
      (rotateCurrent writeManifestAtomically maxRotatedFiles nanos disk).final = rotated ∧
      ∀ disk', Interrupted maxRotatedFiles nanos disk disk' →
        (disk'.manifest = none ∧ disk' = rotated) ∨
        (disk'.manifest.isSome = true ∧
          (recoverManifest writeManifestAtomically disk').result = .ok () ∧
          (recoverManifest writeManifestAtomically disk').final = rotated) := by
  have hfiles := (Disk.hasRotationEntry_eq_false_iff.1 hquiet).2
  obtain ⟨⟨⟩, hresult, hrotated⟩ :=
    (rotateCurrent_triple nanos hmax hfiles hactive).exists_ok rfl
  refine ⟨_, hrotated, hresult, rfl, fun disk' h => ?_⟩
  rcases h.converging hmax hfiles hactive with h | h
  · right
    obtain ⟨⟨⟩, hresult', hrotated'⟩ := (recoverManifest_rotating
      (newManifest_describes nanos hmax hfiles hactive)).exists_ok h
    refine ⟨?_, hresult', hrotated'.unique hrotated⟩
    rcases h with h | ⟨oldest, -, h⟩
    · rw [h.written]
      rfl
    · rw [h.written]
      rfl
  · exact .inl ⟨h.settled, h.unique hrotated⟩

end

/-- An active file with one record, and one backup. -/
def sampleDisk : Disk where
  files := ((∅ : Files Path FileData).insert .active ⟨"\x7b\x7d\n".toUTF8.toList, 1⟩).insert
    (.backup 1) ⟨"\x7b\x7d\n".toUTF8.toList, 0⟩
  manifest := none

theorem rotation_converges_sample :
    ∃ rotated, Rotated 2 sampleDisk.files.lookup none rotated ∧
      (rotateCurrent writeManifestAtomically 2 255 sampleDisk).result = .ok () ∧
      (rotateCurrent writeManifestAtomically 2 255 sampleDisk).final = rotated ∧
      ∀ disk', Interrupted 2 255 sampleDisk disk' →
        (disk'.manifest = none ∧ disk' = rotated) ∨
        (disk'.manifest.isSome = true ∧
          (recoverManifest writeManifestAtomically disk').result = .ok () ∧
          (recoverManifest writeManifestAtomically disk').final = rotated) :=
  rotation_converges (by decide) 255 (by decide +kernel) (by decide +kernel)

end HpGuardian

import HpGuardian.Audit.Spec

/-!
# Directories with a rotation under way

`Underway` describes the directories that failed rotations leave behind by two things: the files
that the next recovery drops, and the files that it leaves in place.  What a rotation has dropped
when it halts and what the next recovery drops are together its oldest backup.

A user of the description need not know in which phase a rotation is, or which files have been
moved.  A directory under way has one recovery, which succeeds (`Underway.recover`), and the files
that it will find and leave are given.  What happens to the active file in the meantime is allowed
for, as far as it does no harm: while a rotation is installing, the active file is none of its
business, and while nothing is staged, the rotation can start from another one.

Where a rotation halts is given by its triple, and what it has dropped up to there by its steps
(`droppedFiles`).  The lemmas ending in `_halts` follow a rotation through its parts with both.
-/

namespace HpGuardian

open Framework

/-! ## Dropped files

The files that the steps of a program have removed as the oldest backup of a rotation, in order. -/

/-- The file that a step removes as the oldest backup of a rotation. -/
def droppedFile (maxRotatedFiles : ℕ) (step : Disk × Operation) : Option FileData :=
  match step.2 with
  | .remove (.stage transaction (.backup index)) =>
      if index = maxRotatedFiles then
        step.1.files.lookup (.stage transaction (.backup index))
      else
        none
  | _ => none

/-- The files that steps remove as the oldest backup of a rotation. -/
def droppedFiles (maxRotatedFiles : ℕ) (steps : List (Disk × Operation)) : List FileData :=
  steps.filterMap (droppedFile maxRotatedFiles)

section

variable {maxRotatedFiles : ℕ}

@[simp] theorem droppedFiles_nil : droppedFiles maxRotatedFiles [] = [] := rfl

@[simp] theorem droppedFiles_append (steps steps' : List (Disk × Operation)) :
    droppedFiles maxRotatedFiles (steps ++ steps') =
      droppedFiles maxRotatedFiles steps ++ droppedFiles maxRotatedFiles steps' :=
  List.filterMap_append

theorem droppedFiles_eq_nil (maxRotatedFiles : ℕ) {steps : List (Disk × Operation)}
    (h : ∀ step ∈ steps, RemovesNothing step.2) : droppedFiles maxRotatedFiles steps = [] := by
  refine List.filterMap_eq_nil_iff.2 fun step hstep => ?_
  unfold droppedFile
  split
  · exact absurd ‹_› (h step hstep _)
  · rfl

end

/-! ## Under way

The description, and where the parts of a rotation halt in terms of it. -/

/-- A directory that recovery can carry on from: it drops `pending` and leaves `settled`. There is
a rule for a directory at rest and one for a rotation in each of its phases. -/
inductive Underway (maxRotatedFiles : ℕ) : List FileData → Contents → Disk → Prop
  | resting {disk : Disk} (hmanifest : disk.manifest = none) (hquiet : NoRotationFiles disk) :
      Underway maxRotatedFiles [] disk.files.lookup disk
  | staging {disk : Disk} {manifest : RotationManifest} {orig : Contents}
      (hdescribes : Describes manifest orig) (hmax : manifest.maxRotatedFiles = maxRotatedFiles)
      (hunmarked : ∀ path, path.isRotation = true → orig path = none)
      (h : Staging manifest orig disk) :
      Underway maxRotatedFiles (orig (.backup maxRotatedFiles)).toList
        (rotatedContents maxRotatedFiles orig none) disk
  | installing {disk : Disk} {manifest : RotationManifest} {orig : Contents}
      {active oldest : Option FileData} (hinstallable : Installable manifest orig)
      (hmax : manifest.maxRotatedFiles = maxRotatedFiles)
      (hunmarked : ∀ path, path.isRotation = true → orig path = none)
      (holdest : OldestStaged manifest orig oldest)
      (h : Installing manifest orig active oldest disk) :
      Underway maxRotatedFiles oldest.toList (rotatedContents maxRotatedFiles orig active) disk

section

variable {maxRotatedFiles : ℕ} {manifest : RotationManifest} {orig : Contents}
  {active oldest : Option FileData} {disk t : Disk} {steps : List (Disk × Operation)}

theorem Rotated.underway (h : Rotated maxRotatedFiles orig active disk)
    (hunmarked : ∀ path, path.isRotation = true → orig path = none) :
    Underway maxRotatedFiles [] (rotatedContents maxRotatedFiles orig active) disk := by
  have hcontents : disk.files.lookup = rotatedContents maxRotatedFiles orig active := funext h.files
  rw [← hcontents]
  exact .resting h.settled fun path hpath => (h.files path).trans
    (rotatedContents_unmarked hunmarked hpath)

/-- Without a manifest nothing is left to drop. -/
theorem Underway.pending_eq_nil {pending : List FileData} {settled : Contents}
    (h : Underway maxRotatedFiles pending settled disk) (hmanifest : disk.manifest = none) :
    pending = [] := by
  cases h with
  | resting => rfl
  | staging _ _ _ h => exact absurd (h.written.symm.trans hmanifest) (by simp)
  | installing _ _ _ _ h => exact absurd (h.written.symm.trans hmanifest) (by simp)

/-- The removal of the manifest removes no file, and nothing but the manifest changes. -/
theorem removeManifest_halts {result : Except AuditError Unit}
    (hhalts : (Run.mk (removeManifest disk).steps (removeManifest disk).final result).Halts
      steps t) :
    (∀ step ∈ steps, RemovesNothing step.2) ∧ (t = disk ∨ t = { disk with manifest := none }) := by
  have hsync : RemovesNothing .sync := fun path h => by cases h
  have hremove : RemovesNothing .removeManifest := fun path h => by cases h
  rcases Program.halts_cons hhalts with ⟨rfl, rfl⟩ | ⟨steps₁, rfl, hhalts₁⟩
  · exact ⟨by simp, .inl rfl⟩
  rcases Program.halts_cons hhalts₁ with ⟨rfl, rfl⟩ | ⟨steps₂, rfl, hhalts₂⟩
  · exact ⟨List.forall_mem_cons.2 ⟨hremove, by simp⟩, .inr rfl⟩
  obtain ⟨rfl, rfl⟩ := Program.halts_nil hhalts₂
  exact ⟨List.forall_mem_cons.2 ⟨hremove, List.forall_mem_cons.2 ⟨hsync, by simp⟩⟩, .inr rfl⟩

/-- Where the last part of a rotation halts, what it dropped and what is pending are together the
oldest file it found. -/
theorem finishRotation_halts (hinstallable : Installable manifest orig)
    (hunmarked : ∀ path, path.isRotation = true → orig path = none)
    (holdest : OldestStaged manifest orig oldest)
    (h : Installing manifest orig active oldest disk)
    (hhalts : (finishRotation manifest disk).Halts steps t) :
    ∃ pending, Underway manifest.maxRotatedFiles pending
        (rotatedContents manifest.maxRotatedFiles orig active) t ∧
      droppedFiles manifest.maxRotatedFiles steps ++ pending = oldest.toList := by
  have hinstall := installAll_triple active oldest hinstallable h.phase
  obtain ⟨⟨⟩, hdone, hinstalling, hinstalled⟩ := hinstall.exists_ok h
  have hquiet : droppedFiles manifest.maxRotatedFiles (installAll manifest disk).steps = [] :=
    droppedFiles_eq_nil _ fun step hstep => ((hinstall disk h).1 step hstep).2
  rcases Program.halts_bind hdone hhalts with ⟨label, rest, hhalt⟩ | ⟨steps', rfl, hhalts'⟩
  · obtain ⟨⟨ht, -⟩, hsteps⟩ := hinstall.halts h hhalt
    refine ⟨_, .installing hinstallable rfl hunmarked holdest ht, ?_⟩
    rw [droppedFiles_eq_nil _ fun step hstep => (hsteps step hstep).2, List.nil_append]
  · rw [droppedFiles_append, hquiet, List.nil_append]
    have hrotated : ∀ {disk' : Disk}, Installing manifest orig active none disk' →
        Installed manifest orig disk' → Underway manifest.maxRotatedFiles []
          (rotatedContents manifest.maxRotatedFiles orig active) { disk' with manifest := none } :=
      fun h' hinstalled' =>
        (Rotated.of_installed hinstallable h'.flight hinstalled').underway hunmarked
    cases oldest with
    | none =>
        rw [Program.bind_run hinstalling.removeOldest_none] at hhalts'
        obtain ⟨hsteps, ht⟩ := removeManifest_halts hhalts'
        refine ⟨[], ?_, by rw [droppedFiles_eq_nil _ hsteps]; rfl⟩
        rcases ht with rfl | rfl
        · exact .installing hinstallable rfl hunmarked holdest hinstalling
        · exact hrotated hinstalling hinstalled
    | some file =>
        obtain ⟨hinstalling', hinstalled'⟩ := hinstalling.erase_oldest hinstalled
        have hdropped : droppedFile manifest.maxRotatedFiles ((installAll manifest disk).final,
            .remove (.stage manifest.transactionId (.backup manifest.maxRotatedFiles))) =
            some file := by
          simp only [droppedFile, if_true]
          exact hinstalling.lookup_oldest
        rw [Program.bind_run hinstalling.removeOldest_some] at hhalts'
        rcases Program.halts_cons hhalts' with ⟨rfl, rfl⟩ | ⟨steps₁, rfl, hhalts₁⟩
        · exact ⟨_, .installing hinstallable rfl hunmarked holdest hinstalling, rfl⟩
        have hlater : Underway manifest.maxRotatedFiles []
            (rotatedContents manifest.maxRotatedFiles orig active) t ∧
            ∀ step ∈ steps₁, RemovesNothing step.2 := by
          rcases Program.halts_cons hhalts₁ with ⟨rfl, rfl⟩ | ⟨steps₂, rfl, hhalts₂⟩
          · exact ⟨.installing hinstallable rfl hunmarked (.inr rfl) hinstalling', by simp⟩
          · obtain ⟨hsteps, ht⟩ := removeManifest_halts hhalts₂
            refine ⟨?_, List.forall_mem_cons.2 ⟨fun path h => (by cases h), hsteps⟩⟩
            rcases ht with rfl | rfl
            · exact .installing hinstallable rfl hunmarked (.inr rfl) hinstalling'
            · exact hrotated hinstalling' hinstalled'
        refine ⟨[], hlater.1, ?_⟩
        have hnone := droppedFiles_eq_nil manifest.maxRotatedFiles hlater.2
        rw [droppedFiles, List.filterMap_cons_some hdropped, ← droppedFiles, hnone]
        rfl

/-- Where the recovery of a rotation halts that was interrupted while staging. -/
theorem recoverManifest_staging_halts (hdescribes : Describes manifest orig)
    (hunmarked : ∀ path, path.isRotation = true → orig path = none)
    (h : Staging manifest orig disk)
    (hhalts : (recoverManifest writeManifestAtomically disk).Halts steps t) :
    ∃ pending, Underway manifest.maxRotatedFiles pending
        (rotatedContents manifest.maxRotatedFiles orig none) t ∧
      droppedFiles manifest.maxRotatedFiles steps ++ pending =
        (orig (.backup manifest.maxRotatedFiles)).toList := by
  rw [recoverManifest_apply _ h.written hdescribes.accepted, recoverAccepted_staging _ h.phase]
    at hhalts
  have hstage := stageAll_triple hdescribes h.phase
  obtain ⟨⟨⟩, hdone, hinstalling⟩ := hstage.exists_ok h
  rcases Program.halts_bind hdone hhalts with ⟨label, rest, hhalt⟩ | ⟨steps', rfl, hhalts'⟩
  · obtain ⟨⟨ht, -⟩, hsteps⟩ := hstage.halts h hhalt
    rw [droppedFiles_eq_nil _ fun step hstep => (hsteps step hstep).2]
    rcases ht with ht | ht
    · exact ⟨_, .staging hdescribes rfl hunmarked ht, rfl⟩
    · exact ⟨_, .installing hdescribes.installing rfl hunmarked (.inl rfl) ht, rfl⟩
  · obtain ⟨pending, hunderway, hdropped⟩ := finishRotation_halts hdescribes.installing hunmarked
      (.inl rfl) hinstalling hhalts'
    refine ⟨pending, hunderway, ?_⟩
    rw [droppedFiles_append,
      droppedFiles_eq_nil _ fun step hstep => ((hstage disk h).1 step hstep).2]
    exact hdropped

/-- Where the recovery of a rotation halts that was interrupted while installing. -/
theorem recoverManifest_installing_halts (hinstallable : Installable manifest orig)
    (hunmarked : ∀ path, path.isRotation = true → orig path = none)
    (holdest : OldestStaged manifest orig oldest)
    (h : Installing manifest orig active oldest disk)
    (hhalts : (recoverManifest writeManifestAtomically disk).Halts steps t) :
    ∃ pending, Underway manifest.maxRotatedFiles pending
        (rotatedContents manifest.maxRotatedFiles orig active) t ∧
      droppedFiles manifest.maxRotatedFiles steps ++ pending = oldest.toList := by
  rw [recoverManifest_apply _ h.written hinstallable.accepted, recoverAccepted_installing _ h.phase]
    at hhalts
  exact finishRotation_halts hinstallable hunmarked holdest h hhalts

/-- Where a rotation halts: before its manifest is in place, or under way. -/
theorem rotateCurrent_halts (nanos : ℕ) (hmax : 1 ≤ maxRotatedFiles) (hquiet : NoRotationFiles disk)
    (hactive : (disk.files.lookup .active).isSome = true)
    (hhalts : (rotateCurrent writeManifestAtomically maxRotatedFiles nanos disk).Halts steps t) :
    (steps = [] ∧ t = disk) ∨
      ∃ pending, Underway maxRotatedFiles pending
          (rotatedContents maxRotatedFiles disk.files.lookup none) t ∧
        droppedFiles maxRotatedFiles steps ++ pending =
          (disk.files.lookup (.backup maxRotatedFiles)).toList := by
  have hdescribes := newManifest_describes nanos hmax hquiet hactive
  have hplaced := placed_staging nanos hmax hquiet hactive
  rw [rotateCurrent_apply hquiet] at hhalts
  rcases Program.halts_cons hhalts with hstart | ⟨steps₁, rfl, hhalts₁⟩
  · exact .inl hstart
  right
  have hmanifest : ∀ rest, droppedFiles maxRotatedFiles
      ((disk, .writeManifest (newManifest maxRotatedFiles nanos disk)) :: rest) =
      droppedFiles maxRotatedFiles rest := fun rest => rfl
  rw [hmanifest]
  rcases Program.halts_cons hhalts₁ with ⟨rfl, rfl⟩ | ⟨steps₂, rfl, hhalts₂⟩
  · exact ⟨_, .staging hdescribes rfl hquiet hplaced, rfl⟩
  · have hsync : droppedFiles maxRotatedFiles
        ((placed maxRotatedFiles nanos disk, .sync) :: steps₂) =
        droppedFiles maxRotatedFiles steps₂ := rfl
    rw [hsync]
    exact recoverManifest_staging_halts hdescribes hquiet hplaced hhalts₂

/-! ## Nothing staged

A directory without staged files is before its first move or after its last. -/

/-- While nothing is staged, a rotation has not begun to move files. -/
theorem Staging.unmoved (hdescribes : Describes manifest orig) (h : Staging manifest orig disk)
    (hquiet : NoRotationFiles disk) (path : Path) : disk.files.lookup path = orig path := by
  have hslot : ∀ slot ∈ slots manifest.maxRotatedFiles,
      disk.files.lookup slot.path = orig slot.path := by
    intro slot hslot
    rcases h.flight.each slot hslot with ⟨hsource, -⟩ | ⟨hsource, htarget⟩
    · exact hsource
    · -- a file that was moved would be staged
      have hnone : orig slot.path = none := htarget.symm.trans (hquiet _ rfl)
      exact hsource.trans hnone.symm
  by_cases hpath : Untouched (stageMoveOf manifest) (slots manifest.maxRotatedFiles) path
  · exact h.flight.frame path hpath
  · simp only [Untouched, not_forall] at hpath
    obtain ⟨slot, hs, hpath⟩ := hpath
    by_cases hsource : path = (stageMoveOf manifest slot).source
    · rw [hsource]
      exact hslot slot hs
    · have htarget : path = .stage manifest.transactionId slot := by
        by_contra htarget
        exact hpath ⟨hsource, htarget⟩
      rw [htarget, hquiet _ rfl, hdescribes.unstaged slot hs]

/-- When nothing is staged any more, a rotation has moved all files. -/
theorem Installing.allMoved (hinstallable : Installable manifest orig)
    (h : Installing manifest orig active oldest disk) (hquiet : NoRotationFiles disk) :
    oldest = none ∧ ∀ path, disk.files.lookup path =
      rotatedContents manifest.maxRotatedFiles orig active path := by
  have hnone : oldest = none := h.lookup_oldest.symm.trans (hquiet _ rfl)
  subst hnone
  have hinstalled : Installed manifest orig disk := by
    intro i hi
    rcases h.flight.each i hi with ⟨hsource, htarget⟩ | hmoved
    · have hfile : orig (sourceSlot i).path = none := hsource.symm.trans (hquiet _ rfl)
      exact ⟨hsource.trans hfile, htarget.trans hfile.symm⟩
    · exact hmoved
  exact ⟨rfl, (Rotated.of_installed hinstallable h.flight hinstalled).files⟩

/-! ## The active file

Whatever is written to the active file, a rotation that has left it behind, or not yet touched it,
goes on. -/

/-- The directory with a given active file. -/
def Disk.putActive (file : FileData) (disk : Disk) : Disk :=
  disk.setFiles (disk.files.insert .active file)

theorem lookup_putActive (file : FileData) (disk : Disk) (path : Path) :
    (disk.putActive file).files.lookup path =
      if path = .active then some file else disk.files.lookup path := by
  rw [Disk.putActive, Disk.files_setFiles]
  split_ifs with hpath
  · rw [hpath, Finmap.lookup_insert]
  · rw [Finmap.lookup_insert_of_ne _ hpath]

theorem NoRotationFiles.putActive (h : NoRotationFiles disk) (file : FileData) :
    NoRotationFiles (disk.putActive file) := by
  intro path hpath
  rw [lookup_putActive, if_neg (by rintro rfl; cases hpath)]
  exact h path hpath

/-- The installing phase leaves the active file alone. -/
theorem Installing.lookup_active (h : Installing manifest orig active oldest disk) :
    disk.files.lookup .active = active := by
  rw [h.flight.frame _ fun i _ => ⟨by simp [installMoveOf, installMove, stagingPath],
    by simp [installMoveOf, installMove]⟩]
  simp [installingFrame]

/-- Whatever happens to the active file, the installing phase goes on. -/
theorem Installing.putActive (h : Installing manifest orig active oldest disk) (file : FileData) :
    Installing manifest orig (some file) oldest (disk.putActive file) where
  phase := h.phase
  written := h.written
  flight := by
    refine ⟨fun i hi => ?_, fun path hpath => ?_⟩
    · have hmove := h.flight.each i hi
      simpa [Move.Pending, Move.Moved, installMoveOf, installMove, stagingPath, lookup_putActive]
        using hmove
    · have hframe := h.flight.frame path hpath
      rw [lookup_putActive]
      simp only [installingFrame] at hframe ⊢
      split_ifs at hframe ⊢ with hactive
      · rfl
      · exact hframe
      · exact hframe

/-- While nothing is staged, a rotation can still start from another active file. -/
theorem Staging.putActive (hdescribes : Describes manifest orig) (h : Staging manifest orig disk)
    (hquiet : NoRotationFiles disk) (file : FileData) :
    Describes manifest (disk.putActive file).files.lookup ∧
      Staging manifest (disk.putActive file).files.lookup (disk.putActive file) := by
  have hunmoved := h.unmoved hdescribes hquiet
  have hdescribes' : Describes manifest (disk.putActive file).files.lookup := {
    accepted := hdescribes.accepted
    expects := by
      intro slot hslot
      cases slot with
      | active =>
          simp [RotationManifest.expects, Slot.path, lookup_putActive]
      | backup index =>
          rw [hdescribes.expects _ hslot, ← hunmoved, lookup_putActive,
            if_neg (by simp [Slot.path])]
    unstaged := fun slot _ => hquiet.putActive file _ rfl
    noTemporary := hquiet.putActive file _ rfl }
  exact ⟨hdescribes', .start hdescribes' h.phase h.written fun _ => rfl⟩

/-! ## Recovery

One recovery from anywhere under way. -/

/-- Recovery carries a directory under way on: it drops what is pending, and leaves the rest. -/
theorem Underway.recover {rt : JsonRuntime} {pending : List FileData} {settled : Contents}
    (h : Underway maxRotatedFiles pending settled disk)
    (hclean : ∀ path ∈ logPaths maxRotatedFiles, ∀ file ∈ settled path,
      checkTail rt file.content = .ok none) (stamp : Instant) :
    (recoverTails rt maxRotatedFiles stamp disk).result = .ok () ∧
      (∀ path, (recoverTails rt maxRotatedFiles stamp disk).final.files.lookup path =
        settled path) ∧
      droppedFiles maxRotatedFiles (recoverTails rt maxRotatedFiles stamp disk).steps =
        pending := by
  -- once the rotation is complete, the rest of recovery finds nothing to do
  have hrest : ∀ {steps : List (Disk × Operation)} {disk' : Disk},
      recoverPending disk = ⟨steps, disk', .ok ()⟩ → disk'.hasRotationEntry = false →
      (∀ path, disk'.files.lookup path = settled path) →
      recoverTails rt maxRotatedFiles stamp disk = ⟨steps, disk', .ok ()⟩ := by
    intro steps disk' hpending hquiet hfiles
    have hclean' : ∀ path ∈ logPaths maxRotatedFiles, CleanPath rt disk' path :=
      fun path hpath file hfile => hclean path hpath file (by rw [← hfiles]; exact hfile)
    have hsilent := forEach_silent (s := disk') fun path hpath =>
      recoverTail_clean (hclean' path hpath) stamp
    rw [recoverTails_of_pending hpending hquiet, hsilent]
    simp
  -- a rotation under way is completed, and has dropped all that was pending
  have hcomplete : ∀ {orig : Contents} {active : Option FileData},
      settled = rotatedContents maxRotatedFiles orig active →
      (∀ path, path.isRotation = true → orig path = none) → disk.manifest.isSome = true →
      (recoverManifest writeManifestAtomically disk).result = .ok () →
      Rotated maxRotatedFiles orig active (recoverManifest writeManifestAtomically disk).final →
      (∃ pending', Underway maxRotatedFiles pending' settled
          (recoverManifest writeManifestAtomically disk).final ∧
        droppedFiles maxRotatedFiles (recoverManifest writeManifestAtomically disk).steps ++
          pending' = pending) →
      (recoverTails rt maxRotatedFiles stamp disk).result = .ok () ∧
        (∀ path, (recoverTails rt maxRotatedFiles stamp disk).final.files.lookup path =
          settled path) ∧
        droppedFiles maxRotatedFiles (recoverTails rt maxRotatedFiles stamp disk).steps =
          pending := by
    rintro orig active rfl hunmarked hmanifest hresult hrotated ⟨pending', hunderway, hdropped⟩
    have hpending : recoverPending disk = ⟨(recoverManifest writeManifestAtomically disk).steps,
        (recoverManifest writeManifestAtomically disk).final, .ok ()⟩ := by
      simp only [recoverPending, Program.read_bind_apply, hmanifest, if_true, ← hresult]
    rw [hrest hpending (hrotated.quiet hunmarked) hrotated.files]
    refine ⟨rfl, hrotated.files, ?_⟩
    rw [← hdropped, hunderway.pending_eq_nil hrotated.settled, List.append_nil]
  cases h with
  | resting hmanifest hquiet =>
      have hnone := Disk.hasRotationEntry_eq_false_iff.2 ⟨hmanifest, hquiet⟩
      rw [hrest (recoverPending_quiet hnone) hnone fun _ => rfl]
      exact ⟨rfl, fun _ => rfl, rfl⟩
  | staging hdescribes hmax hunmarked h =>
      subst hmax
      obtain ⟨⟨⟩, hresult, hrotated⟩ := (recoverManifest_staging hdescribes).exists_ok h
      exact hcomplete rfl hunmarked (by rw [h.written]; rfl) hresult hrotated
        (recoverManifest_staging_halts hdescribes hunmarked h (.inr ⟨rfl, rfl⟩))
  | installing hinstallable hmax hunmarked holdest h =>
      subst hmax
      obtain ⟨⟨⟩, hresult, hrotated⟩ :=
        (recoverManifest_installing hinstallable).exists_ok ⟨_, holdest, h⟩
      exact hcomplete rfl hunmarked (by rw [h.written]; rfl) hresult hrotated
        (recoverManifest_installing_halts hinstallable hunmarked holdest h (.inr ⟨rfl, rfl⟩))

end

end HpGuardian

import HpGuardian.Audit.FailedRecovery

/-!
# Stopping while a manifest is written

`write_manifest` creates a temporary file next to the manifest, writes the encoded manifest into
it, and renames it.  The name of the temporary file starts with `{path}.rotation.`, and a temporary
file that is already there makes the next `write_manifest` fail.  So a process that stops between
the creation and the rename leaves a directory that no recovery accepts, in both places that write
a manifest; stopped anywhere else, the rotation recovers.

The module refines the write of `Rotation`, which is one step, to the steps it takes: the creation,
a step for each byte, and the rename.  Run to its end, it does the same
(`writeManifestStepwise_endsAlike`), and so does every program with a write of a manifest in it;
stopped in the middle, it leaves a directory that the write in one step never leaves.
`WritingManifest` is what can be left.

A rotation that is stopped has therefore not begun, is on its way, or is writing one of its two
manifests (`RotationStop`), and each of these states has its own recovery: the check of the files,
the completion of the rotation, or a refusal.  The check of the files comes last and can fail for a
reason of its own, if a file that the log keeps is corrupt.  `stopped_rotation_recovers_iff` puts
the two conditions together: no temporary manifest is there, and every file that recovery still
checks is fine.
-/

namespace HpGuardian

open Framework

/-! ## Writing a manifest, step by step

`write_manifest`, and the programs of recovery with it. -/

section

variable (encode : RotationManifest → Bytes) (stamp : Instant)

/-- The directory with a temporary manifest file. -/
def withTemporary (transaction : String) (content : Bytes) (disk : Disk) : Disk :=
  disk.setFiles (disk.files.insert (.temporary transaction) ⟨content, stamp⟩)

/-- One more byte in the temporary file. -/
def writeTemporary (transaction : String) (byte : UInt8) (disk : Disk) : Disk :=
  match disk.files.lookup (.temporary transaction) with
  | some file => withTemporary stamp transaction (file.content ++ [byte]) disk
  | none => disk

/-- The rename of the temporary file, whole by now, over the manifest. -/
def publishManifest (manifest : RotationManifest) (disk : Disk) : Disk where
  files := disk.files.erase (.temporary manifest.transactionId)
  manifest := some (.record manifest)

/-- `write_manifest`; `encode` is `serde_json::to_vec`. -/
def writeManifestStepwise (manifest : RotationManifest) : DiskProgram Unit := do
  let temporary := Path.temporary manifest.transactionId
  let temporaryExists ← Program.read (fun disk => decide (temporary ∈ disk.files))
  if temporaryExists then
    Program.raise .recoveryFailed
  else do
    Program.step (.create temporary) (withTemporary stamp manifest.transactionId [])
    Program.step .sync id
    Program.forEach (fun byte =>
      Program.step (.write temporary) (writeTemporary stamp manifest.transactionId byte))
      (encode manifest)
    Program.step .sync id
    Program.step (.writeManifest manifest) (publishManifest manifest)
    Program.step .sync id

/-- The part of `recover_tails` that carries on an interrupted rotation. -/
def recoverPendingStepwise : DiskProgram Unit := do
  let manifestExists ← Program.read (fun disk => disk.manifest.isSome)
  if manifestExists then recoverManifest (writeManifestStepwise encode stamp) else pure ()

/-- `recover_tails`, with `write_manifest` step by step. -/
def recoverTailsStepwise (rt : JsonRuntime) (maxRotatedFiles : ℕ) : DiskProgram Unit := do
  recoverPendingStepwise encode stamp
  refuseLeftovers
  Program.forEach (recoverTail rt stamp) (logPaths maxRotatedFiles)

end

/-! ## What the write of a manifest does

Stopped in the middle, and run to its end. -/

section

variable {encode : RotationManifest → Bytes} {stamp : Instant} {manifest : RotationManifest}
  {disk : Disk}

theorem lookup_withTemporary (stamp : Instant) (transaction : String) (content : Bytes)
    (disk : Disk) (path : Path) :
    (withTemporary stamp transaction content disk).files.lookup path =
      if path = .temporary transaction then some ⟨content, stamp⟩
      else disk.files.lookup path := by
  by_cases hpath : path = .temporary transaction
  · subst hpath
    simp [withTemporary]
  · rw [withTemporary, Disk.files_setFiles, Finmap.lookup_insert_of_ne _ hpath, if_neg hpath]

theorem writeTemporary_withTemporary (stamp : Instant) (transaction : String) (content : Bytes)
    (byte : UInt8) (disk : Disk) :
    writeTemporary stamp transaction byte (withTemporary stamp transaction content disk) =
      withTemporary stamp transaction (content ++ [byte]) disk := by
  simp only [writeTemporary, lookup_withTemporary, if_pos]
  simp [withTemporary, Disk.setFiles]

theorem publishManifest_withTemporary (content : Bytes)
    (hfree : disk.files.lookup (.temporary manifest.transactionId) = none) :
    publishManifest manifest (withTemporary stamp manifest.transactionId content disk) =
      { disk with manifest := some (.record manifest) } := by
  refine Disk.ext_lookup (fun path => ?_) rfl
  by_cases hpath : path = .temporary manifest.transactionId
  · subst hpath
    simp [publishManifest, hfree]
  · simp only [publishManifest]
    rw [Finmap.lookup_erase_ne hpath, lookup_withTemporary, if_neg hpath]

/-- A directory left behind by the write: as it was, with the temporary file, or with the manifest.
Only the second of these is not also left by a write in one step. -/
def WritingManifest (stamp : Instant) (manifest : RotationManifest) (disk disk' : Disk) : Prop :=
  disk' = disk ∨ (∃ content, disk' = withTemporary stamp manifest.transactionId content disk) ∨
    disk' = { disk with manifest := some (.record manifest) }

/-- Written step by step, the manifest ends up in its place. -/
theorem writeManifestStepwise_triple (encode : RotationManifest → Bytes) (stamp : Instant)
    (manifest : RotationManifest)
    (hfree : disk.files.lookup (.temporary manifest.transactionId) = none) :
    Program.Triple (fun disk' => disk' = disk) (writeManifestStepwise encode stamp manifest)
      (fun disk' _ => WritingManifest stamp manifest disk disk')
      (fun _ disk' => disk' = { disk with manifest := some (.record manifest) })
      (fun _ _ => False) := by
  have hread : decide (Path.temporary manifest.transactionId ∈ disk.files) = false := by
    rw [decide_eq_false_iff_not, ← Finmap.lookup_eq_none]
    exact hfree
  have hsync : ∀ {P : Disk → Prop}, (∀ disk', P disk' → WritingManifest stamp manifest disk disk') →
      Program.Triple P (Program.step Operation.sync id : DiskProgram Unit)
        (fun disk' _ => WritingManifest stamp manifest disk disk') (fun _ => P)
        (fun _ _ => False) :=
    fun hP => .step fun disk' h => ⟨hP disk' h, h⟩
  have htemporary : ∀ disk', (∃ content,
      disk' = withTemporary stamp manifest.transactionId content disk) →
      WritingManifest stamp manifest disk disk' := fun _ h => .inr (.inl h)
  have hcreate : Program.Triple (fun disk' => disk' = disk)
      (Program.step (.create (.temporary manifest.transactionId))
        (withTemporary stamp manifest.transactionId []) : DiskProgram Unit)
      (fun disk' _ => WritingManifest stamp manifest disk disk')
      (fun _ disk' => ∃ content,
        disk' = withTemporary stamp manifest.transactionId content disk) (fun _ _ => False) := by
    refine .step ?_
    rintro _ rfl
    exact ⟨.inl rfl, [], rfl⟩
  have hbytes : Program.Triple (fun disk' => ∃ content,
        disk' = withTemporary stamp manifest.transactionId content disk)
      (Program.forEach (fun byte => Program.step (.write (.temporary manifest.transactionId))
        (writeTemporary stamp manifest.transactionId byte)) (encode manifest) : DiskProgram Unit)
      (fun disk' _ => WritingManifest stamp manifest disk disk')
      (fun _ disk' => ∃ content,
        disk' = withTemporary stamp manifest.transactionId content disk) (fun _ _ => False) := by
    refine Program.Triple.forEach (I := fun _ disk' => ∃ content,
      disk' = withTemporary stamp manifest.transactionId content disk) ?_
    rintro byte _ -
    refine .step ?_
    rintro _ ⟨content, rfl⟩
    exact ⟨htemporary _ ⟨content, rfl⟩, _, writeTemporary_withTemporary _ _ _ _ _⟩
  have hpublish : Program.Triple (fun disk' => ∃ content,
        disk' = withTemporary stamp manifest.transactionId content disk)
      (Program.step (.writeManifest manifest) (publishManifest manifest) : DiskProgram Unit)
      (fun disk' _ => WritingManifest stamp manifest disk disk')
      (fun _ disk' => disk' = { disk with manifest := some (.record manifest) })
      (fun _ _ => False) := by
    refine .step ?_
    rintro _ ⟨content, rfl⟩
    exact ⟨htemporary _ ⟨content, rfl⟩, publishManifest_withTemporary content hfree⟩
  rintro _ rfl
  simp only [writeManifestStepwise, Program.read_bind_apply, hread, Bool.false_eq_true, if_false]
  exact (hcreate.bind fun _ => (hsync htemporary).bind fun _ => hbytes.bind fun _ =>
    (hsync htemporary).bind fun _ => hpublish.bind fun _ => hsync fun _ h => .inr (.inr h)) _ rfl

/-- Written step by step or at once, the manifest ends up in its place, unless the temporary file
is already there. -/
theorem writeManifestStepwise_endsAlike (encode : RotationManifest → Bytes) (stamp : Instant)
    (manifest : RotationManifest) :
    Program.EndsAlike (writeManifestStepwise encode stamp manifest)
      (writeManifestAtomically manifest) := by
  intro disk
  cases hlookup : disk.files.lookup (.temporary manifest.transactionId) with
  | none =>
      obtain ⟨⟨⟩, hresult, hfinal⟩ :=
        (writeManifestStepwise_triple encode stamp manifest hlookup).exists_ok rfl
      rw [writeManifestAtomically_apply hlookup, hresult, hfinal]
      exact ⟨rfl, rfl⟩
  | some file =>
      have htaken : Path.temporary manifest.transactionId ∈ disk.files :=
        mem_iff_lookup.2 (by rw [hlookup]; rfl)
      simp only [writeManifestStepwise, writeManifestAtomically, Program.read_bind_apply, htaken]
      exact ⟨rfl, rfl⟩

theorem recoverManifestStepwise_endsAlike (encode : RotationManifest → Bytes) (stamp : Instant) :
    Program.EndsAlike (recoverManifest (writeManifestStepwise encode stamp))
      (recoverManifest writeManifestAtomically) := by
  have hwrite := writeManifestStepwise_endsAlike encode stamp
  have haccepted : ∀ manifest, Program.EndsAlike
      (recoverAccepted (writeManifestStepwise encode stamp) manifest)
      (recoverAccepted writeManifestAtomically manifest) := by
    intro manifest
    by_cases hphase : manifest.phase = "staging"
    · rw [recoverAccepted_staging _ hphase, recoverAccepted_staging _ hphase]
      exact .bind (.bind (.refl _) fun _ => .bind (.refl _) fun _ => hwrite _) fun _ => .refl _
    · simp only [recoverAccepted, hphase, if_false]
      exact .refl _
  intro disk
  simp only [recoverManifest, Program.read_bind_apply]
  cases disk.manifest with
  | none => exact ⟨rfl, rfl⟩
  | some file =>
      cases file with
      | malformed content => exact ⟨rfl, rfl⟩
      | record manifest => exact Program.EndsAlike.ite (haccepted _) (.refl _) disk

theorem recoverTailsStepwise_endsAlike (encode : RotationManifest → Bytes) (stamp : Instant)
    (rt : JsonRuntime) (maxRotatedFiles : ℕ) :
    Program.EndsAlike (recoverTailsStepwise encode stamp rt maxRotatedFiles)
      (recoverTails rt maxRotatedFiles stamp) := by
  refine .bind (.bind (.refl _) fun _ => ?_) fun _ => .refl _
  exact .ite (recoverManifestStepwise_endsAlike encode stamp) (.refl _)

/-! ## Where a rotation can stop

The two places in which a rotation writes a manifest, at its start and when everything is staged,
and the triple for a rotation with both. -/

variable {orig : Contents}

/-- Everything is staged, and the manifest of the installing phase is being written: the temporary
file is there, beside the manifest of the staging phase. -/
def SwitchingPhase (stamp : Instant) (manifest : RotationManifest) (orig : Contents)
    (disk' : Disk) : Prop :=
  ∃ disk content, disk' = withTemporary stamp manifest.transactionId content disk ∧
    Staging manifest orig disk ∧
    ∀ slot ∈ slots manifest.maxRotatedFiles,
      (stageMoveOf manifest slot).Moved (orig slot.path) disk.files

theorem Staging.lookup_temporary (h : Staging manifest orig disk) (transaction : String) :
    disk.files.lookup (.temporary transaction) = orig (.temporary transaction) :=
  h.flight.frame _ fun slot _ => ⟨by cases slot <;> simp [stageMoveOf, stageMove, Slot.path],
    by simp [stageMoveOf, stageMove, stagingPath]⟩

theorem stageAllStepwise_triple (encode : RotationManifest → Bytes) (stamp : Instant)
    (hdescribes : Describes manifest orig) (hphase : manifest.phase = "staging") :
    Program.Triple (Staging manifest orig)
      (stageAll (writeManifestStepwise encode stamp) manifest)
      (fun disk _ => Converging manifest orig disk ∨ SwitchingPhase stamp manifest orig disk)
      (fun _ disk => InstallingPhase manifest.installing orig none disk) (fun _ _ => False) := by
  have hloop := plan_triple orig (stage_separate manifest) hdescribes.expects
    (some (.record manifest))
  rw [stageAll_eq]
  refine (hloop.conseq (fun disk h => ⟨h.written, h.flight⟩)
    (fun disk label h => .inl (.inl (.inl ⟨hphase, h.1.1, h.1.2⟩)))
    (fun _ _ h => h) (fun _ _ h => h)).bind (fun _ disk h => ?_)
  obtain ⟨⟨hwritten, hflight⟩, hmoved⟩ := h
  have hstaging : Staging manifest orig disk := ⟨hphase, hwritten, hflight⟩
  have hinstalling : InstallingPhase manifest.installing orig none
      { disk with manifest := some (.record manifest.installing) } :=
    ⟨_, .inl rfl, Installing.start hdescribes hflight hmoved⟩
  have hwrite := writeManifestStepwise_triple encode stamp manifest.installing
    ((hstaging.lookup_temporary _).trans hdescribes.noTemporary)
  have hswitch : Program.Triple (fun disk' => disk' = disk)
      (writeManifestStepwise encode stamp manifest.installing)
      (fun disk _ => Converging manifest orig disk ∨ SwitchingPhase stamp manifest orig disk)
      (fun _ disk => InstallingPhase manifest.installing orig none disk) (fun _ _ => False) := by
    refine hwrite.conseq (fun _ h => h) (fun disk' _ h => ?_) (fun _ _ h => h ▸ hinstalling)
      fun _ _ h => h
    rcases h with rfl | ⟨content, rfl⟩ | rfl
    · exact .inl (.inl (.inl hstaging))
    · exact .inr ⟨disk, content, rfl, hstaging, hmoved⟩
    · exact .inl (.inl (.inr hinstalling))
  exact hswitch disk rfl

theorem recoverManifestStepwise_staging (encode : RotationManifest → Bytes) (stamp : Instant)
    (hdescribes : Describes manifest orig) :
    Program.Triple (Staging manifest orig) (recoverManifest (writeManifestStepwise encode stamp))
      (fun disk _ => Converging manifest orig disk ∨ SwitchingPhase stamp manifest orig disk)
      (fun _ disk => Rotated manifest.maxRotatedFiles orig none disk) (fun _ _ => False) := by
  intro disk h
  rw [recoverManifest_apply _ h.written hdescribes.accepted, recoverAccepted_staging _ h.phase]
  refine ((stageAllStepwise_triple encode stamp hdescribes h.phase).bind fun _ =>
    (finishRotation_triple none hdescribes.installing).conseq (fun _ h => h) (fun _ _ h => ?_)
      (fun _ _ h => h) (fun _ _ h => h)) disk h
  exact .inl (.of_completing h.1)

end

/-- The first manifest of a rotation is being written: the temporary file is there, and there is no
manifest yet. -/
def StartingPhase (stamp : Instant) (manifest : RotationManifest) (disk disk' : Disk) : Prop :=
  ∃ content, disk' = withTemporary stamp manifest.transactionId content disk

section

variable {encode : RotationManifest → Bytes} {rt : JsonRuntime} {stamp : Instant}
  {maxRotatedFiles nanos : ℕ} {disk disk' : Disk}

/-- A rotation that is stopped has not begun, is writing a manifest, or is on its way. These are
all the places between its operations. -/
def RotationStop (stamp : Instant) (manifest : RotationManifest) (disk disk' : Disk) : Prop :=
  disk' = disk ∨ StartingPhase stamp manifest disk disk' ∨
    Converging manifest disk.files.lookup disk' ∨
    SwitchingPhase stamp manifest disk.files.lookup disk'

theorem rotateCurrentStepwise_stops (hmax : 1 ≤ maxRotatedFiles) (hquiet : NoRotationFiles disk)
    (hactive : (disk.files.lookup .active).isSome = true)
    (hstop : (rotateCurrent (writeManifestStepwise encode stamp) maxRotatedFiles nanos).Stops
      disk disk') :
    RotationStop stamp (newManifest maxRotatedFiles nanos disk) disk disk' := by
  have hdescribes := newManifest_describes nanos hmax hquiet hactive
  have hplaced := placed_staging nanos hmax hquiet hactive
  have hwrite : Program.Triple (fun disk' => disk' = disk)
      (writeManifestStepwise encode stamp (newManifest maxRotatedFiles nanos disk))
      (fun disk' _ => RotationStop stamp (newManifest maxRotatedFiles nanos disk) disk disk')
      (fun _ disk' => Staging (newManifest maxRotatedFiles nanos disk) disk.files.lookup disk')
      (fun _ _ => False) := by
    refine (writeManifestStepwise_triple encode stamp _ hdescribes.noTemporary).conseq
      (fun _ h => h) (fun disk' _ h => ?_) (fun _ _ h => h ▸ hplaced) fun _ _ h => h
    rcases h with rfl | h | rfl
    · exact .inl rfl
    · exact .inr (.inl h)
    · exact .inr (.inr (.inl (.inl (.inl hplaced))))
  have hrecover : Program.Triple
      (fun disk' => Staging (newManifest maxRotatedFiles nanos disk) disk.files.lookup disk')
      (recoverManifest (writeManifestStepwise encode stamp))
      (fun disk' _ => RotationStop stamp (newManifest maxRotatedFiles nanos disk) disk disk')
      (fun _ disk' => RotationStop stamp (newManifest maxRotatedFiles nanos disk) disk disk')
      (fun _ _ => False) :=
    (recoverManifestStepwise_staging encode stamp hdescribes).conseq (fun _ h => h)
      (fun _ _ h => .inr (.inr h)) (fun _ _ h => .inr (.inr (.inl (.inr h)))) fun _ _ h => h
  have hrotate : Program.Triple (fun disk' => disk' = disk)
      (rotateCurrent (writeManifestStepwise encode stamp) maxRotatedFiles nanos)
      (fun disk' _ => RotationStop stamp (newManifest maxRotatedFiles nanos disk) disk disk')
      (fun _ disk' => RotationStop stamp (newManifest maxRotatedFiles nanos disk) disk disk')
      (fun _ _ => False) := by
    rintro _ rfl
    exact (hwrite.bind fun _ => hrecover) _ rfl
  exact hrotate.stops (fun _ _ h => h) (fun _ _ h => h) (fun _ _ h => h.elim) rfl hstop

/-! ## Recovery from where it stopped

Each kind of stop with what recovery does from it, and the condition under which it succeeds. -/

/-- Recovery succeeds and leaves a layout, with torn tails cut off, and no rotation entries. The
layout is the one before the rotation or the rotated one. -/
structure Recovers (rt : JsonRuntime) (maxRotatedFiles : ℕ) (stamp : Instant) (layout : Disk)
    (run : Run Disk Operation AuditError Unit) : Prop where
  ok : run.result = .ok ()
  layout : run.final =
    (Program.forEach (recoverTail rt stamp) (logPaths maxRotatedFiles) layout).final
  quiet : run.final.hasRotationEntry = false

/-- The check of the files creates no rotation entries. -/
theorem forEach_recoverTail_quiet (hquiet : disk.hasRotationEntry = false) (paths : List Path) :
    (Program.forEach (recoverTail rt stamp) paths disk).final.hasRotationEntry = false := by
  refine Program.forEach_final (P := fun disk' : Disk => disk'.hasRotationEntry = false)
    (fun path disk' h => ?_) paths hquiet
  simp only [recoverTail, Program.read_bind_apply]
  cases hlookup : disk'.files.lookup path with
  | none => exact h
  | some file =>
      simp only
      cases hcheck : checkTail rt file.content with
      | error error => exact h
      | ok cut =>
          cases cut with
          | none => exact h
          | some length =>
              obtain ⟨hmanifest, hfiles⟩ := Disk.hasRotationEntry_eq_false_iff.1 h
              refine Disk.hasRotationEntry_eq_false_iff.2
                ⟨(truncateFile_manifest path length disk').trans hmanifest, fun other hother => ?_⟩
              show (truncateFile path length stamp disk').files.lookup other = none
              rw [lookup_truncateFile length stamp hlookup, if_neg, hfiles other hother]
              rintro rfl
              rw [hfiles _ hother] at hlookup
              cases hlookup

/-- Once the rotation is complete, recovery leaves its layout, unless a file of it is corrupt. -/
theorem recovers_iff_of_pending {layout : Disk} {steps : List (Disk × Operation)}
    (hpending : recoverPending disk' = ⟨steps, layout, .ok ()⟩)
    (hquiet : layout.hasRotationEntry = false) :
    ((recoverTails rt maxRotatedFiles stamp disk').result = .ok () ↔
        ∀ path ∈ logPaths maxRotatedFiles, tailVerdict rt path layout ≠ .fail) ∧
      (Recovers rt maxRotatedFiles stamp layout (recoverTails rt maxRotatedFiles stamp disk') ↔
        ∀ path ∈ logPaths maxRotatedFiles, tailVerdict rt path layout ≠ .fail) := by
  rw [recoverTails_of_pending hpending hquiet]
  have hok : (Program.forEach (recoverTail rt stamp) (logPaths maxRotatedFiles) layout).result =
      .ok () ↔ ∀ path ∈ logPaths maxRotatedFiles, tailVerdict rt path layout ≠ .fail := by
    rcases (recoverTail_scans rt maxRotatedFiles stamp).result layout with
      ⟨hok, hnone⟩ | ⟨herror, path, hpath, hfail⟩
    · exact iff_of_true hok hnone
    · refine iff_of_false (fun h => ?_) fun h => h path hpath hfail
      rw [herror] at h
      cases h
  exact ⟨hok, fun h => hok.1 h.ok,
    fun h => ⟨hok.2 h, rfl, forEach_recoverTail_quiet hquiet _⟩⟩

/-- What recovery does does not depend on how it writes manifests. -/
theorem recovers_stepwise_iff (encode : RotationManifest → Bytes) {layout : Disk} :
    Recovers rt maxRotatedFiles stamp layout
        (recoverTailsStepwise encode stamp rt maxRotatedFiles disk') ↔
      Recovers rt maxRotatedFiles stamp layout (recoverTails rt maxRotatedFiles stamp disk') := by
  obtain ⟨hfinal, hresult⟩ := recoverTailsStepwise_endsAlike encode stamp rt maxRotatedFiles disk'
  constructor
  · rintro ⟨hok, hlayout, hquiet⟩
    exact ⟨hresult ▸ hok, hfinal ▸ hlayout, hfinal ▸ hquiet⟩
  · rintro ⟨hok, hlayout, hquiet⟩
    exact ⟨hresult ▸ hok, hfinal ▸ hlayout, hfinal ▸ hquiet⟩

/-- A rotation on its way is completed by recovery before it checks the files. -/
theorem Converging.pending (hquiet : NoRotationFiles disk)
    (hactive : (disk.files.lookup .active).isSome = true) (hmax : 1 ≤ maxRotatedFiles)
    (h : Converging (newManifest maxRotatedFiles nanos disk) disk.files.lookup disk') :
    ∃ layout steps, Rotated maxRotatedFiles disk.files.lookup none layout ∧
      recoverPending disk' = ⟨steps, layout, .ok ()⟩ := by
  rcases h with h | h
  · obtain ⟨⟨⟩, hresult, hrotated⟩ :=
      (recoverManifest_rotating (newManifest_describes nanos hmax hquiet hactive)).exists_ok h
    obtain ⟨manifest, hwritten⟩ : ∃ manifest, disk'.manifest = some (.record manifest) := by
      rcases h with h | ⟨oldest, -, h⟩
      · exact ⟨_, h.written⟩
      · exact ⟨_, h.written⟩
    exact ⟨_, _, hrotated, recoverPending_ok hwritten hresult⟩
  · exact ⟨disk', _, h, recoverPending_quiet (h.quiet hquiet)⟩

/-- A rotation on its way has a manifest, or its active file is gone. -/
theorem Converging.ne_start (hquiet : disk.hasRotationEntry = false)
    (hactive : (disk.files.lookup .active).isSome = true)
    (h : Converging (newManifest maxRotatedFiles nanos disk) disk.files.lookup disk') :
    disk' ≠ disk := by
  rintro rfl
  have hsettled := (Disk.hasRotationEntry_eq_false_iff.1 hquiet).1
  rcases h with (h | ⟨oldest, -, h⟩) | h
  · exact absurd (h.written.symm.trans hsettled) (by simp)
  · exact absurd (h.written.symm.trans hsettled) (by simp)
  · rw [h.files] at hactive
    cases hactive

/-- The rotated layout has a corrupt file iff the log had one other than the oldest backup, which
the rotation drops. -/
theorem Rotated.fine_iff {layout : Disk} (hmax : 1 ≤ maxRotatedFiles)
    (h : Rotated maxRotatedFiles disk.files.lookup none layout) :
    (∀ path ∈ logPaths maxRotatedFiles, tailVerdict rt path layout ≠ .fail) ↔
      ∀ path ∈ logPaths maxRotatedFiles, tailVerdict rt path disk = .fail →
        path = .backup maxRotatedFiles := by
  have hinstalled : ∀ i, 1 ≤ i ∧ i ≤ maxRotatedFiles →
      tailVerdict rt (.backup i) layout = tailVerdict rt (sourceSlot i).path disk := by
    intro i hi
    rw [tailVerdict, tailVerdict, h.files, rotatedContents, if_pos hi]
  constructor
  · intro hfine path hpath hfail
    obtain ⟨slot, hslot, rfl⟩ := mem_logPaths.1 hpath
    rcases eq_sourceSlot_or_last hmax hslot with ⟨i, hi, rfl⟩ | rfl
    · have hmem : Path.backup i ∈ logPaths maxRotatedFiles :=
        mem_logPaths.2 ⟨.backup i, mem_slots.2 (.inr ⟨i, hi, rfl⟩), rfl⟩
      exact absurd ((hinstalled i hi).trans hfail) (hfine _ hmem)
    · rfl
  · intro hlast path hpath hfail
    obtain ⟨slot, hslot, rfl⟩ := mem_logPaths.1 hpath
    rcases mem_slots.1 hslot with rfl | ⟨i, hi, rfl⟩
    · rw [Slot.path, tailVerdict, h.files, rotatedContents, fileVerdict] at hfail
      cases hfail
    · rw [Slot.path, hinstalled i hi] at hfail
      have hpath := hlast _ (mem_logPaths.2 ⟨_, sourceSlot_mem_slots hi, rfl⟩) hfail
      refine sourceSlot_ne_last hi ?_
      cases hsource : sourceSlot i with
      | active => simp [hsource, Slot.path] at hpath
      | backup index =>
          rw [hsource, Slot.path, Path.backup.injEq] at hpath
          rw [hpath]

/-- The files that the next recovery checks are fine: every file of a log whose rotation has not
begun, and otherwise all but the oldest backup, which the rotation drops. -/
def KeptFilesFine (rt : JsonRuntime) (maxRotatedFiles : ℕ) (disk disk' : Disk) : Prop :=
  ∀ path ∈ logPaths maxRotatedFiles, tailVerdict rt path disk = .fail →
    path = .backup maxRotatedFiles ∧ disk' ≠ disk

theorem keptFilesFine_start :
    KeptFilesFine rt maxRotatedFiles disk disk ↔
      ∀ path ∈ logPaths maxRotatedFiles, tailVerdict rt path disk ≠ .fail :=
  forall₂_congr fun _ _ => by simp

theorem keptFilesFine_of_ne (hne : disk' ≠ disk) :
    KeptFilesFine rt maxRotatedFiles disk disk' ↔
      ∀ path ∈ logPaths maxRotatedFiles, tailVerdict rt path disk = .fail →
        path = .backup maxRotatedFiles :=
  forall₃_congr fun _ _ _ => and_iff_left hne

theorem Converging.lookup_temporary (hquiet : NoRotationFiles disk) (transaction : String)
    (h : Converging (newManifest maxRotatedFiles nanos disk) disk.files.lookup disk') :
    disk'.files.lookup (.temporary transaction) = none := by
  have hnone : disk.files.lookup (.temporary transaction) = none := hquiet _ rfl
  rcases h with (h | ⟨oldest, -, h⟩) | h
  · exact (h.lookup_temporary transaction).trans hnone
  · rw [h.flight.frame _ fun i _ => ⟨by simp [installMoveOf, installMove, stagingPath],
      by simp [installMoveOf, installMove]⟩]
    simpa [installingFrame] using hnone
  · exact (h.files _).trans hnone

theorem temporary_mem_withTemporary (stamp : Instant) (transaction : String) (content : Bytes)
    (disk : Disk) :
    Path.temporary transaction ∈ (withTemporary stamp transaction content disk).files := by
  rw [mem_iff_lookup, lookup_withTemporary, if_pos rfl]
  rfl

/-- Without a manifest the temporary file is a leftover. -/
theorem recoverTails_leftover {transaction : String} (hsettled : disk'.manifest = none)
    (htaken : Path.temporary transaction ∈ disk'.files) :
    (recoverTails rt maxRotatedFiles stamp disk').result = .error .recoveryFailed := by
  have hpending : recoverPending disk' = ⟨[], disk', .ok ()⟩ := by
    simp only [recoverPending, Program.read_bind_apply, hsettled]
    rfl
  have hleftover : disk'.hasRotationFile = true := by
    rw [← Bool.not_eq_false, Disk.hasRotationFile_eq_false_iff]
    exact fun h => Finmap.lookup_eq_none.1 (h _ rfl) htaken
  rw [recoverTails_of_settled hpending hsettled, if_pos hleftover]

/-- When everything is staged, the switch to the installing phase is refused. -/
theorem SwitchingPhase.refused {manifest : RotationManifest} {orig : Contents} (rt : JsonRuntime)
    (maxRotatedFiles : ℕ) (later : Instant) (hdescribes : Describes manifest orig)
    (h : SwitchingPhase stamp manifest orig disk') :
    Path.temporary manifest.transactionId ∈ disk'.files ∧
      (recoverTails rt maxRotatedFiles later disk').result = .error .recoveryFailed := by
  obtain ⟨start, content, rfl, hstaging, hmoved⟩ := h
  have htaken := temporary_mem_withTemporary stamp manifest.transactionId content start
  have hpaths : ∀ path, path ≠ .temporary manifest.transactionId →
      (withTemporary stamp manifest.transactionId content start).files.lookup path =
        start.files.lookup path := fun path hpath => by
    rw [lookup_withTemporary, if_neg hpath]
  have hflight : InFlight (stageMoveOf manifest) (slots manifest.maxRotatedFiles)
      (fun slot => orig slot.path)
      (withTemporary stamp manifest.transactionId content start).files.lookup
      (withTemporary stamp manifest.transactionId content start).files := by
    refine ⟨fun slot hslot => .inr ?_, fun _ _ => rfl⟩
    obtain ⟨hsource, htarget⟩ := hmoved slot hslot
    refine ⟨(hpaths _ ?_).trans hsource, (hpaths _ ?_).trans htarget⟩
    · cases slot <;> simp [stageMoveOf, stageMove, Slot.path]
    · simp [stageMoveOf, stageMove, stagingPath]
  have hwritten : (withTemporary stamp manifest.transactionId content start).manifest =
      some (.record manifest) := hstaging.written
  obtain ⟨herror, -⟩ := recoverPending_taken hwritten hdescribes.accepted hstaging.phase
    hdescribes.expects hflight htaken
  refine ⟨htaken, ?_⟩
  rw [recoverTails, Program.bind_error herror]

/-- **Crash-atomic manifests.**  Wherever a rotation is stopped, the next recovery succeeds and
leaves the layout from before the rotation or the rotated one, without rotation entries, iff the
temporary manifest file is not there and no file that recovery still checks is corrupt. -/
theorem stopped_rotation_recovers_iff (hmax : 1 ≤ maxRotatedFiles)
    (hquiet : disk.hasRotationEntry = false)
    (hactive : (disk.files.lookup .active).isSome = true)
    (hstop : (rotateCurrent (writeManifestStepwise encode stamp) maxRotatedFiles nanos).Stops
      disk disk') (later : Instant) :
    (∃ layout, (layout = disk ∨ Rotated maxRotatedFiles disk.files.lookup none layout) ∧
        Recovers rt maxRotatedFiles later layout
          (recoverTailsStepwise encode later rt maxRotatedFiles disk')) ↔
      Path.temporary (transactionId nanos) ∉ disk'.files ∧
        KeptFilesFine rt maxRotatedFiles disk disk' := by
  obtain ⟨hmanifest, hfiles⟩ := Disk.hasRotationEntry_eq_false_iff.1 hquiet
  simp only [recovers_stepwise_iff]
  -- a recovery that is refused leaves no layout
  have hrefused : (recoverTails rt maxRotatedFiles later disk').result ≠ .ok () →
      ¬ ∃ layout, (layout = disk ∨ Rotated maxRotatedFiles disk.files.lookup none layout) ∧
        Recovers rt maxRotatedFiles later layout (recoverTails rt maxRotatedFiles later disk') := by
    rintro herror ⟨layout, -, hrecovers⟩
    exact herror hrecovers.ok
  rcases rotateCurrentStepwise_stops hmax hfiles hactive hstop with
    rfl | ⟨content, rfl⟩ | h | h
  · obtain ⟨hok, hrecovers⟩ := @recovers_iff_of_pending rt later maxRotatedFiles disk' disk' _
      (recoverPending_quiet hquiet) hquiet
    rw [keptFilesFine_start, and_iff_right (Finmap.lookup_eq_none.1 (hfiles _ rfl))]
    by_cases hfine : ∀ path ∈ logPaths maxRotatedFiles, tailVerdict rt path disk' ≠ .fail
    · exact iff_of_true ⟨disk', .inl rfl, hrecovers.2 hfine⟩ hfine
    · exact iff_of_false (hrefused (mt hok.1 hfine)) hfine
  · have htaken := temporary_mem_withTemporary stamp (transactionId nanos) content disk
    have herror : (recoverTails rt maxRotatedFiles later
        (withTemporary stamp (transactionId nanos) content disk)).result =
          .error .recoveryFailed := recoverTails_leftover hmanifest htaken
    exact iff_of_false (hrefused fun hok => absurd (herror.symm.trans hok) (by simp))
      fun h => h.1 htaken
  · obtain ⟨layout, steps, hrotated, hpending⟩ := h.pending hfiles hactive hmax
    obtain ⟨hok, hrecovers⟩ := @recovers_iff_of_pending rt later maxRotatedFiles disk' layout steps
      hpending (hrotated.quiet hfiles)
    rw [keptFilesFine_of_ne (h.ne_start hquiet hactive), ← hrotated.fine_iff hmax,
      and_iff_right (Finmap.lookup_eq_none.1 (h.lookup_temporary hfiles _))]
    by_cases hfine : ∀ path ∈ logPaths maxRotatedFiles, tailVerdict rt path layout ≠ .fail
    · exact iff_of_true ⟨layout, .inr hrotated, hrecovers.2 hfine⟩ hfine
    · exact iff_of_false (hrefused (mt hok.1 hfine)) hfine
  · obtain ⟨htaken, herror⟩ := h.refused rt maxRotatedFiles later
      (newManifest_describes nanos hmax hfiles hactive)
    refine iff_of_false (hrefused ?_) fun h => h.1 htaken
    rw [herror]
    simp

end

/-- A manifest as `serde_json` writes it, for texts without characters to escape. -/
def compactManifest (manifest : RotationManifest) : Bytes :=
  ("\x7b\"format_version\":" ++ toString manifest.formatVersion ++ ",\"transaction_id\":\"" ++
    manifest.transactionId ++ "\",\"max_rotated_files\":" ++ toString manifest.maxRotatedFiles ++
    ",\"operation\":\"" ++ manifest.operation ++ "\",\"phase\":\"" ++ manifest.phase ++
    "\",\"present\":\x7b\"active\":" ++ toString manifest.present.active ++ ",\"backups\":[" ++
    ",".intercalate (manifest.present.backups.map toString) ++ "]\x7d\x7d").toUTF8.toList

/-- The sample rotation, stopped once the active file and its one backup are staged: it is
recovered, and the rotation is complete. -/
theorem stopped_rotation_recovers_sample :
    ∃ disk', (rotateCurrent (writeManifestStepwise compactManifest 6) 2 255).Stops sampleDisk
        disk' ∧
      disk'.files.lookup .active = none ∧ disk'.files.lookup (.backup 1) = none ∧
      ∃ layout, (layout = sampleDisk ∨ Rotated 2 sampleDisk.files.lookup none layout) ∧
        Recovers sampleRuntime 2 7 layout
          (recoverTailsStepwise compactManifest 7 sampleRuntime 2 disk') := by
  obtain ⟨⟨disk', label⟩, hentry, hactive, hbackup, htemporary⟩ :
      ∃ entry ∈ (rotateCurrent (writeManifestStepwise compactManifest 6) 2 255 sampleDisk).steps,
        entry.1.files.lookup .active = none ∧ entry.1.files.lookup (.backup 1) = none ∧
          Path.temporary (transactionId 255) ∉ entry.1.files := by decide +kernel
  have hfine : ∀ path ∈ logPaths 2, tailVerdict sampleRuntime path sampleDisk ≠ .fail := by
    decide +kernel
  have hstop : (rotateCurrent (writeManifestStepwise compactManifest 6) 2 255).Stops sampleDisk
      disk' := .inl ⟨label, hentry⟩
  exact ⟨disk', hstop, hactive, hbackup,
    (stopped_rotation_recovers_iff (by decide) (by decide +kernel) (by decide +kernel) hstop 7).2
      ⟨htemporary, fun path hpath hfail => absurd hfail (hfine path hpath)⟩⟩

/-- A rotation that stops after it has created the temporary file of its first manifest leaves a
directory that recovery refuses: without a manifest the temporary file is a leftover like any
other. -/
theorem stopped_rotation_strands :
    ∃ disk', (rotateCurrent (writeManifestStepwise compactManifest 6) 2 255).Stops sampleDisk
        disk' ∧
      ¬ ∃ layout, (layout = sampleDisk ∨ Rotated 2 sampleDisk.files.lookup none layout) ∧
        Recovers sampleRuntime 2 7 layout
          (recoverTailsStepwise compactManifest 7 sampleRuntime 2 disk') := by
  refine ⟨withTemporary 6 "ff" [] sampleDisk, .inl ⟨.sync, by decide +kernel⟩, ?_⟩
  rintro ⟨layout, -, hrecovers⟩
  have herror : (recoverTailsStepwise compactManifest 7 sampleRuntime 2
      (withTemporary 6 "ff" [] sampleDisk)).result = .error .recoveryFailed := by decide +kernel
  have hok := hrecovers.ok
  rw [herror] at hok
  cases hok

end HpGuardian

import HpGuardian.Audit.Spec
import HpGuardian.Framework.Mirrors
import HpGuardian.Parity.Manifests
import HpGuardian.Python.Rotation

/-!
# Rotations that both runtimes carry on

A log is handed from one runtime to the other: what one has begun and left behind, the other has to
complete.  From a manifest that both read, the two recoveries mirror each other
(`recoverManifest_mirrors`): they take the same steps to the same end, and where they refuse, they
refuse alike.  So a rotation that either runtime begins converges to the same rotated directory,
whichever of them carries it on after each interruption (`rotation_converges_across`).

The mirroring holds in every directory of regular files, the damaged ones included: files in the
way of a move, files that are missing, leftovers of other rotations.  It is proved along the two
programs, which are written alike, from the moves up.  Manifests are compared by what they say, not
by their bytes, since each runtime writes them with a JSON library of its own.

Directories in which a place of the log is taken by something else than a regular file are outside
of this model, and there the two runtimes do differ: each checks what it finds before it moves it,
and reports another error.  So are temporary manifests, which belong to the write of a manifest in
several steps; here the write is one.

For convergence, nothing has to be shown of the Python recovery.  It mirrors the Rust recovery from
every directory of a rotation, so the invariant `Converging` and the triples of the Rust recovery
are its own, and `InterruptedAcross` adds a rule for each runtime to the stops that may follow each
other.
-/

namespace HpGuardian

open Framework

/-- The code under which Python reports a failure of the log. -/
def AuditError.code : AuditError → Option String
  | .io _ | .serialization _ => some "audit_write_failed"
  | .lockUnavailable => some "audit_lock_unavailable"
  | .corrupt => some "audit_corrupt"
  | .recoveryFailed => some "audit_recovery_failed"
  | .recoveryUnsupported => some "audit_recovery_unsupported"
  | .closed => some "audit_closed"
  | .policy _ | .noActivePolicy | .invalidConfiguration _ | .outcomeDetailTooLong _ _ => none

/-- The runtimes report the same failure: Python raises an audit error with the code that stands
for the Rust error. -/
def SameFailure (python : Python.ManifestError) (rust : AuditError) : Prop :=
  ∃ error, python = .auditError error ∧ rust.code = some error.code

theorem sameFailure_recovery (message : String) :
    SameFailure (Python.manifestError message) .recoveryFailed := ⟨_, rfl, rfl⟩

/-! ## What both runtimes read

The manifests of a rotation that both readers accept, in either phase. -/

/-- The rotation in its installing phase. -/
def Rotation.installing (rotation : Rotation) : Rotation :=
  { rotation with phase := "installing", known := .inr rfl }

/-- Both runtimes read the manifest of a rotation, in the form in which both write it. The phase
may be either of the two. -/
structure Shared (table : Python.AlnumTable) (rotation : Rotation) : Prop where
  rust : RustForm rotation.manifest.toJson rotation
  python : Python.PythonForm table rotation.manifest.toJson rotation

section

variable {table : Python.AlnumTable} {rotation : Rotation} {rt : JsonRuntime}
  {dumps : Json → Bytes}

theorem Shared.accepted (h : Shared table rotation) : rotation.manifest.accepted = true :=
  accepted_iff.2 ⟨rotation, rfl, h.rust.name⟩

theorem Shared.read (h : Shared table rotation) :
    Python.readManifest table rotation.manifest.toJson = .ok (Python.ofRotation rotation) :=
  read_of_pythonForm (manifestForm_toJson rotation) h.python

theorem Shared.deserialize (h : Shared table rotation) :
    RotationManifest.deserialize rotation.manifest.toJson = some rotation.manifest := by
  have hread := read_of_rustForm (manifestForm_toJson rotation) h.rust
  simp only [RotationManifest.read, bind_ok_iff, okOr_ok] at hread
  obtain ⟨manifest, hmanifest, hchecked⟩ := hread
  split at hchecked
  · cases hchecked
    exact hmanifest
  · cases hchecked

theorem Shared.installing (h : Shared table rotation) : Shared table rotation.installing where
  rust := ⟨rfl, h.rust.fits, h.rust.name⟩
  python := ⟨exactShape_toJson _, h.python.named, h.python.name⟩

/-- A name of letters and digits makes a manifest that both read. -/
theorem shared_of_alphanum (hname : ∀ c ∈ rotation.transactionId.toList, c.isAlphanum = true)
    (hsome : rotation.transactionId.toList ≠ []) (hfits : rotation.maxRotatedFiles < 2 ^ 64) :
    Shared table rotation :=
  ⟨(rustForm_toJson_iff hname).2 hfits, pythonForm_toJson hname hsome⟩

theorem installingValue_toJson :
    Python.installingValue rotation.manifest.toJson = rotation.installing.manifest.toJson := by
  simp [Python.installingValue, RotationManifest.toJson, Rotation.installing, Rotation.manifest]

theorem manifestFile_toJson (h : Shared table rotation) :
    Python.manifestFile dumps rotation.manifest.toJson = .record rotation.manifest := by
  rw [Python.manifestFile, h.deserialize]

theorem plan_ofRotation : (Python.ofRotation rotation).plan = rotation.manifest := by
  have hbackups : (rotation.backups.map (fun index : ℕ => (index : ℤ))).map Int.toNat =
      rotation.backups := by
    rw [List.map_map]
    exact List.map_id' _
  rw [Python.RotationManifest.plan, Python.ofRotation, hbackups, Int.toNat_natCast]
  rfl

theorem expects_ofRotation (slot : Slot) :
    (Python.ofRotation rotation).expects slot = rotation.manifest.expects slot := by
  cases slot with
  | active => rfl
  | backup index =>
      rw [Bool.eq_iff_iff]
      simp [Python.RotationManifest.expects, Python.ofRotation, RotationManifest.expects,
        Rotation.manifest]

theorem maxRotatedFiles_ofRotation :
    (Python.ofRotation rotation).maxRotatedFiles.toNat = rotation.maxRotatedFiles :=
  Int.toNat_natCast _

/-! ## One recovery mirrors the other

Part by part, in the order of the two programs. -/

theorem moveSlot_mirrors (refusals : Python.Refusals) (m : Move Path)
    (files : Files Path FileData) :
    Program.Mirrors SameFailure (Python.moveSlot refusals m)
      (move .rename .sync .recoveryFailed m) files := by
  have hrefuses : ∀ message, Program.Mirrors SameFailure
      (Program.raise (Python.manifestError message) :
        Program (Files Path FileData) Operation Python.ManifestError Unit)
      (Program.raise .recoveryFailed) files :=
    fun message => .raise (sameFailure_recovery message) files
  refine (Program.Mirrors.read _ files).bind fun sourceExists _ => ?_
  refine (Program.Mirrors.read _ files).bind fun targetExists _ => ?_
  split
  · split
    · exact hrefuses _
    · exact .pure () _
  · split
    · exact hrefuses _
    · split
      · exact (Program.Mirrors.step _ _ _).bind fun _ _ => .step _ _ _
      · split
        · exact .pure () _
        · exact hrefuses _

theorem stageRotationSlot_mirrors (transactionId : String) (slot : Slot) (expected : Bool)
    (disk : Disk) :
    Program.Mirrors SameFailure (Python.stageRotationSlot transactionId slot expected)
      (stageSlot transactionId slot expected) disk :=
  (moveSlot_mirrors _ _ _).zoom

theorem installRotationSlot_mirrors (transactionId : String) (source : Slot) (targetIndex : ℕ)
    (expected : Bool) (disk : Disk) :
    Program.Mirrors SameFailure
      (Python.installRotationSlot transactionId source targetIndex expected)
      (installSlot transactionId source targetIndex expected) disk :=
  (moveSlot_mirrors _ _ _).zoom

theorem writeManifest_mirrors (h : Shared table rotation) (disk : Disk) :
    Program.Mirrors SameFailure
      (Python.writeManifest dumps rotation.manifest.toJson (Python.ofRotation rotation))
      (writeManifestAtomically rotation.manifest) disk := by
  simp only [Python.writeManifest, plan_ofRotation, manifestFile_toJson h]
  refine (Program.Mirrors.read _ disk).bind fun temporaryExists _ => ?_
  split
  · exact .raise (sameFailure_recovery _) _
  · exact (Program.Mirrors.step _ _ _).bind fun _ _ => .step _ _ _

theorem stageSlots_mirrors (h : Shared table rotation) (disk : Disk) :
    Program.Mirrors SameFailure
      (Python.stageSlots dumps rotation.manifest.toJson (Python.ofRotation rotation))
      (stageAll writeManifestAtomically rotation.manifest) disk := by
  simp only [Python.stageSlots, maxRotatedFiles_ofRotation, expects_ofRotation,
    installingValue_toJson]
  refine (stageRotationSlot_mirrors _ _ _ _).bind fun _ _ => ?_
  refine (Program.Mirrors.forEach (fun index _ disk =>
    stageRotationSlot_mirrors _ _ _ disk) _).bind fun _ _ => ?_
  exact writeManifest_mirrors h.installing _

theorem installSlots_mirrors (disk : Disk) :
    Program.Mirrors SameFailure (Python.installSlots (Python.ofRotation rotation))
      (installAll rotation.manifest) disk := by
  simp only [Python.installSlots, maxRotatedFiles_ofRotation, expects_ofRotation]
  exact .forEach (fun index _ disk => installRotationSlot_mirrors _ _ _ _ disk) disk

theorem unlinkOldBackup_mirrors (disk : Disk) :
    Program.Mirrors SameFailure (Python.unlinkOldBackup (Python.ofRotation rotation))
      (removeOldest rotation.manifest) disk := by
  simp only [Python.unlinkOldBackup, maxRotatedFiles_ofRotation]
  refine (Program.Mirrors.read _ disk).bind fun oldBackupExists _ => ?_
  split
  · exact (Program.Mirrors.step _ _ _).bind fun _ _ => .step _ _ _
  · exact .pure () _

theorem unlinkManifest_mirrors (disk : Disk) :
    Program.Mirrors SameFailure Python.unlinkManifest removeManifest disk :=
  (Program.Mirrors.step _ _ _).bind fun _ _ => .step _ _ _

theorem recoverRead_mirrors (dumps : Json → Bytes) (h : Shared table rotation) (disk : Disk) :
    Program.Mirrors SameFailure
      (Python.recoverRead dumps rotation.manifest.toJson (Python.ofRotation rotation))
      (recoverAccepted writeManifestAtomically rotation.manifest) disk := by
  have hfinish : ∀ disk, Program.Mirrors SameFailure
      (do
        Python.installSlots (Python.ofRotation rotation)
        Python.unlinkOldBackup (Python.ofRotation rotation)
        Python.unlinkManifest)
      (do
        installAll rotation.manifest
        removeOldest rotation.manifest
        removeManifest) disk :=
    fun disk => (installSlots_mirrors disk).bind fun _ _ =>
      (unlinkOldBackup_mirrors _).bind fun _ _ => unlinkManifest_mirrors _
  by_cases hphase : rotation.phase = "staging"
  · have hrust : rotation.manifest.phase = "staging" := hphase
    have hpython : (Python.ofRotation rotation).phase = "staging" := hphase
    simp only [Python.recoverRead, recoverAccepted, hrust, hpython, if_true]
    exact (stageSlots_mirrors h disk).bind fun _ _ => hfinish _
  · have hrust : ¬ rotation.manifest.phase = "staging" := hphase
    have hpython : ¬ (Python.ofRotation rotation).phase = "staging" := hphase
    simp only [Python.recoverRead, recoverAccepted, hrust, hpython, if_false]
    exact hfinish disk

/-- The recoveries from a manifest that both runtimes read. -/
theorem Shared.mirrors (rt : JsonRuntime) (dumps : Json → Bytes) (h : Shared table rotation)
    (hwritten : disk.manifest = some (.record rotation.manifest)) :
    Program.Mirrors SameFailure (Python.recoverManifest rt table dumps)
      (recoverManifest writeManifestAtomically) disk := by
  have hmirrors := recoverRead_mirrors dumps h disk
  have hpython : Python.recoverManifest rt table dumps disk =
      Python.recoverRead dumps rotation.manifest.toJson (Python.ofRotation rotation) disk := by
    simp only [Python.recoverManifest, Program.read_bind_apply, hwritten, Option.bind_some,
      Python.loadsManifest, h.read]
  have hrust := recoverManifest_apply writeManifestAtomically hwritten h.accepted
  constructor
  · rw [hpython, hrust, hmirrors.steps]
  · rw [hpython, hrust, hmirrors.final]
  · rw [hpython, hrust]
    exact hmirrors.result

/-- **Recovery of a rotation in both runtimes.** From a manifest that both read, in whatever
directory of regular files, the two recoveries take the same steps to the same end, and both
complete it or both refuse it as a failed recovery. Stopped before the same step, they leave the
same directory behind. -/
theorem recoverManifest_mirrors (rt : JsonRuntime) (table : Python.AlnumTable)
    (dumps : Json → Bytes) (rotation : Rotation) (hshared : Shared table rotation) (disk : Disk)
    (hwritten : disk.manifest = some (.record rotation.manifest)) :
    Program.Mirrors SameFailure (Python.recoverManifest rt table dumps)
      (recoverManifest writeManifestAtomically) disk :=
  hshared.mirrors rt dumps hwritten

end

/-! ## Rotations that either runtime begins

A rotation is stopped once its manifest is in place.  From there on recoveries of either runtime
may start and be stopped, in any order and any number. -/

/-- A rotation begun in one of the runtimes, with the number it takes its name from: the time in
the one, a random number in the other. -/
inductive Begun where
  | rust (nanos : ℕ)
  | python (random : ℕ)

/-- The name of a rotation. -/
def Begun.name : Begun → String
  | .rust nanos => transactionId nanos
  | .python random => Python.uuidHex random

/-- The step that puts a manifest in place. -/
def PlacesManifest (label : Operation) : Prop := ∃ manifest, label = .writeManifest manifest

section

variable (rt : JsonRuntime) (table : Python.AlnumTable) (dumps : Json → Bytes)
  (maxRotatedFiles : ℕ)

/-- The rotation can be stopped in `disk'` once its manifest is in place. Before that it has
changed nothing, and there is nothing to recover. -/
def Begun.Leaves (begun : Begun) (disk disk' : Disk) : Prop :=
  match begun with
  | .rust nanos => (rotateCurrent writeManifestAtomically maxRotatedFiles nanos).StopsAfter
      PlacesManifest disk disk'
  | .python random => (Python.rotate rt table dumps maxRotatedFiles random).StopsAfter
      PlacesManifest disk disk'

/-- The directories that an interrupted rotation can leave behind, if recoveries in both runtimes
can start while there is a manifest, and be stopped. The first stop is one of the rotation, in the
runtime that began it; each further one is a stop of a recovery in either. -/
inductive InterruptedAcross (begun : Begun) (disk : Disk) : Disk → Prop
  | rotation {disk'} (h : begun.Leaves rt table dumps maxRotatedFiles disk disk') :
      InterruptedAcross begun disk disk'
  | rust {disk' disk''} (h : InterruptedAcross begun disk disk')
      (hmanifest : disk'.manifest.isSome = true)
      (hstop : (recoverManifest writeManifestAtomically).Stops disk' disk'') :
      InterruptedAcross begun disk disk''
  | python {disk' disk''} (h : InterruptedAcross begun disk disk')
      (hmanifest : disk'.manifest.isSome = true)
      (hstop : (Python.recoverManifest rt table dumps).Stops disk' disk'') :
      InterruptedAcross begun disk disk''

end

section

variable {rt : JsonRuntime} {table : Python.AlnumTable} {dumps : Json → Bytes}
  {maxRotatedFiles : ℕ} {disk disk' : Disk} {name : String}

theorem Begun.name_isAlphanum (begun : Begun) :
    ∀ c ∈ begun.name.toList, c.isAlphanum = true := by
  cases begun with
  | rust nanos =>
      rw [Begun.name, transactionId_toList]
      exact hexDigits_isAlphanum nanos
  | python random => exact uuidHex_isAlphanum random

theorem Begun.name_ne_nil (begun : Begun) : begun.name.toList ≠ [] := by
  cases begun with
  | rust nanos =>
      rw [Begun.name, transactionId_toList]
      exact Nat.toDigits_ne_nil
  | python random => exact uuidHex_ne_nil random

theorem Begun.shared (begun : Begun) (hmax : 1 ≤ maxRotatedFiles)
    (hfits : maxRotatedFiles < 2 ^ 64) :
    Shared table (newRotation begun.name maxRotatedFiles hmax disk) :=
  shared_of_alphanum begun.name_isAlphanum begun.name_ne_nil hfits

/-- The manifest of a new rotation describes the directory, whatever its name. -/
theorem newRotation_describes (hname : ∀ c ∈ name.toList, c.isAlphanum = true)
    (hmax : 1 ≤ maxRotatedFiles) (hquiet : NoRotationFiles disk)
    (hactive : (disk.files.lookup .active).isSome = true) :
    Describes (newRotation name maxRotatedFiles hmax disk).manifest disk.files.lookup where
  accepted := accepted_iff.2 ⟨_, rfl, fun c hc => .inr (hname c hc)⟩
  expects :=
    (newManifest_describes 0 hmax hquiet hactive).expects
  unstaged _ _ := hquiet _ rfl
  noTemporary := hquiet _ rfl

/-- The directory with the manifest of a rotation. -/
def withManifest (rotation : Rotation) (disk : Disk) : Disk :=
  { disk with manifest := some (.record rotation.manifest) }

theorem withManifest_staging (hname : ∀ c ∈ name.toList, c.isAlphanum = true)
    (hmax : 1 ≤ maxRotatedFiles) (hquiet : NoRotationFiles disk)
    (hactive : (disk.files.lookup .active).isSome = true) :
    Staging (newRotation name maxRotatedFiles hmax disk).manifest disk.files.lookup
      (withManifest (newRotation name maxRotatedFiles hmax disk) disk) :=
  .start (newRotation_describes hname hmax hquiet hactive) rfl rfl fun _ => rfl

theorem python_writeManifest_apply {rotation : Rotation} (h : Shared table rotation)
    (hfree : disk.files.lookup (.temporary rotation.transactionId) = none) :
    Python.writeManifest dumps rotation.manifest.toJson (Python.ofRotation rotation) disk =
      ⟨[(disk, .writeManifest rotation.manifest), (withManifest rotation disk, .sync)],
        withManifest rotation disk, .ok ()⟩ := by
  have hread : decide (Path.temporary (Python.ofRotation rotation).transactionId ∈ disk.files) =
      false := by
    rw [decide_eq_false_iff_not, ← Finmap.lookup_eq_none]
    exact hfree
  simp only [Python.writeManifest, Program.read_bind_apply, hread, plan_ofRotation,
    manifestFile_toJson h]
  rfl

/-- A Python rotation puts its manifest in place and recovers from it. -/
theorem python_rotate_apply (random : ℕ) (hmax : 1 ≤ maxRotatedFiles)
    (hfits : maxRotatedFiles < 2 ^ 64) (hquiet : disk.hasRotationEntry = false)
    (hactive : (disk.files.lookup .active).isSome = true) :
    let rotation := newRotation (Begun.python random).name maxRotatedFiles hmax disk
    let recovery := Python.recoverManifest rt table dumps (withManifest rotation disk)
    Python.rotate rt table dumps maxRotatedFiles random disk =
      ⟨(disk, .writeManifest rotation.manifest) :: (withManifest rotation disk, .sync) ::
          recovery.steps,
        recovery.final, recovery.result⟩ := by
  intro rotation recovery
  obtain ⟨hmanifest, hfiles⟩ := Disk.hasRotationEntry_eq_false_iff.1 hquiet
  have hpresent : (!decide (Path.active ∈ disk.files)) = false := by
    rw [Bool.not_eq_false', decide_eq_true_eq]
    exact mem_iff_lookup.2 hactive
  have hshared : Shared table rotation := (Begun.python random).shared hmax hfits
  have hwrite : Python.writeManifest dumps rotation.manifest.toJson (Python.ofRotation rotation)
      disk = _ :=
    python_writeManifest_apply hshared (hfiles _ rfl)
  have hrun : Python.rotate rt table dumps maxRotatedFiles random disk =
      (Python.writeManifest dumps rotation.manifest.toJson (Python.ofRotation rotation) >>=
        fun _ => Python.recoverManifest rt table dumps) disk := by
    simp only [Python.rotate, Program.read_bind_apply, hpresent]
    rw [if_neg Bool.false_ne_true, Program.read_bind_apply, hmanifest]
    rfl
  rw [hrun, Program.bind_run hwrite]
  rfl

/-- Once its manifest is in place, a rotation is stopped in the directory with the manifest or
where the recovery is. -/
theorem stopsAfter_placing {ε : Type} {p recovery : Program Disk Operation ε Unit}
    {placed stop : Disk} {manifest : RotationManifest}
    (hrun : p disk = ⟨(disk, .writeManifest manifest) :: (placed, .sync) ::
      (recovery placed).steps, (recovery placed).final, (recovery placed).result⟩)
    (h : p.StopsAfter PlacesManifest disk stop) :
    stop = placed ∨ recovery.Stops placed stop := by
  obtain ⟨before, start, label, after, hsteps, -, hstop⟩ := h
  rw [hrun] at hsteps hstop
  rcases hstop with ⟨label', hstop⟩ | hstop
  · have hafter : (stop, label') ∈ (placed, Operation.sync) :: (recovery placed).steps := by
      cases before with
      | nil =>
          obtain ⟨-, rfl⟩ := List.cons.inj hsteps
          exact hstop
      | cons first before =>
          obtain ⟨-, hrest⟩ := List.cons.inj hsteps
          rw [hrest]
          exact List.mem_append_right _ (List.mem_cons_of_mem _ hstop)
    rcases List.mem_cons.1 hafter with heq | hafter
    · exact .inl (Prod.mk.inj heq).1
    · exact .inr (.inl ⟨label', hafter⟩)
  · exact .inr (.inr hstop)

theorem begun_describes (begun : Begun) (hmax : 1 ≤ maxRotatedFiles)
    (hquiet : disk.hasRotationEntry = false)
    (hactive : (disk.files.lookup .active).isSome = true) :
    Describes (newRotation begun.name maxRotatedFiles hmax disk).manifest disk.files.lookup :=
  newRotation_describes begun.name_isAlphanum hmax
    (Disk.hasRotationEntry_eq_false_iff.1 hquiet).2 hactive

/-- Stopped in a directory of the rotation, the Rust recovery leaves one of them behind. -/
theorem converging_of_rust (begun : Begun) (hmax : 1 ≤ maxRotatedFiles)
    (hquiet : disk.hasRotationEntry = false)
    (hactive : (disk.files.lookup .active).isSome = true)
    (hstart : Rotating (newRotation begun.name maxRotatedFiles hmax disk).manifest
      disk.files.lookup disk')
    {stop : Disk} (hstop : (recoverManifest writeManifestAtomically).Stops disk' stop) :
    Converging (newRotation begun.name maxRotatedFiles hmax disk).manifest disk.files.lookup
      stop :=
  (recoverManifest_rotating (begun_describes begun hmax hquiet hactive)).stops
    (fun _ _ h => h.1) (fun _ _ h => .inr h) (fun _ _ h => h.elim) hstart hstop

/-- In a directory of the rotation the Python recovery mirrors the Rust recovery. -/
theorem mirrors_of_rotating (begun : Begun) (hmax : 1 ≤ maxRotatedFiles)
    (hfits : maxRotatedFiles < 2 ^ 64)
    (hstart : Rotating (newRotation begun.name maxRotatedFiles hmax disk).manifest
      disk.files.lookup disk') :
    Program.Mirrors SameFailure (Python.recoverManifest rt table dumps)
      (recoverManifest writeManifestAtomically) disk' := by
  have hshared : Shared table (newRotation begun.name maxRotatedFiles hmax disk) :=
    begun.shared hmax hfits
  rcases hstart with h | ⟨oldest, -, h⟩
  · exact hshared.mirrors rt dumps h.written
  · exact hshared.installing.mirrors rt dumps h.written

/-- Every directory left behind is on its way to the rotated one. -/
theorem InterruptedAcross.converging {begun : Begun} (hmax : 1 ≤ maxRotatedFiles)
    (hfits : maxRotatedFiles < 2 ^ 64) (hquiet : disk.hasRotationEntry = false)
    (hactive : (disk.files.lookup .active).isSome = true)
    (h : InterruptedAcross rt table dumps maxRotatedFiles begun disk disk') :
    Converging (newRotation begun.name maxRotatedFiles hmax disk).manifest disk.files.lookup
      disk' := by
  have hfiles := (Disk.hasRotationEntry_eq_false_iff.1 hquiet).2
  have hplaced : Rotating (newRotation begun.name maxRotatedFiles hmax disk).manifest
      disk.files.lookup (withManifest (newRotation begun.name maxRotatedFiles hmax disk) disk) :=
    .inl (withManifest_staging begun.name_isAlphanum hmax hfiles hactive)
  have hrust : ∀ {start stop : Disk},
      Rotating (newRotation begun.name maxRotatedFiles hmax disk).manifest disk.files.lookup
        start → (recoverManifest writeManifestAtomically).Stops start stop →
      Converging (newRotation begun.name maxRotatedFiles hmax disk).manifest disk.files.lookup
        stop := fun hstart hstop => converging_of_rust begun hmax hquiet hactive hstart hstop
  have hpython : ∀ {start stop : Disk},
      Rotating (newRotation begun.name maxRotatedFiles hmax disk).manifest disk.files.lookup
        start → (Python.recoverManifest rt table dumps).Stops start stop →
      Converging (newRotation begun.name maxRotatedFiles hmax disk).manifest disk.files.lookup
        stop := fun hstart hstop =>
    hrust hstart (((mirrors_of_rotating begun hmax hfits hstart).stops_iff _).1 hstop)
  have hsettled : ∀ {start : Disk}, start.manifest.isSome = true →
      Converging (newRotation begun.name maxRotatedFiles hmax disk).manifest disk.files.lookup
        start → Rotating (newRotation begun.name maxRotatedFiles hmax disk).manifest
          disk.files.lookup start := by
    intro start hmanifest hstart
    rcases hstart with hstart | hstart
    · exact hstart
    · rw [hstart.settled] at hmanifest
      cases hmanifest
  induction h with
  | rotation h =>
      cases begun with
      | rust nanos =>
          rcases stopsAfter_placing (rotateCurrent_apply hfiles) h with rfl | hstop
          · exact .inl hplaced
          · exact hrust hplaced hstop
      | python random =>
          rcases stopsAfter_placing (python_rotate_apply random hmax hfits hquiet hactive) h with
            rfl | hstop
          · exact .inl hplaced
          · exact hpython hplaced hstop
  | rust _ hmanifest hstop ih => exact hrust (hsettled hmanifest ih) hstop
  | python _ hmanifest hstop ih => exact hpython (hsettled hmanifest ih) hstop

/-- **A rotation converges across runtimes.** From a directory without manifest or staging files
there is one rotated directory. Whichever runtime begins the rotation and whichever carries it on
after each interruption, either the manifest is gone and the directory is that one, or the next
uninterrupted recovery in either runtime succeeds and ends in it.

The stops that count are those after the manifest was put in place, in one step. -/
theorem rotation_converges_across (rt : JsonRuntime) (table : Python.AlnumTable)
    (dumps : Json → Bytes) (begun : Begun) (hmax : 1 ≤ maxRotatedFiles)
    (hfits : maxRotatedFiles < 2 ^ 64) (hquiet : disk.hasRotationEntry = false)
    (hactive : (disk.files.lookup .active).isSome = true) :
    ∃ rotated, Rotated maxRotatedFiles disk.files.lookup none rotated ∧
      ∀ disk', InterruptedAcross rt table dumps maxRotatedFiles begun disk disk' →
        (disk'.manifest = none ∧ disk' = rotated) ∨
        (disk'.manifest.isSome = true ∧
          (recoverManifest writeManifestAtomically disk').result = .ok () ∧
          (recoverManifest writeManifestAtomically disk').final = rotated ∧
          (Python.recoverManifest rt table dumps disk').result = .ok () ∧
          (Python.recoverManifest rt table dumps disk').final = rotated) := by
  have hfiles := (Disk.hasRotationEntry_eq_false_iff.1 hquiet).2
  have hdescribes := begun_describes begun hmax hquiet hactive
  have hrecovery := recoverManifest_rotating hdescribes
  obtain ⟨⟨⟩, -, hrotated⟩ := hrecovery.exists_ok
    (.inl (withManifest_staging begun.name_isAlphanum hmax hfiles hactive))
  refine ⟨_, hrotated, fun disk' h => ?_⟩
  rcases h.converging hmax hfits hquiet hactive with h | h
  · right
    obtain ⟨⟨⟩, hresult, hfinal⟩ := hrecovery.exists_ok h
    have hmirrors : Program.Mirrors SameFailure (Python.recoverManifest rt table dumps)
        (recoverManifest writeManifestAtomically) disk' :=
      mirrors_of_rotating begun hmax hfits h
    refine ⟨?_, hresult, hfinal.unique hrotated, (hmirrors.result_ok_iff ()).2 hresult,
      hmirrors.final.trans (hfinal.unique hrotated)⟩
    rcases h with h | ⟨oldest, -, h⟩
    · rw [h.written]
      rfl
    · rw [h.written]
      rfl
  · exact .inl ⟨h.settled, h.unique hrotated⟩

end

/-- A Python rotation of two backups that has just begun. -/
def begunInPython : Rotation := newRotation (Begun.python 255).name 2 (by decide) sampleDisk

theorem recoverManifest_mirrors_sample :
    Program.Mirrors SameFailure (Python.recoverManifest sampleRuntime asciiTable (fun _ => []))
      (recoverManifest writeManifestAtomically) (withManifest begunInPython sampleDisk) :=
  recoverManifest_mirrors sampleRuntime asciiTable (fun _ => []) begunInPython
    ((Begun.python 255).shared (by decide) (by decide)) _ rfl

theorem rotation_converges_across_sample :
    ∃ rotated, Rotated 2 sampleDisk.files.lookup none rotated ∧
      ∀ disk', InterruptedAcross sampleRuntime asciiTable (fun _ => []) 2 (.python 255) sampleDisk
          disk' →
        (disk'.manifest = none ∧ disk' = rotated) ∨
        (disk'.manifest.isSome = true ∧
          (recoverManifest writeManifestAtomically disk').result = .ok () ∧
          (recoverManifest writeManifestAtomically disk').final = rotated ∧
          (Python.recoverManifest sampleRuntime asciiTable (fun _ => []) disk').result = .ok () ∧
          (Python.recoverManifest sampleRuntime asciiTable (fun _ => []) disk').final =
            rotated) :=
  rotation_converges_across sampleRuntime asciiTable (fun _ => []) (.python 255) (by decide)
    (by decide) (by decide +kernel) (by decide +kernel)

end HpGuardian

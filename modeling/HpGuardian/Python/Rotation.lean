import HpGuardian.Python.Manifests

/-!
# Rotation in Python (`src/hp_guard/audit.py`)

`_rotate` writes a manifest and hands it to `_recover_manifest`, which stages the occupied slots,
switches the manifest to its installing phase, installs every staged file one slot further, and
removes the oldest file and the manifest.  Unlike the Rust log it says what it found in the way,
and it reads its manifest back from the file as JSON.

The moves are checked like those of the Rust log, with a text for each way to refuse (`Refusals`),
and the files are renamed in the same order.  What is read back is a decoded value, whose phase is
replaced before it is written again; a manifest that was kept as a record is the object it was
written as.

Before it looks at a file, the source asks `_regular_file_metadata` for it, which raises for
anything that is there and not a regular file.  That branch is left out: every file of the
directory is regular, as in the Rust model of the rotation.  Where something else is in the way,
the two runtimes raise different errors, and nothing here is about such directories.

The write of a manifest is one step.
-/

namespace HpGuardian.Python

open Framework

/-- A program of the Python log on the directory. -/
abbrev DiskProgram (α : Type) := Program Disk Operation ManifestError α

/-! ## Moving one slot

The two kinds of moves, which differ in their places and in what they say. -/

/-- What a checked move says when it refuses. The two directions of a move check the same three
things under texts of their own. -/
structure Refusals where
  /-- There is a file, but none is expected. -/
  unexpected : String
  /-- The file is at both places. -/
  ambiguous : String
  /-- The file is at neither place. -/
  missing : String

/-- The checks that `_stage_rotation_slot` and `_install_rotation_slot` share, and the move. -/
def moveSlot (refusals : Refusals) (m : Move Path) :
    Program (Files Path FileData) Operation ManifestError Unit := do
  let sourceExists ← Program.read (fun files => decide (m.source ∈ files))
  let targetExists ← Program.read (fun files => decide (m.target ∈ files))
  if !m.expected then
    if sourceExists || targetExists then Program.raise (manifestError refusals.unexpected)
    else pure ()
  else if sourceExists && targetExists then
    Program.raise (manifestError refusals.ambiguous)
  else if sourceExists then do
    Program.step (.rename m.source m.target) (rename m.source m.target)
    Program.step .sync id
  else if targetExists then
    pure ()
  else
    Program.raise (manifestError refusals.missing)

/-- The messages of `_stage_rotation_slot`. -/
def stagingRefusals : Refusals where
  unexpected := "unexpected audit rotation source"
  ambiguous := "ambiguous audit rotation staging state"
  missing := "audit rotation source is missing"

/-- The messages of `_install_rotation_slot`. -/
def installationRefusals : Refusals where
  unexpected := "unexpected audit rotation target"
  ambiguous := "ambiguous audit rotation installation state"
  missing := "audit rotation target is missing"

/-- `_stage_rotation_slot`. -/
def stageRotationSlot (transactionId : String) (slot : Slot) (expected : Bool) :
    DiskProgram Unit :=
  Program.zoom Disk.files Disk.setFiles
    (moveSlot stagingRefusals (stageMove transactionId slot expected))

/-- `_install_rotation_slot`. -/
def installRotationSlot (transactionId : String) (sourceSlot : Slot) (targetIndex : ℕ)
    (expected : Bool) : DiskProgram Unit :=
  Program.zoom Disk.files Disk.setFiles
    (moveSlot installationRefusals (installMove transactionId sourceSlot targetIndex expected))

/-! ## Manifest files

Manifests as values, as records, and as the file between two rotations. -/

/-- `manifest["phase"] = "installing"`. -/
def RotationManifest.installing (manifest : RotationManifest) : RotationManifest :=
  { manifest with phase := "installing" }

/-- `manifest["phase"] = "installing"` on the decoded value. -/
def installingValue : Json → Json
  | .object fields =>
      .object (fields.map (fun field =>
        if field.1 = "phase" then (field.1, .string "installing") else field))
  | value => value

/-- Whether a file is expected in a slot. -/
def RotationManifest.expects (manifest : RotationManifest) : Slot → Bool
  | .active => true
  | .backup index => manifest.backups.contains index

/-- The plan of a rotation as it names the write of a manifest. -/
def RotationManifest.plan (manifest : RotationManifest) : HpGuardian.RotationManifest where
  formatVersion := 1
  transactionId := manifest.transactionId
  maxRotatedFiles := manifest.maxRotatedFiles.toNat
  operation := "rotate"
  phase := manifest.phase
  present := ⟨true, manifest.backups.map Int.toNat⟩

section

variable (rt : JsonRuntime) (table : AlnumTable) (dumps : Json → Bytes)

/-- The file that holds a value: what deserializes as a manifest is kept as that manifest. -/
def manifestFile (value : Json) : ManifestFile :=
  match HpGuardian.RotationManifest.deserialize value with
  | some manifest => .record manifest
  | none => .malformed (dumps value)

/-- `json.loads` of a manifest file; a manifest that was kept is the object it was written as. -/
def loadsManifest : ManifestFile → Option Json
  | .record manifest => some manifest.toJson
  | .malformed content => rt.fromSlice content

/-- `_write_manifest` of a value that was read as a manifest, as one step. -/
def writeManifest (value : Json) (manifest : RotationManifest) : DiskProgram Unit := do
  let temporaryExists ← Program.read
    (fun disk => decide (Path.temporary manifest.transactionId ∈ disk.files))
  if temporaryExists then
    Program.raise (manifestError "unexpected audit rotation manifest temporary file")
  else do
    Program.step (.writeManifest manifest.plan)
      (fun disk => { disk with manifest := some (manifestFile dumps value) })
    Program.step .sync id

/-! ## Recovery of a rotation

`_recover_manifest`, in the order of the source. -/

/-- The staging phase of `_recover_manifest`. -/
def stageSlots (value : Json) (manifest : RotationManifest) : DiskProgram Unit := do
  stageRotationSlot manifest.transactionId .active true
  Program.forEach (fun index =>
    stageRotationSlot manifest.transactionId (.backup index) (manifest.expects (.backup index)))
    (indices manifest.maxRotatedFiles.toNat)
  writeManifest dumps (installingValue value) manifest.installing

/-- The loop that installs the slots. -/
def installSlots (manifest : RotationManifest) : DiskProgram Unit :=
  Program.forEach (fun index =>
    installRotationSlot manifest.transactionId (sourceSlot index) index
      (manifest.expects (sourceSlot index)))
    (indices manifest.maxRotatedFiles.toNat)

/-- `unlink` of the oldest staged backup. -/
def unlinkOldBackup (manifest : RotationManifest) : DiskProgram Unit := do
  let oldBackup := stagingPath manifest.transactionId (.backup manifest.maxRotatedFiles.toNat)
  let oldBackupExists ← Program.read (fun disk => decide (oldBackup ∈ disk.files))
  if oldBackupExists then do
    Program.step (.remove oldBackup) (fun disk => disk.setFiles (disk.files.erase oldBackup))
    Program.step .sync id
  else
    pure ()

/-- `unlink` of the manifest. -/
def unlinkManifest : DiskProgram Unit := do
  Program.step .removeManifest (fun disk => { disk with manifest := none })
  Program.step .sync id

/-- `_recover_manifest` of a manifest that was read. -/
def recoverRead (value : Json) (manifest : RotationManifest) : DiskProgram Unit := do
  if manifest.phase = "staging" then stageSlots dumps value manifest else pure ()
  installSlots manifest
  unlinkOldBackup manifest
  unlinkManifest

/-- `_recover_manifest`; it is never called without a manifest. -/
def recoverManifest : DiskProgram Unit := do
  let file ← Program.read Disk.manifest
  match file.bind (loadsManifest rt) with
  | none => Program.raise (manifestError "audit rotation manifest is invalid")
  | some value =>
      match readManifest table value with
      | .error error => Program.raise error
      | .ok manifest => recoverRead dumps value manifest

/-! ## Starting a rotation

The manifest of a new rotation, and `_rotate`. -/

/-- What the manifest of a new rotation is read as. -/
def newRotationManifest (maxRotatedFiles random : ℕ) (disk : Disk) : RotationManifest where
  transactionId := uuidHex random
  maxRotatedFiles := maxRotatedFiles
  phase := "staging"
  backups := ((indices maxRotatedFiles).filter
    (fun index => decide (.backup index ∈ disk.files))).map (fun index : ℕ => (index : ℤ))

/-- `_rotate`. -/
def rotate (maxRotatedFiles random : ℕ) : DiskProgram Unit := do
  let activeExists ← Program.read (fun disk => decide (Path.active ∈ disk.files))
  if !activeExists then
    Program.raise (.auditError
      ⟨"audit_write_failed", "active audit file disappeared during rotation"⟩)
  else do
    let manifestExists ← Program.read (fun disk => disk.manifest.isSome)
    if manifestExists then
      Program.raise (manifestError "audit rotation manifest already exists")
    else do
      let value ← Program.read (newManifest maxRotatedFiles random)
      let manifest ← Program.read (newRotationManifest maxRotatedFiles random)
      writeManifest dumps value manifest
      recoverManifest rt table dumps

end

end HpGuardian.Python

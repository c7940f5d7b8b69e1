import HpGuardian.Audit.Disk

/-!
# Rotation (`src/audit.rs`)

A rotation writes a manifest, stages every occupied slot under its transaction's name, switches the
manifest to its installing phase, installs every staged file one slot further, and removes the
oldest file and the manifest.  `rotate_current` does no more than write the manifest and call
`recover_manifest`, which carries a rotation on from wherever it stopped: the staging moves only if
the manifest is still in its staging phase, and each move only if its file is still at the source.

The moves are those of a restartable plan, and the two phases are two plans over the same slots.
Which slots are occupied is read from the directory once, when the manifest is made, and from the
manifest ever after, because a file at its slot and a file that has been staged are otherwise not
distinguishable.

How a manifest is written is a parameter of everything that writes one.  The source creates a
temporary file, writes it and renames it over the manifest.  `writeManifestAtomically` is this as
one step, which is how the statements about interrupted rotations count it; `ManifestCrash` has the
same write as three steps, and the temporary file that a process killed between them leaves behind.
-/

namespace HpGuardian

open Framework

/-! ## Moving one slot

`stage_slot` and `install_slot` differ in the places they move between; the check and the rename
are the same. -/

/-- `staging_path`. -/
def stagingPath (transaction : String) (slot : Slot) : Path := .stage transaction slot

/-- The move of `stage_slot`. -/
def stageMove (transaction : String) (slot : Slot) (expected : Bool) : Move Path :=
  ⟨slot.path, stagingPath transaction slot, expected⟩

/-- The move of `install_slot`. -/
def installMove (transaction : String) (source : Slot) (targetIndex : ℕ) (expected : Bool) :
    Move Path :=
  ⟨stagingPath transaction source, .backup targetIndex, expected⟩

/-- `stage_slot`. -/
def stageSlot (transaction : String) (slot : Slot) (expected : Bool) : DiskProgram Unit :=
  Disk.onFiles (move .rename .sync .recoveryFailed (stageMove transaction slot expected))

/-- `install_slot`. -/
def installSlot (transaction : String) (source : Slot) (targetIndex : ℕ) (expected : Bool) :
    DiskProgram Unit :=
  Disk.onFiles (move .rename .sync .recoveryFailed
    (installMove transaction source targetIndex expected))

/-! ## Manifests

The checks on a manifest that was read, the manifest of a new rotation, and the write of one. -/

/-- The backup list after `sort_unstable` and `dedup`. -/
def sortedDedup (backups : List ℕ) : List ℕ := (backups.insertionSort (· ≤ ·)).dedup

/-- The checks at the start of `recover_manifest`: version and operation, one of the two phases, an
active file, and a backup list that is sorted, without repetitions and within the number of
backups. The transaction id must be of letters, digits and dashes, since paths are made of it. -/
def RotationManifest.accepted (manifest : RotationManifest) : Bool :=
  manifest.formatVersion == 1 && manifest.operation == "rotate" &&
    (manifest.phase == "staging" || manifest.phase == "installing") &&
    manifest.present.active && manifest.maxRotatedFiles != 0 &&
    manifest.transactionId.toList.all (fun c => c == '-' || c.isAlphanum) &&
    manifest.present.backups.all (fun index => index != 0 && index ≤ manifest.maxRotatedFiles) &&
    sortedDedup manifest.present.backups == manifest.present.backups

/-- The manifest in its installing phase. -/
def RotationManifest.installing (manifest : RotationManifest) : RotationManifest :=
  { manifest with phase := "installing" }

/-- Whether the manifest expects a file in a slot. -/
def RotationManifest.expects (manifest : RotationManifest) : Slot → Bool
  | .active => true
  | .backup index => manifest.present.backups.contains index

/-- The slot that is installed as backup `index`. -/
def sourceSlot (index : ℕ) : Slot := if index = 1 then .active else .backup (index - 1)

/-- The indices `1..=max_rotated_files`. -/
def indices (maxRotatedFiles : ℕ) : List ℕ := List.range' 1 maxRotatedFiles

/-- `write_manifest` as one step; a temporary file that is already there makes it fail. -/
def writeManifestAtomically (manifest : RotationManifest) : DiskProgram Unit := do
  let temporaryExists ← Program.read
    (fun disk => decide (Path.temporary manifest.transactionId ∈ disk.files))
  if temporaryExists then
    Program.raise .recoveryFailed
  else do
    Program.step (.writeManifest manifest)
      (fun disk => { disk with manifest := some (.record manifest) })
    Program.step .sync id

/-! ## Recovery of a rotation

`recover_manifest`, in the order of the source: staging, the switch of the phase, installing, and
the two removals at the end. -/

section

variable (writeManifest : RotationManifest → DiskProgram Unit)

/-- The staging phase of `recover_manifest`. -/
def stageAll (manifest : RotationManifest) : DiskProgram Unit := do
  stageSlot manifest.transactionId .active true
  Program.forEach (fun index =>
    stageSlot manifest.transactionId (.backup index) (manifest.expects (.backup index)))
    (indices manifest.maxRotatedFiles)
  writeManifest manifest.installing

/-- The installing phase of `recover_manifest`. -/
def installAll (manifest : RotationManifest) : DiskProgram Unit :=
  Program.forEach (fun index =>
    installSlot manifest.transactionId (sourceSlot index) index
      (manifest.expects (sourceSlot index)))
    (indices manifest.maxRotatedFiles)

/-- `remove_file` of the oldest staged backup. -/
def removeOldest (manifest : RotationManifest) : DiskProgram Unit := do
  let oldest := stagingPath manifest.transactionId (.backup manifest.maxRotatedFiles)
  let oldestExists ← Program.read (fun disk => decide (oldest ∈ disk.files))
  if oldestExists then do
    Program.step (.remove oldest) (fun disk => disk.setFiles (disk.files.erase oldest))
    Program.step .sync id
  else
    pure ()

/-- `remove_file` of the manifest. -/
def removeManifest : DiskProgram Unit := do
  Program.step .removeManifest (fun disk => { disk with manifest := none })
  Program.step .sync id

/-- `recover_manifest` of a manifest that passed the checks. -/
def recoverAccepted (manifest : RotationManifest) : DiskProgram Unit := do
  if manifest.phase = "staging" then stageAll writeManifest manifest else pure ()
  installAll manifest
  removeOldest manifest
  removeManifest

/-- `recover_manifest`; it is never called without a manifest. -/
def recoverManifest : DiskProgram Unit := do
  let file ← Program.read Disk.manifest
  match file with
  | some (.record manifest) =>
      if manifest.accepted then recoverAccepted writeManifest manifest
      else Program.raise .recoveryFailed
  | _ => Program.raise .recoveryFailed

/-- `format!("{:x}", ..)` of the nanoseconds since the Unix epoch. -/
def transactionId (nanos : ℕ) : String := String.ofList (Nat.toDigits 16 nanos)

/-- The manifest that `rotate_current` writes. -/
def newManifest (maxRotatedFiles nanos : ℕ) (disk : Disk) : RotationManifest where
  formatVersion := 1
  transactionId := transactionId nanos
  maxRotatedFiles := maxRotatedFiles
  operation := "rotate"
  phase := "staging"
  present := {
    active := true
    backups := (indices maxRotatedFiles).filter (fun index => decide (.backup index ∈ disk.files)) }

/-- `rotate_current`. -/
def rotateCurrent (maxRotatedFiles nanos : ℕ) : DiskProgram Unit := do
  let manifest ← Program.read (newManifest maxRotatedFiles nanos)
  writeManifest manifest
  recoverManifest writeManifest

end

end HpGuardian

import HpGuardian.Audit.Records
import HpGuardian.Framework.Moves

/-!
# The directory of an audit log (`src/audit.rs`)

The directory that an audit log works in: the active file, its numbered backups, the files that a
rotation stages under its transaction's name, and the rotation manifest.  A path is not a text here
but says what kind of file it names (`Path`), so that a program that forms names and a program that
lists the directory agree on them by construction.  Entries of other rotations, which the log
refuses to touch, are the `stray` paths.  Names as texts, with the pattern that the Python log
searches the directory with, are the subject of the `Directories` modules of both runtimes.

The manifest is kept apart from the other files, because the log reads it as a record and never
moves it.  A manifest that cannot be read is any other content (`ManifestFile.malformed`).

Two restrictions are part of this directory.  Every file is a regular file: the source checks each
path with `symlink_metadata` and refuses symbolic links and directories, and those branches are
left out here, so a result about this directory is one about directories of regular files.  And the
directory holds contents and times of modification only; permissions are left out, and so is the
lock file, which is the business of the modules about handles.

A change of the directory is a labelled `Operation`, one for each system call that can be seen from
outside or that waits for the disk, so a program on the directory can be stopped between any two of
them.
-/

namespace HpGuardian

open Framework

/-- The content of a file. -/
abbrev Bytes := List UInt8

/-- A file: its content and the time of its last modification, which is what the age limit of a log
looks at. -/
structure FileData where
  content : Bytes
  modified : Instant
  deriving DecidableEq, Repr

/-- The slots a rotation moves: the active file and the numbered backups, of which the first is the
newest. -/
inductive Slot where
  | active
  | backup (index : ℕ)
  deriving DecidableEq, Repr

/-- The files of the directory that belong to the log, other than the rotation manifest. A staged
file carries the name of its transaction and the slot it comes from, so files staged by different
rotations have different paths. -/
inductive Path where
  /-- `{path}` -/
  | active
  /-- `{path}.{index}` -/
  | backup (index : ℕ)
  /-- `{path}.rotation.{transaction}.active` or `{path}.rotation.{transaction}.backup.{index}` -/
  | stage (transaction : String) (slot : Slot)
  /-- `{path}.rotation.json.tmp.{transaction}` -/
  | temporary (transaction : String)
  /-- any other entry `{path}.rotation.{suffix}` -/
  | stray (suffix : String)
  deriving DecidableEq, Repr

/-- The path of a slot. -/
def Slot.path : Slot → Path
  | .active => .active
  | .backup index => .backup index

/-- Entries whose name starts with `{name}.rotation.`. -/
def Path.isRotation : Path → Bool
  | .active | .backup _ => false
  | .stage _ _ | .temporary _ | .stray _ => true

/-- The slots that are occupied when a rotation starts. -/
structure RotationPresent where
  active : Bool
  backups : List ℕ
  deriving DecidableEq, Repr

/-- The plan of a rotation, as its manifest records it: a name, the number of backups, the phase it
is in, and which slots are occupied. -/
structure RotationManifest where
  formatVersion : ℕ
  transactionId : String
  maxRotatedFiles : ℕ
  operation : String
  phase : String
  present : RotationPresent
  deriving DecidableEq, Repr

/-- A manifest file: one that deserializes, or any other content. Recovery refuses the latter
without looking further. -/
inductive ManifestFile where
  | record (manifest : RotationManifest)
  | malformed (content : Bytes)
  deriving DecidableEq, Repr

/-- The directory: its files by path, and the rotation manifest if there is one. -/
structure Disk where
  files : Files Path FileData
  manifest : Option ManifestFile
  deriving DecidableEq

/-- The steps that change the directory or wait for it to be durable. A program can be stopped
before each of them, and each can fail. -/
inductive Operation where
  | rename (source target : Path)
  | remove (path : Path)
  | removeManifest
  | writeManifest (manifest : RotationManifest)
  | create (path : Path)
  | write (path : Path)
  | truncate (path : Path)
  | sync
  deriving DecidableEq, Repr

/-- A program on the directory. -/
abbrev DiskProgram (α : Type) := Program Disk Operation AuditError α

namespace Disk

/-- A directory without any file of the log. -/
def empty : Disk := ⟨∅, none⟩

/-- Replaces the files. -/
def setFiles (files : Files Path FileData) (disk : Disk) : Disk := { disk with files := files }

@[simp] theorem files_setFiles (files : Files Path FileData) (disk : Disk) :
    (setFiles files disk).files = files := rfl

@[simp] theorem manifest_setFiles (files : Files Path FileData) (disk : Disk) :
    (setFiles files disk).manifest = disk.manifest := rfl

/-- A program on the files alone. -/
def onFiles {α : Type} (p : Program (Files Path FileData) Operation AuditError α) :
    DiskProgram α :=
  Program.zoom Disk.files setFiles p

theorem files_lens : Program.Lens Disk.files setFiles :=
  ⟨fun _ _ => rfl, fun _ _ _ => rfl, fun _ => rfl⟩

/-- The directory has a file, other than the manifest, whose name starts with
`{name}.rotation.`. -/
def hasRotationFile (disk : Disk) : Bool :=
  decide (∃ path ∈ disk.files.keys, path.isRotation = true)

/-- The directory has an entry that starts with `{name}.rotation.`. -/
def hasRotationEntry (disk : Disk) : Bool := disk.manifest.isSome || disk.hasRotationFile

theorem hasRotationFile_eq_false_iff {disk : Disk} :
    disk.hasRotationFile = false ↔
      ∀ path, path.isRotation = true → disk.files.lookup path = none := by
  simp only [hasRotationFile, decide_eq_false_iff_not, not_exists, not_and, Finmap.mem_keys]
  refine forall_congr' fun path => ?_
  rw [Finmap.lookup_eq_none]
  exact ⟨fun h hrotation hmem => h hmem hrotation, fun h hmem hrotation => h hrotation hmem⟩

theorem hasRotationEntry_eq_false_iff {disk : Disk} :
    disk.hasRotationEntry = false ↔
      disk.manifest = none ∧ ∀ path, path.isRotation = true → disk.files.lookup path = none := by
  rw [hasRotationEntry, Bool.or_eq_false_iff, hasRotationFile_eq_false_iff,
    Option.isSome_eq_false_iff, Option.isNone_iff_eq_none]

/-- Two directories with the same files and the same manifest. -/
theorem ext_lookup {disk disk' : Disk}
    (hfiles : ∀ path, disk.files.lookup path = disk'.files.lookup path)
    (hmanifest : disk.manifest = disk'.manifest) : disk = disk' := by
  cases disk
  cases disk'
  simp only [Disk.mk.injEq]
  exact ⟨Finmap.ext_lookup hfiles, hmanifest⟩

end Disk

/-! ## Configuration

The limits of a log.  A configuration that passes `validate_config` is a `ValidConfig`, and only
with one can a log be built, so at least one backup is kept. -/

/-- Configuration for bounded, host-local audit-file rotation; the age is in nanoseconds. -/
structure AuditLogConfig where
  maxBytes : Option ℕ
  maxAge : Option ℤ
  maxRotatedFiles : ℕ
  deriving DecidableEq, Repr

/-- `validate_config`. -/
def validateConfig (config : AuditLogConfig) : Except AuditError Unit :=
  if config.maxBytes = some 0 then .error (.invalidConfiguration "max_bytes")
  else if config.maxAge.any (fun age => age ≤ 0) then .error (.invalidConfiguration "max_age")
  else if config.maxRotatedFiles = 0 then .error (.invalidConfiguration "max_rotated_files")
  else .ok ()

/-- A configuration that an audit log can be built with. The proof that it passes the check is a
part of it, so nothing that works with a log has to check its limits. -/
structure ValidConfig extends AuditLogConfig where
  valid : validateConfig toAuditLogConfig = .ok ()

namespace ValidConfig

variable (config : ValidConfig)

theorem one_le_maxRotatedFiles : 1 ≤ config.maxRotatedFiles := by
  have h := config.valid
  unfold validateConfig at h
  split_ifs at h with hbytes hage hfiles
  omega

end ValidConfig

end HpGuardian

import HpGuardian.Audit.Tails
import Mathlib.Data.Finset.Sort

/-!
# The Python tail recovery (`src/hp_guard/audit.py`)

The Python log finds its numbered backups by their names instead of counting up to the configured
number, and takes the complete part of a file apart with `splitlines`, which ends a line at `\r` as
well.  A file without a line feed has an empty complete part and no lines at all, so it is checked
for its tail only.

Errors have texts with the path in them; `pathText` is the path of a file of the log as text.

The directory is the one of `HpGuardian.Audit.Disk`, in which every backup has a plain number and
every file is regular; what the pattern of the source finds among arbitrary names, and what becomes
of entries that are no regular files, is the subject of `HpGuardian.Python.Directories`.

What `_recover_manifest` does is a parameter: it is called only when there is a manifest.
-/

namespace HpGuardian.Python

open Framework

/-- `AuditError`. -/
structure AuditError where
  code : String
  message : String
  deriving DecidableEq, Repr

/-- A path of the log at `log` as text. -/
def pathText (log : String) : Path → String
  | .active => log
  | .backup index => log ++ "." ++ toString index
  | .stage transaction .active => log ++ ".rotation." ++ transaction ++ ".active"
  | .stage transaction (.backup index) =>
      log ++ ".rotation." ++ transaction ++ ".backup." ++ toString index
  | .temporary transaction => log ++ ".rotation.json.tmp." ++ transaction
  | .stray suffix => log ++ ".rotation." ++ suffix

/-! ## Lines

Where the Python log sees the lines of a file. -/

/-- The byte `\r`. -/
def carriageReturn : UInt8 := 0x0D

/-- `bytes.splitlines` after the bytes `line` of the current line: a line ends at `\n`, `\r` or
`\r\n`, and the end of the bytes ends a line that is not empty. -/
def splitlinesFrom (line : Bytes) : Bytes → List Bytes
  | [] => if line.isEmpty then [] else [line]
  | [byte] =>
      if byte == newline || byte == carriageReturn then [line] else [line ++ [byte]]
  | byte :: next :: rest =>
      if byte == carriageReturn && next == newline then line :: splitlinesFrom [] rest
      else if byte == newline || byte == carriageReturn then
        line :: splitlinesFrom [] (next :: rest)
      else splitlinesFrom (line ++ [byte]) (next :: rest)

/-- `bytes.splitlines`. -/
def splitlines (content : Bytes) : List Bytes := splitlinesFrom [] content

/-! ## One file

The checks of a file, apart from the truncation that may follow. -/

section

variable (rt : JsonRuntime) (path : String)

/-- `_validate_json_line`. -/
def validateJsonLine (line : Bytes) : Except AuditError Unit :=
  if line.isEmpty then .error ⟨"audit_corrupt", "audit log contains an empty record: " ++ path⟩
  else
    match rt.fromSlice line with
    | none => .error ⟨"audit_corrupt", "audit log contains an invalid record: " ++ path⟩
    | some (.object _) => .ok ()
    | some _ => .error ⟨"audit_corrupt", "audit log contains a non-object record: " ++ path⟩

/-- The loop over the lines in `_recover_file_tail`. -/
def validateJsonLines : List Bytes → Except AuditError Unit
  | [] => .ok ()
  | line :: lines => do
      validateJsonLine rt path line
      validateJsonLines lines

/-- The checks of the tail in `_recover_file_tail`: the length to which the file must be cut. -/
def checkUnterminated (tail : Bytes) (lastNewline : ℕ) : Except AuditError (Option ℕ) :=
  if tail.isEmpty then .ok none
  else if !validUtf8 tail then
    .error ⟨"audit_corrupt", "audit log contains invalid UTF-8: " ++ path⟩
  else
    match rt.fromSlice tail with
    | none => .ok (some lastNewline)
    | some (.object _) =>
        .error ⟨"audit_corrupt", "audit log record is missing its newline: " ++ path⟩
    | some _ => .error ⟨"audit_corrupt", "audit log contains a non-object record: " ++ path⟩

/-- The checks of `_recover_file_tail` up to the truncation. -/
def checkFileTail (content : Bytes) : Except AuditError (Option ℕ) := do
  let complete := completeText newline content
  validateJsonLines rt path (splitlines complete)
  checkUnterminated rt path (content.drop complete.length) complete.length

end

section

variable (rt : JsonRuntime) (log : String)

/-- `_recover_file_tail` of a path that exists. -/
def recoverFileTail (stamp : Instant) (path : Path) : Program Disk Operation AuditError Unit := do
  let file ← Program.read (fun disk => disk.files.lookup path)
  match file with
  | none => pure ()
  | some file =>
      match checkFileTail rt (pathText log path) file.content with
      | .error error => Program.raise error
      | .ok none => pure ()
      | .ok (some length) => do
          Program.step (.truncate path) (truncateFile path length stamp)
          Program.step .sync id

/-! ## The whole log

The files in the order in which they are listed, and the three parts of `_recover_tails`. -/

/-- The number of a backup. -/
def backupNumber : Path → Option ℕ
  | .backup index => some index
  | _ => none

theorem backupNumber_inj (path path' : Path) (index : ℕ) (h : index ∈ backupNumber path)
    (h' : index ∈ backupNumber path') : path = path' := by
  cases path <;> cases path' <;> simp_all [backupNumber]

/-- The numbers of the backups that exist. -/
def backupNumbers (disk : Disk) : Finset ℕ :=
  disk.files.keys.filterMap backupNumber backupNumber_inj

/-- The numbered backups in the order of their names, which is the order in which
`sorted(self.path.parent.glob(f"{self.path.name}.[0-9]*"))` lists them. -/
def numberedBackups (disk : Disk) : List ℕ :=
  ((backupNumbers disk).sort (· ≤ ·)).insertionSort (fun i j => toString i ≤ toString j)

/-- The files that tail recovery checks, in order. -/
def logPaths (disk : Disk) : List Path := .active :: (numberedBackups disk).map .backup

variable (recoverManifest : Program Disk Operation AuditError Unit)

/-- The part of `_recover_tails` that carries on an interrupted rotation. -/
def recoverPending : Program Disk Operation AuditError Unit := do
  let manifestExists ← Program.read (fun disk => disk.manifest.isSome)
  if manifestExists then recoverManifest else pure ()

/-- The part of `_recover_tails` that refuses leftovers of rotations. -/
def refuseStaging : Program Disk Operation AuditError Unit := do
  let staging ← Program.read Disk.hasRotationEntry
  if staging then
    Program.raise ⟨"audit_recovery_failed", "unexpected audit rotation staging file"⟩
  else pure ()

/-- `_recover_tails`; `stamp` is the time of the file system. -/
def recoverTails (stamp : Instant) : Program Disk Operation AuditError Unit := do
  recoverPending recoverManifest
  refuseStaging
  let paths ← Program.read logPaths
  Program.forEach (recoverFileTail rt log stamp) paths

end

end HpGuardian.Python

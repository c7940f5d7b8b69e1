import HpGuardian.Audit.Rotation
import HpGuardian.Framework.Lines
import HpGuardian.Policy.Json

/-!
# Tail recovery (`src/audit.rs`)

Before the first append a process carries on a rotation that was interrupted, refuses leftovers of
other rotations, and checks every file of the log: complete lines must be JSON objects, and a torn
last record is cut off.  This is `recover_tails`; it is called by the first append of a handle and
by the host on its own.

The check of a file reads its bytes, splits them at the last line feed and looks at the two parts.
The bytes up to there must split into lines that are UTF-8 and JSON objects.  What follows is kept
if it is empty and cut off if it is UTF-8 that is not JSON; everything else makes the log corrupt.
An empty slice splits into one empty line, which is not an object, so a file without a line feed is
refused whatever it holds, and an empty file with it.

The JSON library stands outside the repository and is a parameter (`JsonRuntime`), of which only
the two functions that the log calls are given.  UTF-8 is a standard of its own and is checked
here, byte by byte, as the standard library does.
-/

namespace HpGuardian

open Framework

/-- The functions of `serde_json` that the audit log calls. -/
structure JsonRuntime where
  /-- `serde_json::to_vec` of a record. -/
  toVec : AuditRecord → Bytes
  /-- `serde_json::from_slice`. -/
  fromSlice : Bytes → Option Json

/-- The byte that ends a record. -/
def newline : UInt8 := 0x0A

/-! ## UTF-8

The table of well-formed byte sequences: after a first byte, the ranges of the bytes that must
follow. -/

/-- `str::from_utf8` accepts the bytes; `expected` holds the ranges in which the continuation
bytes of the current character must lie. -/
def utf8Continues (expected : List (UInt8 × UInt8)) : Bytes → Bool
  | [] => expected.isEmpty
  | byte :: bytes =>
      let any : UInt8 × UInt8 := (0x80, 0xBF)
      match expected with
      | (low, high) :: expected => low ≤ byte && byte ≤ high && utf8Continues expected bytes
      | [] =>
          if byte ≤ 0x7F then utf8Continues [] bytes
          else if 0xC2 ≤ byte && byte ≤ 0xDF then utf8Continues [any] bytes
          else if byte == 0xE0 then utf8Continues [(0xA0, 0xBF), any] bytes
          else if byte == 0xED then utf8Continues [(0x80, 0x9F), any] bytes
          else if 0xE1 ≤ byte && byte ≤ 0xEF then utf8Continues [any, any] bytes
          else if byte == 0xF0 then utf8Continues [(0x90, 0xBF), any, any] bytes
          else if byte == 0xF4 then utf8Continues [(0x80, 0x8F), any, any] bytes
          else if 0xF1 ≤ byte && byte ≤ 0xF3 then utf8Continues [any, any, any] bytes
          else false

/-- `str::from_utf8(bytes).is_ok()`. -/
def validUtf8 (bytes : Bytes) : Bool := utf8Continues [] bytes

/-! ## One file

The check is apart from the truncation that may follow it, because a check changes nothing. -/

section

variable (rt : JsonRuntime)

/-- `serde_json::from_slice(line)` is an object. -/
def isJsonObject (line : Bytes) : Bool :=
  match rt.fromSlice line with
  | some (.object _) => true
  | _ => false

/-- The checks of `recover_tail` up to the truncation: the length to which the file must be cut,
if it ends in a torn record.  Splitting an empty slice gives one empty line. -/
def checkTail (content : Bytes) : Except AuditError (Option ℕ) :=
  let completeEnd := (completeText newline content).length
  let records := if completeEnd = 0 then [] else content.take (completeEnd - 1)
  if !(records.splitOn newline).all (fun line => !line.isEmpty && isJsonObject rt line) then
    .error .corrupt
  else
    let tail := content.drop completeEnd
    if tail.isEmpty then .ok none
    else if !validUtf8 tail then .error .corrupt
    else if (rt.fromSlice tail).isSome then .error .corrupt
    else .ok (some completeEnd)

/-- `File::set_len`, which also sets the time of modification. -/
def truncateFile (path : Path) (length : ℕ) (stamp : Instant) (disk : Disk) : Disk :=
  match disk.files.lookup path with
  | some file => disk.setFiles (disk.files.insert path ⟨file.content.take length, stamp⟩)
  | none => disk

/-- `recover_tail` of a path that exists. -/
def recoverTail (stamp : Instant) (path : Path) : DiskProgram Unit := do
  let file ← Program.read (fun disk => disk.files.lookup path)
  match file with
  | none => pure ()
  | some file =>
      match checkTail rt file.content with
      | .error error => Program.raise error
      | .ok none => pure ()
      | .ok (some completeEnd) => do
          Program.step (.truncate path) (truncateFile path completeEnd stamp)
          Program.step .sync id

/-! ## The whole log

The three parts of `recover_tails` in their order.  Files are checked from the active file upwards,
and each is cut before the next is checked. -/

/-- The files that tail recovery checks, in order. -/
def logPaths (maxRotatedFiles : ℕ) : List Path := .active :: (indices maxRotatedFiles).map .backup

/-- The part of `recover_tails` that carries on an interrupted rotation. -/
def recoverPending : DiskProgram Unit := do
  let manifestExists ← Program.read (fun disk => disk.manifest.isSome)
  if manifestExists then recoverManifest writeManifestAtomically else pure ()

/-- The part of `recover_tails` that refuses leftovers of rotations. -/
def refuseLeftovers : DiskProgram Unit := do
  let entry ← Program.read Disk.hasRotationEntry
  if entry then Program.raise .recoveryFailed else pure ()

/-- `recover_tails`; `stamp` is the time of the file system. A file is cut as soon as it has been
checked, so a later file that is refused leaves the earlier ones cut. -/
def recoverTails (maxRotatedFiles : ℕ) (stamp : Instant) : DiskProgram Unit := do
  recoverPending
  refuseLeftovers
  Program.forEach (recoverTail rt stamp) (logPaths maxRotatedFiles)

end

end HpGuardian

import HpGuardian.Audit.Tails
import HpGuardian.Framework.Runs

/-!
# Appending to an audit log (`src/audit.rs`)

An append readies the log, removes expired backups, rotates if a limit is reached, and writes the
encoded record byte by byte.  The state of a process holds the directory, the number of clock
readings taken so far, and the flags the process keeps in memory: whether it was closed, has the
lease, and has recovered its log.  Only the directory survives when the process is killed.

Time enters through readings of a clock, one after the other, and a reading is not a step: the
process cannot be interrupted by it.  A call reads the clock for each backup that it looks at, for
the age of the active file, and for the write; the time of a file that is truncated comes from the
file system and is taken to be the next reading, which stays unread.

Every system call that changes the directory is a step of the program, the write of a record one
for each byte.  A step can fail, by number (`AppendCall`), in which case `append` returns its error
at once, as `?` does in the source; nothing is undone.  `auditLog` is the process as a machine,
with one call of `append` as its input.  The runs of this machine are what the statements about
sequences of appends are about.

The lease is always granted here, since there is one process; the modules about handles have
several.
-/

namespace HpGuardian

open Framework

/-- The directory and what one process remembers about its log. The number of clock readings taken
so far is part of it, so that the next reading is determined by the state. -/
structure LogState where
  disk : Disk
  ticks : ℕ
  recoveryComplete : Bool
  closed : Bool
  lease : Bool

/-- A process that has just opened its log. -/
def LogState.fresh (disk : Disk) (ticks : ℕ) : LogState := ⟨disk, ticks, false, false, false⟩

/-- Replaces the directory. -/
def LogState.setDisk (disk : Disk) (state : LogState) : LogState := { state with disk := disk }

/-- A program of the process. -/
abbrev LogProgram (α : Type) := Program LogState Operation AuditError α

/-- A program on the directory alone. -/
def onDisk {α : Type} (p : DiskProgram α) : LogProgram α :=
  Program.zoom LogState.disk LogState.setDisk p

section

variable (config : ValidConfig) (clock : ℕ → Instant) (rt : JsonRuntime)

/-- The next reading of the clock. -/
def readClock : LogProgram Instant := do
  let reading ← Program.read (fun state => clock state.ticks)
  Program.modify (fun state => { state with ticks := state.ticks + 1 })
  pure reading

/-- `ensure_ready`.  A file that is truncated gets its time from the file system, which is taken to
be the next reading of the clock; the source does not read it there, so it stays the next one. -/
def ensureReady : LogProgram Unit := do
  let closed ← Program.read LogState.closed
  if closed then
    Program.raise .closed
  else do
    Program.modify (fun state => { state with lease := true })
    let complete ← Program.read LogState.recoveryComplete
    Program.modify (fun state => { state with recoveryComplete := true })
    if complete then
      pure ()
    else do
      let stamp ← Program.read (fun state => clock state.ticks)
      Program.onFailure (onDisk (recoverTails rt config.maxRotatedFiles stamp))
        (fun state => { state with recoveryComplete := false })

/-- One backup of `prune_expired_backups`. -/
def pruneBackup (maxAge : ℤ) (index : ℕ) : LogProgram Unit := do
  let backup ← Program.read (fun state => state.disk.files.lookup (.backup index))
  match backup with
  | none => pure ()
  | some file => do
      let now ← readClock clock
      if maxAge ≤ now - file.modified then do
        Program.step (.remove (.backup index))
          (fun state =>
            state.setDisk (state.disk.setFiles (state.disk.files.erase (.backup index))))
        Program.step .sync id
      else
        pure ()

/-- `prune_expired_backups`. -/
def pruneExpiredBackups : LogProgram Unit :=
  match config.maxAge with
  | none => pure ()
  | some maxAge => Program.forEach (pruneBackup clock maxAge) (indices config.maxRotatedFiles)

/-- The record does not fit; a file's length stays far below `u64::MAX`, where the saturating
sum would differ from the sum. -/
def sizeExceeded (file : FileData) (nextRecordBytes : ℕ) : Bool :=
  config.maxBytes.any (fun limit => limit < file.content.length + nextRecordBytes)

/-- The active file has reached its age; the clock is read only if there is an age limit. -/
def ageExceeded (file : FileData) : LogProgram Bool :=
  match config.maxAge with
  | none => pure false
  | some limit => do
      let now ← readClock clock
      pure (decide (limit ≤ now - file.modified))

/-- `rotate_before_append`. -/
def rotateBeforeAppend (nanos nextRecordBytes : ℕ) : LogProgram Unit := do
  let active ← Program.read (fun state => state.disk.files.lookup .active)
  match active with
  | none => pure ()
  | some file => do
      let aged ← ageExceeded config clock file
      if !file.content.isEmpty && (sizeExceeded config file nextRecordBytes || aged) then do
        onDisk (rotateCurrent writeManifestAtomically config.maxRotatedFiles nanos)
        pruneExpiredBackups config clock
      else
        pure ()

/-- Creates the active file if it is absent. -/
def createActive (stamp : Instant) (state : LogState) : LogState :=
  match state.disk.files.lookup .active with
  | some _ => state
  | none => state.setDisk (state.disk.setFiles (state.disk.files.insert .active ⟨[], stamp⟩))

/-- `open_append`. -/
def openActive (stamp : Instant) : LogProgram Unit := do
  let activeExists ← Program.read (fun state => (state.disk.files.lookup .active).isSome)
  if activeExists then pure () else Program.step (.create .active) (createActive stamp)

/-- One more byte in the active file. -/
def writeByte (stamp : Instant) (byte : UInt8) (state : LogState) : LogState :=
  match state.disk.files.lookup .active with
  | some file =>
      state.setDisk (state.disk.setFiles
        (state.disk.files.insert .active ⟨file.content ++ [byte], stamp⟩))
  | none => state

/-- The rest of `append`: opens the active file, writes the encoded record and syncs.  The time
of the write is a reading of the clock. -/
def writeRecord (encoded : Bytes) : LogProgram Unit := do
  let stamp ← readClock clock
  openActive stamp
  Program.forEach (fun byte => Program.step (.write .active) (writeByte stamp byte)) encoded
  Program.step .sync id
  Program.step .sync id

/-- The line of a record. -/
def encodedLine (record : AuditRecord) : Bytes := rt.toVec record ++ [newline]

/-- What `append` does before it opens the active file. -/
def prepareAppend (nanos nextRecordBytes : ℕ) : LogProgram Unit := do
  ensureReady config clock rt
  pruneExpiredBackups config clock
  rotateBeforeAppend config clock nanos nextRecordBytes

/-- `AuditLog::append`; a rotation takes its transaction id from `nanos`. -/
def append (record : AuditRecord) (nanos : ℕ) : LogProgram Unit := do
  let encoded := encodedLine rt record
  prepareAppend config clock rt nanos encoded.length
  writeRecord clock encoded

/-! ## Runs

Calls with their failures, and the machine. -/

/-- The error of a file-system call that fails. -/
def ioError : AuditError := .io "input/output error"

/-- One call of `append`, and the number of the step at which a file-system call of it fails, if
one does. -/
structure AppendCall where
  record : AuditRecord
  nanos : ℕ
  fault : Option ℕ

/-- What a call did: its steps, with the state before each, and its result. -/
structure AppendOutcome where
  steps : List (LogState × Operation)
  result : Except AuditError Unit

/-- The process as a machine. -/
def auditLog : Machine LogState AppendCall AppendOutcome where
  step state call :=
    let run := Program.failingAt call.fault ioError (append config clock rt call.record call.nanos)
      state
    (run.final, ⟨run.steps, run.result⟩)

end

end HpGuardian

import HpGuardian.Audit.Log
import HpGuardian.Framework.Mirrors
import HpGuardian.Python.Rotation

/-!
# Appending in Python (`src/hp_guard/audit.py`)

An append of the Python log encodes its record first, readies the log, removes expired backups,
rotates if a limit is reached, and writes the line.  It reads the clock once for all backups, and
an age limit applies to an empty active file as well; it rotates only if there is an active file at
all.  In these points it differs from the append of the Rust log.

The age of a file is the time since `datetime.fromtimestamp(st_mtime)`.  The float `st_mtime` is
rounded to microseconds there, so a file may count as older or younger than it is; only a time in
whole microseconds comes through unchanged.  `FileTimes` keeps the rounding as a parameter with
this one law.  The clock's readings are datetimes and thus in whole microseconds themselves.

The state of a process and the file system are those of the Rust log, so that a process of either
runtime can be put on the same directory.  A file that is truncated gets its time from the file
system, taken to be the next reading of the clock here as there.
-/

namespace HpGuardian.Python

open Framework

/-- A time in whole microseconds, between 1970 and 2106. For such times `datetime.fromtimestamp`
finds the very microsecond; of other times nothing is assumed. -/
def InMicroseconds (time : Instant) : Prop :=
  1000 ∣ time ∧ 0 ≤ time ∧ time < 2 ^ 32 * 10 ^ 9

instance : DecidablePred InMicroseconds := fun time =>
  inferInstanceAs (Decidable (1000 ∣ time ∧ 0 ≤ time ∧ time < 2 ^ 32 * 10 ^ 9))

/-- How the time of a file arrives: `datetime.fromtimestamp` of the float `st_mtime`. In this range
the float is less than half a microsecond off, so whole microseconds are found again. Nothing else
is assumed of the rounding. -/
structure FileTimes where
  fromTimestamp : Instant → Instant
  inMicroseconds : ∀ time, InMicroseconds time → fromTimestamp time = time

/-- A program of the process. -/
abbrev LogProgram (α : Type) := Program LogState Operation ManifestError α

/-- A program on the directory alone. -/
def onDisk {α : Type} (p : DiskProgram α) : LogProgram α :=
  Program.zoom LogState.disk LogState.setDisk p

/-- The part of `_recover_tails` that carries on an interrupted rotation. -/
def recoverInterrupted (rt : JsonRuntime) (table : AlnumTable) (dumps : Json → Bytes) :
    DiskProgram Unit := do
  let manifestExists ← Program.read (fun disk => disk.manifest.isSome)
  if manifestExists then recoverManifest rt table dumps else pure ()

section

variable (config : ValidConfig) (clock : ℕ → Instant) (rt : JsonRuntime) (table : AlnumTable)
  (dumps : Json → Bytes) (times : FileTimes) (log : String)

/-- The next reading of the clock. -/
def readClock : LogProgram Instant := do
  let reading ← Program.read (fun state => clock state.ticks)
  Program.modify (fun state => { state with ticks := state.ticks + 1 })
  pure reading

/-- `_ensure_ready`.  The time of a truncated file is the next reading of the clock, as in the Rust
runtime. -/
def ensureReady : LogProgram Unit := do
  let closed ← Program.read LogState.closed
  if closed then
    Program.raise (.auditError ⟨"audit_closed", "audit log is closed"⟩)
  else do
    Program.modify (fun state => { state with lease := true })
    let complete ← Program.read LogState.recoveryComplete
    if complete then
      pure ()
    else do
      let stamp ← Program.read (fun state => clock state.ticks)
      onDisk (recoverInterrupted rt table dumps)
      onDisk (Program.mapError .auditError (recoverTails rt log (pure ()) stamp))
      Program.modify (fun state => { state with recoveryComplete := true })

/-- One backup of `_prune_expired_rotated_files`. -/
def pruneRotatedFile (maxAge : ℤ) (now : Instant) (index : ℕ) : LogProgram Unit := do
  let rotated ← Program.read (fun state => state.disk.files.lookup (.backup index))
  match rotated with
  | none => pure ()
  | some file =>
      if maxAge ≤ now - times.fromTimestamp file.modified then do
        Program.step (.remove (.backup index))
          (fun state =>
            state.setDisk (state.disk.setFiles (state.disk.files.erase (.backup index))))
        Program.step .sync id
      else
        pure ()

/-- `_prune_expired_rotated_files`. -/
def pruneExpiredRotatedFiles : LogProgram Unit :=
  match config.maxAge with
  | none => pure ()
  | some maxAge => do
      let now ← readClock clock
      Program.forEach (pruneRotatedFile times maxAge now) (indices config.maxRotatedFiles)

/-- `_should_rotate`; the clock is read only if the size does not decide. -/
def shouldRotate (lineSize : ℕ) : LogProgram Bool := do
  let metadata ← Program.read (fun state => state.disk.files.lookup .active)
  match metadata with
  | none => pure false
  | some file =>
      if config.maxBytes.any (fun limit =>
          0 < file.content.length && limit < file.content.length + lineSize) then
        pure true
      else
        match config.maxAge with
        | none => pure false
        | some maxAge => do
            let now ← readClock clock
            pure (decide (maxAge ≤ now - times.fromTimestamp file.modified))

/-- What `append` does once the log is ready, before it writes the line. -/
def makeWay (random lineSize : ℕ) : LogProgram Unit := do
  pruneExpiredRotatedFiles config clock times
  let due ← shouldRotate config clock times lineSize
  if due then do
    onDisk (rotate rt table dumps config.maxRotatedFiles random)
    pruneExpiredRotatedFiles config clock times
  else
    pure ()

/-- `os.open` with `O_CREAT`. -/
def openActive (stamp : Instant) : LogProgram Unit := do
  let activeExists ← Program.read (fun state => (state.disk.files.lookup .active).isSome)
  if activeExists then pure () else Program.step (.create .active) (createActive stamp)

/-- `_append_line`. -/
def appendLine (line : Bytes) : LogProgram Unit := do
  let stamp ← readClock clock
  openActive stamp
  Program.forEach (fun byte => Program.step (.write .active) (writeByte stamp byte)) line
  Program.step .sync id
  Program.step .sync id

/-- `append` of a record that `json.dumps` has encoded as `payload`; a rotation takes its
transaction id from `random`. -/
def append (payload : Bytes) (random : ℕ) : LogProgram Unit := do
  let line := payload ++ [newline]
  ensureReady clock rt table dumps log
  makeWay config clock rt table dumps times random line.length
  appendLine clock line

end

end HpGuardian.Python

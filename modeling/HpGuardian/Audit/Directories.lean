import HpGuardian.Audit.FailedRecovery
import HpGuardian.Framework.Mirrors
import Std.Data.String.ToNat

/-!
# Tail recovery by the names of the entries (`src/audit.rs`)

The recovery of a log works on a directory of the operating system: its entries have names, and an
entry is a regular file or something else, such as a symbolic link or another directory.  Here the
directory is exactly that, a map from names to entries, and `recover_tails` is read with all its
checks: it refuses a log whose path names no directory, any entry whose name starts with
`{name}.rotation.`, and any entry in the place of a file of the log that is no regular file.

Names are text.  The log's path is `parent ++ name`, where `parent` is empty or ends with a
separator; the texts of errors contain the path.  What `recover_manifest` does is a parameter, since
it runs only when there is a manifest.

The other modules work on a `Disk`, which has the same files under the paths of the log instead of
under their names, and all of them regular.  `Holds` says when a directory holds the files of a disk
at rest, and `recoverTails_holds` that recovery then does the same in both.
-/

namespace HpGuardian

open Framework

/-- An entry of a directory, as far as `symlink_metadata` tells entries apart: a regular file with
its content, a symbolic link, or anything else. -/
inductive DirectoryEntry where
  | file (file : FileData)
  | symlink
  /-- a directory, a device, a pipe or a socket -/
  | special
  deriving DecidableEq, Repr

/-- A directory: its entries by name. -/
abbrev Directory := Files String DirectoryEntry

/-- The steps of tail recovery. -/
inductive TailOperation where
  | truncate (entry : String)
  | sync
  deriving DecidableEq, Repr

/-! ## Recovery of a disk by a check -/

/-- Tail recovery of one slot of a disk, by a check of its content. -/
def recoverBy {ε : Type} (check : Path → Bytes → Except ε (Option ℕ)) (stamp : Instant)
    (path : Path) : Program Disk Operation ε Unit := do
  let file ← Program.read (fun disk => disk.files.lookup path)
  match file with
  | none => pure ()
  | some file =>
      match check path file.content with
      | .error error => Program.raise error
      | .ok none => pure ()
      | .ok (some length) => do
          Program.step (.truncate path) (truncateFile path length stamp)
          Program.step .sync id

theorem recoverTail_eq_recoverBy (rt : JsonRuntime) (stamp : Instant) :
    recoverTail rt stamp = recoverBy (fun _ => checkTail rt) stamp := by
  funext path disk
  unfold recoverTail recoverBy
  rw [Program.read_bind_apply, Program.read_bind_apply]
  cases disk.files.lookup path with
  | none => rfl
  | some file =>
      cases hcheck : checkTail rt file.content with
      | error error => simp only [hcheck]
      | ok cut => cases cut <;> simp only [hcheck]

/-! ## Recovery of a directory -/

namespace Directory

/-- A program on the directory. -/
abbrev RecoveryProgram (α : Type) := Program Directory TailOperation AuditError α

/-- The entry has a name that starts with `{name}.rotation.`. -/
def isRotationName (name entry : String) : Bool :=
  decide ((name ++ ".rotation.").toList <+: entry.toList)

/-- The directory has an entry whose name starts with `{name}.rotation.`. -/
def hasRotationEntry (name : String) (directory : Directory) : Bool :=
  decide (∃ entry ∈ directory.keys, isRotationName name entry = true)

/-- The name of a slot. -/
def slotName (name : String) : Slot → String
  | .active => name
  | .backup index => name ++ "." ++ toString index

/-- The names of the files that tail recovery checks, in order. -/
def logNames (name : String) (maxRotatedFiles : ℕ) : List String :=
  name :: (indices maxRotatedFiles).map (fun index => slotName name (.backup index))

section

variable (rt : JsonRuntime) (parent name : String)

/-- The error of `validate_regular_or_absent`. -/
def irregularError (entry : String) : DirectoryEntry → AuditError
  | .symlink => .io ("refusing symlinked audit path: " ++ parent ++ entry)
  | _ => .io ("refusing non-regular audit path: " ++ parent ++ entry)

/-- `validate_regular_or_absent`. -/
def validateRegularOrAbsent (entry : String) : RecoveryProgram Unit := do
  let metadata ← Program.read (fun directory => directory.lookup entry)
  match metadata with
  | none => pure ()
  | some (.file _) => pure ()
  | some irregular => Program.raise (irregularError parent entry irregular)

/-- `File::set_len`, which also sets the time of modification. -/
def truncateEntry (entry : String) (length : ℕ) (stamp : Instant) (directory : Directory) :
    Directory :=
  match directory.lookup entry with
  | some (.file file) => directory.insert entry (.file ⟨file.content.take length, stamp⟩)
  | _ => directory

/-- One round of the loop of `recover_tails`: `recover_tail` of a path that exists. -/
def recoverTail (stamp : Instant) (entry : String) : RecoveryProgram Unit := do
  validateRegularOrAbsent parent entry
  let found ← Program.read (fun directory => directory.lookup entry)
  match found with
  | some (.file file) =>
      match checkTail rt file.content with
      | .error error => Program.raise error
      | .ok none => pure ()
      | .ok (some completeEnd) => do
          Program.step (.truncate entry) (truncateEntry entry completeEnd stamp)
          Program.step .sync id
  | _ => pure ()

variable (recoverManifest : RecoveryProgram Unit)

/-- The part of `recover_tails` that carries on an interrupted rotation. -/
def recoverPending : RecoveryProgram Unit := do
  let manifest := name ++ ".rotation.json"
  validateRegularOrAbsent parent manifest
  let manifestExists ← Program.read (fun directory => (directory.lookup manifest).isSome)
  if manifestExists then recoverManifest else pure ()

/-- The part of `recover_tails` that refuses leftovers of rotations.  The parent of a path without
a separator is the empty path, which cannot be opened. -/
def refuseLeftovers : RecoveryProgram Unit :=
  if parent = "" then Program.raise (.io "No such file or directory (os error 2)")
  else do
    let entry ← Program.read (hasRotationEntry name)
    if entry then Program.raise .recoveryFailed else pure ()

/-- `recover_tails`; `stamp` is the time of the file system. -/
def recoverTails (maxRotatedFiles : ℕ) (stamp : Instant) : RecoveryProgram Unit := do
  recoverPending parent name recoverManifest
  refuseLeftovers parent name
  Program.forEach (recoverTail rt parent stamp) (logNames name maxRotatedFiles)

end

/-! ## Recovery by a check

What the two runtimes do with one file differs in the check of its content only, and in the error
for an entry that is no regular file. -/

section

variable {ε : Type} (refusal : String → DirectoryEntry → ε)

/-- Tail recovery of one entry of a directory, by a check of its content. -/
def recoverEntryBy (check : String → Bytes → Except ε (Option ℕ)) (stamp : Instant)
    (entry : String) : Program Directory TailOperation ε Unit := do
  let found ← Program.read (fun directory => directory.lookup entry)
  match found with
  | none => pure ()
  | some (.file file) =>
      match check entry file.content with
      | .error error => Program.raise error
      | .ok none => pure ()
      | .ok (some length) => do
          Program.step (.truncate entry) (truncateEntry entry length stamp)
          Program.step .sync id
  | some irregular => Program.raise (refusal entry irregular)

end

section

variable {ε : Type} {refusal : String → DirectoryEntry → ε}
  {check : String → Bytes → Except ε (Option ℕ)} {stamp : Instant} {entry : String}
  {directory : Directory}

theorem recoverEntryBy_of_none (h : directory.lookup entry = none) :
    recoverEntryBy refusal check stamp entry directory = ⟨[], directory, .ok ()⟩ := by
  rw [recoverEntryBy, Program.read_bind_apply, h]
  rfl

theorem recoverEntryBy_of_file {file : FileData} (h : directory.lookup entry = some (.file file)) :
    recoverEntryBy refusal check stamp entry directory =
      match check entry file.content with
      | .error error => ⟨[], directory, .error error⟩
      | .ok none => ⟨[], directory, .ok ()⟩
      | .ok (some length) =>
          ⟨[(directory, .truncate entry), (truncateEntry entry length stamp directory, .sync)],
            truncateEntry entry length stamp directory, .ok ()⟩ := by
  rw [recoverEntryBy, Program.read_bind_apply, h]
  dsimp only
  cases check entry file.content with
  | error error => rfl
  | ok cut => cases cut <;> rfl

theorem recoverEntryBy_of_irregular {found : DirectoryEntry}
    (h : directory.lookup entry = some found)
    (hirregular : ∀ file, found ≠ .file file) :
    recoverEntryBy refusal check stamp entry directory =
      ⟨[], directory, .error (refusal entry found)⟩ := by
  rw [recoverEntryBy, Program.read_bind_apply, h]
  cases found with
  | file file => exact absurd rfl (hirregular file)
  | symlink => rfl
  | special => rfl

end

theorem validateRegularOrAbsent_apply (parent entry : String) (directory : Directory) :
    validateRegularOrAbsent parent entry directory =
      match directory.lookup entry with
      | none => ⟨[], directory, .ok ()⟩
      | some (.file _) => ⟨[], directory, .ok ()⟩
      | some irregular => ⟨[], directory, .error (irregularError parent entry irregular)⟩ := by
  rw [validateRegularOrAbsent, Program.read_bind_apply]
  cases directory.lookup entry with
  | none => rfl
  | some found => cases found <;> rfl

theorem recoverTail_eq_recoverEntryBy (rt : JsonRuntime) (parent : String) (stamp : Instant) :
    recoverTail rt parent stamp =
      recoverEntryBy (irregularError parent) (fun _ => checkTail rt) stamp := by
  funext entry directory
  have hregular := validateRegularOrAbsent_apply parent entry directory
  rw [recoverTail]
  cases hfound : directory.lookup entry with
  | none =>
      rw [hfound] at hregular
      rw [Program.bind_run hregular, Program.read_bind_apply, hfound, recoverEntryBy_of_none hfound]
      rfl
  | some found =>
      rw [hfound] at hregular
      cases found with
      | file file =>
          rw [Program.bind_run hregular, Program.read_bind_apply, hfound,
            recoverEntryBy_of_file hfound]
          cases hcheck : checkTail rt file.content with
          | error error => simp only [hcheck]; rfl
          | ok cut => cases cut <;> simp only [hcheck] <;> rfl
      | symlink =>
          rw [recoverEntryBy_of_irregular hfound (by simp), Program.bind_error (by rw [hregular]),
            hregular]
      | special =>
          rw [recoverEntryBy_of_irregular hfound (by simp), Program.bind_error (by rw [hregular]),
            hregular]

/-! ## A log at rest

Without an entry of a rotation, recovery is the check of the files, one after the other. -/

section

variable {rt : JsonRuntime} {parent name : String} {recoverManifest : RecoveryProgram Unit}
  {directory : Directory}

theorem hasRotationEntry_eq_false_iff :
    hasRotationEntry name directory = false ↔
      ∀ entry, isRotationName name entry = true → directory.lookup entry = none := by
  simp only [hasRotationEntry, decide_eq_false_iff_not, not_exists, not_and, Finmap.mem_keys]
  refine forall_congr' fun entry => ?_
  rw [Finmap.lookup_eq_none]
  exact ⟨fun h hrotation hmem => h hmem hrotation, fun h hmem hrotation => h hrotation hmem⟩

theorem isRotationName_append (suffix : String) :
    isRotationName name (name ++ ".rotation." ++ suffix) = true := by
  rw [isRotationName, decide_eq_true_eq,
    @String.toList_append (name ++ ".rotation.") suffix]
  exact List.prefix_append _ _

theorem lookup_manifest_eq_none (hquiet : hasRotationEntry name directory = false) :
    directory.lookup (name ++ ".rotation.json") = none := by
  refine hasRotationEntry_eq_false_iff.1 hquiet _ ?_
  have hname : name ++ ".rotation.json" = name ++ ".rotation." ++ "json" := by
    rw [String.append_assoc]
    rfl
  rw [hname]
  exact isRotationName_append "json"

theorem recoverPending_quiet (hquiet : hasRotationEntry name directory = false) :
    recoverPending parent name recoverManifest directory = ⟨[], directory, .ok ()⟩ := by
  have hnone := lookup_manifest_eq_none hquiet
  have hregular : validateRegularOrAbsent parent (name ++ ".rotation.json") directory =
      ⟨[], directory, .ok ()⟩ := by
    rw [validateRegularOrAbsent_apply, hnone]
  rw [recoverPending, Program.bind_run hregular, Program.read_bind_apply, hnone]
  rfl

/-- Without rotation entries, recovery checks the files. -/
theorem recoverTails_apply (hparent : parent ≠ "")
    (hquiet : hasRotationEntry name directory = false) (maxRotatedFiles : ℕ) (stamp : Instant) :
    recoverTails rt parent name recoverManifest maxRotatedFiles stamp directory =
      Program.forEach (recoverTail rt parent stamp) (logNames name maxRotatedFiles) directory := by
  have hleftovers : refuseLeftovers parent name directory = ⟨[], directory, .ok ()⟩ := by
    rw [refuseLeftovers, if_neg hparent, Program.read_bind_apply, hquiet]
    rfl
  rw [recoverTails, Program.bind_run (recoverPending_quiet hquiet), Program.bind_run hleftovers]
  rfl

theorem recoverTails_no_parent (hquiet : hasRotationEntry name directory = false)
    (maxRotatedFiles : ℕ) (stamp : Instant) :
    (recoverTails rt "" name recoverManifest maxRotatedFiles stamp directory).result =
      .error (.io "No such file or directory (os error 2)") := by
  have hleftovers : (refuseLeftovers "" name directory).result =
      .error (.io "No such file or directory (os error 2)") := by
    rw [refuseLeftovers, if_pos rfl]
    rfl
  rw [recoverTails, Program.bind_run (recoverPending_quiet hquiet),
    Program.bind_error hleftovers]

end

/-! ## The directory of a disk

The names of the slots are distinct, so a disk at rest is a directory.  The two recoveries go
through the same files in the same order and end together. -/

theorem slotName_injective (name : String) : Function.Injective (slotName name) := by
  have hbackup : ∀ index, (slotName name (.backup index)).toList =
      name.toList ++ '.' :: index.repr.toList := by
    intro index
    rw [slotName, String.toList_append, String.toList_append, List.append_assoc]
    rfl
  have hactive : ∀ index, slotName name .active ≠ slotName name (.backup index) := by
    intro index h
    have hlist := congrArg String.toList h
    rw [hbackup] at hlist
    exact absurd (List.append_right_eq_self.1 hlist.symm) (List.cons_ne_nil _ _)
  intro slot slot' h
  cases slot with
  | active =>
      cases slot' with
      | active => rfl
      | backup index => exact absurd h (hactive index)
  | backup index =>
      cases slot' with
      | active => exact absurd h.symm (hactive index)
      | backup index' =>
          have hlist := congrArg String.toList h
          rw [hbackup, hbackup, List.append_cancel_left_eq, List.cons.injEq] at hlist
          rw [Nat.repr_injective (String.toList_injective hlist.2)]

/-- The directory holds the files of a log at rest, each under the name of its slot. It may hold
other entries, as long as none of them looks like one of a rotation. -/
structure Holds (name : String) (disk : Disk) (directory : Directory) : Prop where
  diskQuiet : disk.hasRotationEntry = false
  quiet : hasRotationEntry name directory = false
  slots : ∀ slot : Slot, directory.lookup (slotName name slot) =
    (disk.files.lookup slot.path).map .file

theorem lookup_truncateEntry {directory : Directory} {entry : String} {file : FileData}
    (hfile : directory.lookup entry = some (.file file)) (length : ℕ) (stamp : Instant)
    (entry' : String) :
    (truncateEntry entry length stamp directory).lookup entry' =
      if entry' = entry then some (.file ⟨file.content.take length, stamp⟩)
      else directory.lookup entry' := by
  simp only [truncateEntry, hfile]
  by_cases hentry : entry' = entry
  · subst hentry
    simp
  · rw [Finmap.lookup_insert_of_ne _ hentry, if_neg hentry]

section

variable {ε ε' : Type} {name : String} {disk : Disk} {directory : Directory}

theorem Holds.truncate (h : Holds name disk directory) {slot : Slot} {file : FileData}
    (hfile : disk.files.lookup slot.path = some file) (length : ℕ) (stamp : Instant) :
    Holds name (truncateFile slot.path length stamp disk)
      (truncateEntry (slotName name slot) length stamp directory) := by
  have hentry : directory.lookup (slotName name slot) = some (.file file) := by
    rw [h.slots, hfile, Option.map_some]
  have hpath : ∀ slot' : Slot, slot'.path = slot.path ↔ slot' = slot := by
    intro slot'
    cases slot' <;> cases slot <;> simp [Slot.path]
  constructor
  · obtain ⟨hmanifest, hfiles⟩ := Disk.hasRotationEntry_eq_false_iff.1 h.diskQuiet
    refine Disk.hasRotationEntry_eq_false_iff.2 ⟨?_, fun path hrotation => ?_⟩
    · rw [truncateFile_manifest, hmanifest]
    · rw [lookup_truncateFile length stamp hfile, if_neg, hfiles path hrotation]
      rintro rfl
      cases slot <;> cases hrotation
  · have hnone := hasRotationEntry_eq_false_iff.1 h.quiet
    refine hasRotationEntry_eq_false_iff.2 fun entry hrotation => ?_
    rw [lookup_truncateEntry hentry, if_neg, hnone entry hrotation]
    rintro rfl
    rw [hnone _ hrotation] at hentry
    cases hentry
  · intro slot'
    rw [lookup_truncateEntry hentry, lookup_truncateFile length stamp hfile, h.slots]
    simp only [hpath, (slotName_injective name).eq_iff]
    split_ifs <;> rfl

/-- A check of a slot by its path does what a check of the slot by its name does. -/
theorem recoverBy_endsTogether {check : Path → Bytes → Except ε (Option ℕ)}
    {check' : String → Bytes → Except ε' (Option ℕ)} {translate : ε → ε'} {slot : Slot}
    (hcheck : ∀ content, check' (slotName name slot) content =
      (check slot.path content).mapError translate)
    (refusal : String → DirectoryEntry → ε') (stamp : Instant) :
    Program.EndsTogether (Holds name) translate (recoverBy check stamp slot.path)
      (recoverEntryBy refusal check' stamp (slotName name slot)) := by
  intro disk directory h
  have hentry := h.slots slot
  rw [recoverBy, Program.read_bind_apply]
  cases hfile : disk.files.lookup slot.path with
  | none =>
      rw [hfile, Option.map_none] at hentry
      rw [recoverEntryBy_of_none hentry]
      exact ⟨rfl, h⟩
  | some file =>
      rw [hfile, Option.map_some] at hentry
      rw [recoverEntryBy_of_file hentry, hcheck]
      cases hresult : check slot.path file.content with
      | error error =>
          simp only [hresult]
          exact ⟨rfl, h⟩
      | ok cut =>
          cases cut with
          | none =>
              simp only [hresult]
              exact ⟨rfl, h⟩
          | some length =>
              simp only [hresult]
              exact ⟨rfl, h.truncate hfile length stamp⟩

theorem mapError_id {α : Type} (result : Except ε α) : result.mapError id = result := by
  cases result <;> rfl

theorem logPaths_eq_map (maxRotatedFiles : ℕ) :
    logPaths maxRotatedFiles = (slots maxRotatedFiles).map Slot.path := by
  simp [logPaths, slots, Slot.path, Function.comp_def]

theorem logNames_eq_map (name : String) (maxRotatedFiles : ℕ) :
    logNames name maxRotatedFiles = (slots maxRotatedFiles).map (slotName name) := by
  simp [logNames, slots, slotName, Function.comp_def]

/-- **Recovery by name.** On a directory that holds the files of a disk at rest, recovery does what
it does on the disk: it ends with the same result, in the directory that holds the disk's files. -/
theorem recoverTails_holds (rt : JsonRuntime) {parent : String} (hparent : parent ≠ "")
    (recoverManifest : RecoveryProgram Unit) (maxRotatedFiles : ℕ) (stamp : Instant)
    (h : Holds name disk directory) :
    (recoverTails rt parent name recoverManifest maxRotatedFiles stamp directory).result =
        (HpGuardian.recoverTails rt maxRotatedFiles stamp disk).result ∧
      Holds name (HpGuardian.recoverTails rt maxRotatedFiles stamp disk).final
        (recoverTails rt parent name recoverManifest maxRotatedFiles stamp directory).final := by
  have hround : ∀ slot : Slot, Program.EndsTogether (Holds name) id
      (recoverBy (fun _ => checkTail rt) stamp slot.path)
      (recoverEntryBy (irregularError parent) (fun _ => checkTail rt) stamp (slotName name slot)) :=
    fun slot => recoverBy_endsTogether (fun _ => (mapError_id _).symm) _ stamp
  have hloop := Program.EndsTogether.forEach (slotName name) hround (slots maxRotatedFiles)
    disk directory h
  rw [recoverTails_apply hparent h.quiet, HpGuardian.recoverTails_apply h.diskQuiet,
    logPaths_eq_map, Program.forEach_map, logNames_eq_map, recoverTail_eq_recoverEntryBy,
    recoverTail_eq_recoverBy]
  rwa [mapError_id] at hloop

end

end Directory

end HpGuardian

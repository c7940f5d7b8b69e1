import HpGuardian.Audit.Spec

/-!
# What an append makes of the layout of a log

Seen from outside, an append at one time maps the files of the log to files: backups that are too
old disappear, a rotation moves every file one slot further, and the active file grows by a line.
`afterAppend` is this map, for any rule that says which files are too old and when a rotation is
due; the append of the log carries it out with the rules `expired` and `dueBefore` (`append_ends`).

The map knows nothing of manifests, staging or the order of the operations.  It is what two logs
that rotate in different ways can have in common, and what they are compared by; the rules are
parameters because the two logs decide by their own, and are then compared on the rules alone.

At one time means that the clock stands still during the append.  Both logs read it more than once,
and a file may reach the age limit between two readings; what an append does then is the subject of
`Retention`.
-/

namespace HpGuardian

open Framework

/-- The log is ready for an append, there is no manifest, and the files are these. A state of a
process is seen as the layout of its directory. -/
structure Shows (contents : Contents) (state : LogState) : Prop where
  isOpen : state.closed = false
  recovered : state.recoveryComplete = true
  settled : state.disk.manifest = none
  files : ∀ path, state.disk.files.lookup path = contents path

/-- From `P` the program ends with a value in `Q`, whatever its steps. Where a program can be
stopped on the way is left aside. -/
abbrev Ends {ε : Type} (P : LogState → Prop) (p : Program LogState Operation ε Unit)
    (Q : LogState → Prop) : Prop :=
  Program.Triple P p (fun _ _ => True) (fun _ => Q) (fun _ _ => False)

/-! ## Layouts

The map, from its three parts: what is removed, when a rotation is due, and the line at the end. -/

section

variable (config : ValidConfig) (old : FileData → Bool) (now : Instant)

/-- The file has reached the age limit. -/
def expired (file : FileData) : Bool :=
  config.maxAge.any (fun maxAge => maxAge ≤ now - file.modified)

/-- The file if it is not too old. -/
def unlessExpired (file : Option FileData) : Option FileData :=
  file.filter (fun file => !old file)

/-- The layout without the backups that are too old. -/
def unexpired (contents : Contents) : Contents
  | .backup index =>
      if index ∈ indices config.maxRotatedFiles then unlessExpired old (contents (.backup index))
      else contents (.backup index)
  | path => contents path

/-- The layout with a line more in the active file. -/
def extended (line : Bytes) (contents : Contents) : Contents := fun path =>
  if path = .active then
    some ⟨((contents .active).map FileData.content).getD [] ++ line, now⟩
  else contents path

/-- The layout after an append, if a rotation is due for these active files. First the backups that
are too old disappear, then every file moves up if a rotation is due, and then the line is added,
to a new active file after a rotation. -/
def afterAppend (due : Option FileData → Bool) (line : Bytes) (contents : Contents) : Contents :=
  let kept := unexpired config old contents
  extended now line
    (if due (kept .active) then
      unexpired config old (rotatedContents config.maxRotatedFiles kept none)
    else kept)

/-- When `rotate_before_append` rotates. -/
def dueBefore (nextRecordBytes : ℕ) (active : Option FileData) : Bool :=
  active.any (fun file => !file.content.isEmpty &&
    (sizeExceeded config file nextRecordBytes || old file))

end

section

variable {config : ValidConfig} {old : FileData → Bool} {now : Instant} {contents : Contents}
  {state : LogState}

@[simp] theorem unlessExpired_none : unlessExpired old none = none := rfl

@[simp] theorem unlessExpired_some (file : FileData) :
    unlessExpired old (some file) = if old file then none else some file := by
  cases h : old file <;> simp [unlessExpired, Option.filter, h]

/-- What is young enough is so at a second look. -/
theorem unlessExpired_idem (file : Option FileData) :
    unlessExpired old (unlessExpired old file) = unlessExpired old file := by
  cases file with
  | none => rfl
  | some file => cases h : old file <;> simp [h]

theorem unexpired_subset {path : Path} {file : FileData}
    (h : file ∈ unexpired config old contents path) : file ∈ contents path := by
  cases path with
  | backup index =>
      simp only [unexpired] at h
      split at h
      · exact (Option.filter_eq_some_iff.1 h).1
      · exact h
  | _ => exact h

/-! ## Removing expired backups

`prune_expired_backups` is a loop over the backups.  Each round looks at one backup and removes it
or not, so the loop leaves the backups that are young enough, in whatever order it visits them. -/

/-- The layout without those among some backups that are too old. -/
def withoutExpired (old : FileData → Bool) (handled : ℕ → Prop) [DecidablePred handled]
    (contents : Contents) : Contents
  | .backup index =>
      if handled index then unlessExpired old (contents (.backup index))
      else contents (.backup index)
  | path => contents path

/-- What a round of a removing loop does to the backup with its number: it removes the backup if it
is too old and leaves everything else alone. -/
def PrunesOne {ε : Type} (old : FileData → Bool)
    (body : ℕ → Program LogState Operation ε Unit) : Prop :=
  ∀ index contents, Ends (Shows contents) (body index)
    (Shows (withoutExpired old (fun i => i = index) contents))

/-- A loop of such rounds removes the backups that are too old. -/
theorem PrunesOne.forEach {ε : Type} {body : ℕ → Program LogState Operation ε Unit}
    (hbody : PrunesOne old body) (contents : Contents) :
    Ends (Shows contents) (Program.forEach body (indices config.maxRotatedFiles))
      (Shows (unexpired config old contents)) := by
  have hnodup : (indices config.maxRotatedFiles).Nodup := List.nodup_range' 1 (by simp)
  -- the invariant: the backups whose turn is over are handled
  let handled (rest : List ℕ) := Shows (withoutExpired old
    (fun i => i ∈ indices config.maxRotatedFiles ∧ i ∉ rest) contents)
  have hloop : Ends (handled (indices config.maxRotatedFiles))
      (Program.forEach body (indices config.maxRotatedFiles)) (handled []) := by
    refine Program.Triple.forEach (I := handled) ?_
    rintro index rest ⟨done, hitems⟩
    refine (hbody index _).conseq (fun _ h => h) (fun _ _ h => h) (fun _ s h => ?_)
      (fun _ _ h => h)
    refine ⟨h.isOpen, h.recovered, h.settled, fun path => (h.files path).trans ?_⟩
    rw [hitems] at hnodup
    have hfresh : index ∉ rest := (List.nodup_cons.1 (List.nodup_append.1 hnodup).2.1).1
    cases path with
    | backup i =>
        by_cases hi : i = index
        · subst hi
          simp [withoutExpired, hitems, hfresh]
        · simp [withoutExpired, hi]
    | _ => rfl
  refine hloop.conseq (fun s h => ?_) (fun _ _ h => h) (fun _ s h => ?_) (fun _ _ h => h)
  · refine ⟨h.isOpen, h.recovered, h.settled, fun path => (h.files path).trans ?_⟩
    cases path <;> simp [withoutExpired]
  · refine ⟨h.isOpen, h.recovered, h.settled, fun path => (h.files path).trans ?_⟩
    cases path <;> simp [withoutExpired, unexpired]

/-- The state without a backup. -/
theorem Shows.eraseBackup {index : ℕ} {file : FileData} (h : Shows contents state)
    (hfile : contents (.backup index) = some file) (hexpired : old file = true) :
    Shows (withoutExpired old (fun i => i = index) contents)
      (state.setDisk (state.disk.setFiles (state.disk.files.erase (.backup index)))) := by
  refine ⟨h.isOpen, h.recovered, h.settled, fun path => ?_⟩
  by_cases hpath : path = .backup index
  · subst hpath
    simp [LogState.setDisk, withoutExpired, hfile, hexpired]
  · have hlookup : ((state.setDisk (state.disk.setFiles
        (state.disk.files.erase (.backup index)))).disk.files).lookup path =
        state.disk.files.lookup path := Finmap.lookup_erase_ne hpath
    rw [hlookup, h.files]
    cases path with
    | backup i =>
        have hi : i ≠ index := fun heq => hpath (by rw [heq])
        simp [withoutExpired, hi]
    | _ => rfl

/-- A backup that is absent or young enough stays as it is. -/
theorem withoutExpired_eq_self {index : ℕ}
    (h : unlessExpired old (contents (.backup index)) = contents (.backup index)) :
    withoutExpired old (fun i => i = index) contents = contents := by
  funext path
  cases path with
  | backup i =>
      by_cases hi : i = index
      · subst hi
        simpa [withoutExpired] using h
      · simp [withoutExpired, hi]
  | _ => rfl

theorem Shows.tick (h : Shows contents state) :
    Shows contents { state with ticks := state.ticks + 1 } :=
  ⟨h.isOpen, h.recovered, h.settled, h.files⟩

theorem pruneBackup_prunesOne {maxAge : ℤ} (hage : config.maxAge = some maxAge) :
    PrunesOne (expired config now) (pruneBackup (fun _ => now) maxAge) := by
  intro index contents state h
  have hexpired : ∀ file : FileData,
      expired config now file = decide (maxAge ≤ now - file.modified) := by
    intro file
    simp [expired, hage]
  simp only [pruneBackup, Program.read_bind_apply, h.files]
  cases hfile : contents (.backup index) with
  | none =>
      rw [withoutExpired_eq_self (by simp [hfile])]
      exact ⟨fun _ _ => trivial, h⟩
  | some file =>
      simp only [readClock, Program.bind_assoc_eq, Program.read_bind_apply,
        Program.modify_bind_apply, Program.pure_bind_eq]
      by_cases hold : maxAge ≤ now - file.modified
      · rw [if_pos hold]
        exact ⟨fun _ _ => trivial, h.tick.eraseBackup hfile (by simp [hexpired, hold])⟩
      · rw [if_neg hold, withoutExpired_eq_self (by
          simp [hfile, hexpired, hold])]
        exact ⟨fun _ _ => trivial, h.tick⟩

theorem unexpired_eq_self (hold : ∀ file, old file = false) (contents : Contents) :
    unexpired config old contents = contents := by
  funext path
  cases path with
  | backup index =>
      cases hfile : contents (.backup index) with
      | none => simp [unexpired, hfile]
      | some file => simp [unexpired, hfile, hold]
  | _ => rfl

/-- `prune_expired_backups` at one time. -/
theorem pruneExpiredBackups_ends (contents : Contents) :
    Ends (Shows contents) (pruneExpiredBackups config (fun _ => now))
      (Shows (unexpired config (expired config now) contents)) := by
  unfold pruneExpiredBackups
  cases hage : config.maxAge with
  | none =>
      rw [unexpired_eq_self fun file => by simp [expired, hage]]
      exact .pure fun _ h => h
  | some maxAge => exact (pruneBackup_prunesOne hage).forEach contents

/-! ## Rotating and writing

The remaining parts of an append, each with the part of the map it carries out, and the append as a
whole. -/

/-- A program on the directory that rotates it. -/
theorem ends_of_rotated {ε : Type} {p : Program Disk Operation ε Unit}
    (hrotates : ∀ disk : Disk, disk.manifest = none → (∀ path, disk.files.lookup path =
      contents path) → (p disk).result = .ok () ∧
        Rotated config.maxRotatedFiles contents none (p disk).final) :
    Ends (Shows contents) (Program.zoom LogState.disk LogState.setDisk p)
      (Shows (rotatedContents config.maxRotatedFiles contents none)) := by
  intro state h
  obtain ⟨hresult, hrotated⟩ := hrotates state.disk h.settled h.files
  refine ⟨fun _ _ => trivial, ?_⟩
  simp only [Program.zoom, hresult]
  exact ⟨h.isOpen, h.recovered, hrotated.settled, hrotated.files⟩

/-- A layout without files of a rotation. -/
def Quiet (contents : Contents) : Prop := ∀ path, path.isRotation = true → contents path = none

variable (config old) in
theorem Quiet.unexpired (h : Quiet contents) : Quiet (unexpired config old contents) := by
  intro path hpath
  cases path with
  | active => cases hpath
  | backup index => cases hpath
  | _ => exact h _ hpath

theorem rotateCurrent_ends (nanos : ℕ) (hquiet : Quiet contents)
    (hactive : (contents .active).isSome = true) :
    Ends (Shows contents)
      (onDisk (rotateCurrent writeManifestAtomically config.maxRotatedFiles nanos))
      (Shows (rotatedContents config.maxRotatedFiles contents none)) := by
  refine ends_of_rotated fun disk hsettled hfiles => ?_
  obtain rfl : disk.files.lookup = contents := funext hfiles
  obtain ⟨⟨⟩, hresult, hrotated⟩ := (rotateCurrent_triple nanos config.one_le_maxRotatedFiles
    hquiet hactive).exists_ok rfl
  exact ⟨hresult, hrotated⟩

theorem rotateBeforeAppend_ends (nanos nextRecordBytes : ℕ) (hquiet : Quiet contents) :
    Ends (Shows contents) (rotateBeforeAppend config (fun _ => now) nanos nextRecordBytes)
      (Shows (if dueBefore config (expired config now) nextRecordBytes (contents .active) then
        unexpired config (expired config now)
          (rotatedContents config.maxRotatedFiles contents none)
      else contents)) := by
  intro state h
  simp only [rotateBeforeAppend, Program.read_bind_apply, h.files]
  cases hactive : contents .active with
  | none => exact ⟨fun _ _ => trivial, h⟩
  | some file =>
      -- whether or not the clock is read, the log shows the same files
      obtain ⟨state', hage, h'⟩ : ∃ state', ageExceeded config (fun _ => now) file state =
          ⟨[], state', .ok (expired config now file)⟩ ∧ Shows contents state' := by
        cases hmax : config.maxAge with
        | none => exact ⟨state, by simp [ageExceeded, hmax, expired], h⟩
        | some limit =>
            refine ⟨{ state with ticks := state.ticks + 1 }, ?_, h.tick⟩
            simp only [ageExceeded, hmax, expired, Option.any_some]
            rfl
      dsimp only
      rw [Program.bind_run hage]
      have hdue : dueBefore config (expired config now) nextRecordBytes (some file) =
          (!file.content.isEmpty &&
            (sizeExceeded config file nextRecordBytes || expired config now file)) := rfl
      rw [hdue]
      by_cases hrotates : (!file.content.isEmpty &&
          (sizeExceeded config file nextRecordBytes || expired config now file)) = true
      · rw [if_pos hrotates, if_pos hrotates]
        exact (rotateCurrent_ends nanos hquiet (by simp [hactive])).bind
          (fun _ => pruneExpiredBackups_ends _) state' h'
      · rw [if_neg hrotates, if_neg hrotates]
        exact ⟨fun _ _ => trivial, h'⟩

theorem writeRecord_ends {line : Bytes} (hline : line ≠ []) (contents : Contents) :
    Ends (Shows contents) (writeRecord (fun _ => now) line)
      (Shows (extended now line contents)) := by
  intro state h
  rw [writeRecord_apply, afterBytes_eq _ hline]
  refine ⟨fun _ _ => trivial, h.isOpen, h.recovered, h.settled, fun path => ?_⟩
  by_cases hpath : path = .active
  · subst hpath
    have hcontent : activeContent state.disk =
        ((contents .active).map FileData.content).getD [] := by
      unfold activeContent
      rw [h.files]
      cases contents .active <;> rfl
    simp [withActive, LogState.setDisk, extended, hcontent]
  · have hlookup : (withActive (activeContent state.disk ++ line) now
        (writing state)).disk.files.lookup path = state.disk.files.lookup path :=
      Finmap.lookup_insert_of_ne _ hpath
    rw [hlookup, h.files, extended, if_neg hpath]

/-- Once the log is ready, an append at one time carries out the map of the layout. -/
theorem append_ends_of_ready {rt : JsonRuntime} {P : LogState → Prop} (record : AuditRecord)
    (nanos : ℕ) (hquiet : Quiet contents)
    (hready : Ends P (ensureReady config (fun _ => now) rt) (Shows contents)) :
    Ends P (append config (fun _ => now) rt record nanos)
      (Shows (afterAppend config (expired config now) now
        (dueBefore config (expired config now) (encodedLine rt record).length)
        (encodedLine rt record) contents)) := by
  have hline : encodedLine rt record ≠ [] := by simp [encodedLine]
  refine Program.Triple.bind (hready.bind fun _ => ?_) (fun _ => writeRecord_ends hline _)
  exact (pruneExpiredBackups_ends contents).bind fun _ =>
    rotateBeforeAppend_ends nanos _ (hquiet.unexpired config _)

variable (config now) in
/-- An append at one time carries out the map of the layout, from any state of the log that shows a
layout without rotation files. -/
theorem append_ends (rt : JsonRuntime) (record : AuditRecord) (nanos : ℕ)
    (hquiet : Quiet contents) :
    Ends (Shows contents) (append config (fun _ => now) rt record nanos)
      (Shows (afterAppend config (expired config now) now
        (dueBefore config (expired config now) (encodedLine rt record).length)
        (encodedLine rt record) contents)) := by
  refine append_ends_of_ready record nanos hquiet fun state h => ?_
  rw [ensureReady_apply _ h.isOpen (.inl h.recovered)]
  exact ⟨fun _ _ => trivial, h.isOpen, rfl, h.settled, h.files⟩

end

end HpGuardian

import Mathlib
import HpGuardian.Audit.Spec

/-!
# Retention

Which records a log holds after many appends, under limits on the size, the age and the number of
its files.

The abstract log is a sequence of segments, each a list of records with the time of its last
append: the backups from oldest to newest, and the active segment.  It has three operations.
Pruning and rotation retire segments at the old end, an append extends the active segment.  The
directory holds nothing but the files of the segments (`Holds`), and each part of `append` is a
step of the abstract log, so a run of appends is a run of the abstract one.

`Retires` is the specification of a part: it succeeds, retires the oldest segments of a log, those
in `gone`, and each of these had a reason (`Removed`).  It composes (`Retires.bind`), so pruning
and rotation are specified apart and put together for the whole of `append`.  Pruning reads the
clock anew for each backup, and it is here that the clock must not run backwards: once a backup is
expired, all older ones are at the later readings, so that what pruning keeps is a suffix.

`RetentionHistory` is the invariant between two appends, with the segments that have been removed
in front of those that are kept; together they are all records in order.  `retention_over_runs`
reads the properties of a run off it: contiguous backups, a suffix of the records, files within the
limit, and a reason for every segment that is missing.
-/

namespace HpGuardian

open Framework

/-! ## Segments

The abstract log, its operations, and the directory that holds one. -/

/-- The records of one file, and the time of the last append to it, which is the file's time of
modification. -/
structure Segment where
  records : List AuditRecord
  modified : Instant

/-- A log: the active segment, and the backups with the newest first. After a rotation there is no
active segment until the next append. -/
structure SegmentLog where
  active : Option Segment
  backups : List Segment

/-- The file of a segment. -/
def Segment.file (rt : JsonRuntime) (segment : Segment) : FileData :=
  ⟨segment.records.flatMap (encodedLine rt), segment.modified⟩

namespace SegmentLog

/-- All segments, oldest first. -/
def segments (log : SegmentLog) : List Segment := log.backups.reverse ++ log.active.toList

/-- The files of a log. -/
def contents (rt : JsonRuntime) (log : SegmentLog) : Contents
  | .active => log.active.map (Segment.file rt)
  | .backup 0 => none
  | .backup (index + 1) => log.backups[index]?.map (Segment.file rt)
  | _ => none

/-- The log after a rotation: the active segment becomes the newest backup. -/
def rotate (maxRotatedFiles : ℕ) (log : SegmentLog) : SegmentLog :=
  ⟨none, (log.active.toList ++ log.backups).take maxRotatedFiles⟩

/-- The log after an append at time `now`. -/
def write (record : AuditRecord) (now : Instant) (log : SegmentLog) : SegmentLog :=
  { log with active := some ⟨(log.active.map Segment.records).getD [] ++ [record], now⟩ }

theorem write_segments (record : AuditRecord) (now : Instant) (log : SegmentLog) :
    (log.write record now).segments = log.backups.reverse ++
      [⟨(log.active.map Segment.records).getD [] ++ [record], now⟩] := rfl

/-- An append adds its record behind all others. -/
theorem write_records (record : AuditRecord) (now : Instant) (log : SegmentLog) :
    (log.write record now).segments.flatMap Segment.records =
      log.segments.flatMap Segment.records ++ [record] := by
  rw [write_segments]
  cases hactive : log.active <;> simp [segments, hactive]

/-- Segments are in the order of their last append. Under a clock that does not run backwards,
appends and rotations keep them so. -/
def InOrder (log : SegmentLog) : Prop :=
  log.segments.Pairwise (fun earlier later => earlier.modified ≤ later.modified)

theorem backups_inOrder {log : SegmentLog} (h : log.InOrder) :
    log.backups.Pairwise (fun newer older => older.modified ≤ newer.modified) :=
  List.pairwise_reverse.1 (List.pairwise_append.1 h).1

end SegmentLog

/-- The directory holds the files of the log, and nothing else: the abstraction relation between
directories and logs. -/
structure Holds (rt : JsonRuntime) (log : SegmentLog) (disk : Disk) : Prop where
  settled : disk.manifest = none
  files : ∀ path, disk.files.lookup path = log.contents rt path

section

variable {rt : JsonRuntime} {log : SegmentLog} {disk : Disk}

theorem Holds.noRotationFiles (h : Holds rt log disk) : NoRotationFiles disk := by
  intro path hpath
  rw [h.files]
  cases path <;> first | rfl | cases hpath

theorem Segment.file_content_ne_nil {segment : Segment} (h : segment.records ≠ []) :
    (segment.file rt).content ≠ [] := by
  obtain ⟨record, hrecord⟩ := List.exists_mem_of_ne_nil _ h
  simp only [Segment.file, ne_eq, List.flatMap_eq_nil_iff]
  exact fun hnil => absurd (hnil record hrecord) (by simp [encodedLine])

/-- A rotation of the directory is a rotation of the log. -/
theorem rotatedContents_contents {maxRotatedFiles : ℕ} {segment : Segment}
    (hactive : log.active = some segment) (hbounded : log.backups.length ≤ maxRotatedFiles)
    (path : Path) :
    rotatedContents maxRotatedFiles (log.contents rt) none path =
      (log.rotate maxRotatedFiles).contents rt path := by
  cases path with
  | active => rfl
  | stage transaction slot => rfl
  | temporary transaction => rfl
  | stray suffix => rfl
  | backup index =>
      cases index with
      | zero => rfl
      | succ index =>
          simp only [rotatedContents, SegmentLog.rotate, SegmentLog.contents, hactive,
            Option.toList_some, List.singleton_append, List.getElem?_take]
          by_cases hindex : index < maxRotatedFiles
          · rw [if_pos ⟨by omega, by omega⟩, if_pos hindex]
            cases index with
            | zero => simp [sourceSlot, Slot.path]
            | succ index => simp [sourceSlot, Slot.path]
          · rw [if_neg (by omega), if_neg hindex, List.getElem?_eq_none (by omega)]

end

/-! ## Retiring segments

What a part of an append may do to a log, and why a segment may go. -/

/-- A step removes the file: it is expired by the reading before the step, or it was the oldest
backup when the rotation of the step started. -/
inductive Removed (config : ValidConfig) (clock : ℕ → Instant)
    (steps : List (LogState × Operation)) (file : FileData) : Prop
  | expired {maxAge : ℤ} {index : ℕ} {state : LogState} (hage : config.maxAge = some maxAge)
      (hstep : (state, .remove (.backup index)) ∈ steps)
      (hfile : state.disk.files.lookup (.backup index) = some file)
      (hreading : maxAge ≤ clock (state.ticks - 1) - file.modified)
  | oldest {manifest : RotationManifest} {start state : LogState}
      (hstart : (start, .writeManifest manifest) ∈ steps)
      (hbackup : start.disk.files.lookup (.backup config.maxRotatedFiles) = some file)
      (hstep : (state, .remove (stagingPath manifest.transactionId
        (.backup config.maxRotatedFiles))) ∈ steps)
      (hfile : state.disk.files.lookup (stagingPath manifest.transactionId
        (.backup config.maxRotatedFiles)) = some file)

section

variable {config : ValidConfig} {clock : ℕ → Instant} {rt : JsonRuntime}

theorem Removed.mono {steps steps' : List (LogState × Operation)} {file : FileData}
    (h : Removed config clock steps file) (hsub : steps ⊆ steps') :
    Removed config clock steps' file := by
  cases h with
  | expired hage hstep hfile hreading => exact .expired hage (hsub hstep) hfile hreading
  | oldest hstart hbackup hstep hfile => exact .oldest (hsub hstart) hbackup (hsub hstep) hfile

/-- What the process remembers is as before, and no clock reading is taken back. -/
structure Resumes (state state' : LogState) : Prop where
  ticks : state.ticks ≤ state'.ticks
  recoveryComplete : state'.recoveryComplete = state.recoveryComplete
  closed : state'.closed = state.closed

theorem Resumes.refl (state : LogState) : Resumes state state := ⟨le_refl _, rfl, rfl⟩

theorem resumes_writing (state : LogState) : Resumes state (writing state) :=
  ⟨Nat.le_succ _, rfl, rfl⟩

theorem Resumes.trans {state state' state'' : LogState} (h : Resumes state state')
    (h' : Resumes state' state'') : Resumes state state'' :=
  ⟨h.ticks.trans h'.ticks, h'.recoveryComplete.trans h.recoveryComplete,
    h'.closed.trans h.closed⟩

/-- A part of `append` that succeeds and retires `gone`, the oldest segments of a log: afterwards
the directory holds the log without them, and each was removed by a step that had a reason to. -/
structure Retires (config : ValidConfig) (clock : ℕ → Instant) (rt : JsonRuntime)
    (state : LogState) (log : SegmentLog) (run : Run LogState Operation AuditError Unit)
    (gone : List Segment) (log' : SegmentLog) : Prop where
  succeeds : run.result = .ok ()
  holds : Holds rt log' run.final.disk
  bounded : log'.backups.length ≤ config.maxRotatedFiles
  segments : log.segments = gone ++ log'.segments
  removed : ∀ segment ∈ gone, Removed config clock run.steps (segment.file rt)
  resumes : Resumes state run.final

theorem Retires.inOrder {state : LogState} {log log' : SegmentLog} {gone : List Segment}
    {run : Run LogState Operation AuditError Unit}
    (h : Retires config clock rt state log run gone log') (hlog : log.InOrder) :
    log'.InOrder := by
  unfold SegmentLog.InOrder at hlog
  rw [h.segments] at hlog
  exact (List.pairwise_append.1 hlog).2.1

theorem Retires.nothing {state : LogState} {log : SegmentLog} (hholds : Holds rt log state.disk)
    (hbounded : log.backups.length ≤ config.maxRotatedFiles) :
    Retires config clock rt state log ⟨[], state, .ok ()⟩ [] log :=
  ⟨rfl, hholds, hbounded, rfl, by simp, .refl state⟩

theorem Retires.of_resumes {state state' : LogState} {log log' : SegmentLog} {gone : List Segment}
    {run : Run LogState Operation AuditError Unit}
    (h : Retires config clock rt state' log run gone log') (hresumes : Resumes state state') :
    Retires config clock rt state log run gone log' :=
  { h with resumes := hresumes.trans h.resumes }

/-- One part after the other. -/
theorem Retires.bind {state : LogState} {log log' log'' : SegmentLog} {gone gone' : List Segment}
    {p : LogProgram Unit} {q : Unit → LogProgram Unit}
    (h : Retires config clock rt state log (p state) gone log')
    (h' : Retires config clock rt (p state).final log' (q () (p state).final) gone' log'') :
    Retires config clock rt state log ((p >>= q) state) (gone ++ gone') log'' := by
  have hrun := Program.bind_ok (f := q) h.succeeds
  rw [hrun]
  exact {
    succeeds := h'.succeeds
    holds := h'.holds
    bounded := h'.bounded
    segments := by rw [h.segments, h'.segments, List.append_assoc]
    removed := by
      intro segment hsegment
      rcases List.mem_append.1 hsegment with hsegment | hsegment
      · exact (h.removed segment hsegment).mono (List.subset_append_left _ _)
      · exact (h'.removed segment hsegment).mono (List.subset_append_right _ _)
    resumes := h.resumes.trans h'.resumes }

/-! ## Pruning

The loop over the backups, from the newest to the oldest.  Each round looks at one backup at a
reading of its own; the frame lemmas say that a round leaves the backups before it alone. -/

/-- What a pruning pass from backup `index` on does to the backups it meets: it keeps the first of
them and removes the others, each for a reason, and leaves all other files alone. -/
structure Prunes (config : ValidConfig) (clock : ℕ → Instant) (rt : JsonRuntime) (maxAge : ℤ)
    (index : ℕ) (state : LogState) (run : Run LogState Operation AuditError Unit)
    (kept gone : List Segment) : Prop where
  succeeds : run.result = .ok ()
  files : ∀ m, run.final.disk.files.lookup (.backup (index + m)) =
    kept[m]?.map (Segment.file rt)
  frame : ∀ path, (∀ m, path ≠ .backup (index + m)) →
    run.final.disk.files.lookup path = state.disk.files.lookup path
  manifest : run.final.disk.manifest = state.disk.manifest
  resumes : Resumes state run.final
  removed : ∀ segment ∈ gone, Removed config clock run.steps (segment.file rt)
  young : ∀ segment ∈ kept.head?, clock state.ticks - segment.modified < maxAge

/-- One backup that is not there. -/
theorem pruneBackup_absent (maxAge : ℤ) {index : ℕ} {state : LogState}
    (hfile : state.disk.files.lookup (.backup index) = none) :
    pruneBackup clock maxAge index state = ⟨[], state, .ok ()⟩ := by
  simp only [pruneBackup, Program.read_bind_apply, hfile]
  rfl

/-- One backup that is young enough. -/
theorem pruneBackup_young {maxAge : ℤ} {index : ℕ} {state : LogState} {file : FileData}
    (hfile : state.disk.files.lookup (.backup index) = some file)
    (hyoung : clock state.ticks - file.modified < maxAge) :
    pruneBackup clock maxAge index state = ⟨[], writing state, .ok ()⟩ := by
  have hclock : readClock clock state = ⟨[], writing state, .ok (clock state.ticks)⟩ := rfl
  simp only [pruneBackup, Program.read_bind_apply, hfile]
  rw [Program.bind_run hclock, if_neg (not_le.2 hyoung)]
  rfl

/-- The state after a backup has been removed. -/
def withoutBackup (index : ℕ) (state : LogState) : LogState :=
  state.setDisk (state.disk.setFiles (state.disk.files.erase (.backup index)))

theorem resumes_withoutBackup (index : ℕ) {state state' : LogState} (h : Resumes state state') :
    Resumes state (withoutBackup index state') :=
  ⟨h.ticks, h.recoveryComplete, h.closed⟩

/-- One backup that is expired. -/
theorem pruneBackup_expired {maxAge : ℤ} {index : ℕ} {state : LogState} {file : FileData}
    (hfile : state.disk.files.lookup (.backup index) = some file)
    (hexpired : maxAge ≤ clock state.ticks - file.modified) :
    pruneBackup clock maxAge index state =
      ⟨[(writing state, .remove (.backup index)), (withoutBackup index (writing state), .sync)],
        withoutBackup index (writing state), .ok ()⟩ := by
  have hclock : readClock clock state = ⟨[], writing state, .ok (clock state.ticks)⟩ := rfl
  simp only [pruneBackup, Program.read_bind_apply, hfile]
  rw [Program.bind_run hclock, if_pos hexpired]
  rfl

section

variable {maxAge : ℤ} {index : ℕ} {state : LogState}
  {run : Run LogState Operation AuditError Unit} {kept gone : List Segment} {segment : Segment}
  {pass : LogProgram Unit}

theorem Prunes.files_succ (h : Prunes config clock rt maxAge (index + 1) state run kept gone)
    (m : ℕ) : run.final.disk.files.lookup (.backup (index + (m + 1))) =
      kept[m]?.map (Segment.file rt) := by
  rw [← Nat.succ_add_eq_add_succ]
  exact h.files m

/-- A pass over later backups leaves the one before them alone. -/
theorem Prunes.frame_first (h : Prunes config clock rt maxAge (index + 1) state run kept gone) :
    run.final.disk.files.lookup (.backup index) = state.disk.files.lookup (.backup index) :=
  h.frame _ fun m hm => by simp at hm; omega

theorem Prunes.frame_rest (h : Prunes config clock rt maxAge (index + 1) state run kept gone)
    {path : Path} (hpath : ∀ m, path ≠ .backup (index + m)) :
    run.final.disk.files.lookup path = state.disk.files.lookup path :=
  h.frame path fun m => Nat.succ_add_eq_add_succ index m ▸ hpath (m + 1)

/-- A pass that starts at a backup that is not there. -/
theorem Prunes.absent (hfile : state.disk.files.lookup (.backup index) = none)
    (h : Prunes config clock rt maxAge (index + 1) state (pass state) [] []) :
    Prunes config clock rt maxAge index state
      ((pruneBackup clock maxAge index >>= fun _ => pass) state) [] [] := by
  rw [Program.bind_run (pruneBackup_absent maxAge hfile)]
  refine { h with files := fun m => ?_, frame := fun path hpath => h.frame_rest hpath }
  cases m with
  | zero => exact h.frame_first.trans hfile
  | succ m => exact h.files_succ m

/-- A pass that starts at an expired backup. -/
theorem Prunes.expired (hage : config.maxAge = some maxAge)
    (hfile : state.disk.files.lookup (.backup index) = some (segment.file rt))
    (hexpired : maxAge ≤ clock state.ticks - segment.modified)
    (h : Prunes config clock rt maxAge (index + 1) (withoutBackup index (writing state))
      (pass (withoutBackup index (writing state))) [] gone) :
    Prunes config clock rt maxAge index state
      ((pruneBackup clock maxAge index >>= fun _ => pass) state) [] (segment :: gone) := by
  rw [Program.bind_run (pruneBackup_expired hfile hexpired)]
  exact {
    succeeds := h.succeeds
    files := by
      intro m
      cases m with
      | zero => exact h.frame_first.trans (Finmap.lookup_erase _ _)
      | succ m => exact h.files_succ m
    frame := by
      intro path hpath
      exact (h.frame_rest hpath).trans (Finmap.lookup_erase_ne (hpath 0))
    manifest := h.manifest
    resumes := (resumes_withoutBackup index (resumes_writing state)).trans h.resumes
    removed := by
      intro gone' hgone
      rcases List.mem_cons.1 hgone with rfl | hgone
      · exact .expired hage List.mem_cons_self hfile hexpired
      · exact (h.removed gone' hgone).mono (List.subset_append_right _ _)
    young := by simp }

/-- A pass that starts at a backup that is young enough. -/
theorem Prunes.keep (hfile : state.disk.files.lookup (.backup index) = some (segment.file rt))
    (hyoung : clock state.ticks - segment.modified < maxAge)
    (h : Prunes config clock rt maxAge (index + 1) (writing state) (pass (writing state)) kept
      gone) :
    Prunes config clock rt maxAge index state
      ((pruneBackup clock maxAge index >>= fun _ => pass) state) (segment :: kept) gone := by
  rw [Program.bind_run (pruneBackup_young hfile hyoung)]
  exact {
    succeeds := h.succeeds
    files := by
      intro m
      cases m with
      | zero => exact h.frame_first.trans hfile
      | succ m => exact h.files_succ m
    frame := fun path hpath => h.frame_rest hpath
    manifest := h.manifest
    resumes := (resumes_writing state).trans h.resumes
    removed := h.removed
    young := by
      intro first hfirst
      obtain rfl := Option.some.inj hfirst
      exact hyoung }

end

/-- A pruning pass over backups in order keeps the newest ones: once one is expired, so are all
older ones at the later readings. -/
theorem forEach_pruneBackup (hclock : Monotone clock) {maxAge : ℤ}
    (hage : config.maxAge = some maxAge)
    (count index : ℕ) (backups : List Segment) (state : LogState)
    (hfiles : ∀ m, state.disk.files.lookup (.backup (index + m)) =
      backups[m]?.map (Segment.file rt))
    (hcount : backups.length ≤ count)
    (hordered : backups.Pairwise (fun newer older => older.modified ≤ newer.modified)) :
    ∃ kept gone, backups = kept ++ gone ∧
      Prunes config clock rt maxAge index state
        (Program.forEach (pruneBackup clock maxAge) (List.range' index count) state) kept gone := by
  induction count generalizing index backups state with
  | zero =>
      obtain rfl := List.length_eq_zero_iff.1 (Nat.le_zero.1 hcount)
      exact ⟨[], [], rfl, rfl, hfiles, fun _ _ => rfl, rfl, .refl state, by simp, by simp⟩
  | succ count ih =>
      have hhead : state.disk.files.lookup (.backup index) = _ := hfiles 0
      have hshift : ∀ m, index + 1 + m = index + (m + 1) := fun m => by omega
      rw [List.range'_succ, Program.forEach_cons]
      cases backups with
      | nil =>
          obtain ⟨kept, gone, hsplit, h⟩ := ih (index + 1) [] state
            (fun m => by rw [hshift, hfiles]; simp) (by simp) .nil
          obtain ⟨rfl, rfl⟩ := List.append_eq_nil_iff.1 hsplit.symm
          exact ⟨[], [], rfl, h.absent hhead⟩
      | cons segment backups =>
          obtain ⟨holder, hordered⟩ := List.pairwise_cons.1 hordered
          by_cases hexpired : maxAge ≤ clock state.ticks - segment.modified
          · have hrest : ∀ m, (withoutBackup index (writing state)).disk.files.lookup
                (.backup (index + 1 + m)) = backups[m]?.map (Segment.file rt) := by
              intro m
              rw [hshift]
              exact (Finmap.lookup_erase_ne (by simp)).trans (hfiles (m + 1))
            obtain ⟨kept, gone, rfl, h⟩ := ih (index + 1) backups _ hrest
              (by simpa using hcount) hordered
            -- the readings of the rest are no earlier and its segments no newer
            have hnone : kept = [] := by
              cases kept with
              | nil => rfl
              | cons next kept =>
                  have htime : clock state.ticks ≤ clock (state.ticks + 1) :=
                    hclock (Nat.le_succ _)
                  have hexpired' : maxAge ≤ clock (state.ticks + 1) - next.modified :=
                    hexpired.trans (Int.sub_le_sub htime (holder next (by simp)))
                  exact absurd hexpired' (not_le.2 (h.young next rfl))
            subst hnone
            exact ⟨[], segment :: gone, rfl, h.expired hage hhead hexpired⟩
          · obtain ⟨kept, gone, rfl, h⟩ := ih (index + 1) backups (writing state)
              (fun m => by rw [hshift]; exact hfiles (m + 1)) (by simpa using hcount) hordered
            exact ⟨segment :: kept, gone, rfl, h.keep hhead (not_le.1 hexpired)⟩

/-- Pruning retires the expired backups. -/
theorem pruneExpiredBackups_retires (hclock : Monotone clock) {log : SegmentLog} {state : LogState}
    (hholds : Holds rt log state.disk) (hbounded : log.backups.length ≤ config.maxRotatedFiles)
    (hlog : log.InOrder) :
    ∃ gone log', log'.active = log.active ∧
      Retires config clock rt state log (pruneExpiredBackups config clock state) gone log' := by
  cases hage : config.maxAge with
  | none =>
      refine ⟨[], log, rfl, ?_⟩
      simp only [pruneExpiredBackups, hage]
      exact .nothing hholds hbounded
  | some maxAge =>
      have hfiles : ∀ m, state.disk.files.lookup (.backup (1 + m)) =
          log.backups[m]?.map (Segment.file rt) := by
        intro m
        rw [hholds.files, Nat.add_comm]
        rfl
      obtain ⟨kept, gone, hsplit, h⟩ := forEach_pruneBackup hclock hage config.maxRotatedFiles 1
        log.backups state hfiles hbounded (SegmentLog.backups_inOrder hlog)
      refine ⟨gone.reverse, { log with backups := kept }, rfl, ?_⟩
      simp only [pruneExpiredBackups, hage]
      exact {
        succeeds := h.succeeds
        holds := ⟨h.manifest.trans hholds.settled, fun path => by
          cases path with
          | backup index =>
              cases index with
              | zero => exact (h.frame _ fun m hm => by simp at hm; omega).trans (hholds.files _)
              | succ index =>
                  have hkept := h.files index
                  rw [Nat.add_comm] at hkept
                  exact hkept
          | _ => exact (h.frame _ fun m hm => by cases hm).trans (hholds.files _)⟩
        bounded := by
          have hlength := congrArg List.length hsplit
          rw [List.length_append] at hlength
          exact le_trans (by simp; omega) hbounded
        segments := by simp [SegmentLog.segments, hsplit]
        removed := fun segment hsegment => h.removed segment (List.mem_reverse.1 hsegment)
        resumes := h.resumes }

/-! ## Rotation

A rotation of a full log retires its oldest backup, and one of a log with a free place retires
nothing. -/

/-- A rotation retires the oldest backup, if all places are taken. -/
theorem rotateCurrent_retires (clock : ℕ → Instant) {log : SegmentLog} {state : LogState}
    {segment : Segment} (nanos : ℕ) (hholds : Holds rt log state.disk)
    (hbounded : log.backups.length ≤ config.maxRotatedFiles)
    (hactive : log.active = some segment) :
    Retires config clock rt state log
      (onDisk (rotateCurrent writeManifestAtomically config.maxRotatedFiles nanos) state)
      ((segment :: log.backups).drop config.maxRotatedFiles).reverse
      (log.rotate config.maxRotatedFiles) := by
  have hmax := config.one_le_maxRotatedFiles
  have hquiet := hholds.noRotationFiles
  have hsome : (state.disk.files.lookup .active).isSome = true := by
    rw [hholds.files]
    simp [SegmentLog.contents, hactive]
  obtain ⟨⟨⟩, hresult, hrotated⟩ := (rotateCurrent_triple nanos hmax hquiet hsome).exists_ok rfl
  exact {
    succeeds := hresult
    holds := ⟨hrotated.settled, fun path => by
      rw [← rotatedContents_contents hactive hbounded, ← funext hholds.files]
      exact hrotated.files path⟩
    bounded := by simp [SegmentLog.rotate, hactive]
    segments := by
      simp only [SegmentLog.segments, SegmentLog.rotate, hactive, Option.toList_some,
        List.singleton_append, Option.toList_none, List.append_nil]
      rw [← List.reverse_append, List.take_append_drop, List.reverse_cons]
    removed := by
      intro gone hgone
      rw [List.mem_reverse, List.mem_iff_getElem?] at hgone
      obtain ⟨i, hi⟩ := hgone
      rw [List.getElem?_drop] at hi
      obtain ⟨hlt, -⟩ := List.getElem?_eq_some_iff.1 hi
      -- only one segment has no place left
      obtain ⟨n, hn⟩ : ∃ n, config.maxRotatedFiles = n + 1 := ⟨config.maxRotatedFiles - 1, by omega⟩
      have hfirst : config.maxRotatedFiles + i = n + 1 := by
        simp only [List.length_cons] at hlt
        omega
      rw [hfirst, List.getElem?_cons_succ] at hi
      have hbackup : state.disk.files.lookup (.backup config.maxRotatedFiles) =
          some (gone.file rt) := by
        rw [hholds.files, hn]
        simp [SegmentLog.contents, hi]
      obtain ⟨disk', hfile, hstep⟩ := rotateCurrent_removes nanos hmax hquiet hsome hbackup
      have hstart : (state, Operation.writeManifest
          (newManifest config.maxRotatedFiles nanos state.disk)) ∈ (onDisk (rotateCurrent
            writeManifestAtomically config.maxRotatedFiles nanos) state).steps := by
        refine mem_steps_onDisk (show (state.disk, _) ∈ _ from ?_)
        rw [rotateCurrent_apply hquiet]
        exact List.mem_cons_self
      exact .oldest hstart hbackup (mem_steps_onDisk hstep) hfile
    resumes := ⟨le_refl _, rfl, rfl⟩ }

/-- Whether a file has reached its age is read off the clock. -/
theorem ageExceeded_apply (config : ValidConfig) (clock : ℕ → Instant) (file : FileData)
    (state : LogState) :
    ∃ state' aged, ageExceeded config clock file state = ⟨[], state', .ok aged⟩ ∧
      state'.disk = state.disk ∧ Resumes state state' := by
  unfold ageExceeded
  cases config.maxAge with
  | none => exact ⟨state, false, rfl, rfl, .refl state⟩
  | some limit => exact ⟨writing state, _, rfl, rfl, resumes_writing state⟩

/-- After `rotate_before_append` there is no active segment, or one with room for the record. -/
theorem rotateBeforeAppend_retires (hclock : Monotone clock) {log : SegmentLog} {state : LogState}
    (nanos nextRecordBytes : ℕ) (hholds : Holds rt log state.disk)
    (hbounded : log.backups.length ≤ config.maxRotatedFiles) (hlog : log.InOrder)
    (hnonempty : ∀ segment ∈ log.active, segment.records ≠ []) :
    ∃ gone log', Retires config clock rt state log
        (rotateBeforeAppend config clock nanos nextRecordBytes state) gone log' ∧
      ∀ segment ∈ log'.active, ∀ limit, config.maxBytes = some limit →
        (segment.file rt).content.length + nextRecordBytes ≤ limit := by
  have hlookup : state.disk.files.lookup .active = log.active.map (Segment.file rt) :=
    hholds.files .active
  simp only [rotateBeforeAppend, Program.read_bind_apply, hlookup]
  cases hactive : log.active with
  | none => exact ⟨[], log, .nothing hholds hbounded, by simp [hactive]⟩
  | some segment =>
      simp only [Option.map_some]
      obtain ⟨state', aged, hrun, hdisk, hresumes⟩ :=
        ageExceeded_apply config clock (segment.file rt) state
      have hempty : (segment.file rt).content.isEmpty = false := by
        simpa using Segment.file_content_ne_nil (hnonempty segment hactive)
      rw [← hdisk] at hholds
      rw [Program.bind_run hrun]
      by_cases hdue : (sizeExceeded config (segment.file rt) nextRecordBytes || aged) = true
      · rw [if_pos (by simpa [hempty] using hdue)]
        have hrotate := rotateCurrent_retires clock nanos hholds hbounded hactive
        obtain ⟨gone, log', hnone, hprune⟩ := pruneExpiredBackups_retires hclock hrotate.holds
          hrotate.bounded (hrotate.inOrder hlog)
        refine ⟨_, log', (hrotate.bind hprune).of_resumes hresumes, ?_⟩
        rw [hnone]
        simp [SegmentLog.rotate]
      · rw [if_neg (by simpa [hempty] using hdue)]
        refine ⟨[], log, (Retires.nothing hholds hbounded).of_resumes hresumes, ?_⟩
        intro segment' hsegment' limit hlimit
        obtain rfl := Option.some.inj (hactive.symm.trans hsegment')
        have hsize : sizeExceeded config (segment.file rt) nextRecordBytes = false := by
          cases hsize : sizeExceeded config (segment.file rt) nextRecordBytes with
          | false => rfl
          | true => simp [hsize] at hdue
        simpa [sizeExceeded, hlimit] using hsize

/-! ## One append

The parts put together, and the invariant. -/

/-- A segment is within the size limit, or it is one record. -/
def Fits (config : ValidConfig) (rt : JsonRuntime) (segment : Segment) : Prop :=
  ∀ limit, config.maxBytes = some limit →
    (segment.file rt).content.length ≤ limit ∨ segment.records.length = 1

/-- Writing a record extends the active segment. -/
theorem Holds.write {log : SegmentLog} {disk : Disk} (h : Holds rt log disk)
    (record : AuditRecord) (now : Instant) :
    Holds rt (log.write record now) (disk.setFiles (disk.files.insert .active
      ⟨activeContent disk ++ encodedLine rt record, now⟩)) where
  settled := h.settled
  files path := by
    by_cases hpath : path = .active
    · subst hpath
      have hcontent : activeContent disk =
          ((log.active.map Segment.records).getD []).flatMap (encodedLine rt) := by
        rw [activeContent, h.files]
        cases hactive : log.active <;> simp [SegmentLog.contents, hactive, Segment.file]
      simp [SegmentLog.write, SegmentLog.contents, Segment.file, hcontent]
    · rw [Disk.files_setFiles, Finmap.lookup_insert_of_ne _ hpath, h.files]
      cases path with
      | active => exact absurd rfl hpath
      | backup index => cases index <;> rfl
      | _ => rfl

/-- What a log looks like between two appends, and how its records are spread over segments: those
that were removed, those of the backups, and the active one, which together are all records of the
run in order. -/
structure RetentionHistory (config : ValidConfig) (clock : ℕ → Instant) (rt : JsonRuntime)
    (trace : List (AppendCall × AppendOutcome)) (state : LogState) (removed : List Segment)
    (log : SegmentLog) : Prop where
  succeeded : ∀ exchange ∈ trace, exchange.2.result = .ok ()
  holds : Holds rt log state.disk
  bounded : log.backups.length ≤ config.maxRotatedFiles
  inOrder : log.InOrder
  past : ∀ segment ∈ log.segments, segment.modified ≤ clock state.ticks
  nonempty : ∀ segment ∈ log.segments, segment.records ≠ []
  fits : ∀ segment ∈ log.segments, Fits config rt segment
  records : trace.map (fun exchange => exchange.1.record) =
    (removed ++ log.segments).flatMap Segment.records
  justified : ∀ segment ∈ removed, ∃ exchange ∈ trace,
    Removed config clock exchange.2.steps (segment.file rt)
  active : trace ≠ [] → log.active.isSome = true
  recovered : state.recoveryComplete = true ∨ log = ⟨none, []⟩
  opened : state.closed = false

/-- What `append` does before it writes: it retires segments until there is room. -/
theorem prepareAppend_retires (hclock : Monotone clock) {log : SegmentLog} {state : LogState}
    (nanos nextRecordBytes : ℕ) (hholds : Holds rt log state.disk)
    (hbounded : log.backups.length ≤ config.maxRotatedFiles) (hlog : log.InOrder)
    (hnonempty : ∀ segment ∈ log.segments, segment.records ≠ [])
    (hrecovered : state.recoveryComplete = true ∨ log = ⟨none, []⟩)
    (hopened : state.closed = false) :
    ∃ gone log', Retires config clock rt (ready state) log
        (prepareAppend config clock rt nanos nextRecordBytes state) gone log' ∧
      ∀ segment ∈ log'.active, ∀ limit, config.maxBytes = some limit →
        (segment.file rt).content.length + nextRecordBytes ≤ limit := by
  have hready : ensureReady config clock rt state = ⟨[], ready state, .ok ()⟩ := by
    refine ensureReady_apply clock hopened (hrecovered.imp_right fun hempty stamp => ?_)
    subst hempty
    refine recoverTails_clean ?_ (fun path hpath file hfile => ?_) stamp
    · exact Disk.hasRotationEntry_eq_false_iff.2 ⟨hholds.settled, hholds.noRotationFiles⟩
    · rw [hholds.files] at hfile
      rcases List.mem_cons.1 hpath with rfl | hpath
      · cases hfile
      · obtain ⟨index, -, rfl⟩ := List.mem_map.1 hpath
        cases index <;> simp [SegmentLog.contents] at hfile
  rw [prepareAppend, Program.bind_run hready]
  obtain ⟨gone, log', hactive, hprune⟩ := pruneExpiredBackups_retires hclock
    (show Holds rt log (ready state).disk from hholds) hbounded hlog
  obtain ⟨gone', log'', hrotate, hroom⟩ := rotateBeforeAppend_retires hclock nanos nextRecordBytes
    hprune.holds hprune.bounded (hprune.inOrder hlog) (fun segment hsegment => hnonempty segment (by
      rw [hprune.segments]
      exact List.mem_append_right _ (List.mem_append_right _ (by simpa using hsegment))))
  exact ⟨_, log'', hprune.bind hrotate, hroom⟩

/-- One append. -/
theorem RetentionHistory.step (hclock : Monotone clock) {trace : List (AppendCall × AppendOutcome)}
    {state : LogState} {removed : List Segment} {log : SegmentLog}
    (h : RetentionHistory config clock rt trace state removed log) {call : AppendCall}
    (hcall : call.fault = none) :
    ∃ removed' log', RetentionHistory config clock rt
      (trace ++ [(call, ((auditLog config clock rt).step state call).2)])
      ((auditLog config clock rt).step state call).1 removed' log' := by
  obtain ⟨gone, log', hprepare, hroom⟩ := prepareAppend_retires hclock call.nanos
    (encodedLine rt call.record).length h.holds h.bounded h.inOrder h.nonempty h.recovered h.opened
  generalize hrun : prepareAppend config clock rt call.nanos (encodedLine rt call.record).length
    state = run at hprepare
  have happend : append config clock rt call.record call.nanos state = _ :=
    (Program.bind_ok (hrun ▸ hprepare.succeeds)).trans (by
      rw [hrun, writeRecord_apply, afterBytes_eq clock (by simp [encodedLine])])
  simp only [auditLog, hcall, Program.failingAt_none, happend]
  -- the segments that are left, and their times
  have hleft : ∀ segment ∈ log'.segments, segment ∈ log.segments := by
    intro segment hsegment
    rw [hprepare.segments]
    exact List.mem_append_right _ hsegment
  have hbackup : ∀ segment ∈ log'.backups.reverse, segment ∈ log.segments :=
    fun segment hsegment => hleft segment (List.mem_append_left _ hsegment)
  have hpast : ∀ segment ∈ log.segments, segment.modified ≤ clock run.final.ticks :=
    fun segment hsegment => (h.past segment hsegment).trans (hclock hprepare.resumes.ticks)
  refine ⟨removed ++ gone, log'.write call.record (clock run.final.ticks), ?_⟩
  exact {
    succeeded := by
      intro exchange hexchange
      rcases List.mem_append.1 hexchange with hexchange | hexchange
      · exact h.succeeded exchange hexchange
      · obtain rfl := List.mem_singleton.1 hexchange
        rfl
    holds := hprepare.holds.write call.record (clock run.final.ticks)
    bounded := hprepare.bounded
    inOrder := by
      refine List.pairwise_append.2 ⟨(List.pairwise_append.1 (hprepare.inOrder h.inOrder)).1,
        List.pairwise_singleton _ _, fun segment hsegment last hlast => ?_⟩
      obtain rfl := List.mem_singleton.1 hlast
      exact hpast segment (hbackup segment hsegment)
    past := by
      intro segment hsegment
      refine le_trans ?_ (hclock (Nat.le_succ run.final.ticks))
      rcases List.mem_append.1 hsegment with hsegment | hsegment
      · exact hpast segment (hbackup segment hsegment)
      · obtain rfl := List.mem_singleton.1 hsegment
        exact le_refl _
    nonempty := by
      intro segment hsegment
      rcases List.mem_append.1 hsegment with hsegment | hsegment
      · exact h.nonempty segment (hbackup segment hsegment)
      · obtain rfl := List.mem_singleton.1 hsegment
        simp
    fits := by
      intro segment hsegment limit hlimit
      rcases List.mem_append.1 hsegment with hsegment | hsegment
      · exact h.fits segment (hbackup segment hsegment) limit hlimit
      · obtain rfl := List.mem_singleton.1 hsegment
        cases hactive : log'.active with
        | none => exact .inr rfl
        | some segment =>
            left
            have hlength := hroom segment hactive limit hlimit
            simpa [Segment.file] using hlength
    records := by
      rw [List.map_append, h.records, hprepare.segments]
      simp [SegmentLog.write_records]
    justified := by
      intro segment hsegment
      rcases List.mem_append.1 hsegment with hsegment | hsegment
      · obtain ⟨exchange, hexchange, hremoved⟩ := h.justified segment hsegment
        exact ⟨exchange, List.mem_append_left _ hexchange, hremoved⟩
      · exact ⟨_, List.mem_append_right _ (List.mem_singleton_self _),
          (hprepare.removed segment hsegment).mono (List.subset_append_left _ _)⟩
    active := fun _ => rfl
    recovered := .inl hprepare.resumes.recoveryComplete
    opened := hprepare.resumes.closed.trans h.opened }

end

/-! ## Runs

What the invariant says at the end of a run, and a run of two appends under tight limits. -/

/-- What a run leaves: `removed` and `kept` are the segments of all records in order, the backups
are `1..=k`, and the files hold the kept segments. -/
structure Retained (config : ValidConfig) (clock : ℕ → Instant) (rt : JsonRuntime)
    (trace : List (AppendCall × AppendOutcome)) (disk : Disk) (k : ℕ)
    (removed kept : List Segment) : Prop where
  bounded : k ≤ config.maxRotatedFiles
  backups : ∀ index, (disk.files.lookup (.backup index)).isSome = true ↔ 1 ≤ index ∧ index ≤ k
  files : (retainedPaths k).map disk.files.lookup =
    kept.map (fun segment => some (segment.file rt))
  records : trace.map (fun exchange => exchange.1.record) =
    (removed ++ kept).flatMap Segment.records
  suffix : ∃ records, records <:+ trace.map (fun exchange => exchange.1.record) ∧
    records.getLast? = (trace.map (fun exchange => exchange.1.record)).getLast? ∧
    gather FileData.content disk.files.lookup (retainedPaths k) =
      records.flatMap (encodedLine rt)
  fits : ∀ segment ∈ kept, Fits config rt segment
  justified : ∀ segment ∈ removed, ∃ exchange ∈ trace,
    Removed config clock exchange.2.steps (segment.file rt)

/-- The files of the segments, oldest first. -/
theorem Holds.retainedPaths {rt : JsonRuntime} {log : SegmentLog} {disk : Disk}
    (h : Holds rt log disk) (hactive : log.active.isSome = true) :
    (HpGuardian.retainedPaths log.backups.length).map disk.files.lookup =
      log.segments.map (fun segment => some (segment.file rt)) := by
  obtain ⟨segment, hsegment⟩ := Option.isSome_iff_exists.1 hactive
  have hbackups : ((indices log.backups.length).map Path.backup).map disk.files.lookup =
      log.backups.map (fun segment => some (segment.file rt)) := by
    refine List.ext_getElem (by simp [indices]) fun i hi hi' => ?_
    have hlookup := h.files (.backup (i + 1))
    have hlt : i < log.backups.length := by simpa using hi'
    simpa [indices, SegmentLog.contents, Nat.add_comm 1 i, hlt] using hlookup
  have hlast : disk.files.lookup .active = some (segment.file rt) := by
    rw [h.files]
    simp [SegmentLog.contents, hsegment]
  simp only [HpGuardian.retainedPaths, SegmentLog.segments, hsegment, List.map_append,
    List.map_reverse, hbackups, List.map_cons, List.map_nil, hlast, Option.toList_some]

theorem RetentionHistory.retained {config : ValidConfig} {clock : ℕ → Instant} {rt : JsonRuntime}
    {trace : List (AppendCall × AppendOutcome)} {state : LogState} {removed : List Segment}
    {log : SegmentLog} (h : RetentionHistory config clock rt trace state removed log)
    (hne : trace ≠ []) :
    Retained config clock rt trace state.disk log.backups.length removed log.segments where
  bounded := h.bounded
  backups index := by
    rw [h.holds.files]
    cases index with
    | zero => simp [SegmentLog.contents]
    | succ index =>
        simp [SegmentLog.contents]
  files := h.holds.retainedPaths (h.active hne)
  records := h.records
  suffix := by
    have hfiles := h.holds.retainedPaths (h.active hne)
    refine ⟨log.segments.flatMap Segment.records, ?_, ?_, ?_⟩
    · rw [h.records, List.flatMap_append]
      exact List.suffix_append _ _
    · obtain ⟨segment, hsegment⟩ := Option.isSome_iff_exists.1 (h.active hne)
      have hrecords := h.nonempty segment (by simp [SegmentLog.segments, hsegment])
      rw [h.records]
      simp [SegmentLog.segments, hsegment, List.getLast?_append, List.getLast?_eq_some_getLast
        hrecords]
    · have hcontents := congrArg (fun files : List (Option FileData) =>
        files.flatMap (fun file => (file.map FileData.content).getD [])) hfiles
      simp only [List.flatMap_map] at hcontents
      rw [gather, hcontents, List.flatMap_assoc]
      rfl
  fits := h.fits
  justified := h.justified

/-- **Retention over whole runs.**  In a run of appends from an empty directory without I/O
failures and under a clock that does not run backwards, every append succeeds, the backups are
`1..=k`, the files hold a suffix of all records that ends with the last one, each file is within
the size limit or holds one record, and each segment that is missing was removed as the oldest
backup of a rotation or because it was expired. -/
theorem retention_over_runs (config : ValidConfig) (clock : ℕ → Instant) (hclock : Monotone clock)
    (rt : JsonRuntime) (ticks : ℕ) (calls : List AppendCall) (hne : calls ≠ [])
    (hfaults : ∀ call ∈ calls, call.fault = none) :
    (∀ exchange ∈ (auditLog config clock rt).trace (LogState.fresh Disk.empty ticks) calls,
        exchange.2.result = .ok ()) ∧
      ∃ k removed kept, Retained config clock rt
        ((auditLog config clock rt).trace (LogState.fresh Disk.empty ticks) calls)
        ((auditLog config clock rt).final (LogState.fresh Disk.empty ticks) calls).disk k
        removed kept := by
  have hstart : RetentionHistory config clock rt [] (LogState.fresh Disk.empty ticks) []
      ⟨none, []⟩ := {
    succeeded := by simp
    holds := ⟨rfl, fun path => by
      cases path with
      | backup index => cases index <;> rfl
      | _ => rfl⟩
    bounded := Nat.zero_le _
    inOrder := List.Pairwise.nil
    past := by simp [SegmentLog.segments]
    nonempty := by simp [SegmentLog.segments]
    fits := by simp [SegmentLog.segments]
    records := rfl
    justified := by simp
    active := fun h => absurd rfl h
    recovered := .inr rfl
    opened := rfl }
  obtain ⟨removed, log, h⟩ := (auditLog config clock rt).history_invariant
    (I := fun trace state => ∃ removed log,
      RetentionHistory config clock rt trace state removed log)
    (fun trace state call ⟨removed, log, h⟩ hcall => h.step hclock hcall)
    ⟨[], _, hstart⟩ ((auditLog config clock rt).along_of_mem hfaults _)
  exact ⟨h.succeeded, _, _, _, h.retained ((auditLog config clock rt).trace_ne_nil hne)⟩

/-- Two appends under tight limits: the second rotates. -/
theorem retention_over_runs_sample :
    (∀ exchange ∈ (auditLog ⟨⟨some 1, some 5, 1⟩, rfl⟩ (fun n => n) sampleRuntime).trace
        (LogState.fresh Disk.empty 0) [⟨sampleRecord, 1, none⟩, ⟨sampleRecord, 2, none⟩],
        exchange.2.result = .ok ()) ∧
      ∃ k removed kept, Retained ⟨⟨some 1, some 5, 1⟩, rfl⟩ (fun n => n) sampleRuntime
        ((auditLog ⟨⟨some 1, some 5, 1⟩, rfl⟩ (fun n => n) sampleRuntime).trace
          (LogState.fresh Disk.empty 0) [⟨sampleRecord, 1, none⟩, ⟨sampleRecord, 2, none⟩])
        ((auditLog ⟨⟨some 1, some 5, 1⟩, rfl⟩ (fun n => n) sampleRuntime).final
          (LogState.fresh Disk.empty 0)
          [⟨sampleRecord, 1, none⟩, ⟨sampleRecord, 2, none⟩]).disk k removed kept :=
  retention_over_runs ⟨⟨some 1, some 5, 1⟩, rfl⟩ (fun n => n) (fun _ _ h => Int.ofNat_le.2 h)
    sampleRuntime 0 _ (by simp) (by simp)

end HpGuardian

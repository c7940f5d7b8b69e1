import HpGuardian.Audit.FailedRotation
import HpGuardian.Framework.Meters
import HpGuardian.Parity.Recovery
import HpGuardian.Parity.Rotation
import HpGuardian.Python.Log

/-!
# What became of every line

Only two kinds of steps take a file out of a log: a rotation removes the oldest backup, and expired
backups are removed.  `Accounts` balances the lines of these files with those that the directory
still holds, in its slots or in a rotation under way, against all lines that were ever in the log.

The balance has two sides.  The lines of the files that are gone and the lines that are held are,
taken together, all lines; in which order the files have left does not matter.  And the lines that
are held are in the order in which they were written, whatever has happened to them (`Balanced`).

A rotation changes neither side until it removes its oldest file, since the lines of a directory
with a rotation under way are those of the files that recovery will drop and of the files it will
leave.  Every step of either runtime keeps the balance, wherever it is stopped: it is the crash
condition of the recovery of a rotation, of a rotation and of tail recovery.  What the steps have
taken out of the log up to the place where the program is stopped is counted by the meter of the
triples.

For both runtimes to carry on the rotation that they may find, its manifest must be one that both
read; `Readable` is kept along with the balance.
-/

namespace HpGuardian

open Framework

/-! ## Files that leave the log

What a step takes out of the log, by its label: the oldest backup in its staged place, or a backup
in its slot. -/

/-- The file that a step takes out of the log. -/
def retired (maxRotatedFiles : ℕ) (step : Disk × Operation) : List FileData :=
  match step.2 with
  | .remove (.stage transaction (.backup index)) =>
      if index = maxRotatedFiles then
        (step.1.files.lookup (.stage transaction (.backup index))).toList
      else []
  | .remove (.backup index) => (step.1.files.lookup (.backup index)).toList
  | _ => []

/-- No backup is removed from its slot. Rotations move backups and remove the oldest one in its
staged place; only the age limit removes others. -/
def LeavesBackups (label : Operation) : Prop := ∀ index, label ≠ .remove (.backup index)

theorem retired_eq_droppedFile {maxRotatedFiles : ℕ} {step : Disk × Operation}
    (h : LeavesBackups step.2) :
    retired maxRotatedFiles step = (droppedFile maxRotatedFiles step).toList := by
  obtain ⟨disk, label⟩ := step
  cases label with
  | remove path =>
      cases path with
      | stage transaction slot =>
          cases slot with
          | active => rfl
          | backup index =>
              simp only [retired, droppedFile]
              split_ifs <;> rfl
      | backup index => exact absurd rfl (h index)
      | _ => rfl
  | _ => rfl

theorem retired_eq_droppedFiles {maxRotatedFiles : ℕ} {steps : List (Disk × Operation)}
    (h : ∀ step ∈ steps, LeavesBackups step.2) :
    steps.flatMap (retired maxRotatedFiles) = droppedFiles maxRotatedFiles steps := by
  rw [droppedFiles, List.filterMap_eq_flatMap_toList]
  exact List.flatMap_congr fun step hstep => retired_eq_droppedFile (h step hstep)

theorem RemovesOldest.leavesBackups {manifest : RotationManifest} {orig : Contents} {disk : Disk}
    {label : Operation} (h : RemovesOldest manifest orig disk label) : LeavesBackups label := by
  rintro index rfl
  exact absurd (h _ rfl).1 (by simp)

/-! ## Balances

The balance of a directory in three situations: with a rotation under way, at rest, and at rest
with nothing behind the last complete line. -/

/-- The lines of the files that are gone and those that are held are all lines, and those that are
held have kept their order. The files that are gone may have left in any order. -/
structure Balanced (all : List Bytes) (gone : List FileData) (held : List Bytes) : Prop where
  complete : (gone.flatMap fileLines ++ held).Perm all
  ordered : held.Sublist all

/-- The lines that a directory holds. -/
def heldLines (maxRotatedFiles : ℕ) (pending : List FileData) (settled : Contents) : List Bytes :=
  pending.flatMap fileLines ++ gather fileLines settled (retainedPaths maxRotatedFiles)

/-- A rotation that is under way can be carried on by both runtimes: its manifest is one that both
read. Each runtime writes such manifests only. -/
def Readable (table : Python.AlnumTable) (disk : Disk) : Prop :=
  ∀ file, disk.manifest = some file →
    ∃ rotation : Rotation, file = .record rotation.manifest ∧ Shared table rotation

/-- The lines of the directory and of the files that are gone are all lines, with a rotation under
way or without. This is what every step of either runtime keeps, and what is left when a process is
killed. -/
def Accounts (table : Python.AlnumTable) (maxRotatedFiles : ℕ) (all : List Bytes)
    (gone : List FileData) (disk : Disk) : Prop :=
  Readable table disk ∧ ∃ pending settled, Underway maxRotatedFiles pending settled disk ∧
    Balanced all gone (heldLines maxRotatedFiles pending settled)

/-- The same, with no rotation under way: the lines that are held are those of the files in their
slots. -/
structure AtRest (maxRotatedFiles : ℕ) (all : List Bytes) (gone : List FileData) (disk : Disk) :
    Prop where
  quiet : disk.hasRotationEntry = false
  balanced : Balanced all gone
    (gather fileLines disk.files.lookup (retainedPaths maxRotatedFiles))

/-- The same, and the active file ends with a complete line, so that what is written behind it is a
line of its own. -/
structure Ready (maxRotatedFiles : ℕ) (all : List Bytes) (gone : List FileData) (disk : Disk) :
    Prop extends AtRest maxRotatedFiles all gone disk where
  terminated : ∀ file, disk.files.lookup .active = some file → tailOf newline file.content = []

section

variable {table : Python.AlnumTable} {maxRotatedFiles : ℕ} {all : List Bytes}
  {gone : List FileData} {disk : Disk}

theorem AtRest.accounts (h : AtRest maxRotatedFiles all gone disk) :
    Accounts table maxRotatedFiles all gone disk := by
  obtain ⟨hmanifest, hfiles⟩ := Disk.hasRotationEntry_eq_false_iff.1 h.quiet
  refine ⟨fun file hfile => ?_, [], _, .resting hmanifest hfiles, h.balanced⟩
  rw [hmanifest] at hfile
  cases hfile

/-- Without a manifest, nothing is under way. -/
theorem Accounts.atRest (h : Accounts table maxRotatedFiles all gone disk)
    (hmanifest : disk.manifest = none) : AtRest maxRotatedFiles all gone disk := by
  obtain ⟨-, pending, settled, hunderway, hbalanced⟩ := h
  cases hunderway with
  | resting _ hquiet =>
      exact ⟨Disk.hasRotationEntry_eq_false_iff.2 ⟨hmanifest, hquiet⟩, hbalanced⟩
  | staging _ _ _ h => exact absurd (h.written.symm.trans hmanifest) (by simp)
  | installing _ _ _ _ h => exact absurd (h.written.symm.trans hmanifest) (by simp)

/-- Files that were pending and are gone change their side of the balance. -/
theorem Balanced.drop {settled : Contents} {pending dropped pending' : List FileData}
    (h : Balanced all gone (heldLines maxRotatedFiles pending settled))
    (hdropped : dropped ++ pending' = pending) :
    Balanced all (gone ++ dropped) (heldLines maxRotatedFiles pending' settled) := by
  obtain ⟨hcomplete, hordered⟩ := h
  have hheld : heldLines maxRotatedFiles pending settled =
      dropped.flatMap fileLines ++ heldLines maxRotatedFiles pending' settled := by
    rw [heldLines, heldLines, ← hdropped, List.flatMap_append, List.append_assoc]
  rw [hheld] at hcomplete hordered
  refine ⟨?_, (List.sublist_append_right _ _).trans hordered⟩
  rwa [List.flatMap_append, List.append_assoc]

/-! ## A rotation is carried on

The recovery of a rotation, in the two runtimes.  Python's takes the same steps where the manifest
is one that both read, so its triple is carried over. -/

/-- The manifest of a rotation that is being carried on. -/
theorem recoverManifest_manifest {rotation : Rotation} {pending : List FileData}
    {settled : Contents} (h : Underway maxRotatedFiles pending settled disk)
    (hwritten : disk.manifest = some (.record rotation.manifest)) :
    (∀ step ∈ (recoverManifest writeManifestAtomically disk).steps,
      LeavesBackups step.2 ∧ (step.1.manifest = none ∨
        step.1.manifest = some (.record rotation.manifest) ∨
        step.1.manifest = some (.record rotation.installing.manifest))) ∧
      (recoverManifest writeManifestAtomically disk).result = .ok () ∧
      (recoverManifest writeManifestAtomically disk).final.manifest = none := by
  cases h with
  | resting hmanifest => exact absurd (hmanifest.symm.trans hwritten) (by simp)
  | staging hdescribes _ _ h =>
      obtain rfl := ManifestFile.record.inj (Option.some.inj (h.written.symm.trans hwritten))
      obtain ⟨hsteps, -⟩ := recoverManifest_staging hdescribes disk h
      obtain ⟨⟨⟩, hresult, hrotated⟩ := (recoverManifest_staging hdescribes).exists_ok h
      refine ⟨fun step hstep => ?_, hresult, hrotated.settled⟩
      obtain ⟨hconverging, hremoves⟩ := hsteps step hstep
      refine ⟨hremoves.leavesBackups, ?_⟩
      rcases hconverging with (hstaging | ⟨_, -, hinstalling⟩) | hrotated
      · exact .inr (.inl hstaging.written)
      · exact .inr (.inr hinstalling.written)
      · exact .inl hrotated.settled
  | installing hinstallable _ _ holdest h =>
      obtain rfl := ManifestFile.record.inj (Option.some.inj (h.written.symm.trans hwritten))
      obtain ⟨hsteps, -⟩ := recoverManifest_installing hinstallable disk ⟨_, holdest, h⟩
      obtain ⟨⟨⟩, hresult, hrotated⟩ :=
        (recoverManifest_installing hinstallable).exists_ok ⟨_, holdest, h⟩
      refine ⟨fun step hstep => ?_, hresult, hrotated.settled⟩
      obtain ⟨hcompleting, hremoves⟩ := hsteps step hstep
      refine ⟨hremoves.leavesBackups, ?_⟩
      rcases hcompleting with ⟨_, -, hinstalling⟩ | hrotated
      · exact .inr (.inl hinstalling.written)
      · exact .inl hrotated.settled

/-- Where the recovery of a rotation halts, what was pending is dropped or still pending. -/
theorem Underway.carriedOn {pending : List FileData} {settled : Contents}
    (h : Underway maxRotatedFiles pending settled disk) (hmanifest : disk.manifest.isSome = true)
    {steps : List (Disk × Operation)} {t : Disk}
    (hhalts : (recoverManifest writeManifestAtomically disk).Halts steps t) :
    ∃ pending', Underway maxRotatedFiles pending' settled t ∧
      droppedFiles maxRotatedFiles steps ++ pending' = pending := by
  cases h with
  | resting hnone =>
      rw [hnone] at hmanifest
      cases hmanifest
  | staging hdescribes hmax hunmarked h =>
      subst hmax
      exact recoverManifest_staging_halts hdescribes hunmarked h hhalts
  | installing hinstallable hmax hunmarked holdest h =>
      subst hmax
      exact recoverManifest_installing_halts hinstallable hunmarked holdest h hhalts

/-- The Rust recovery of a rotation keeps the balance, and completes the rotation. -/
theorem recoverManifest_metered :
    Program.Metered (retired maxRotatedFiles)
      (fun gone disk => Accounts table maxRotatedFiles all gone disk ∧
        disk.manifest.isSome = true)
      (recoverManifest writeManifestAtomically) (Accounts table maxRotatedFiles all)
      (fun _ => AtRest maxRotatedFiles all) (fun _ _ => False) := by
  rintro gone disk ⟨⟨hreadable, pending, settled, hunderway, hbalanced⟩, hmanifest⟩
  obtain ⟨file, hfile⟩ := Option.isSome_iff_exists.1 hmanifest
  obtain ⟨rotation, rfl, hshared⟩ := hreadable file hfile
  obtain ⟨hsteps, hresult, hfinal⟩ := recoverManifest_manifest hunderway hfile
  have hread : ∀ {disk : Disk}, (disk.manifest = none ∨
      disk.manifest = some (.record rotation.manifest) ∨
      disk.manifest = some (.record rotation.installing.manifest)) → Readable table disk := by
    rintro disk (h | h | h) file hfile
    · rw [h] at hfile
      cases hfile
    · exact ⟨rotation, Option.some.inj (hfile.symm.trans h), hshared⟩
    · exact ⟨rotation.installing, Option.some.inj (hfile.symm.trans h), hshared.installing⟩
  have hhalts : ∀ steps t, (recoverManifest writeManifestAtomically disk).Halts steps t →
      Accounts table maxRotatedFiles all (gone ++ steps.flatMap (retired maxRotatedFiles)) t := by
    intro steps t ht
    obtain ⟨pending', hunderway', hdropped⟩ := hunderway.carriedOn hmanifest ht
    have hkept : (∀ step ∈ steps, LeavesBackups step.2) ∧ Readable table t := by
      rcases ht with ⟨label, rest, hrest⟩ | ⟨rfl, rfl⟩
      · rw [hrest] at hsteps
        exact ⟨fun step hstep => (hsteps step (by simp [hstep])).1,
          hread (hsteps (t, label) (by simp)).2⟩
      · exact ⟨fun step hstep => (hsteps step hstep).1, hread (.inl hfinal)⟩
    rw [retired_eq_droppedFiles hkept.1]
    exact ⟨hkept.2, pending', settled, hunderway', hbalanced.drop hdropped⟩
  refine ⟨hhalts, ?_⟩
  rw [hresult]
  exact (hhalts _ _ (.inr ⟨rfl, rfl⟩)).atRest hfinal

/-- The Python recovery of a rotation keeps the balance as well. -/
theorem python_recoverManifest_metered {rt : JsonRuntime} {dumps : Json → Bytes} :
    Program.Metered (retired maxRotatedFiles)
      (fun gone disk => Accounts table maxRotatedFiles all gone disk ∧
        disk.manifest.isSome = true)
      (Python.recoverManifest rt table dumps) (Accounts table maxRotatedFiles all)
      (fun _ => AtRest maxRotatedFiles all) (fun _ _ => False) := by
  refine recoverManifest_metered.of_mirrors SameFailure fun gone disk h => ?_
  obtain ⟨⟨hreadable, -⟩, hmanifest⟩ := h
  obtain ⟨file, hfile⟩ := Option.isSome_iff_exists.1 hmanifest
  obtain ⟨rotation, rfl, hshared⟩ := hreadable file hfile
  exact hshared.mirrors rt dumps hfile

/-! ## A rotation

A rotation is its manifest put in place and a recovery, in both runtimes. -/

/-- A rotation that puts its manifest in place and recovers from it keeps the balance. -/
theorem rotation_metered {ε : Type} {p recovery : Program Disk Operation ε Unit} (begun : Begun)
    (hmax : 1 ≤ maxRotatedFiles) (hfits : maxRotatedFiles < 2 ^ 64)
    (hrun : ∀ disk : Disk, disk.hasRotationEntry = false →
      (disk.files.lookup .active).isSome = true →
      let rotation := newRotation begun.name maxRotatedFiles hmax disk
      p disk = ⟨(disk, .writeManifest rotation.manifest) :: (withManifest rotation disk, .sync) ::
          (recovery (withManifest rotation disk)).steps,
        (recovery (withManifest rotation disk)).final,
        (recovery (withManifest rotation disk)).result⟩)
    (hrecovery : Program.Metered (retired maxRotatedFiles)
      (fun gone disk => Accounts table maxRotatedFiles all gone disk ∧
        disk.manifest.isSome = true)
      recovery (Accounts table maxRotatedFiles all) (fun _ => AtRest maxRotatedFiles all)
      (fun _ _ => False)) :
    Program.Metered (retired maxRotatedFiles)
      (fun gone disk => AtRest maxRotatedFiles all gone disk ∧
        (disk.files.lookup .active).isSome = true)
      p (Accounts table maxRotatedFiles all) (fun _ => AtRest maxRotatedFiles all)
      (fun _ _ => False) := by
  rintro gone disk ⟨hrest, hactive⟩
  rw [hrun disk hrest.quiet hactive]
  obtain ⟨-, hfiles⟩ := Disk.hasRotationEntry_eq_false_iff.1 hrest.quiet
  -- with the manifest in place, the oldest backup is pending
  have hplaced : Accounts table maxRotatedFiles all gone
      (withManifest (newRotation begun.name maxRotatedFiles hmax disk) disk) := by
    refine ⟨fun file hfile => ⟨_, (Option.some.inj hfile).symm, begun.shared hmax hfits⟩, _, _,
      .staging (begun_describes begun hmax hrest.quiet hactive) rfl hfiles
        (withManifest_staging begun.name_isAlphanum hmax hfiles hactive), ?_⟩
    have hheld : heldLines maxRotatedFiles
        (disk.files.lookup (.backup maxRotatedFiles)).toList
        (rotatedContents maxRotatedFiles disk.files.lookup none) =
        gather fileLines disk.files.lookup (retainedPaths maxRotatedFiles) :=
      (gather_rotatedContents fileLines hmax disk.files.lookup none).trans (List.append_nil _)
    rw [hheld]
    exact hrest.balanced
  obtain ⟨hhalts, hend⟩ := hrecovery gone _ ⟨hplaced, rfl⟩
  refine ⟨fun steps t ht => ?_, hend⟩
  rcases Program.halts_cons ht with ⟨rfl, rfl⟩ | ⟨steps₁, rfl, ht₁⟩
  · simpa using hrest.accounts
  rcases Program.halts_cons ht₁ with ⟨rfl, rfl⟩ | ⟨steps₂, rfl, ht₂⟩
  · simpa [retired] using hplaced
  · exact hhalts steps₂ t ht₂

theorem rotateCurrent_metered (nanos : ℕ) (hmax : 1 ≤ maxRotatedFiles)
    (hfits : maxRotatedFiles < 2 ^ 64) :
    Program.Metered (retired maxRotatedFiles)
      (fun gone disk => AtRest maxRotatedFiles all gone disk ∧
        (disk.files.lookup .active).isSome = true)
      (rotateCurrent writeManifestAtomically maxRotatedFiles nanos)
      (Accounts table maxRotatedFiles all) (fun _ => AtRest maxRotatedFiles all)
      (fun _ _ => False) :=
  rotation_metered (.rust nanos) hmax hfits
    (fun _ hquiet _ => rotateCurrent_apply (Disk.hasRotationEntry_eq_false_iff.1 hquiet).2)
    recoverManifest_metered

theorem python_rotate_metered {rt : JsonRuntime} {dumps : Json → Bytes} (random : ℕ)
    (hmax : 1 ≤ maxRotatedFiles) (hfits : maxRotatedFiles < 2 ^ 64) :
    Program.Metered (retired maxRotatedFiles)
      (fun gone disk => AtRest maxRotatedFiles all gone disk ∧
        (disk.files.lookup .active).isSome = true)
      (Python.rotate rt table dumps maxRotatedFiles random)
      (Accounts table maxRotatedFiles all) (fun _ => AtRest maxRotatedFiles all)
      (fun _ _ => False) :=
  rotation_metered (.python random) hmax hfits
    (fun _ hquiet hactive => python_rotate_apply random hmax hfits hquiet hactive)
    python_recoverManifest_metered

/-! ## Tail recovery

The check of the files cuts tails off and keeps lines.  The two runtimes check by different rules;
what they have in common is enough for the balance. -/

/-- Files with the same lines keep the balance. -/
theorem AtRest.congr (h : AtRest maxRotatedFiles all gone disk) {disk' : Disk}
    (hquiet : disk'.hasRotationEntry = false)
    (hlines : ∀ path, ((disk'.files.lookup path).map fileLines).getD [] =
      ((disk.files.lookup path).map fileLines).getD []) :
    AtRest maxRotatedFiles all gone disk' := by
  refine ⟨hquiet, ?_⟩
  have hgather : gather fileLines disk'.files.lookup (retainedPaths maxRotatedFiles) =
      gather fileLines disk.files.lookup (retainedPaths maxRotatedFiles) := by
    simp only [gather, hlines]
  rw [hgather]
  exact h.balanced

/-- A file that is cut keeps its lines and loses its tail. -/
theorem fileLines_cut (file : FileData) (stamp : Instant) :
    fileLines ⟨file.content.take (completeText newline file.content).length, stamp⟩ =
        fileLines file ∧
      tailOf newline (file.content.take (completeText newline file.content).length) = [] := by
  rw [fileLines, take_completeText]
  exact linesOf_completeText newline file.content

/-- A file without its tail. -/
theorem AtRest.truncate (h : AtRest maxRotatedFiles all gone disk) {path : Path} {file : FileData}
    (hfile : disk.files.lookup path = some file) (hpath : path.isRotation = false)
    (stamp : Instant) :
    AtRest maxRotatedFiles all gone
      (truncateFile path (completeText newline file.content).length stamp disk) := by
  have hlookup := lookup_truncateFile (completeText newline file.content).length stamp hfile
  obtain ⟨hmanifest, hfiles⟩ := Disk.hasRotationEntry_eq_false_iff.1 h.quiet
  refine h.congr (Disk.hasRotationEntry_eq_false_iff.2
    ⟨by rw [truncateFile_manifest, hmanifest], fun path' hpath' => ?_⟩) fun path' => ?_
  · rw [hlookup, if_neg, hfiles path' hpath']
    rintro rfl
    rw [hpath] at hpath'
    cases hpath'
  · rw [hlookup]
    split_ifs with heq
    · rw [heq, hfile, Option.map_some, Option.map_some, Option.getD_some, Option.getD_some,
        (fileLines_cut file stamp).1]
    · rfl

/-- The active file ends with a complete line. -/
def Terminates (disk : Disk) : Prop :=
  ∀ file, disk.files.lookup .active = some file → tailOf newline file.content = []

/-- Recovery of one file keeps the balance, and cuts the tail off an active file. -/
theorem recoverBy_metered {ε : Type} {check : Path → Bytes → Except ε (Option ℕ)}
    {corrupt : ε → Prop} {refuses : Bytes → Prop} (hcheck : ChecksTail check corrupt refuses)
    (stamp : Instant) {path : Path} (hpath : path.isRotation = false) (rest : List Path) :
    Program.Metered (retired maxRotatedFiles)
      (fun gone disk => AtRest maxRotatedFiles all gone disk ∧
        (.active ∈ path :: rest ∨ Terminates disk))
      (recoverBy check stamp path) (AtRest maxRotatedFiles all)
      (fun _ gone disk => AtRest maxRotatedFiles all gone disk ∧
        (.active ∈ rest ∨ Terminates disk))
      (AtRest maxRotatedFiles all) := by
  refine .of_forall fun gone disk ⟨hrest, hpending⟩ => .read_bind fun found => ?_
  -- what is still to be cut, if this file has no tail
  have hnext : ∀ disk' : Disk, (path = .active → Terminates disk') →
      (∀ file, disk'.files.lookup .active = some file → path ≠ .active →
        disk.files.lookup .active = some file) →
      .active ∈ rest ∨ Terminates disk' := by
    intro disk' hself hother
    by_cases hactive : path = .active
    · exact .inr (hself hactive)
    · rcases hpending with hpending | hpending
      · exact .inl ((List.mem_cons.1 hpending).resolve_left (Ne.symm hactive))
      · exact .inr fun file hfile => hpending file (hother file hfile hactive)
  cases found with
  | none =>
      refine .pure ?_
      rintro _ _ ⟨⟨rfl, rfl⟩, hfile⟩
      refine ⟨hrest, hrest, hnext _ (fun hactive file hfile' => ?_) fun _ h _ => h⟩
      rw [← hactive, hfile] at hfile'
      cases hfile'
  | some file =>
      by_cases hrefuses : refuses file.content
      · obtain ⟨error, -, herror⟩ := hcheck.refused path file.content hrefuses
        simp only [herror]
        exact .raise fun _ _ h => by
          obtain ⟨⟨rfl, rfl⟩, -⟩ := h
          exact ⟨hrest, hrest⟩
      · have haccepted := hcheck.accepted path file.content hrefuses
        by_cases htail : tailOf newline file.content = []
        · rw [if_pos htail] at haccepted
          simp only [haccepted]
          refine .pure ?_
          rintro _ _ ⟨⟨rfl, rfl⟩, hfile⟩
          refine ⟨hrest, hrest, hnext _ (fun hactive file' hfile' => ?_) fun _ h _ => h⟩
          rw [← hactive, hfile] at hfile'
          obtain rfl := Option.some.inj hfile'
          exact htail
        · rw [if_neg htail] at haccepted
          simp only [haccepted]
          have hcut : disk.files.lookup path = some file → AtRest maxRotatedFiles all gone
              (truncateFile path (completeText newline file.content).length stamp disk) :=
            fun hfile => hrest.truncate hfile hpath stamp
          have hdone : disk.files.lookup path = some file → .active ∈ rest ∨ Terminates
              (truncateFile path (completeText newline file.content).length stamp disk) := by
            intro hfile
            have hlookup :=
              lookup_truncateFile (completeText newline file.content).length stamp hfile
            refine hnext _ (fun hactive file' hfile' => ?_) fun file' hfile' hactive => ?_
            · rw [hlookup, if_pos hactive.symm] at hfile'
              obtain rfl := Option.some.inj hfile'
              exact (fileLines_cut file stamp).2
            · rwa [hlookup, if_neg (Ne.symm hactive)] at hfile'
          refine Program.Metered.bind (R := fun _ gone' disk' =>
            AtRest maxRotatedFiles all gone' disk' ∧ (.active ∈ rest ∨ Terminates disk'))
            (.step ?_) fun _ => .step fun gone' disk' h => ?_
          · rintro _ _ ⟨⟨rfl, rfl⟩, hfile⟩
            simp only [retired, List.append_nil]
            exact ⟨hrest, hcut hfile, hcut hfile, hdone hfile⟩
          · simp only [retired, List.append_nil]
            exact ⟨h.1, h.1, h⟩

/-- Recovery of all files keeps the balance, and leaves an active file without a tail. -/
theorem forEach_recoverBy_metered {ε : Type} {check : Path → Bytes → Except ε (Option ℕ)}
    {corrupt : ε → Prop} {refuses : Bytes → Prop} (hcheck : ChecksTail check corrupt refuses)
    (stamp : Instant) {paths : List Path} (hpaths : ∀ path ∈ paths, path.isRotation = false)
    (hactive : .active ∈ paths) :
    Program.Metered (retired maxRotatedFiles) (AtRest maxRotatedFiles all)
      (Program.forEach (recoverBy check stamp) paths) (AtRest maxRotatedFiles all)
      (fun _ => Ready maxRotatedFiles all) (AtRest maxRotatedFiles all) := by
  have hloop : Program.Metered (retired maxRotatedFiles)
      (fun gone disk => AtRest maxRotatedFiles all gone disk ∧
        (.active ∈ paths ∨ Terminates disk))
      (Program.forEach (recoverBy check stamp) paths) (AtRest maxRotatedFiles all)
      (fun _ gone disk => AtRest maxRotatedFiles all gone disk ∧
        (.active ∈ ([] : List Path) ∨ Terminates disk))
      (AtRest maxRotatedFiles all) := by
    refine .forEach (I := fun rest gone disk => AtRest maxRotatedFiles all gone disk ∧
      (Path.active ∈ rest ∨ Terminates disk)) (fun _ _ h => h.1) fun path rest hdone => ?_
    obtain ⟨done, rfl⟩ := hdone
    exact recoverBy_metered hcheck stamp (hpaths path (by simp)) rest
  refine hloop.conseq (fun _ _ h => ⟨h, .inl hactive⟩) (fun _ _ h => h) (fun _ _ disk h => ?_)
    fun _ _ h => h
  exact ⟨h.1, h.2.resolve_left List.not_mem_nil⟩

variable (table maxRotatedFiles all) in
/-- `recover_tails` keeps the balance. -/
theorem recoverTails_metered (rt : JsonRuntime) (stamp : Instant) :
    Program.Metered (retired maxRotatedFiles) (Accounts table maxRotatedFiles all)
      (recoverTails rt maxRotatedFiles stamp) (Accounts table maxRotatedFiles all)
      (fun _ => Ready maxRotatedFiles all) (AtRest maxRotatedFiles all) := by
  have hpending : Program.Metered (retired maxRotatedFiles) (Accounts table maxRotatedFiles all)
      recoverPending (Accounts table maxRotatedFiles all) (fun _ => AtRest maxRotatedFiles all)
      (AtRest maxRotatedFiles all) := by
    refine .read_bind fun manifestExists => ?_
    split
    · exact recoverManifest_metered.conseq (fun _ _ h => ⟨h.1, by rw [h.2]; assumption⟩)
        (fun _ _ h => h) (fun _ _ _ h => h) fun _ _ h => h.elim
    · refine .pure fun gone disk h => ⟨h.1, h.1.atRest ?_⟩
      rw [← Option.not_isSome_iff_eq_none, h.2]
      assumption
  have hleftovers : Program.Metered (retired maxRotatedFiles) (AtRest maxRotatedFiles all)
      refuseLeftovers (Accounts table maxRotatedFiles all) (fun _ => AtRest maxRotatedFiles all)
      (AtRest maxRotatedFiles all) := by
    refine .read_bind fun entry => ?_
    split
    · exact .raise fun _ _ h => ⟨h.1.accounts, h.1⟩
    · exact .pure fun _ _ h => ⟨h.1.accounts, h.1⟩
  refine hpending.bind fun _ => hleftovers.bind fun _ => ?_
  rw [recoverTail_eq_recoverBy]
  refine (forEach_recoverBy_metered (checkTail_checksTail rt) stamp (fun path hpath => ?_)
    List.mem_cons_self).conseq (fun _ _ h => h) (fun _ _ h => h.accounts) (fun _ _ _ h => h)
    fun _ _ h => h
  obtain ⟨slot, -, rfl⟩ := mem_logPaths.1 hpath
  cases slot <;> rfl

variable (table maxRotatedFiles all) in
/-- `_recover_tails` keeps the balance. -/
theorem python_recoverTails_metered (rt : JsonRuntime) (dumps : Json → Bytes) (log : String)
    (stamp : Instant) :
    Program.Metered (retired maxRotatedFiles) (Accounts table maxRotatedFiles all)
      (do
        Python.recoverInterrupted rt table dumps
        Program.mapError Python.ManifestError.auditError
          (Python.recoverTails rt log (pure ()) stamp))
      (Accounts table maxRotatedFiles all) (fun _ => Ready maxRotatedFiles all)
      (AtRest maxRotatedFiles all) := by
  have hinterrupted : Program.Metered (retired maxRotatedFiles)
      (Accounts table maxRotatedFiles all) (Python.recoverInterrupted rt table dumps)
      (Accounts table maxRotatedFiles all) (fun _ => AtRest maxRotatedFiles all)
      (AtRest maxRotatedFiles all) := by
    refine .read_bind fun manifestExists => ?_
    split
    · exact python_recoverManifest_metered.conseq (fun _ _ h => ⟨h.1, by rw [h.2]; assumption⟩)
        (fun _ _ h => h) (fun _ _ _ h => h) fun _ _ h => h.elim
    · refine .pure fun gone disk h => ⟨h.1, h.1.atRest ?_⟩
      rw [← Option.not_isSome_iff_eq_none, h.2]
      assumption
  refine hinterrupted.bind fun _ => .mapError (.of_forall fun gone disk hrest => ?_) _
  have hloop : Program.Metered (retired maxRotatedFiles) (AtRest maxRotatedFiles all)
      (Program.forEach
        (recoverBy (fun path => Python.checkFileTail rt (Python.pathText log path)) stamp)
        (Python.logPaths disk))
      (AtRest maxRotatedFiles all) (fun _ => Ready maxRotatedFiles all)
      (AtRest maxRotatedFiles all) := by
    refine forEach_recoverBy_metered (checkFileTail_checksTail rt (Python.pathText log)) stamp
      (fun path hpath => ?_) List.mem_cons_self
    rcases List.mem_cons.1 hpath with rfl | hpath
    · rfl
    · obtain ⟨index, -, rfl⟩ := List.mem_map.1 hpath
      rfl
  rintro spent start ⟨rfl, rfl⟩
  obtain ⟨hhalts, hend⟩ := hloop spent start hrest
  rw [Python.recoverTails_apply hrest.quiet, Python.recoverFileTail_eq_recoverBy]
  refine ⟨fun steps t ht => (hhalts steps t ht).accounts, ?_⟩
  exact hend

end

end HpGuardian

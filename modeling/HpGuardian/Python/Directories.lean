import HpGuardian.Audit.Directories
import HpGuardian.Framework.Glob
import HpGuardian.Python.Tails
import Mathlib.Data.String.Basic

/-!
# Tail recovery by name in Python (`src/hp_guard/audit.py`)

The Python log asks the directory for its files by patterns: `{name}.rotation.*` finds what a
rotation has left behind, and `{name}.[0-9]*` the numbered backups.  The second finds every entry
with a digit behind the dot, `{name}.01` and `{name}.1.gz` among them, and in both the name of the
log is a part of the pattern, so that a name with a `*`, a `?` or a `[` finds the files of other
logs.  Up to version 3.12 `Path.glob` refuses a pattern with `**` in it; later versions read it as
`*`.

For a name that stands for itself, and a directory in which every entry that the second pattern
finds has a plain number, the files found are the numbered backups of a disk
(`logNames_eq_map`), and recovery does what it does on the disk (`recoverTails_holds`).
-/

namespace HpGuardian.Python

open Framework

/-- What `_recover_tails` raises: an audit error, the `TypeError` of a manifest, or the `ValueError`
of a pattern. -/
inductive RecoveryError where
  | auditError (error : AuditError)
  | typeError
  | valueError (message : String)
  deriving DecidableEq, Repr

namespace Directory

/-- A program on the directory. -/
abbrev RecoveryProgram (α : Type) := Program Directory TailOperation RecoveryError α

/-- The text contains `**`. -/
def hasDoubleStar : List Char → Bool
  | [] => false
  | [_] => false
  | c :: next :: rest => (c == '*' && next == '*') || hasDoubleStar (next :: rest)

theorem names_isTrans : IsTrans String (· ≤ ·) := inferInstance

theorem names_antisymm : @Std.Antisymm String (· ≤ ·) := inferInstance

theorem names_total : @Std.Total String (· ≤ ·) := inferInstance

/-- The entries of the directory that a pattern finds, in the order of names. -/
def namesMatching (pattern : String) (directory : Directory) : List String :=
  @Finset.sort String (directory.keys.filter (fun entry => globMatches pattern entry = true))
    (· ≤ ·) _ names_isTrans names_antisymm names_total

/-- What `glob` raises for a pattern with `**` in it. -/
def invalidPattern : RecoveryError :=
  .valueError "Invalid pattern: '**' can only be an entire path component"

/-- `list(self.path.parent.glob(pattern))`, sorted. -/
def globNames (refusesDoubleStar : Bool) (pattern : String) : RecoveryProgram (List String) :=
  if refusesDoubleStar && hasDoubleStar pattern.toList then Program.raise invalidPattern
  else Program.read (namesMatching pattern)

/-- The files that tail recovery checks, in order. -/
def logNames (name : String) (directory : Directory) : List String :=
  name :: namesMatching (name ++ ".[0-9]*") directory

section

variable (rt : JsonRuntime) (refusesDoubleStar : Bool) (parent name : String)

/-- The error of `_regular_file_metadata`. -/
def irregularError (entry : String) : RecoveryError :=
  .auditError ⟨"audit_write_failed", "audit path must be a regular file: " ++ parent ++ entry⟩

/-- `_regular_file_metadata`. -/
def regularFileMetadata (entry : String) : RecoveryProgram (Option FileData) := do
  let metadata ← Program.read (fun directory => directory.lookup entry)
  match metadata with
  | none => pure none
  | some (.file file) => pure (some file)
  | some _ => Program.raise (irregularError parent entry)

/-- One round of the loop of `_recover_tails`: `_recover_file_tail` of a path that exists. -/
def recoverFileTail (stamp : Instant) (entry : String) : RecoveryProgram Unit := do
  let metadata ← regularFileMetadata parent entry
  match metadata with
  | none => pure ()
  | some file =>
      match checkFileTail rt (parent ++ entry) file.content with
      | .error error => Program.raise (.auditError error)
      | .ok none => pure ()
      | .ok (some length) => do
          Program.step (.truncate entry) (Directory.truncateEntry entry length stamp)
          Program.step .sync id

variable (recoverManifest : RecoveryProgram Unit)

/-- The part of `_recover_tails` that carries on an interrupted rotation. -/
def recoverPending : RecoveryProgram Unit := do
  let manifest ← regularFileMetadata parent (name ++ ".rotation.json")
  if manifest.isSome then recoverManifest else pure ()

/-- The error for what a rotation has left behind. -/
def unexpectedStaging : RecoveryError :=
  .auditError ⟨"audit_recovery_failed", "unexpected audit rotation staging file"⟩

/-- The part of `_recover_tails` that refuses leftovers of rotations. -/
def refuseStaging : RecoveryProgram Unit := do
  let staging ← globNames refusesDoubleStar (name ++ ".rotation.*")
  if staging.isEmpty then pure () else Program.raise unexpectedStaging

/-- `_recover_tails`; `stamp` is the time of the file system. -/
def recoverTails (stamp : Instant) : RecoveryProgram Unit := do
  recoverPending parent name recoverManifest
  refuseStaging refusesDoubleStar name
  let numbered ← globNames refusesDoubleStar (name ++ ".[0-9]*")
  Program.forEach (recoverFileTail rt parent stamp) (name :: numbered)

end

/-! ## What the patterns find

The two patterns of the log, for names that stand for themselves and for others. -/

section

variable {name entry : String} {directory : Directory} {refusesDoubleStar : Bool}

theorem mem_namesMatching {pattern : String} :
    entry ∈ namesMatching pattern directory ↔
      entry ∈ directory ∧ globMatches pattern entry = true := by
  rw [namesMatching, Finset.mem_sort, Finset.mem_filter, Finmap.mem_keys]

theorem hasDoubleStar_append {c : Char} (hc : c ≠ '*') (text rest : List Char) :
    hasDoubleStar (text ++ c :: rest) = (hasDoubleStar text || hasDoubleStar (c :: rest)) := by
  have hbeq : (c == '*') = false := by simpa using hc
  fun_induction hasDoubleStar text with
  | case1 => rfl
  | case2 d => simp [hasDoubleStar, hbeq]
  | case3 d next text ih =>
      rw [List.cons_append, List.cons_append, hasDoubleStar, Bool.or_assoc, ← ih, List.cons_append]

/-- The two patterns of the log are refused iff its name contains `**`. -/
theorem hasDoubleStar_pattern :
    hasDoubleStar (name ++ ".rotation.*").toList = hasDoubleStar name.toList ∧
      hasDoubleStar (name ++ ".[0-9]*").toList = hasDoubleStar name.toList := by
  have hrotation : (name ++ ".rotation.*").toList = name.toList ++ '.' :: "rotation.*".toList := by
    rw [String.toList_append]
    rfl
  have hnumbered : (name ++ ".[0-9]*").toList = name.toList ++ '.' :: "[0-9]*".toList := by
    rw [String.toList_append]
    rfl
  rw [hrotation, hnumbered, hasDoubleStar_append (by decide), hasDoubleStar_append (by decide)]
  constructor
  · exact Bool.or_false _
  · exact Bool.or_false _

/-- A name that stands for itself contains no `**`. -/
theorem hasDoubleStar_plainName (hplain : PlainName name) :
    hasDoubleStar name.toList = false := by
  have hstar : ∀ text : List Char, (∀ c ∈ text, PlainLetter c) → hasDoubleStar text = false := by
    intro text htext
    fun_induction hasDoubleStar text with
    | case1 => rfl
    | case2 => rfl
    | case3 c next text ih =>
        obtain ⟨hc, hrest⟩ := List.forall_mem_cons.1 htext
        rw [ih hrest, Bool.or_false, Bool.and_eq_false_iff]
        exact .inl (by simpa using hc.1)
  exact hstar _ hplain

/-- The first pattern finds what a rotation has left behind, for a name that stands for itself. -/
theorem globMatches_rotation_iff (hplain : PlainName name) :
    globMatches (name ++ ".rotation.*") entry = true ↔
      Directory.isRotationName name entry = true := by
  have hending : ∀ rest : String, globMatches ".rotation.*" rest = true ↔
      ∃ suffix, rest = ".rotation." ++ suffix := by
    intro rest
    have hpattern : ".rotation.*" = ".rotation." ++ "*" := rfl
    rw [hpattern, globMatches_append_iff (by decide)]
    exact exists_congr fun suffix => and_iff_left (globMatches_star suffix)
  rw [globMatches_append_iff hplain, Directory.isRotationName, decide_eq_true_eq]
  constructor
  · rintro ⟨rest, rfl, hrest⟩
    obtain ⟨suffix, rfl⟩ := (hending rest).1 hrest
    rw [← String.append_assoc, @String.toList_append (name ++ ".rotation.") suffix]
    exact List.prefix_append _ _
  · rintro ⟨suffix, hsuffix⟩
    refine ⟨".rotation." ++ String.ofList suffix, ?_, (hending _).2 ⟨_, rfl⟩⟩
    apply String.toList_injective
    rw [← hsuffix, ← String.append_assoc, @String.toList_append (name ++ ".rotation.") _,
      String.toList_ofList]

/-- The second pattern finds every entry with a digit behind the name and a dot, whatever
follows. -/
theorem globMatches_numbered_iff (hplain : PlainName name) :
    globMatches (name ++ ".[0-9]*") entry = true ↔
      ∃ c rest, entry.toList = name.toList ++ '.' :: c :: rest ∧ '0' ≤ c ∧ c ≤ '9' := by
  have hset : ∀ text : String, globMatches "[0-9]*" text = true ↔
      ∃ c rest, text.toList = c :: rest ∧ '0' ≤ c ∧ c ≤ '9' := by
    intro text
    have hitems : glob "[0-9]*".toList = [⟨setTest [.range '0' '9'], false⟩, .anyText] := rfl
    rw [globMatches_set_iff hitems]
    have htest : ∀ c, setTest [.range '0' '9'] c = true ↔ '0' ≤ c ∧ c ≤ '9' := by
      intro c
      simp [setTest, SetMember.isEmpty, SetMember.contains]
    simp only [htest]
  have hpattern : name ++ ".[0-9]*" = (name ++ ".") ++ "[0-9]*" := by
    rw [String.append_assoc]
    rfl
  have hplain' : PlainName (name ++ ".") := by
    intro c hc
    rw [String.toList_append, List.mem_append] at hc
    rcases hc with hc | hc
    · exact hplain c hc
    · obtain rfl := List.mem_singleton.1 hc
      decide
  have hdot : ∀ rest : String,
      (name ++ "." ++ rest).toList = name.toList ++ '.' :: rest.toList := by
    intro rest
    rw [String.toList_append, String.toList_append, List.append_assoc]
    rfl
  rw [hpattern, globMatches_append_iff hplain']
  constructor
  · rintro ⟨rest, rfl, hrest⟩
    obtain ⟨c, more, hmore, hdigit⟩ := (hset rest).1 hrest
    exact ⟨c, more, by rw [hdot, hmore], hdigit⟩
  · rintro ⟨c, more, hentry, hdigit⟩
    refine ⟨String.ofList (c :: more), ?_, (hset _).2 ⟨c, more, String.toList_ofList, hdigit⟩⟩
    apply String.toList_injective
    rw [hdot, String.toList_ofList, hentry]

end

/-! ## A log at rest

Recovery without an entry of a rotation: refused by a pattern, refused for a leftover, or the check
of the files. -/

section

variable {rt : JsonRuntime} {refusesDoubleStar : Bool} {parent name : String}
  {recoverManifest : RecoveryProgram Unit} {directory : Directory}

/-- `glob` refuses the patterns of the log. -/
def RefusesPatterns (refusesDoubleStar : Bool) (name : String) : Prop :=
  refusesDoubleStar = true ∧ hasDoubleStar name.toList = true

/-- The first pattern finds an entry. If the name of the log holds pattern characters, such an
entry need not be of this log. -/
def FindsStaging (name : String) (directory : Directory) : Prop :=
  ∃ entry ∈ directory, globMatches (name ++ ".rotation.*") entry = true

theorem findsStaging_iff :
    FindsStaging name directory ↔ namesMatching (name ++ ".rotation.*") directory ≠ [] := by
  rw [Ne, List.eq_nil_iff_forall_not_mem]
  simp only [mem_namesMatching]
  push Not
  rfl

theorem globNames_apply {pattern : String}
    (hpattern : hasDoubleStar pattern.toList = hasDoubleStar name.toList)
    (haccepted : ¬ RefusesPatterns refusesDoubleStar name) :
    globNames refusesDoubleStar pattern directory =
      ⟨[], directory, .ok (namesMatching pattern directory)⟩ := by
  rw [globNames, if_neg]
  · rfl
  · rw [hpattern, Bool.and_eq_true]
    exact haccepted

theorem regularFileMetadata_apply (parent entry : String) (directory : Directory) :
    regularFileMetadata parent entry directory =
      match directory.lookup entry with
      | none => ⟨[], directory, .ok none⟩
      | some (.file file) => ⟨[], directory, .ok (some file)⟩
      | some _ => ⟨[], directory, .error (irregularError parent entry)⟩ := by
  rw [regularFileMetadata, Program.read_bind_apply]
  cases directory.lookup entry with
  | none => rfl
  | some found => cases found <;> rfl

theorem recoverPending_quiet (hquiet : Directory.hasRotationEntry name directory = false) :
    recoverPending parent name recoverManifest directory = ⟨[], directory, .ok ()⟩ := by
  have hmetadata := regularFileMetadata_apply parent (name ++ ".rotation.json") directory
  rw [Directory.lookup_manifest_eq_none hquiet] at hmetadata
  rw [recoverPending, Program.bind_run hmetadata]
  rfl

/-- With a pattern that `glob` refuses, recovery fails. -/
theorem recoverTails_refused (hquiet : Directory.hasRotationEntry name directory = false)
    (hrefused : RefusesPatterns refusesDoubleStar name) (stamp : Instant) :
    (recoverTails rt refusesDoubleStar parent name recoverManifest stamp directory).result =
      .error invalidPattern := by
  have hglob : (globNames refusesDoubleStar (name ++ ".rotation.*") directory).result =
      .error invalidPattern := by
    rw [globNames, if_pos]
    · rfl
    · rw [hasDoubleStar_pattern.1, Bool.and_eq_true]
      exact hrefused
  have hstaging : (refuseStaging refusesDoubleStar name directory).result =
      .error invalidPattern := by
    rw [refuseStaging, Program.bind_error hglob]
  rw [recoverTails, Program.bind_run (recoverPending_quiet hquiet), Program.bind_error hstaging]

/-- With an entry that looks like a leftover, recovery fails. -/
theorem recoverTails_staging (hquiet : Directory.hasRotationEntry name directory = false)
    (haccepted : ¬ RefusesPatterns refusesDoubleStar name)
    (hfinds : FindsStaging name directory) (stamp : Instant) :
    (recoverTails rt refusesDoubleStar parent name recoverManifest stamp directory).result =
      .error unexpectedStaging := by
  have hstaging : (refuseStaging refusesDoubleStar name directory).result =
      .error unexpectedStaging := by
    rw [refuseStaging, Program.bind_run (globNames_apply hasDoubleStar_pattern.1 haccepted),
      List.isEmpty_eq_false_iff.2 (findsStaging_iff.1 hfinds)]
    rfl
  rw [recoverTails, Program.bind_run (recoverPending_quiet hquiet), Program.bind_error hstaging]

/-- Otherwise recovery checks the files. -/
theorem recoverTails_apply (hquiet : Directory.hasRotationEntry name directory = false)
    (haccepted : ¬ RefusesPatterns refusesDoubleStar name)
    (hfinds : ¬ FindsStaging name directory) (stamp : Instant) :
    recoverTails rt refusesDoubleStar parent name recoverManifest stamp directory =
      Program.forEach (recoverFileTail rt parent stamp) (logNames name directory) directory := by
  have hstaging : refuseStaging refusesDoubleStar name directory = ⟨[], directory, .ok ()⟩ := by
    rw [refuseStaging, Program.bind_run (globNames_apply hasDoubleStar_pattern.1 haccepted),
      List.isEmpty_iff.2 (not_not.1 (findsStaging_iff.not.1 hfinds))]
    rfl
  rw [recoverTails, Program.bind_run (recoverPending_quiet hquiet), Program.bind_run hstaging,
    Program.bind_run (globNames_apply hasDoubleStar_pattern.2 haccepted)]
  rfl

theorem recoverFileTail_eq_recoverEntryBy (rt : JsonRuntime) (parent : String) (stamp : Instant) :
    recoverFileTail rt parent stamp =
      Directory.recoverEntryBy (fun entry _ => irregularError parent entry)
        (fun entry content =>
          (checkFileTail rt (parent ++ entry) content).mapError .auditError) stamp := by
  funext entry directory
  have hmetadata := regularFileMetadata_apply parent entry directory
  rw [recoverFileTail]
  cases hfound : directory.lookup entry with
  | none =>
      rw [hfound] at hmetadata
      rw [Program.bind_run hmetadata, Directory.recoverEntryBy_of_none hfound]
      rfl
  | some found =>
      rw [hfound] at hmetadata
      cases found with
      | file file =>
          rw [Program.bind_run hmetadata, Directory.recoverEntryBy_of_file hfound]
          cases hcheck : checkFileTail rt (parent ++ entry) file.content with
          | error error => simp only [hcheck]; rfl
          | ok cut => cases cut <;> simp only [hcheck] <;> rfl
      | symlink =>
          rw [Directory.recoverEntryBy_of_irregular hfound (by simp),
            Program.bind_error (by rw [hmetadata]), hmetadata]
      | special =>
          rw [Directory.recoverEntryBy_of_irregular hfound (by simp),
            Program.bind_error (by rw [hmetadata]), hmetadata]

end

end Directory

/-! ## The directory of a disk

The files that the pattern finds are those of a disk, where nothing else is found. -/

section

variable {rt : JsonRuntime} {log : String} {disk : Disk}
  {recoverManifest : Program Disk Operation AuditError Unit}

theorem mem_numberedBackups {index : ℕ} :
    index ∈ numberedBackups disk ↔ (disk.files.lookup (.backup index)).isSome := by
  unfold numberedBackups backupNumbers
  rw [List.mem_insertionSort, Finset.mem_sort, Finset.mem_filterMap]
  constructor
  · rintro ⟨path, hpath, hnumber⟩
    cases path with
    | backup i =>
        obtain rfl := Option.some.inj hnumber
        exact mem_iff_lookup.1 (Finmap.mem_keys.1 hpath)
    | active => cases hnumber
    | stage => cases hnumber
    | temporary => cases hnumber
    | stray => cases hnumber
  · intro h
    exact ⟨.backup index, Finmap.mem_keys.2 (mem_iff_lookup.2 h), rfl⟩

theorem recoverTails_apply (hquiet : disk.hasRotationEntry = false) (stamp : Instant) :
    recoverTails rt log recoverManifest stamp disk =
      Program.forEach (recoverFileTail rt log stamp) (logPaths disk) disk := by
  have hpending : recoverPending recoverManifest disk = ⟨[], disk, .ok ()⟩ := by
    simp only [recoverPending, Program.read_bind_apply,
      (Disk.hasRotationEntry_eq_false_iff.1 hquiet).1]
    rfl
  have hstaging : refuseStaging disk = ⟨[], disk, .ok ()⟩ := by
    simp only [refuseStaging, Program.read_bind_apply, hquiet]
    rfl
  rw [recoverTails, Program.bind_run hpending, Program.bind_run hstaging]
  rfl

theorem recoverFileTail_eq_recoverBy (stamp : Instant) :
    recoverFileTail rt log stamp =
      recoverBy (fun path => checkFileTail rt (pathText log path)) stamp := by
  funext path disk
  unfold recoverFileTail recoverBy
  rw [Program.read_bind_apply, Program.read_bind_apply]
  cases disk.files.lookup path with
  | none => rfl
  | some file =>
      cases hcheck : checkFileTail rt (pathText log path) file.content with
      | error error => simp only [hcheck]
      | ok cut => cases cut <;> simp only [hcheck]

end

namespace Directory

section

variable {name : String} {disk : Disk} {directory : Directory}

/-- The numbered backups, in the order of their names. -/
theorem pairwise_slotName (name : String) (disk : Disk) :
    ((numberedBackups disk).map fun index => Directory.slotName name (.backup index)).Pairwise
      (· ≤ ·) := by
  have hmono : ∀ i j : ℕ, toString i ≤ toString j →
      Directory.slotName name (.backup i) ≤ Directory.slotName name (.backup j) := by
    intro i j h
    rw [Directory.slotName, Directory.slotName, String.le_iff_toList_le, String.toList_append,
      @String.toList_append (name ++ ".") (toString j), ← not_lt]
    rw [String.le_iff_toList_le, ← not_lt] at h
    exact List.append_left_le h
  have : Std.Total fun i j : ℕ => toString i ≤ toString j := ⟨fun i j => le_total _ _⟩
  have : IsTrans ℕ fun i j => toString i ≤ toString j := ⟨fun i j k => le_trans⟩
  rw [List.pairwise_map]
  exact (List.pairwise_insertionSort (fun i j : ℕ => toString i ≤ toString j) _).imp
    fun {i j} => hmono i j

/-- **The files found.**  For a name that stands for itself, in a directory without other entries
that the pattern finds, the files that recovery checks are those of the disk. -/
theorem logNames_eq_map (hplain : PlainName name) (h : Directory.Holds name disk directory)
    (hnumbered : ∀ entry ∈ directory, globMatches (name ++ ".[0-9]*") entry = true →
      ∃ index, entry = Directory.slotName name (.backup index)) :
    logNames name directory =
      (.active :: (numberedBackups disk).map Slot.backup).map (Directory.slotName name) := by
  have hmatches : ∀ index : ℕ,
      globMatches (name ++ ".[0-9]*") (Directory.slotName name (.backup index)) = true := by
    intro index
    obtain ⟨c, rest, hdigits⟩ := List.exists_cons_of_ne_nil (@Nat.toDigits_ne_nil index 10)
    have hdigit : c.isDigit = true :=
      @Nat.isDigit_of_mem_toDigits 10 index c (by decide) (by decide) (by rw [hdigits]; simp)
    have hname : (Directory.slotName name (.backup index)).toList =
        name.toList ++ '.' :: Nat.toDigits 10 index := by
      rw [Directory.slotName, String.toList_append, String.toList_append, List.append_assoc,
        ← Nat.toList_repr]
      rfl
    rw [globMatches_numbered_iff hplain]
    refine ⟨c, rest, by rw [hname, hdigits], ?_⟩
    simpa [Char.isDigit, Char.le_def] using hdigit
  have hmem : ∀ entry, entry ∈ namesMatching (name ++ ".[0-9]*") directory ↔
      entry ∈ (numberedBackups disk).map fun index => Directory.slotName name (.backup index) := by
    intro entry
    rw [mem_namesMatching, List.mem_map]
    simp only [mem_numberedBackups]
    constructor
    · rintro ⟨hentry, hmatch⟩
      obtain ⟨index, rfl⟩ := hnumbered entry hentry hmatch
      rw [mem_iff_lookup, h.slots, Option.isSome_map] at hentry
      exact ⟨index, hentry, rfl⟩
    · rintro ⟨index, hindex, rfl⟩
      rw [mem_iff_lookup, h.slots, Option.isSome_map]
      exact ⟨hindex, hmatches index⟩
  have hnodup : ((numberedBackups disk).map fun index =>
      Directory.slotName name (.backup index)).Nodup := by
    refine List.Nodup.map (fun i j hij => ?_) ?_
    · simpa using Directory.slotName_injective name hij
    · exact (List.perm_insertionSort _ _).nodup_iff.2 (Finset.sort_nodup _ _)
  have hperm := (List.perm_ext_iff_of_nodup (Finset.sort_nodup _ _) hnodup).2 hmem
  have heq := hperm.eq_of_pairwise' (Finset.pairwise_sort _ _) (pairwise_slotName name disk)
  rw [logNames, namesMatching, heq, List.map_cons, List.map_map]
  rfl

theorem pathText_slot (parent name : String) (slot : Slot) :
    pathText (parent ++ name) slot.path = parent ++ Directory.slotName name slot := by
  cases slot with
  | active => rfl
  | backup index => simp only [Slot.path, pathText, Directory.slotName, String.append_assoc]

/-- **Recovery by name.**  For a name that stands for itself, on a directory that holds the files of
a disk at rest and nothing else that the patterns find, recovery does what it does on the disk. -/
theorem recoverTails_holds (rt : JsonRuntime) (refusesDoubleStar : Bool) (parent : String)
    (recoverManifest : RecoveryProgram Unit)
    (recoverManifest' : Program Disk Operation AuditError Unit) (stamp : Instant)
    (hplain : PlainName name) (h : Directory.Holds name disk directory)
    (hnumbered : ∀ entry ∈ directory, globMatches (name ++ ".[0-9]*") entry = true →
      ∃ index, entry = Directory.slotName name (.backup index)) :
    (recoverTails rt refusesDoubleStar parent name recoverManifest stamp directory).result =
        (Python.recoverTails rt (parent ++ name) recoverManifest' stamp disk).result.mapError
          .auditError ∧
      Directory.Holds name
        (Python.recoverTails rt (parent ++ name) recoverManifest' stamp disk).final
        (recoverTails rt refusesDoubleStar parent name recoverManifest stamp directory).final := by
  have haccepted : ¬ RefusesPatterns refusesDoubleStar name := by
    rintro ⟨-, hstars⟩
    rw [hasDoubleStar_plainName hplain] at hstars
    cases hstars
  have hfinds : ¬ FindsStaging name directory := by
    rintro ⟨entry, hentry, hmatch⟩
    have hnone := Directory.hasRotationEntry_eq_false_iff.1 h.quiet entry
      ((globMatches_rotation_iff hplain).1 hmatch)
    rw [mem_iff_lookup, hnone] at hentry
    cases hentry
  have hround : ∀ slot : Slot, Program.EndsTogether (Directory.Holds name) RecoveryError.auditError
      (recoverBy (fun path => checkFileTail rt (pathText (parent ++ name) path)) stamp slot.path)
      (Directory.recoverEntryBy (fun entry _ => irregularError parent entry)
        (fun entry content => (checkFileTail rt (parent ++ entry) content).mapError .auditError)
        stamp (Directory.slotName name slot)) := by
    intro slot
    refine Directory.recoverBy_endsTogether (fun content => ?_) _ stamp
    rw [pathText_slot]
  have hloop := Program.EndsTogether.forEach (Directory.slotName name) hround
    (.active :: (numberedBackups disk).map Slot.backup) disk directory h
  have hpaths : logPaths disk =
      (.active :: (numberedBackups disk).map Slot.backup).map Slot.path := by
    rw [logPaths, List.map_cons, List.map_map]
    rfl
  rw [recoverTails_apply h.quiet haccepted hfinds, Python.recoverTails_apply h.diskQuiet, hpaths,
    Program.forEach_map, logNames_eq_map hplain h hnumbered, recoverFileTail_eq_recoverEntryBy,
    Python.recoverFileTail_eq_recoverBy]
  exact hloop

end

end Directory

end HpGuardian.Python

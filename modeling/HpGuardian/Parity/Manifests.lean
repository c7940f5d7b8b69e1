import HpGuardian.Framework.Outcomes
import HpGuardian.Python.Manifests

/-!
# Rotation manifests in both runtimes

Both runtimes recover the rotations of one log from its manifest file.  They read the same manifest
from most JSON values, but each of them lets some manifests pass that the other refuses:
`ReadByRustOnly` and `ReadByPythonOnly` say which, and there are no others.

What a manifest means is given by its form (`ManifestForm`), which both readers ask for; what each
asks for on top is a list of its own.  So the two readings of a value are the same iff it meets
both lists or neither, and going through the entries of the lists gives the two kinds of manifests
that only one runtime reads.  A derived Rust struct is read from an array and ignores unknown
fields; a Python dictionary compares its version with `==`, has integers of any size, and letters
that are not ASCII.

The second part is about the manifests that the two write.  Those of Rust are read by both; those
of Python are read by both iff the number of backups fits into the Rust type.
-/

namespace HpGuardian

open Framework

/-- Both runtimes go on with the same rotation: the same name, phase, number of backups and
occupied slots. -/
structure SameManifest (rust : RotationManifest) (python : Python.RotationManifest) : Prop where
  transactionId : rust.transactionId = python.transactionId
  phase : rust.phase = python.phase
  maxRotatedFiles : (rust.maxRotatedFiles : ℤ) = python.maxRotatedFiles
  backups : rust.present.backups.map (fun index : ℕ => (index : ℤ)) = python.backups

/-- Both runtimes accept the value and read the same rotation, or both refuse it. With which error
they refuse it is left open. -/
def SameReading (table : Python.AlnumTable) (value : Json) : Prop :=
  SameOutcome SameManifest (RotationManifest.read value) (Python.readManifest table value)

/-- Both runtimes accept the value and read the same rotation. -/
def ReadByBoth (table : Python.AlnumTable) (value : Json) : Prop :=
  ∃ rust python, RotationManifest.read value = .ok rust ∧
    Python.readManifest table value = .ok python ∧ SameManifest rust python

/-- A Rust manifest in the form of an array, with a field that is not declared, or with a name of
dashes only. -/
def ReadByRustOnly (value : Json) : Prop :=
  ∃ rotation, ManifestForm value rotation ∧ RustForm value rotation ∧
    (LooseShape value ∨ ∀ c ∈ rotation.transactionId.toList, c = '-')

/-- A Python manifest with `true` or `1.0` for its version, with a number of backups of more than 64
bits, or with a name that is not ASCII. -/
def ReadByPythonOnly (table : Python.AlnumTable) (value : Json) : Prop :=
  ∃ rotation, ManifestForm value rotation ∧ Python.PythonForm table value rotation ∧
    (structField manifestFields value "format_version" = some (.bool true) ∨
      structField manifestFields value "format_version" = some (.float floatOne) ∨
      2 ^ 64 ≤ rotation.maxRotatedFiles ∨ ∃ c ∈ rotation.transactionId.toList, 128 ≤ c.toNat)

/-! ## Reading

The two readers through the form of a manifest. -/

section

variable {table : Python.AlnumTable} {value : Json} {rotation : Rotation}

theorem sameManifest_rotation (rotation : Rotation) :
    SameManifest rotation.manifest (Python.ofRotation rotation) := ⟨rfl, rfl, rfl, rfl⟩

theorem read_of_rustForm (hform : ManifestForm value rotation) (hrust : RustForm value rotation) :
    RotationManifest.read value = .ok rotation.manifest :=
  manifestRead_ok_iff.2 ⟨rotation, hform, hrust, rfl⟩

theorem read_of_pythonForm (hform : ManifestForm value rotation)
    (hpython : Python.PythonForm table value rotation) :
    Python.readManifest table value = .ok (Python.ofRotation rotation) :=
  Python.readManifest_ok_iff.2 ⟨rotation, hform, hpython, rfl⟩

/-- The runtimes read alike if they ask for the same on top of the form of a manifest. -/
theorem sameReading_iff : SameReading table value ↔
    ∀ rotation, ManifestForm value rotation →
      (RustForm value rotation ↔ Python.PythonForm table value rotation) := by
  constructor
  · intro hsame rotation hform
    constructor
    · intro hrust
      obtain ⟨python, hread, -⟩ := hsame.exists_right (read_of_rustForm hform hrust)
      obtain ⟨rotation', hform', hpython, -⟩ := Python.readManifest_ok_iff.1 hread
      rwa [hform.unique hform']
    · intro hpython
      obtain ⟨rust, hread, -⟩ := hsame.exists_left (read_of_pythonForm hform hpython)
      obtain ⟨rotation', hform', hrust, -⟩ := manifestRead_ok_iff.1 hread
      rwa [hform.unique hform']
  · intro hforms
    refine SameOutcome.of_forall ?_ ?_
    · intro rust hread
      obtain ⟨rotation, hform, hrust, rfl⟩ := manifestRead_ok_iff.1 hread
      exact ⟨_, read_of_pythonForm hform ((hforms rotation hform).1 hrust),
        sameManifest_rotation rotation⟩
    · intro python hread
      obtain ⟨rotation, hform, hpython, rfl⟩ := Python.readManifest_ok_iff.1 hread
      exact ⟨_, read_of_rustForm hform ((hforms rotation hform).2 hpython)⟩

/-- A manifest that Rust reads is refused by Python for its shape or its name. -/
theorem RustForm.not_pythonForm_iff (hform : ManifestForm value rotation)
    (hrust : RustForm value rotation) :
    ¬ Python.PythonForm table value rotation ↔
      LooseShape value ∨ ∀ c ∈ rotation.transactionId.toList, c = '-' := by
  rw [← hform.not_exactShape_iff]
  constructor
  · intro hnot
    by_contra hboth
    simp only [not_or, not_not, not_forall] at hboth
    obtain ⟨hexact, c, hc, hdash⟩ := hboth
    exact hnot ⟨hexact, ⟨c, hc, hdash⟩, fun c hc =>
      (hrust.name c hc).imp_right table.isAlnum_of_isAlphanum⟩
  · rintro (hloose | hdashes) hpython
    · exact hloose hpython.exact
    · obtain ⟨c, hc, hdash⟩ := hpython.named
      exact hdash (hdashes c hc)

/-- A manifest that Python reads is refused by Rust for its version, its size or its name. -/
theorem not_rustForm_iff (hform : ManifestForm value rotation)
    (hpython : Python.PythonForm table value rotation) :
    ¬ RustForm value rotation ↔
      structField manifestFields value "format_version" = some (.bool true) ∨
        structField manifestFields value "format_version" = some (.float floatOne) ∨
        2 ^ 64 ≤ rotation.maxRotatedFiles ∨
        ∃ c ∈ rotation.transactionId.toList, 128 ≤ c.toNat := by
  obtain ⟨version, hversion, hone⟩ := hform.formatVersion
  constructor
  · intro hnot
    by_contra hnone
    simp only [not_or, not_exists, not_and, not_le] at hnone
    obtain ⟨hboolean, hfloat, hfits, hascii⟩ := hnone
    refine hnot ⟨?_, hfits, fun c hc => (hpython.name c hc).imp_right fun halnum => ?_⟩
    · cases hone with
      | integer => exact hversion
      | boolean => exact absurd hversion hboolean
      | float => exact absurd hversion hfloat
    · rwa [table.ascii c (hascii c hc)] at halnum
  · rintro (hboolean | hfloat | hlarge | ⟨c, hc, hlarge⟩) hrust
    · cases hboolean.symm.trans hrust.integer
    · cases hfloat.symm.trans hrust.integer
    · exact absurd hrust.fits (not_lt.2 hlarge)
    · rcases hrust.name c hc with rfl | halphanum
      · exact absurd hlarge (by decide)
      · exact absurd (toNat_lt_of_isAlphanum halphanum) (not_lt.2 hlarge)

/-- The runtimes read a value alike unless it is one of the manifests that only one of them
reads. -/
theorem sameReading_iff_not : SameReading table value ↔
    ¬ (ReadByRustOnly value ∨ ReadByPythonOnly table value) := by
  rw [sameReading_iff]
  constructor
  · rintro hforms (⟨rotation, hform, hrust, hrefused⟩ | ⟨rotation, hform, hpython, hrefused⟩)
    · exact (hrust.not_pythonForm_iff hform).2 hrefused ((hforms rotation hform).1 hrust)
    · exact (not_rustForm_iff hform hpython).2 hrefused ((hforms rotation hform).2 hpython)
  · intro hnot rotation hform
    constructor
    · intro hrust
      by_contra hpython
      exact hnot (.inl ⟨rotation, hform, hrust, (hrust.not_pythonForm_iff hform).1 hpython⟩)
    · intro hpython
      by_contra hrust
      exact hnot (.inr ⟨rotation, hform, hpython, (not_rustForm_iff hform hpython).1 hrust⟩)

end

/-! ## Writing

What each runtime puts into the manifest of a new rotation. -/

section

variable {table : Python.AlnumTable} {rotation : Rotation}

/-- The JSON form of a manifest is exact. -/
theorem exactShape_toJson (rotation : Rotation) : ExactShape rotation.manifest.toJson := by
  refine ⟨_, _, rfl, ?_, rfl, ?_⟩
  · simp [OnlyFields, manifestFields]
  · simp [OnlyFields, presentFields]

/-- A written manifest with a plain name is read by Python. -/
theorem pythonForm_toJson (hname : ∀ c ∈ rotation.transactionId.toList, c.isAlphanum = true)
    (hsome : rotation.transactionId.toList ≠ []) :
    Python.PythonForm table rotation.manifest.toJson rotation where
  exact := exactShape_toJson rotation
  named := by
    obtain ⟨c, hc⟩ := List.exists_mem_of_ne_nil _ hsome
    refine ⟨c, hc, ?_⟩
    rintro rfl
    exact absurd (hname _ hc) (by decide)
  name c hc := .inr (table.isAlnum_of_isAlphanum (hname c hc))

/-- It is read by Rust if its number of backups fits. -/
theorem rustForm_toJson_iff (hname : ∀ c ∈ rotation.transactionId.toList, c.isAlphanum = true) :
    RustForm rotation.manifest.toJson rotation ↔ rotation.maxRotatedFiles < 2 ^ 64 :=
  ⟨fun h => h.fits, fun hfits => ⟨rfl, hfits, fun c hc => .inr (hname c hc)⟩⟩

theorem readByBoth_toJson_iff (hname : ∀ c ∈ rotation.transactionId.toList, c.isAlphanum = true)
    (hsome : rotation.transactionId.toList ≠ []) :
    ReadByBoth table rotation.manifest.toJson ↔ rotation.maxRotatedFiles < 2 ^ 64 := by
  have hform := manifestForm_toJson rotation
  rw [← rustForm_toJson_iff hname]
  constructor
  · rintro ⟨rust, -, hread, -, -⟩
    obtain ⟨rotation', hform', hrust, -⟩ := manifestRead_ok_iff.1 hread
    obtain rfl := hform.unique hform'
    exact hrust
  · intro hrust
    exact ⟨_, _, read_of_rustForm hform hrust,
      read_of_pythonForm hform (pythonForm_toJson hname hsome), sameManifest_rotation rotation⟩

theorem transactionId_toList (nanos : ℕ) :
    (transactionId nanos).toList = Nat.toDigits 16 nanos := String.toList_ofList

/-- The manifest of a Rust rotation is read by both. -/
theorem readByBoth_newManifest (config : ValidConfig) (nanos : ℕ) (disk : Disk)
    (hfits : config.maxRotatedFiles < 2 ^ 64) :
    ReadByBoth table (newManifest config.maxRotatedFiles nanos disk).toJson := by
  rw [newManifest_eq _ _ config.one_le_maxRotatedFiles]
  refine (readByBoth_toJson_iff ?_ ?_).2 hfits
  · rw [newRotation, transactionId_toList]
    exact hexDigits_isAlphanum nanos
  · rw [newRotation, transactionId_toList]
    exact Nat.toDigits_ne_nil

theorem uuidHex_isAlphanum (random : ℕ) :
    ∀ c ∈ (Python.uuidHex random).toList, c.isAlphanum = true := by
  intro c hc
  rw [Python.uuidHex, String.toList_ofList] at hc
  rcases List.mem_append.1 hc with hzero | hdigit
  · rw [List.eq_of_mem_replicate hzero]
    decide
  · exact hexDigits_isAlphanum random c hdigit

theorem uuidHex_ne_nil (random : ℕ) : (Python.uuidHex random).toList ≠ [] := by
  rw [Python.uuidHex, String.toList_ofList]
  exact List.append_ne_nil_of_right_ne_nil _ Nat.toDigits_ne_nil

theorem python_newManifest_eq {maxRotatedFiles : ℕ} (random : ℕ) (hmax : 1 ≤ maxRotatedFiles)
    (disk : Disk) :
    Python.newManifest maxRotatedFiles random disk =
      (newRotation (Python.uuidHex random) maxRotatedFiles hmax disk).manifest.toJson := rfl

/-- **Which manifests both runtimes accept.**  They read a JSON value alike unless it is one of the
manifests that only one of them reads.  Whatever Rust writes at the start of a rotation is read by
both; what Python writes then is read by Python, and by both iff its number of backups fits into 64
bits. -/
theorem same_manifests_iff (table : Python.AlnumTable) :
    (∀ value, SameReading table value ↔
      ¬ (ReadByRustOnly value ∨ ReadByPythonOnly table value)) ∧
    (∀ (config : ValidConfig) (nanos : ℕ) (disk : Disk), config.maxRotatedFiles < 2 ^ 64 →
      ReadByBoth table (newManifest config.maxRotatedFiles nanos disk).toJson) ∧
    ∀ (maxRotatedFiles random : ℕ) (disk : Disk), 1 ≤ maxRotatedFiles →
      (∃ python, Python.readManifest table (Python.newManifest maxRotatedFiles random disk) =
        .ok python) ∧
      (ReadByBoth table (Python.newManifest maxRotatedFiles random disk) ↔
        maxRotatedFiles < 2 ^ 64) := by
  refine ⟨fun value => sameReading_iff_not, readByBoth_newManifest, ?_⟩
  intro maxRotatedFiles random disk hmax
  have hname := uuidHex_isAlphanum random
  have hsome := uuidHex_ne_nil random
  rw [python_newManifest_eq random hmax disk]
  exact ⟨⟨_, read_of_pythonForm (manifestForm_toJson _) (pythonForm_toJson hname hsome)⟩,
    readByBoth_toJson_iff hname hsome⟩

end

/-! ## Manifests that are read by one runtime only

One value for each of the two kinds. -/

/-- A manifest with the given version and name. -/
def sampleManifest (version : Json) (transactionId : String) : Json :=
  .object [
    ("format_version", version),
    ("transaction_id", .string transactionId),
    ("max_rotated_files", .int 1),
    ("operation", .string "rotate"),
    ("phase", .string "staging"),
    ("present", .object [("active", .bool true), ("backups", .array [])])]

/-- The letters and digits of ASCII. -/
def asciiTable : Python.AlnumTable := ⟨Char.isAlphanum, fun _ _ => rfl⟩

/-- A manifest without a name is read by Rust only, one with `true` for its version by Python
only. -/
theorem manifests_read_by_one :
    ¬ SameReading asciiTable (sampleManifest (.int 1) "") ∧
      ¬ SameReading asciiTable (sampleManifest (.bool true) "0") := by
  refine ⟨fun hsame => ?_, fun hsame => ?_⟩
  · have hrust : ∃ rust, RotationManifest.read (sampleManifest (.int 1) "") = .ok rust :=
      exists_ok (by decide +kernel)
    obtain ⟨python, hpython⟩ := hsame.isOk_iff.1 hrust
    have herror : (Python.readManifest asciiTable (sampleManifest (.int 1) "")).toOption.isSome =
        false := by decide +kernel
    rw [hpython] at herror
    cases herror
  · have hpython : ∃ python, Python.readManifest asciiTable (sampleManifest (.bool true) "0") =
        .ok python := exists_ok (by decide +kernel)
    obtain ⟨rust, hrust⟩ := hsame.isOk_iff.2 hpython
    have herror : (RotationManifest.read (sampleManifest (.bool true) "0")).toOption.isSome =
        false := by decide +kernel
    rw [hrust] at herror
    cases herror

end HpGuardian

import HpGuardian.Audit.Manifests
import HpGuardian.Python.Tails
import HpGuardian.Python.Trace

/-!
# The Python manifest reader (`src/hp_guard/audit.py`)

`_read_manifest` gets a decoded JSON value and checks the fields one by one; a manifest has exactly
the declared fields.  `True` and `1.0` are equal to 1 in Python, an integer has no upper bound, and
the letters and digits of `str.isalnum` are those of all scripts: three points in which the reader
is more generous than the Rust reader, while about the shape of the value it is stricter.

A check can also raise.  Whether a phase is one of the two is a membership test in a set, and a
value without a hash cannot be looked up in one (`ManifestError`).

What the reader asks for is stated as `PythonForm`, on top of the form of a manifest that both
readers ask for, and `readManifest_ok_iff` says that it reads exactly these.  The tables of Unicode
are a parameter, with the letters and digits of ASCII among them.
-/

namespace HpGuardian.Python

open Framework

/-- `str.isalnum` of one character.  The Unicode tables are a parameter; among the ASCII characters
exactly the letters and digits qualify. -/
structure AlnumTable where
  isAlnum : Char → Bool
  ascii : ∀ c : Char, c.toNat < 128 → isAlnum c = c.isAlphanum

/-- The entries of a manifest that are used after it was read. The others are checked while it is
read, and then dropped. -/
structure RotationManifest where
  transactionId : String
  maxRotatedFiles : ℤ
  phase : String
  backups : List ℤ
  deriving DecidableEq, Repr

/-- What `_read_manifest` raises: an audit error, or the `TypeError` of looking up a value without a
hash in a set. -/
inductive ManifestError where
  | auditError (error : AuditError)
  | typeError
  deriving DecidableEq, Repr

/-- `AuditError("audit_recovery_failed", message)`. -/
def manifestError (message : String) : ManifestError :=
  .auditError ⟨"audit_recovery_failed", message⟩

/-! ## Checks

The checks of `_read_manifest`, with Python's notions of equality and order. -/

/-- `value == 1`. -/
def equalsOne : Json → Bool
  | .int value => value == 1
  | .bool value => value
  | .float bits => bits == floatOne
  | _ => false

/-- `transaction_id.replace("-", "").isalnum()`. -/
def validTransactionId (table : AlnumTable) (transactionId : String) : Bool :=
  let name := transactionId.toList.filter (fun c => c != '-')
  !name.isEmpty && name.all table.isAlnum

/-- `value in {"staging", "installing"}`. -/
def knownPhase (value : Json) : Except ManifestError String :=
  let error := manifestError "audit rotation manifest has invalid fields"
  match value with
  | .string phase => if phase = "staging" ∨ phase = "installing" then .ok phase else .error error
  | .array _ | .object _ => .error .typeError
  | _ => .error error

/-- `sorted(set(indices))`. -/
def sortedSet (indices : List ℤ) : List ℤ := indices.dedup.insertionSort (· ≤ ·)

/-- The slots of `backups`. -/
def backupSlots (backups : List Json) (maxRotatedFiles : ℤ) : Option (List ℤ) :=
  (backups.mapM asInt).filter (fun indices =>
    indices.all (fun index => 1 ≤ index && index ≤ maxRotatedFiles) &&
      indices == sortedSet indices)

/-- `_read_manifest`. -/
def readManifest (table : AlnumTable) (value : Json) :
    Except ManifestError RotationManifest := do
  let fields ← okOr (value.asObject.filter (fun fields => jsonKeysAre fields manifestFields))
    (manifestError "audit rotation manifest has an invalid shape")
  let invalid := manifestError "audit rotation manifest has invalid fields"
  if !equalsOne (JsonFields.required fields "format_version") then
    .error invalid
  else do
    let transactionId ← okOr
      ((JsonFields.required fields "transaction_id").asStr.filter (validTransactionId table))
      invalid
    let _ ← okOr ((JsonFields.required fields "operation").asStr.filter (fun v => v == "rotate"))
      invalid
    let phase ← knownPhase (JsonFields.required fields "phase")
    let maxRotatedFiles ← okOr
      ((asInt (JsonFields.required fields "max_rotated_files")).filter (fun v => 1 ≤ v)) invalid
    let present ← okOr ((JsonFields.required fields "present").asObject.filter
      (fun fields => jsonKeysAre fields presentFields)) invalid
    let _ ← okOr ((JsonFields.required present "active").asBool.filter (fun v => v)) invalid
    let backups ← okOr (JsonFields.required present "backups").asArray invalid
    let indices ← okOr (backupSlots backups maxRotatedFiles)
      (manifestError "audit rotation manifest has invalid backup slots")
    .ok ⟨transactionId, maxRotatedFiles, phase, indices⟩

/-! ## New manifests

The manifest of a new rotation, which is named after a random number. -/

/-- `uuid.uuid4().hex` for a random number of 128 bits: 32 digits in base 16. -/
def uuidHex (random : ℕ) : String :=
  let digits := Nat.toDigits 16 random
  String.ofList (List.replicate (32 - digits.length) '0' ++ digits)

/-- The manifest that `_rotate` writes. -/
def newManifest (maxRotatedFiles random : ℕ) (disk : Disk) : Json :=
  .object [
    ("format_version", .int 1),
    ("transaction_id", .string (uuidHex random)),
    ("max_rotated_files", .int maxRotatedFiles),
    ("operation", .string "rotate"),
    ("phase", .string "staging"),
    ("present", .object [
      ("active", .bool true),
      ("backups", .array (((indices maxRotatedFiles).filter
        (fun index => decide (.backup index ∈ disk.files))).map (fun index : ℕ => .int index)))])]

/-! ## What Python reads

The reader against the form. -/

/-- What Python asks for on top of the form of a manifest: objects with the declared fields only,
and a name with a letter or a digit and otherwise letters, digits and dashes. -/
structure PythonForm (table : AlnumTable) (value : Json) (rotation : Rotation) : Prop where
  exact : ExactShape value
  named : ∃ c ∈ rotation.transactionId.toList, c ≠ '-'
  name : ∀ c ∈ rotation.transactionId.toList, c = '-' ∨ table.isAlnum c = true

/-- A rotation as a Python manifest. -/
def ofRotation (rotation : Rotation) : RotationManifest where
  transactionId := rotation.transactionId
  maxRotatedFiles := rotation.maxRotatedFiles
  phase := rotation.phase
  backups := rotation.backups.map (fun index : ℕ => (index : ℤ))

section

variable {value : Json} {fields : JsonFields}

theorem equalsOne_iff : equalsOne value = true ↔ MeansOne value := by
  constructor
  · intro h
    cases value with
    | int n =>
        obtain rfl := beq_iff_eq.1 h
        exact .integer
    | bool b =>
        obtain rfl : b = true := h
        exact .boolean
    | float bits =>
        obtain rfl := beq_iff_eq.1 h
        exact .float
    | _ => cases h
  · rintro (_ | _ | _) <;> rfl

theorem AlnumTable.isAlnum_of_isAlphanum (table : AlnumTable) {c : Char}
    (h : c.isAlphanum = true) : table.isAlnum c = true := by
  rw [table.ascii c (toNat_lt_of_isAlphanum h), h]

theorem validTransactionId_iff {table : AlnumTable} {transactionId : String} :
    validTransactionId table transactionId = true ↔
      (∃ c ∈ transactionId.toList, c ≠ '-') ∧
        ∀ c ∈ transactionId.toList, c = '-' ∨ table.isAlnum c = true := by
  simp only [validTransactionId, Bool.and_eq_true, Bool.not_eq_true', List.isEmpty_eq_false_iff,
    List.all_eq_true, List.mem_filter, bne_iff_ne, and_imp, ne_eq, List.filter_eq_nil_iff,
    not_forall, not_not, exists_prop, or_iff_not_imp_left]

theorem knownPhase_ok_iff {phase : String} :
    knownPhase value = .ok phase ↔
      value = .string phase ∧ (phase = "staging" ∨ phase = "installing") := by
  cases value with
  | string text =>
      simp only [knownPhase, Json.string.injEq]
      split_ifs with h
      · constructor
        · intro heq
          obtain rfl := Except.ok.inj heq
          exact ⟨rfl, h⟩
        · rintro ⟨rfl, -⟩
          rfl
      · refine iff_of_false (by simp) ?_
        rintro ⟨rfl, hknown⟩
        exact h hknown
  | _ => simp [knownPhase]

theorem sortedSet_eq_iff {indices : List ℤ} :
    indices = sortedSet indices ↔ indices.Pairwise (· < ·) := by
  constructor
  · intro h
    have hsorted : (sortedSet indices).Pairwise (· ≤ ·) := List.pairwise_insertionSort _ _
    have hnodup : (sortedSet indices).Nodup :=
      (List.perm_insertionSort _ _).nodup_iff.2 (List.nodup_dedup indices)
    rw [← h] at hsorted hnodup
    exact (hsorted.and hnodup).imp fun hle => lt_of_le_of_ne hle.1 hle.2
  · intro h
    have hnodup : indices.dedup = indices := List.dedup_eq_self.2 (h.imp ne_of_lt)
    rw [sortedSet, hnodup]
    exact (List.Pairwise.insertionSort_eq (h.imp le_of_lt)).symm

theorem asInts_iff {items : List Json} {indices : List ℤ} :
    items.mapM asInt = some indices ↔ items = indices.map .int := by
  induction items generalizing indices with
  | nil => simp [eq_comm]
  | cons item items ih =>
      simp only [List.mapM_cons, Option.bind_eq_bind, Option.bind_eq_some_iff, asInt_eq_some,
        Option.pure_def, Option.some.injEq, ih]
      constructor
      · rintro ⟨index, rfl, rest, rfl, rfl⟩
        rfl
      · cases indices with
        | nil => simp
        | cons index indices =>
            rw [List.map_cons, List.cons.injEq]
            rintro ⟨rfl, rfl⟩
            exact ⟨index, rfl, indices, rfl, rfl⟩

/-- The slots that are read are those of a rotation. -/
theorem backupSlots_iff {items : List Json} {maxRotatedFiles : ℤ} {indices : List ℤ} :
    backupSlots items maxRotatedFiles = some indices ↔
      ∃ backups : List ℕ, indices = backups.map (fun index : ℕ => (index : ℤ)) ∧
        items = backups.map (fun index : ℕ => .int index) ∧ backups.Pairwise (· < ·) ∧
        ∀ index ∈ backups, 1 ≤ index ∧ (index : ℤ) ≤ maxRotatedFiles := by
  simp only [backupSlots, Option.filter_eq_some_iff, asInts_iff, Bool.and_eq_true, beq_iff_eq,
    sortedSet_eq_iff, List.all_eq_true, decide_eq_true_eq]
  constructor
  · rintro ⟨rfl, hrange, hincreasing⟩
    lift indices to List ℕ using fun index hindex =>
      le_trans zero_le_one (hrange index hindex).1
    refine ⟨indices, rfl, by rw [List.map_map]; rfl, ?_, ?_⟩
    · exact (List.pairwise_map.1 hincreasing).imp fun hlt => Int.ofNat_lt.1 hlt
    · intro index hindex
      obtain ⟨hone, hmax⟩ := hrange index (List.mem_map_of_mem hindex)
      exact ⟨by exact_mod_cast hone, hmax⟩
  · rintro ⟨backups, rfl, rfl, hincreasing, hrange⟩
    refine ⟨by rw [List.map_map]; rfl, ?_, ?_⟩
    · intro index hindex
      obtain ⟨index, hmem, rfl⟩ := List.mem_map.1 hindex
      obtain ⟨hone, hmax⟩ := hrange index hmem
      exact ⟨by exact_mod_cast hone, hmax⟩
    · exact List.pairwise_map.2 (hincreasing.imp fun hlt => Int.ofNat_lt.2 hlt)

theorem jsonKeysAre_iff {names : List String} :
    jsonKeysAre fields names = true ↔
      OnlyFields fields names ∧
        ∀ name ∈ names, ∃ value, JsonFields.get fields name = some value := by
  simp [jsonKeysAre, OnlyFields, Option.isSome_iff_exists]

/-- The form of a manifest needs all declared fields. -/
theorem exists_field_of_manifestForm {rotation : Rotation}
    (h : ManifestForm (.object fields) rotation) :
    ∀ name ∈ manifestFields, ∃ value, JsonFields.get fields name = some value := by
  obtain ⟨version, hversion, -⟩ := h.formatVersion
  obtain ⟨present, hpresent, -⟩ := h.present
  have htransactionId := h.transactionId
  have hmax := h.maxRotatedFiles
  have hoperation := h.operation
  have hphase := h.phase
  simp only [structField] at hversion htransactionId hmax hoperation hphase hpresent
  simp [manifestFields, hversion, htransactionId, hmax, hoperation, hphase, hpresent]

/-- What Python reads. -/
theorem readManifest_ok_iff {table : AlnumTable} {manifest : RotationManifest} :
    readManifest table value = .ok manifest ↔
      ∃ rotation, ManifestForm value rotation ∧ PythonForm table value rotation ∧
        manifest = ofRotation rotation := by
  simp only [readManifest, bind_ok_iff, okOr_ok, if_error_ok_iff, Option.filter_eq_some_iff,
    asObject_eq_some, jsonKeysAre_iff, Bool.not_eq_true', Bool.not_eq_false, equalsOne_iff,
    asStr_eq_some, validTransactionId_iff, beq_iff_eq, knownPhase_ok_iff, asInt_eq_some,
    decide_eq_true_eq, asBool_eq_some, asArray_eq_some, backupSlots_iff]
  constructor
  · rintro ⟨fields, ⟨rfl, honly, hthere⟩, hone, transactionId, ⟨htransactionId, hnamed, hname⟩, _,
      ⟨hoperation, rfl⟩, phase, ⟨hphase, hknown⟩, maxRotatedFiles, ⟨hmax, hpositive⟩, present,
      ⟨hpresent, hpresentOnly, hpresentThere⟩, _, ⟨hactive, rfl⟩, items, hitems, _,
      ⟨backups, rfl, rfl, hincreasing, hrange⟩, hmanifest⟩
    obtain rfl := Except.ok.inj hmanifest
    rw [required_eq_iff (hthere _ (by decide))] at htransactionId hoperation hphase hmax hpresent
    rw [required_eq_iff (hpresentThere _ (by decide))] at hactive hitems
    obtain ⟨version, hversion⟩ := hthere "format_version" (by decide)
    rw [required_of_get hversion] at hone
    lift maxRotatedFiles to ℕ using le_trans zero_le_one hpositive
    refine ⟨⟨transactionId, maxRotatedFiles, phase, backups, hknown, by exact_mod_cast hpositive,
      hincreasing, fun index hindex => ?_⟩, ?_, ?_, rfl⟩
    · obtain ⟨hfirst, hlast⟩ := hrange index hindex
      exact ⟨hfirst, by exact_mod_cast hlast⟩
    · exact ⟨⟨version, hversion, hone⟩, htransactionId, hmax, hoperation, hphase,
        ⟨.object present, hpresent, hactive, hitems⟩⟩
    · exact ⟨⟨fields, present, rfl, honly, hpresent, hpresentOnly⟩, hnamed, hname⟩
  · rintro ⟨rotation, hform, ⟨⟨fields, present, rfl, honly, hpresent, hpresentOnly⟩, hnamed, hname⟩,
      rfl⟩
    obtain ⟨version, hversion, hone⟩ := hform.formatVersion
    obtain ⟨present', hpresent', hactive, hbackups⟩ := hform.present
    obtain rfl := Option.some.inj (hpresent.symm.trans hpresent')
    have hpresentThere : ∀ name ∈ presentFields,
        ∃ value, JsonFields.get present name = some value := by
      simp only [structField] at hactive hbackups
      simp [presentFields, hactive, hbackups]
    refine ⟨fields, ⟨rfl, honly, exists_field_of_manifestForm hform⟩,
      by rwa [required_of_get hversion], _, ⟨required_of_get hform.transactionId, hnamed, hname⟩, _,
      ⟨required_of_get hform.operation, rfl⟩, _, ⟨required_of_get hform.phase, rotation.known⟩, _,
      ⟨required_of_get hform.maxRotatedFiles, by exact_mod_cast rotation.positive⟩, present,
      ⟨required_of_get hpresent, hpresentOnly, hpresentThere⟩, _,
      ⟨required_of_get hactive, rfl⟩, _, required_of_get hbackups, _,
      ⟨rotation.backups, rfl, rfl, rotation.increasing, fun index hindex => ?_⟩, rfl⟩
    obtain ⟨hfirst, hlast⟩ := rotation.inRange index hindex
    exact ⟨hfirst, by exact_mod_cast hlast⟩

end

end HpGuardian.Python

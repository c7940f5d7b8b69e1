import HpGuardian.Audit.Convergence
import HpGuardian.Policy.CallForm

/-!
# Manifests as JSON (`src/audit.rs`)

A manifest is written with the derived serializer and read back with the derived deserializer
before `recover_manifest` checks it.  A derived struct is read from an object by the names of its
fields, whatever other fields there are, and also from an array of all its fields in their order;
the integer types of the fields bound what is read.

Two runtimes read the manifests of each other, so what a manifest *means* is stated apart from the
readers.  `Rotation` is what it says about its rotation: a name, a number of backups, a phase, and
the occupied slots.  `ManifestForm` relates a JSON value to its rotation, with everything that
every reader asks for at least, and leaves open what readers differ in: the shape of the value, the
spelling of version 1, the range of the numbers, the letters of the name.  A value says one thing
at most (`ManifestForm.unique`).

`RustForm` is what the Rust reader asks for on top, and `manifestRead_ok_iff` says that the two
together are exactly what it reads.  What it writes has the form of a manifest
(`manifestForm_toJson`), in the exact shape.
-/

namespace HpGuardian

open Framework

/-! ## Deserialization

What the derived `Deserialize` does, field by field, and the checks of `recover_manifest` after
it. -/

/-- The fields of `RotationManifest`, in order. -/
def manifestFields : List String :=
  ["format_version", "transaction_id", "max_rotated_files", "operation", "phase", "present"]

/-- The fields of `RotationPresent`, in order. -/
def presentFields : List String := ["active", "backups"]

/-- The value of a field of a derived struct: by name in an object, by position in an array. -/
def structField (names : List String) (value : Json) (name : String) : Option Json :=
  match value with
  | .object fields => JsonFields.get fields name
  | .array items => if items.length = names.length then items[names.idxOf name]? else none
  | _ => none

/-- A `bool`. -/
def Json.asBool : Json → Option Bool
  | .bool value => some value
  | _ => none

/-- A `u8`. -/
def Json.asU8 (value : Json) : Option ℕ := value.asU64.filter (fun n => n < 2 ^ 8)

/-- The derived deserializer of `RotationPresent`. -/
def RotationPresent.deserialize (value : Json) : Option RotationPresent := do
  let active ← (structField presentFields value "active").bind Json.asBool
  let backups ← (structField presentFields value "backups").bind Json.asArray
  let backups ← backups.mapM Json.asU64
  some ⟨active, backups⟩

/-- The derived deserializer of `RotationManifest`. -/
def RotationManifest.deserialize (value : Json) : Option RotationManifest := do
  let formatVersion ← (structField manifestFields value "format_version").bind Json.asU8
  let transactionId ← (structField manifestFields value "transaction_id").bind Json.asStr
  let maxRotatedFiles ← (structField manifestFields value "max_rotated_files").bind Json.asU64
  let operation ← (structField manifestFields value "operation").bind Json.asStr
  let phase ← (structField manifestFields value "phase").bind Json.asStr
  let present ← (structField manifestFields value "present").bind RotationPresent.deserialize
  some ⟨formatVersion, transactionId, maxRotatedFiles, operation, phase, present⟩

/-- The manifest that `recover_manifest` goes on with: it is deserialized and passes the checks. -/
def RotationManifest.read (value : Json) : Except AuditError RotationManifest := do
  let manifest ← okOr (RotationManifest.deserialize value) .recoveryFailed
  if manifest.accepted then .ok manifest else .error .recoveryFailed

/-- The JSON form of a manifest. -/
def RotationManifest.toJson (manifest : RotationManifest) : Json :=
  .object [
    ("format_version", .int manifest.formatVersion),
    ("transaction_id", .string manifest.transactionId),
    ("max_rotated_files", .int manifest.maxRotatedFiles),
    ("operation", .string manifest.operation),
    ("phase", .string manifest.phase),
    ("present", .object [
      ("active", .bool manifest.present.active),
      ("backups", .array (manifest.present.backups.map (fun index : ℕ => .int index)))])]

/-! ## The form of a manifest

The meaning of a manifest, common to both readers, and the ways in which a value can depart from
the plain form without losing its meaning for one of them. -/

/-- What a manifest says about its rotation: a name, the number of backups, a phase, and the backup
slots that are occupied, in increasing order. -/
@[ext] structure Rotation where
  transactionId : String
  maxRotatedFiles : ℕ
  phase : String
  backups : List ℕ
  known : phase = "staging" ∨ phase = "installing"
  positive : 1 ≤ maxRotatedFiles
  increasing : backups.Pairwise (· < ·)
  inRange : ∀ index ∈ backups, 1 ≤ index ∧ index ≤ maxRotatedFiles

/-- The bits of the float 1.0. -/
def floatOne : UInt64 := 0x3FF0000000000000

/-- A value that a reader may take for version 1: the integer, or what Python finds equal to it,
`True` and `1.0`. -/
inductive MeansOne : Json → Prop
  | integer : MeansOne (.int 1)
  | boolean : MeansOne (.bool true)
  | float : MeansOne (.float floatOne)

/-- The fields say what is needed for a rotation: version 1, the operation, an occupied active
slot, and the rotation itself. Whether the value is an object or an array, and which other fields
it has, is left open. -/
structure ManifestForm (value : Json) (rotation : Rotation) : Prop where
  formatVersion : ∃ version, structField manifestFields value "format_version" = some version ∧
    MeansOne version
  transactionId : structField manifestFields value "transaction_id" =
    some (.string rotation.transactionId)
  maxRotatedFiles : structField manifestFields value "max_rotated_files" =
    some (.int rotation.maxRotatedFiles)
  operation : structField manifestFields value "operation" = some (.string "rotate")
  phase : structField manifestFields value "phase" = some (.string rotation.phase)
  present : ∃ present, structField manifestFields value "present" = some present ∧
    structField presentFields present "active" = some (.bool true) ∧
    structField presentFields present "backups" =
      some (.array (rotation.backups.map (fun index : ℕ => .int index)))

/-- The manifest and its `present` are objects with the declared fields only. This is how both
runtimes write manifests. -/
def ExactShape (value : Json) : Prop :=
  ∃ fields present, value = .object fields ∧ OnlyFields fields manifestFields ∧
    JsonFields.get fields "present" = some (.object present) ∧ OnlyFields present presentFields

/-- The manifest or its `present` is an array, or has a field that is not declared. A derived
reader takes such a value all the same. -/
def LooseShape (value : Json) : Prop :=
  (∃ items, value = .array items) ∨
    (∃ fields, value = .object fields ∧ ¬ OnlyFields fields manifestFields) ∨
    (∃ items, structField manifestFields value "present" = some (.array items)) ∨
    ∃ fields, structField manifestFields value "present" = some (.object fields) ∧
      ¬ OnlyFields fields presentFields

/-- What Rust asks for on top: the version as an integer, a number of backups that fits, and a name
of ASCII letters, digits and dashes. -/
structure RustForm (value : Json) (rotation : Rotation) : Prop where
  integer : structField manifestFields value "format_version" = some (.int 1)
  fits : rotation.maxRotatedFiles < 2 ^ 64
  name : ∀ c ∈ rotation.transactionId.toList, c = '-' ∨ c.isAlphanum = true

/-- A rotation as a Rust manifest. -/
def Rotation.manifest (rotation : Rotation) : RotationManifest where
  formatVersion := 1
  transactionId := rotation.transactionId
  maxRotatedFiles := rotation.maxRotatedFiles
  operation := "rotate"
  phase := rotation.phase
  present := ⟨true, rotation.backups⟩

/-! ## What Rust reads

The reader against the form: each check of the reader is one condition of the form or of
`RustForm`. -/

section

variable {value : Json} {rotation : Rotation}

theorem asBool_eq_some {b : Bool} : value.asBool = some b ↔ value = .bool b := by
  cases value <;> simp [Json.asBool]

theorem asU8_iff {n : ℕ} : value.asU8 = some n ↔ value = .int n ∧ n < 2 ^ 8 := by
  rw [Json.asU8, Option.filter_eq_some_iff, asU64_iff, decide_eq_true_eq, and_assoc]
  exact and_congr_right fun _ => and_iff_right_of_imp fun h => by omega

/-- A list of slots is sorted and without repetition. -/
theorem sortedDedup_eq_iff {backups : List ℕ} :
    sortedDedup backups = backups ↔ backups.Pairwise (· < ·) := by
  constructor
  · intro h
    have hsorted : (sortedDedup backups).Pairwise (· ≤ ·) :=
      (List.pairwise_insertionSort (· ≤ ·) backups).sublist (List.dedup_sublist _)
    have hnodup : (sortedDedup backups).Nodup := List.nodup_dedup _
    rw [h] at hsorted hnodup
    exact (hsorted.and hnodup).imp fun hle => lt_of_le_of_ne hle.1 hle.2
  · exact sortedDedup_eq

/-- The checks of `recover_manifest`. -/
theorem accepted_iff {manifest : RotationManifest} :
    manifest.accepted = true ↔ ∃ rotation : Rotation, manifest = rotation.manifest ∧
      ∀ c ∈ rotation.transactionId.toList, c = '-' ∨ c.isAlphanum = true := by
  obtain ⟨formatVersion, transactionId, maxRotatedFiles, operation, phase, active, backups⟩ :=
    manifest
  simp only [RotationManifest.accepted, Rotation.manifest, Bool.and_eq_true, beq_iff_eq,
    Bool.or_eq_true, bne_iff_ne, List.all_eq_true, decide_eq_true_eq, RotationManifest.mk.injEq,
    RotationPresent.mk.injEq, sortedDedup_eq_iff, ← Nat.one_le_iff_ne_zero]
  constructor
  · rintro ⟨⟨⟨⟨⟨⟨⟨rfl, rfl⟩, hknown⟩, rfl⟩, hpositive⟩, hname⟩, hrange⟩, hincreasing⟩
    exact ⟨⟨transactionId, maxRotatedFiles, phase, backups, hknown, hpositive, hincreasing, hrange⟩,
      ⟨rfl, rfl, rfl, rfl, rfl, rfl, rfl⟩, hname⟩
  · rintro ⟨rotation, ⟨rfl, rfl, rfl, rfl, rfl, rfl, rfl⟩, hname⟩
    exact ⟨⟨⟨⟨⟨⟨⟨rfl, rfl⟩, rotation.known⟩, rfl⟩, rotation.positive⟩, hname⟩, rotation.inRange⟩,
      rotation.increasing⟩

theorem deserialize_present_iff {present : RotationPresent} :
    RotationPresent.deserialize value = some present ↔
      structField presentFields value "active" = some (.bool present.active) ∧
        structField presentFields value "backups" =
          some (.array (present.backups.map (fun index : ℕ => .int index))) ∧
        ∀ index ∈ present.backups, index < 2 ^ 64 := by
  simp only [RotationPresent.deserialize, Option.bind_eq_bind, Option.bind_eq_some_iff,
    asBool_eq_some, asArray_eq_some, asU64s_iff]
  constructor
  · rintro ⟨active, ⟨_, hactive, rfl⟩, _, ⟨_, hbackups, rfl⟩, backups, ⟨rfl, hfits⟩, hpresent⟩
    obtain rfl := Option.some.inj hpresent
    exact ⟨hactive, hbackups, hfits⟩
  · rintro ⟨hactive, hbackups, hfits⟩
    exact ⟨_, ⟨_, hactive, rfl⟩, _, ⟨_, hbackups, rfl⟩, _, ⟨rfl, hfits⟩, rfl⟩

/-- What Rust reads. -/
theorem manifestRead_ok_iff {manifest : RotationManifest} :
    RotationManifest.read value = .ok manifest ↔
      ∃ rotation, ManifestForm value rotation ∧ RustForm value rotation ∧
        manifest = rotation.manifest := by
  simp only [RotationManifest.read, RotationManifest.deserialize, bind_ok_iff, okOr_ok,
    Option.bind_eq_bind, Option.bind_eq_some_iff, asU8_iff, asStr_eq_some, asU64_iff,
    deserialize_present_iff]
  constructor
  · rintro ⟨read, ⟨formatVersion, ⟨version, hversion, rfl, -⟩, transactionId,
      ⟨_, htransactionId, rfl⟩, maxRotatedFiles, ⟨_, hmax, rfl, hfits⟩, operation,
      ⟨_, hoperation, rfl⟩, phase, ⟨_, hphase, rfl⟩, ⟨active, backups⟩,
      ⟨present, hpresent, hactive, hbackups, -⟩, hread⟩, hrun⟩
    obtain rfl := Option.some.inj hread
    split_ifs at hrun with haccepted
    obtain rfl := Except.ok.inj hrun
    obtain ⟨rotation, heq, hname⟩ := accepted_iff.1 haccepted
    simp only [Rotation.manifest, RotationManifest.mk.injEq, RotationPresent.mk.injEq] at heq
    obtain ⟨rfl, rfl, rfl, rfl, rfl, rfl, rfl⟩ := heq
    refine ⟨rotation, ?_, ⟨hversion, hfits, hname⟩, rfl⟩
    exact ⟨⟨_, hversion, .integer⟩, htransactionId, hmax, hoperation, hphase,
      ⟨_, hpresent, hactive, hbackups⟩⟩
  · rintro ⟨rotation, hform, hrust, rfl⟩
    obtain ⟨present, hpresent, hactive, hbackups⟩ := hform.present
    have haccepted : rotation.manifest.accepted = true :=
      accepted_iff.2 ⟨rotation, rfl, hrust.name⟩
    have hslots : ∀ index ∈ rotation.backups, index < 2 ^ 64 := fun index hindex =>
      lt_of_le_of_lt (rotation.inRange index hindex).2 hrust.fits
    refine ⟨rotation.manifest, ⟨1, ⟨_, hrust.integer, rfl, by decide⟩, _,
      ⟨_, hform.transactionId, rfl⟩, _, ⟨_, hform.maxRotatedFiles, rfl, hrust.fits⟩, _,
      ⟨_, hform.operation, rfl⟩, _, ⟨_, hform.phase, rfl⟩, ⟨true, rotation.backups⟩,
      ⟨present, hpresent, hactive, hbackups, hslots⟩, rfl⟩, if_pos haccepted⟩

theorem intForm_injective : Function.Injective (fun n : ℕ => Json.int n) := fun _ _ h =>
  Int.ofNat.inj (Json.int.inj h)

/-- A value says one thing about its rotation. -/
theorem ManifestForm.unique {rotation' : Rotation} (h : ManifestForm value rotation)
    (h' : ManifestForm value rotation') : rotation = rotation' := by
  have htransactionId := h.transactionId.symm.trans h'.transactionId
  have hmax := h.maxRotatedFiles.symm.trans h'.maxRotatedFiles
  have hphase := h.phase.symm.trans h'.phase
  obtain ⟨present, hpresent, -, hbackups⟩ := h.present
  obtain ⟨present', hpresent', -, hbackups'⟩ := h'.present
  obtain rfl := Option.some.inj (hpresent.symm.trans hpresent')
  have hslots := hbackups.symm.trans hbackups'
  simp only [Option.some.injEq, Json.string.injEq, Json.array.injEq] at htransactionId hphase hslots
  refine Rotation.ext htransactionId (intForm_injective (Option.some.inj hmax)) hphase ?_
  exact List.map_injective_iff.2 intForm_injective hslots

theorem structField_eq_some {names : List String} {name : String} {found : Json}
    (h : structField names value name = some found) :
    (∃ fields, value = .object fields) ∨ ∃ items, value = .array items := by
  cases value with
  | object fields => exact .inl ⟨fields, rfl⟩
  | array items => exact .inr ⟨items, rfl⟩
  | _ => cases h

theorem ManifestForm.not_exactShape_iff (h : ManifestForm value rotation) :
    ¬ ExactShape value ↔ LooseShape value := by
  obtain ⟨present, hpresent, hactive, -⟩ := h.present
  constructor
  · intro hnot
    by_contra hstrict
    simp only [LooseShape, not_or, not_exists, not_and, not_not] at hstrict
    obtain ⟨harray, hfields, hpresentArray, hpresentFields⟩ := hstrict
    obtain ⟨fields, rfl⟩ | ⟨items, rfl⟩ := structField_eq_some hpresent
    · obtain ⟨entries, rfl⟩ | ⟨items, rfl⟩ := structField_eq_some hactive
      · exact hnot ⟨fields, entries, rfl, hfields fields rfl, hpresent, hpresentFields _ hpresent⟩
      · exact hpresentArray items hpresent
    · exact harray items rfl
  · rintro hloose ⟨fields, entries, rfl, honly, hentries, hpresentOnly⟩
    obtain ⟨items, harray⟩ | ⟨fields', hfields', hunknown⟩ | ⟨items, hitems⟩ |
      ⟨entries', hentries', hunknown⟩ := hloose
    · cases harray
    · obtain rfl := Json.object.inj hfields'
      exact hunknown honly
    · cases hentries.symm.trans hitems
    · obtain rfl := Json.object.inj (Option.some.inj (hentries.symm.trans hentries'))
      exact hunknown hpresentOnly

/-- The JSON form of a manifest has the form of a manifest. -/
theorem manifestForm_toJson (rotation : Rotation) :
    ManifestForm rotation.manifest.toJson rotation :=
  ⟨⟨_, rfl, .integer⟩, rfl, rfl, rfl, rfl, ⟨_, rfl, rfl, rfl⟩⟩

end

/-! ## What a rotation writes

The manifest of a new rotation is an accepted one, with a transaction id of hexadecimal digits. -/

/-- The rotation of a new manifest. -/
def newRotation (transactionId : String) (maxRotatedFiles : ℕ) (hmax : 1 ≤ maxRotatedFiles)
    (disk : Disk) : Rotation where
  transactionId := transactionId
  maxRotatedFiles := maxRotatedFiles
  phase := "staging"
  backups := (indices maxRotatedFiles).filter (fun index => decide (.backup index ∈ disk.files))
  known := .inl rfl
  positive := hmax
  increasing := List.Pairwise.filter _ (List.pairwise_lt_range' 1 (by simp))
  inRange := by
    intro index hindex
    have hmem := mem_indices.1 (List.mem_filter.1 hindex).1
    omega

theorem newManifest_eq (maxRotatedFiles nanos : ℕ) (hmax : 1 ≤ maxRotatedFiles) (disk : Disk) :
    newManifest maxRotatedFiles nanos disk =
      (newRotation (transactionId nanos) maxRotatedFiles hmax disk).manifest := rfl

/-- The digits of a number in base 16. -/
theorem hexDigits_isAlphanum (n : ℕ) : ∀ c ∈ Nat.toDigits 16 n, c.isAlphanum = true :=
  toDigitsCore_isAlphanum _ _ (by simp)

/-- A letter or digit of ASCII. -/
theorem toNat_lt_of_isAlphanum {c : Char} (h : c.isAlphanum = true) : c.toNat < 128 := by
  have hle : ∀ {high : UInt32}, c.val ≤ high → high.toNat < 128 → c.toNat < 128 :=
    fun hc hhigh => lt_of_le_of_lt (UInt32.le_iff_toNat_le.1 hc) hhigh
  rcases Bool.or_eq_true_iff.1 h with hletter | hdigit
  · rcases Bool.or_eq_true_iff.1 hletter with hcapital | hlower
    · have hrange : c.val ≥ 'A'.val ∧ c.val ≤ 'Z'.val := of_decide_eq_true hcapital
      exact hle hrange.2 (by decide)
    · have hupper : c.val ≤ 'z'.val := of_decide_eq_true (Bool.and_eq_true_iff.1 hlower).2
      exact hle hupper (by decide)
  · have hupper : c.val ≤ '9'.val := of_decide_eq_true (Bool.and_eq_true_iff.1 hdigit).2
    exact hle hupper (by decide)

end HpGuardian

import HpGuardian.Audit.FailedRecovery

/-!
# How tail recovery classifies a file

Every content consists of complete lines and a tail.  The specification of tail recovery divides
the contents into three classes by these: a file whose lines are JSON objects and whose tail is
empty is kept, one whose tail is UTF-8 but no JSON value loses its tail, and everything else is
refused.

`recover_tail` treats most contents so.  It splits the empty slice of a file without a line feed
into one empty line, though, so it refuses such a file whatever its tail is: an empty file, and a
file whose first record is torn.  `recoverTail_as_specified_iff` says that this is the only
difference, over all contents.  The classes are read off the normal form of lines and tail, in
which the check of a file is one equation (`checkTail_eq`).
-/

namespace HpGuardian

open Framework

section

variable {rt : JsonRuntime} {path : Path} {disk : Disk} {file : FileData} {stamp : Instant}

/-- Every complete line is a JSON object. An empty file has this property, having no lines. -/
def ObjectLines (rt : JsonRuntime) (content : Bytes) : Prop :=
  ∀ line ∈ linesOf newline content, isJsonObject rt line = true

instance (rt : JsonRuntime) (content : Bytes) : Decidable (ObjectLines rt content) :=
  inferInstanceAs (Decidable (∀ line ∈ linesOf newline content, isJsonObject rt line = true))

/-- The tail is UTF-8 and no JSON value: what a record looks like whose write was interrupted. -/
def TornText (rt : JsonRuntime) (content : Bytes) : Prop :=
  validUtf8 (tailOf newline content) = true ∧ rt.fromSlice (tailOf newline content) = none

instance (rt : JsonRuntime) (content : Bytes) : Decidable (TornText rt content) :=
  inferInstanceAs (Decidable (_ ∧ _))

/-- What the specification demands of the recovery of a file: keep it, cut off its tail, or refuse
it; a recovered file stays as it is when it is recovered again. -/
structure TailAsSpecified (rt : JsonRuntime) (stamp : Instant) (path : Path) (content : Bytes)
    (disk : Disk) : Prop where
  kept : ObjectLines rt content → tailOf newline content = [] →
    (recoverTail rt stamp path disk).result = .ok () ∧
      (recoverTail rt stamp path disk).final = disk
  cut : ObjectLines rt content → tailOf newline content ≠ [] → TornText rt content →
    (recoverTail rt stamp path disk).result = .ok () ∧
      (recoverTail rt stamp path disk).final.manifest = disk.manifest ∧
      ∀ other, (recoverTail rt stamp path disk).final.files.lookup other =
        if other = path then some ⟨completeText newline content, stamp⟩
        else disk.files.lookup other
  refused : ¬ (ObjectLines rt content ∧ (tailOf newline content = [] ∨ TornText rt content)) →
    (recoverTail rt stamp path disk).result = .error .corrupt ∧
      (recoverTail rt stamp path disk).final = disk
  again : (recoverTail rt stamp path disk).result = .ok () → ∀ stamp',
    recoverTail rt stamp' path (recoverTail rt stamp path disk).final =
      ⟨[], (recoverTail rt stamp path disk).final, .ok ()⟩

/-- What recovery makes of any content, by its lines and its tail. -/
theorem checkTail_eq (hempty : rt.fromSlice [] = none) (content : Bytes) :
    checkTail rt content =
      if linesOf newline content = [] ∨ ¬ ObjectLines rt content then .error .corrupt
      else if tailOf newline content = [] then .ok none
      else if TornText rt content then .ok (some (completeText newline content).length)
      else .error .corrupt := by
  -- an empty line is no JSON object
  have hobjects : (∀ line ∈ linesOf newline content, line ≠ [] ∧ isJsonObject rt line = true) ↔
      ObjectLines rt content := by
    refine ⟨fun h line hline => (h line hline).2, fun h line hline => ⟨?_, h line hline⟩⟩
    rintro rfl
    have hobject := h [] hline
    simp [isJsonObject, hempty] at hobject
  obtain ⟨lines, tail, rfl, hlines, htail⟩ := exists_render newline content
  rw [linesOf_render hlines htail] at hobjects ⊢
  rw [checkTail_render hlines htail, tailOf_render htail, completeText_render htail]
  simp only [hobjects, TornText, tailOf_render htail]

theorem take_completeText (content : Bytes) :
    content.take (completeText newline content).length = completeText newline content := by
  obtain ⟨lines, tail, rfl, -, htail⟩ := exists_render newline content
  rw [completeText_render htail, List.take_left]

/-- A file that is refused. -/
theorem TailAsSpecified.of_corrupt (hfile : disk.files.lookup path = some file)
    (hcheck : checkTail rt file.content = .error .corrupt) (stamp : Instant) :
    TailAsSpecified rt stamp path file.content disk ↔
      ¬ (ObjectLines rt file.content ∧
        (tailOf newline file.content = [] ∨ TornText rt file.content)) := by
  have hrun : recoverTail rt stamp path disk = ⟨[], disk, .error .corrupt⟩ := by
    simp only [recoverTail, Program.read_bind_apply, hfile, hcheck]
    rfl
  constructor
  · rintro h ⟨hobjects, htail⟩
    have hok : (recoverTail rt stamp path disk).result = .ok () := by
      by_cases hnil : tailOf newline file.content = []
      · exact (h.kept hobjects hnil).1
      · exact (h.cut hobjects hnil (htail.resolve_left hnil)).1
    rw [hrun] at hok
    cases hok
  · intro h
    refine ⟨fun hobjects htail => absurd ⟨hobjects, .inl htail⟩ h,
      fun hobjects _ htorn => absurd ⟨hobjects, .inr htorn⟩ h, fun _ => ?_, fun hok => ?_⟩
    · rw [hrun]
      exact ⟨rfl, rfl⟩
    · rw [hrun] at hok
      cases hok

/-- A file that is kept. -/
theorem TailAsSpecified.of_clean (hfile : disk.files.lookup path = some file)
    (hcheck : checkTail rt file.content = .ok none) (hobjects : ObjectLines rt file.content)
    (htail : tailOf newline file.content = []) (stamp : Instant) :
    TailAsSpecified rt stamp path file.content disk := by
  have hclean : CleanPath rt disk path := fun file' hfile' => by
    rw [hfile] at hfile'
    rwa [← Option.some.inj hfile']
  have hrun := fun stamp => recoverTail_clean hclean stamp
  refine ⟨fun _ _ => ?_, fun _ h => absurd htail h, fun h => absurd ⟨hobjects, .inl htail⟩ h,
    fun _ stamp' => ?_⟩
  · rw [hrun]
    exact ⟨rfl, rfl⟩
  · rw [hrun stamp]
    exact hrun stamp'

/-- A file that is cut: what is left has the same lines and no tail. -/
theorem TailAsSpecified.of_torn (hempty : rt.fromSlice [] = none)
    (hfile : disk.files.lookup path = some file) (hnil : linesOf newline file.content ≠ [])
    (hobjects : ObjectLines rt file.content) (htail : tailOf newline file.content ≠ [])
    (htorn : TornText rt file.content) (stamp : Instant) :
    TailAsSpecified rt stamp path file.content disk := by
  have hcheck := checkTail_eq hempty file.content
  rw [if_neg (not_or.2 ⟨hnil, not_not.2 hobjects⟩), if_neg htail, if_pos htorn] at hcheck
  have hrun := recoverTail_torn hfile hcheck stamp
  have hlookup := lookup_truncateFile (completeText newline file.content).length stamp hfile
  rw [take_completeText] at hlookup
  refine ⟨fun _ h => absurd h htail, fun _ _ _ => ?_, fun h => absurd ⟨hobjects, .inr htorn⟩ h,
    fun _ stamp' => ?_⟩
  · rw [hrun]
    exact ⟨rfl, truncateFile_manifest _ _ _, hlookup⟩
  · rw [hrun]
    refine recoverTail_clean (fun file' hfile' => ?_) stamp'
    have hleft := (hlookup path).symm.trans hfile'
    rw [if_pos rfl] at hleft
    obtain rfl := Option.some.inj hleft
    obtain ⟨hsame, hnone⟩ := linesOf_completeText newline file.content
    have hobjects' : ObjectLines rt (completeText newline file.content) := by
      rwa [ObjectLines, hsame]
    rw [checkTail_eq hempty, hsame, if_neg (not_or.2 ⟨hnil, not_not.2 hobjects'⟩), if_pos hnone]

/-- **Classes of files.** Tail recovery does with a file what the specification demands iff the
file has a complete line, or a tail that is refused anyway. So the empty file and files with
nothing but a torn record are the exceptions, and there are no others. -/
theorem recoverTail_as_specified_iff (hempty : rt.fromSlice [] = none)
    (hfile : disk.files.lookup path = some file) (stamp : Instant) :
    TailAsSpecified rt stamp path file.content disk ↔
      linesOf newline file.content ≠ [] ∨
        (tailOf newline file.content ≠ [] ∧ ¬ TornText rt file.content) := by
  have hcheck := checkTail_eq hempty file.content
  by_cases hnil : linesOf newline file.content = []
  · have hobjects : ObjectLines rt file.content := by simp [ObjectLines, hnil]
    rw [if_pos (.inl hnil)] at hcheck
    rw [TailAsSpecified.of_corrupt hfile hcheck]
    simp [hnil, hobjects]
  · refine iff_of_true ?_ (.inl hnil)
    by_cases hobjects : ObjectLines rt file.content
    · rw [if_neg (not_or.2 ⟨hnil, not_not.2 hobjects⟩)] at hcheck
      by_cases htail : tailOf newline file.content = []
      · rw [if_pos htail] at hcheck
        exact .of_clean hfile hcheck hobjects htail stamp
      · by_cases htorn : TornText rt file.content
        · exact .of_torn hempty hfile hnil hobjects htail htorn stamp
        · rw [if_neg htail, if_neg htorn] at hcheck
          rw [TailAsSpecified.of_corrupt hfile hcheck]
          simp [htail, htorn]
    · rw [if_pos (.inr hobjects)] at hcheck
      rw [TailAsSpecified.of_corrupt hfile hcheck]
      simp [hobjects]

end

/-- The active file of a log with one complete line and a torn one. -/
def tornActive : Disk where
  files := (∅ : Files Path FileData).insert .active ⟨"\x7b\x7d\n\x7b".toUTF8.toList, 1⟩
  manifest := none

theorem recoverTail_as_specified_sample :
    TailAsSpecified sampleRuntime 2 .active "\x7b\x7d\n\x7b".toUTF8.toList tornActive ↔
      linesOf newline "\x7b\x7d\n\x7b".toUTF8.toList ≠ [] ∨
        (tailOf newline "\x7b\x7d\n\x7b".toUTF8.toList ≠ [] ∧
          ¬ TornText sampleRuntime "\x7b\x7d\n\x7b".toUTF8.toList) := by
  have hfile : tornActive.files.lookup .active = some ⟨"\x7b\x7d\n\x7b".toUTF8.toList, 1⟩ := by
    decide +kernel
  exact recoverTail_as_specified_iff (by decide +kernel) hfile 2

/-- A directory whose active file is empty. -/
def emptyActive : Disk where
  files := (∅ : Files Path FileData).insert .active ⟨[], 1⟩
  manifest := none

/-- An empty file is refused, although it has no line that could be wrong and no tail: it is split
into one empty line, and that is no object. -/
theorem empty_file_refused :
    (recoverTail sampleRuntime 2 .active emptyActive).result = .error .corrupt ∧
      ¬ TailAsSpecified sampleRuntime 2 .active [] emptyActive := by
  have hresult : (recoverTail sampleRuntime 2 .active emptyActive).result = .error .corrupt := by
    decide +kernel
  refine ⟨hresult, fun h => ?_⟩
  have hok := (h.kept (by decide +kernel) (by decide +kernel)).1
  rw [hresult] at hok
  cases hok

end HpGuardian

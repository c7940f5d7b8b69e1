import HpGuardian.Audit.TailClasses
import HpGuardian.Python.Directories

/-!
# The two runtimes recover a log alike

Both tail recoveries go through a list of files, stop at the first that is no regular file or that
their check refuses, and cut the tail off every file before it.  They differ in the files they go
through and in the contents they refuse: the Rust log goes through the configured number of backups
and refuses a file without a complete line; the Python log goes through every entry that its
pattern finds and takes `\r` for the end of a line.  Each also has its own ways to refuse a log as
a whole: the Rust log one whose path names no directory, the Python log one whose name makes a
pattern that is refused or that finds a leftover of a rotation.

`recoverAlike_iff` puts this together.  It is stated for a directory without a rotation entry, in
which otherwise every name and every kind of entry may occur.

What both have in common is a loop over names with a check of each content.  `ChecksTail` is the
specification of a check, by the contents that it refuses, and both checks meet it, with
`RustRefuses` and `PythonRefuses` as the contents: declarative predicates on the lines and the
tail.  The loop then does one of three things, which depend on the first entry that is not accepted
(`forEach_recoverEntryBy`).  The two logs are compared by these outcomes, without going through the
two loops together, since their lists of files need not have anything to do with each other.
-/

namespace HpGuardian

open Framework

section

variable {ε : Type} {corrupt : ε → Prop} {refuses : Bytes → Prop}

/-- The check refuses these contents as corrupt, and has the tail cut off all others. Everything
that a recovery does to a file follows from it. -/
structure ChecksTail {κ : Type} (check : κ → Bytes → Except ε (Option ℕ)) (corrupt : ε → Prop)
    (refuses : Bytes → Prop) : Prop where
  refused : ∀ key content, refuses content →
    ∃ error, corrupt error ∧ check key content = .error error
  accepted : ∀ key content, ¬ refuses content →
    check key content =
      .ok (if tailOf newline content = [] then none
        else some (completeText newline content).length)

end

/-! ## What the two runtimes refuse

Contents that are refused, in terms of their lines and their tail, and the two checks against
them. -/

section

variable (rt : JsonRuntime)

/-- A line that is no record: it is empty, or no JSON object. -/
def BadLine (line : Bytes) : Prop := line = [] ∨ isJsonObject rt line = false

/-- A tail that is neither empty nor torn. -/
def BadTail (content : Bytes) : Prop := tailOf newline content ≠ [] ∧ ¬ TornText rt content

/-- The Rust log refuses a content without a line, with a bad line or with a bad tail. -/
def RustRefuses (content : Bytes) : Prop :=
  linesOf newline content = [] ∨ (∃ line ∈ linesOf newline content, BadLine rt line) ∨
    BadTail rt content

/-- The Python log refuses a content with a bad line or a bad tail, where a line also ends at a
carriage return. -/
def PythonRefuses (content : Bytes) : Prop :=
  (∃ line ∈ Python.splitlines (completeText newline content), BadLine rt line) ∨
    BadTail rt content

theorem not_badLine_iff {line : Bytes} :
    ¬ BadLine rt line ↔ line ≠ [] ∧ isJsonObject rt line = true := by
  rw [BadLine, not_or, Bool.not_eq_false]

theorem checkTail_checksTail {κ : Type} :
    ChecksTail (fun _ : κ => checkTail rt) (· = .corrupt) (RustRefuses rt) := by
  have hcheck : ∀ content, checkTail rt content =
      if linesOf newline content = [] ∨
          ¬ (∀ line ∈ linesOf newline content, line ≠ [] ∧ isJsonObject rt line = true) then
        .error .corrupt
      else if tailOf newline content = [] then .ok none
      else if TornText rt content then .ok (some (completeText newline content).length)
      else .error .corrupt := by
    intro content
    obtain ⟨lines, tail, rfl, hlines, htail⟩ := exists_render newline content
    rw [checkTail_render hlines htail, linesOf_render hlines htail, completeText_render htail]
    simp only [TornText, tailOf_render htail]
  have hlines : ∀ content,
      (¬ ∀ line ∈ linesOf newline content, line ≠ [] ∧ isJsonObject rt line = true) ↔
        ∃ line ∈ linesOf newline content, BadLine rt line := by
    intro content
    simp only [← not_badLine_iff]
    push Not
    rfl
  refine ⟨fun _ content hrefuses => ⟨.corrupt, rfl, ?_⟩, fun _ content hrefuses => ?_⟩
  · rw [hcheck]
    rcases hrefuses with hnil | hbad | ⟨htail, htorn⟩
    · rw [if_pos (.inl hnil)]
    · rw [if_pos (.inr ((hlines content).2 hbad))]
    · rw [if_neg htail, if_neg htorn, ite_self]
  · obtain ⟨hnil, hbad, htail⟩ := (not_or.trans (and_congr_right fun _ => not_or)).1 hrefuses
    rw [hcheck, if_neg (not_or.2 ⟨hnil, fun h => hbad ((hlines content).1 h)⟩)]
    by_cases hempty : tailOf newline content = []
    · rw [if_pos hempty, if_pos hempty]
    · rw [if_neg hempty, if_neg hempty, if_pos (not_not.1 fun htorn => htail ⟨hempty, htorn⟩)]

theorem validateJsonLine_spec (path : String) (line : Bytes) :
    (BadLine rt line ∧ ∃ message,
        Python.validateJsonLine rt path line = .error ⟨"audit_corrupt", message⟩) ∨
      (¬ BadLine rt line ∧ Python.validateJsonLine rt path line = .ok ()) := by
  unfold BadLine Python.validateJsonLine isJsonObject
  by_cases hnil : line = []
  · exact .inl ⟨.inl hnil, _, by rw [hnil]; rfl⟩
  · have hempty : line.isEmpty = false := by simpa using hnil
    simp only [hempty, Bool.false_eq_true, if_false]
    cases rt.fromSlice line with
    | none => exact .inl ⟨.inr rfl, _, rfl⟩
    | some value =>
        cases value with
        | object fields => exact .inr ⟨by simp [hnil], rfl⟩
        | _ => exact .inl ⟨.inr rfl, _, rfl⟩

theorem validateJsonLines_spec (path : String) (lines : List Bytes) :
    ((∃ line ∈ lines, BadLine rt line) ∧ ∃ message,
        Python.validateJsonLines rt path lines = .error ⟨"audit_corrupt", message⟩) ∨
      ((∀ line ∈ lines, ¬ BadLine rt line) ∧
        Python.validateJsonLines rt path lines = .ok ()) := by
  induction lines with
  | nil => exact .inr ⟨by simp, rfl⟩
  | cons line lines ih =>
      rw [Python.validateJsonLines]
      rcases validateJsonLine_spec rt path line with ⟨hbad, message, hline⟩ | ⟨hgood, hline⟩
      · rw [hline]
        exact .inl ⟨⟨line, List.mem_cons_self, hbad⟩, message, rfl⟩
      · rw [hline]
        refine ih.imp ?_ ?_
        · rintro ⟨⟨other, hmem, hbad⟩, message, hrest⟩
          exact ⟨⟨other, List.mem_cons_of_mem _ hmem, hbad⟩, message, hrest⟩
        · rintro ⟨hall, hrest⟩
          exact ⟨List.forall_mem_cons.2 ⟨hgood, hall⟩, hrest⟩

theorem drop_completeText (content : Bytes) :
    content.drop (completeText newline content).length = tailOf newline content := by
  obtain ⟨lines, tail, rfl, -, htail⟩ := exists_render newline content
  rw [completeText_render htail, tailOf_render htail, List.drop_left]

theorem checkUnterminated_spec (path : String) (content : Bytes) (length : ℕ) :
    (BadTail rt content ∧ ∃ message,
        Python.checkUnterminated rt path (tailOf newline content) length =
          .error ⟨"audit_corrupt", message⟩) ∨
      (¬ BadTail rt content ∧
        Python.checkUnterminated rt path (tailOf newline content) length =
          .ok (if tailOf newline content = [] then none else some length)) := by
  unfold BadTail TornText Python.checkUnterminated
  by_cases hnil : tailOf newline content = []
  · exact .inr ⟨by simp [hnil], by simp [hnil]⟩
  · have hempty : (tailOf newline content).isEmpty = false := by simpa using hnil
    simp only [hempty, Bool.false_eq_true, if_false, hnil]
    cases validUtf8 (tailOf newline content) with
    | false => exact .inl ⟨⟨hnil, by simp⟩, _, rfl⟩
    | true =>
        cases rt.fromSlice (tailOf newline content) with
        | none => exact .inr ⟨by simp, rfl⟩
        | some value =>
            cases value with
            | object fields => exact .inl ⟨⟨hnil, by simp⟩, _, rfl⟩
            | _ => exact .inl ⟨⟨hnil, by simp⟩, _, rfl⟩

theorem checkFileTail_checksTail {κ : Type} (text : κ → String) :
    ChecksTail (fun key => Python.checkFileTail rt (text key))
      (fun error => error.code = "audit_corrupt") (PythonRefuses rt) := by
  refine ⟨fun key content hrefuses => ?_, fun key content hrefuses => ?_⟩
  · unfold Python.checkFileTail
    dsimp only
    rw [drop_completeText]
    rcases validateJsonLines_spec rt (text key)
        (Python.splitlines (completeText newline content)) with
      ⟨-, message, hlines⟩ | ⟨hall, hlines⟩
    · rw [hlines]
      exact ⟨_, rfl, rfl⟩
    · rw [hlines]
      have htail := hrefuses.resolve_left fun ⟨line, hmem, hbad⟩ => hall line hmem hbad
      rcases checkUnterminated_spec rt (text key) content
          (completeText newline content).length with ⟨-, message, hcheck⟩ | ⟨hgood, -⟩
      · exact ⟨_, rfl, hcheck⟩
      · exact absurd htail hgood
  · obtain ⟨hlines, htail⟩ := not_or.1 hrefuses
    unfold Python.checkFileTail
    dsimp only
    rw [drop_completeText]
    rcases validateJsonLines_spec rt (text key)
        (Python.splitlines (completeText newline content)) with ⟨hbad, -⟩ | ⟨-, hok⟩
    · exact absurd hbad hlines
    · rw [hok]
      rcases checkUnterminated_spec rt (text key) content
          (completeText newline content).length with ⟨hbad, -⟩ | ⟨-, hcheck⟩
      · exact absurd hbad htail
      · exact hcheck

end

/-! ## The entries of a log

The loop over names.  The recovery of one entry changes that entry only, and leaves it as
acceptable as it was, so a name that occurs twice does no harm. -/

section

variable {ε : Type} {corrupt : ε → Prop} {refuses : Bytes → Prop} {directory : Directory}
  {entry : String} {entries : List String}

/-- The content of an entry that is a file. -/
def contentOf (entry : String) (directory : Directory) : Option Bytes :=
  match directory.lookup entry with
  | some (.file file) => some file.content
  | _ => none

/-- The entry is absent, or a file that is not refused. A name that is taken by something else than
a regular file is not accepted. -/
def Accepts (refuses : Bytes → Prop) (directory : Directory) (entry : String) : Prop :=
  ∀ found ∈ directory.lookup entry, ∃ file, found = .file file ∧ ¬ refuses file.content

/-- The entry is a file that is refused. -/
def Corrupt (refuses : Bytes → Prop) (directory : Directory) (entry : String) : Prop :=
  ∃ file, directory.lookup entry = some (.file file) ∧ refuses file.content

/-- The first entry that is not accepted is a file that is refused. It is not said which entries
follow, nor that those before were there. -/
def StopsAtCorrupt (refuses : Bytes → Prop) (directory : Directory) (entries : List String) :
    Prop :=
  ∃ before entry after, entries = before ++ entry :: after ∧
    (∀ earlier ∈ before, Accepts refuses directory earlier) ∧ Corrupt refuses directory entry

theorem Accepts.not_corrupt (h : Accepts refuses directory entry) :
    ¬ Corrupt refuses directory entry := by
  rintro ⟨file, hfile, hrefuses⟩
  obtain ⟨file', heq, hkept⟩ := h _ hfile
  obtain rfl := DirectoryEntry.file.inj heq
  exact hkept hrefuses

theorem not_stopsAtCorrupt (h : ∀ entry ∈ entries, Accepts refuses directory entry) :
    ¬ StopsAtCorrupt refuses directory entries := by
  rintro ⟨before, entry, after, rfl, -, hcorrupt⟩
  exact (h entry (by simp)).not_corrupt hcorrupt

theorem stopsAtCorrupt_cons_accepted (h : Accepts refuses directory entry) :
    StopsAtCorrupt refuses directory (entry :: entries) ↔
      StopsAtCorrupt refuses directory entries := by
  constructor
  · rintro ⟨_ | ⟨first, before⟩, found, after, heq, hbefore, hcorrupt⟩
    · obtain ⟨rfl, -⟩ := List.cons.inj heq
      exact absurd hcorrupt h.not_corrupt
    · obtain ⟨rfl, hrest⟩ := List.cons.inj heq
      exact ⟨before, found, after, hrest, (List.forall_mem_cons.1 hbefore).2, hcorrupt⟩
  · rintro ⟨before, found, after, rfl, hbefore, hcorrupt⟩
    exact ⟨entry :: before, found, after, rfl, List.forall_mem_cons.2 ⟨h, hbefore⟩, hcorrupt⟩

theorem stopsAtCorrupt_cons_refused (h : ¬ Accepts refuses directory entry) :
    StopsAtCorrupt refuses directory (entry :: entries) ↔ Corrupt refuses directory entry := by
  constructor
  · rintro ⟨_ | ⟨first, before⟩, found, after, heq, hbefore, hcorrupt⟩
    · obtain ⟨rfl, -⟩ := List.cons.inj heq
      exact hcorrupt
    · obtain ⟨rfl, -⟩ := List.cons.inj heq
      exact absurd (hbefore entry (by simp)) h
  · intro hcorrupt
    exact ⟨[], entry, entries, rfl, by simp, hcorrupt⟩

theorem stopsAtCorrupt_congr {directory' : Directory}
    (haccepts : ∀ entry, Accepts refuses directory' entry ↔ Accepts refuses directory entry)
    (hcorrupt : ∀ entry, Corrupt refuses directory' entry ↔ Corrupt refuses directory entry)
    (entries : List String) :
    StopsAtCorrupt refuses directory' entries ↔ StopsAtCorrupt refuses directory entries := by
  simp only [StopsAtCorrupt, haccepts, hcorrupt]

/-- The content without its tail. -/
theorem completeText_eq_self_iff (content : Bytes) :
    completeText newline content = content ↔ tailOf newline content = [] := by
  have hsplit : completeText newline content ++ tailOf newline content = content :=
    completeText_append_tailOf content
  constructor
  · intro h
    rw [h] at hsplit
    exact List.append_right_eq_self.1 hsplit
  · intro h
    rwa [h, List.append_nil] at hsplit

theorem completeText_idem (content : Bytes) :
    completeText newline (completeText newline content) = completeText newline content := by
  obtain ⟨lines, tail, rfl, -, htail⟩ := exists_render newline content
  rw [completeText_render htail]
  have hnil : newline ∉ ([] : Bytes) := by simp
  have hcomplete := @completeText_render UInt8 _ newline lines [] hnil
  rwa [List.append_nil] at hcomplete

/-- What an entry that is checked contains afterwards. -/
def cutTail (entries : List String) (directory : Directory) (entry : String) : Option Bytes :=
  if entry ∈ entries then (contentOf entry directory).map (completeText newline)
  else contentOf entry directory

/-- An accepted entry and its complete part are accepted alike, and the other entries are as they
were. -/
theorem Accepts.truncate (hcut : ∀ content, ¬ refuses content →
      ¬ refuses (completeText newline content)) {file : FileData}
    (hfile : directory.lookup entry = some (.file file)) (hkept : ¬ refuses file.content)
    (stamp : Instant) (entry' : String) :
    let directory' := Directory.truncateEntry entry (completeText newline file.content).length
      stamp directory
    (Accepts refuses directory' entry' ↔ Accepts refuses directory entry') ∧
      (Corrupt refuses directory' entry' ↔ Corrupt refuses directory entry') ∧
      contentOf entry' directory' = cutTail [entry] directory entry' := by
  have hlookup := Directory.lookup_truncateEntry hfile (completeText newline file.content).length
    stamp
  rw [take_completeText] at hlookup
  dsimp only
  by_cases hentry : entry' = entry
  · subst hentry
    have haccepts : Accepts refuses directory entry' := by
      intro found hfound
      rw [hfile] at hfound
      exact ⟨file, (Option.some.inj hfound).symm, hkept⟩
    have haccepts' : Accepts refuses (Directory.truncateEntry entry'
        (completeText newline file.content).length stamp directory) entry' := by
      intro found hfound
      rw [hlookup, if_pos rfl] at hfound
      exact ⟨_, (Option.some.inj hfound).symm, hcut _ hkept⟩
    refine ⟨iff_of_true haccepts' haccepts,
      iff_of_false haccepts'.not_corrupt haccepts.not_corrupt, ?_⟩
    rw [cutTail, if_pos (by simp), contentOf, contentOf, hlookup, if_pos rfl, hfile]
    rfl
  · have hsame : (Directory.truncateEntry entry (completeText newline file.content).length stamp
        directory).lookup entry' = directory.lookup entry' := by
      rw [hlookup, if_neg hentry]
    refine ⟨by simp only [Accepts, hsame], by simp only [Corrupt, hsame], ?_⟩
    rw [cutTail, if_neg (by simpa using hentry), contentOf, contentOf, hsame]

/-- **One entry.**  It is refused, as corrupt or for what it is, or its tail is cut off; then the
other entries are accepted and refused as before. -/
theorem recoverEntryBy_spec {refusal : String → DirectoryEntry → ε}
    {check : String → Bytes → Except ε (Option ℕ)} (hcheck : ChecksTail check corrupt refuses)
    (hrefusal : ∀ entry found, ¬ corrupt (refusal entry found))
    (hcut : ∀ content, ¬ refuses content → ¬ refuses (completeText newline content))
    (stamp : Instant) (entry : String) (directory : Directory) :
    (¬ Accepts refuses directory entry ∧ ∃ error,
        (corrupt error ↔ Corrupt refuses directory entry) ∧
        Directory.recoverEntryBy refusal check stamp entry directory =
          ⟨[], directory, .error error⟩) ∨
      (Accepts refuses directory entry ∧ ∃ steps directory',
        Directory.recoverEntryBy refusal check stamp entry directory =
          ⟨steps, directory', .ok ()⟩ ∧
        ∀ entry', (Accepts refuses directory' entry' ↔ Accepts refuses directory entry') ∧
          (Corrupt refuses directory' entry' ↔ Corrupt refuses directory entry') ∧
          contentOf entry' directory' = cutTail [entry] directory entry') := by
  have hirregular : ∀ found, directory.lookup entry = some found → (∀ file, found ≠ .file file) →
      ¬ Accepts refuses directory entry ∧ ∃ error,
        (corrupt error ↔ Corrupt refuses directory entry) ∧
        Directory.recoverEntryBy refusal check stamp entry directory =
          ⟨[], directory, .error error⟩ := by
    intro found hfound hnot
    refine ⟨fun haccepts => ?_, _, iff_of_false (hrefusal entry found) ?_,
      Directory.recoverEntryBy_of_irregular hfound hnot⟩
    · obtain ⟨file, heq, -⟩ := haccepts found hfound
      exact hnot file heq
    · rintro ⟨file, hfile, -⟩
      rw [hfound] at hfile
      exact hnot file (Option.some.inj hfile)
  cases hfound : directory.lookup entry with
  | none =>
      refine .inr ⟨fun found h => ?_, [], directory, Directory.recoverEntryBy_of_none hfound,
        fun entry' => ⟨Iff.rfl, Iff.rfl, ?_⟩⟩
      · rw [hfound] at h
        cases h
      · rw [cutTail]
        split_ifs with hentry
        · rw [List.mem_singleton.1 hentry, contentOf, hfound]
          rfl
        · rfl
  | some found =>
      cases found with
      | symlink => exact .inl (hirregular _ hfound (by simp))
      | special => exact .inl (hirregular _ hfound (by simp))
      | file file =>
          have hrun := @Directory.recoverEntryBy_of_file ε refusal check stamp entry directory
            file hfound
          by_cases hrefuses : refuses file.content
          · obtain ⟨error, hcorrupt, herror⟩ := hcheck.refused entry file.content hrefuses
            refine .inl ⟨fun haccepts => ?_, error,
              iff_of_true hcorrupt ⟨file, hfound, hrefuses⟩, by rw [hrun, herror]⟩
            exact haccepts.not_corrupt ⟨file, hfound, hrefuses⟩
          · refine .inr ⟨fun found h => ?_, ?_⟩
            · rw [hfound] at h
              exact ⟨file, (Option.some.inj h).symm, hrefuses⟩
            · have haccepted := hcheck.accepted entry file.content hrefuses
              by_cases htail : tailOf newline file.content = []
              · -- without a tail the file is its own complete part
                rw [if_pos htail] at haccepted
                refine ⟨[], directory, by rw [hrun, haccepted], fun entry' =>
                  ⟨Iff.rfl, Iff.rfl, ?_⟩⟩
                rw [cutTail]
                split_ifs with hentry
                · rw [List.mem_singleton.1 hentry, contentOf, hfound, Option.map_some,
                    (completeText_eq_self_iff _).2 htail]
                · rfl
              · rw [if_neg htail] at haccepted
                exact ⟨_, _, by rw [hrun, haccepted],
                  Accepts.truncate hcut hfound hrefuses stamp⟩

/-- **All entries.**  Recovery stops at a corrupt file, or at another entry that it does not
accept, or cuts the tails off all files. -/
theorem forEach_recoverEntryBy {refusal : String → DirectoryEntry → ε}
    {check : String → Bytes → Except ε (Option ℕ)} (hcheck : ChecksTail check corrupt refuses)
    (hrefusal : ∀ entry found, ¬ corrupt (refusal entry found))
    (hcut : ∀ content, ¬ refuses content → ¬ refuses (completeText newline content))
    (stamp : Instant) (entries : List String) (directory : Directory) :
    let run := Program.forEach (Directory.recoverEntryBy refusal check stamp) entries directory
    ((¬ ∀ entry ∈ entries, Accepts refuses directory entry) ∧ ∃ error,
        (corrupt error ↔ StopsAtCorrupt refuses directory entries) ∧
        run.result = .error error) ∨
      ((∀ entry ∈ entries, Accepts refuses directory entry) ∧ run.result = .ok () ∧
        ∀ entry, contentOf entry run.final = cutTail entries directory entry) := by
  dsimp only
  induction entries generalizing directory with
  | nil => exact .inr ⟨by simp, rfl, fun entry => by simp [cutTail]⟩
  | cons entry entries ih =>
      rw [Program.forEach_cons]
      rcases recoverEntryBy_spec hcheck hrefusal hcut stamp entry directory with
        ⟨hnot, error, hcorrupt, hrun⟩ | ⟨haccepts, steps, directory', hrun, hkept⟩
      · refine .inl ⟨fun hall => hnot (hall entry (by simp)), error, ?_, ?_⟩
        · rw [hcorrupt, stopsAtCorrupt_cons_refused hnot]
        · rw [Program.bind_error (e := error) (by rw [hrun])]
      · rw [Program.bind_run hrun, List.forall_mem_cons, and_iff_right haccepts,
          stopsAtCorrupt_cons_accepted haccepts,
          ← stopsAtCorrupt_congr (fun entry => (hkept entry).1) (fun entry => (hkept entry).2.1)]
        simp only [← fun entry => propext (hkept entry).1]
        refine (ih directory').imp_right fun ⟨hall, hok, hfinal⟩ => ⟨hall, hok, fun entry' => ?_⟩
        rw [hfinal entry', cutTail, (hkept entry').2.2, cutTail, cutTail]
        have hidem : completeText newline ∘ completeText newline = completeText newline :=
          funext completeText_idem
        by_cases hlater : entry' ∈ entries <;> by_cases hhead : entry' = entry <;>
          simp [hlater, hhead, hidem]

end

/-! ## The whole log

What each log does with a directory, and when the two do the same. -/

/-- Both tail recoveries succeed and leave the same contents, or both find a corrupt file. In the
second case the contents they leave may differ, since each stops at its own first corrupt file. -/
def RecoverAlike (rt : JsonRuntime) (refusesDoubleStar : Bool) (parent name : String)
    (recoverManifest : Directory.RecoveryProgram Unit)
    (recoverManifest' : Python.Directory.RecoveryProgram Unit) (maxRotatedFiles : ℕ)
    (stamp stamp' : Instant) (directory : Directory) : Prop :=
  let rust := Directory.recoverTails rt parent name recoverManifest maxRotatedFiles stamp directory
  let python := Python.Directory.recoverTails rt refusesDoubleStar parent name recoverManifest'
    stamp' directory
  (rust.result = .ok () ∧ python.result = .ok () ∧
      ∀ entry, contentOf entry rust.final = contentOf entry python.final) ∨
    (rust.result = .error .corrupt ∧ ∃ error, python.result = .error (.auditError error) ∧
      error.code = "audit_corrupt")

section

variable {rt : JsonRuntime} {refusesDoubleStar : Bool} {parent name : String}
  {recoverManifest : Directory.RecoveryProgram Unit}
  {recoverManifest' : Python.Directory.RecoveryProgram Unit} {maxRotatedFiles : ℕ}
  {directory : Directory}

/-- A complete part has the lines it had, and no tail. -/
theorem rustRefuses_completeText {content : Bytes} (h : ¬ RustRefuses rt content) :
    ¬ RustRefuses rt (completeText newline content) := by
  have hlines : linesOf newline (completeText newline content) = linesOf newline content := by
    rw [linesOf, linesOf, completeText_idem]
  have htail : tailOf newline (completeText newline content) = [] :=
    (completeText_eq_self_iff _).1 (completeText_idem content)
  rintro (hnil | hbad | ⟨hne, -⟩)
  · exact h (.inl (hlines ▸ hnil))
  · exact h (.inr (.inl (hlines ▸ hbad)))
  · exact hne htail

theorem pythonRefuses_completeText {content : Bytes} (h : ¬ PythonRefuses rt content) :
    ¬ PythonRefuses rt (completeText newline content) := by
  rintro (hbad | ⟨hne, -⟩)
  · exact h (.inl (by rwa [completeText_idem] at hbad))
  · exact hne ((completeText_eq_self_iff _).1 (completeText_idem content))

/-- What the Rust log does with a log at rest. -/
theorem rust_recovers (hparent : parent ≠ "")
    (hquiet : Directory.hasRotationEntry name directory = false) (stamp : Instant) :
    let names := Directory.logNames name maxRotatedFiles
    let run := Directory.recoverTails rt parent name recoverManifest maxRotatedFiles stamp directory
    ((¬ ∀ entry ∈ names, Accepts (RustRefuses rt) directory entry) ∧ ∃ error,
        (error = .corrupt ↔ StopsAtCorrupt (RustRefuses rt) directory names) ∧
        run.result = .error error) ∨
      ((∀ entry ∈ names, Accepts (RustRefuses rt) directory entry) ∧ run.result = .ok () ∧
        ∀ entry, contentOf entry run.final = cutTail names directory entry) := by
  dsimp only
  rw [Directory.recoverTails_apply hparent hquiet, Directory.recoverTail_eq_recoverEntryBy]
  refine forEach_recoverEntryBy (checkTail_checksTail rt) (fun entry found => ?_)
    (fun content => rustRefuses_completeText) stamp _ directory
  cases found <;> simp [Directory.irregularError]

/-- What the Python log does with a log at rest. -/
theorem python_recovers (hquiet : Directory.hasRotationEntry name directory = false)
    (haccepted : ¬ Python.Directory.RefusesPatterns refusesDoubleStar name)
    (hfinds : ¬ Python.Directory.FindsStaging name directory) (stamp : Instant) :
    let names := Python.Directory.logNames name directory
    let run := Python.Directory.recoverTails rt refusesDoubleStar parent name recoverManifest'
      stamp directory
    ((¬ ∀ entry ∈ names, Accepts (PythonRefuses rt) directory entry) ∧ ∃ error,
        ((∃ e, error = .auditError e ∧ e.code = "audit_corrupt") ↔
          StopsAtCorrupt (PythonRefuses rt) directory names) ∧
        run.result = .error error) ∨
      ((∀ entry ∈ names, Accepts (PythonRefuses rt) directory entry) ∧ run.result = .ok () ∧
        ∀ entry, contentOf entry run.final = cutTail names directory entry) := by
  dsimp only
  rw [Python.Directory.recoverTails_apply hquiet haccepted hfinds,
    Python.Directory.recoverFileTail_eq_recoverEntryBy]
  have hchecks := checkFileTail_checksTail rt fun entry : String => parent ++ entry
  have hmapped : ChecksTail
      (fun entry content => (Python.checkFileTail rt (parent ++ entry) content).mapError
        Python.RecoveryError.auditError)
      (fun error => ∃ e, error = .auditError e ∧ e.code = "audit_corrupt") (PythonRefuses rt) := by
    refine ⟨fun entry content hrefuses => ?_, fun entry content hkept => ?_⟩
    · obtain ⟨error, hcode, herror⟩ := hchecks.refused entry content hrefuses
      exact ⟨.auditError error, ⟨error, rfl, hcode⟩, by rw [herror]; rfl⟩
    · rw [hchecks.accepted entry content hkept]
      rfl
  refine forEach_recoverEntryBy hmapped (fun entry found => ?_)
    (fun content => pythonRefuses_completeText) stamp _ directory
  rintro ⟨error, herror, hcode⟩
  obtain rfl := Python.RecoveryError.auditError.inj herror
  simp at hcode

/-- Where both logs cut tails off, they leave the same contents iff a file that only one of them
checks has no tail. -/
theorem cutTail_eq_iff {entries entries' : List String} :
    (∀ entry, cutTail entries directory entry = cutTail entries' directory entry) ↔
      ∀ entry, (entry ∈ entries ↔ entry ∉ entries') → ∀ content ∈ contentOf entry directory,
        tailOf newline content = [] := by
  refine forall_congr' fun entry => ?_
  rw [cutTail, cutTail]
  have hcut : (contentOf entry directory).map (completeText newline) = contentOf entry directory ↔
      ∀ content ∈ contentOf entry directory, tailOf newline content = [] := by
    cases contentOf entry directory with
    | none => simp
    | some content => simp [completeText_eq_self_iff]
  by_cases hentry : entry ∈ entries <;> by_cases hentry' : entry ∈ entries'
  · simp [hentry, hentry']
  · rw [if_pos hentry, if_neg hentry', hcut]
    simp [hentry, hentry']
  · rw [if_neg hentry, if_pos hentry', eq_comm, hcut]
    simp [hentry, hentry']
  · simp [hentry, hentry']

/-- **Recovery in both runtimes.**  The two runtimes recover a log at rest alike iff neither refuses
the log as a whole, and both stop at a corrupt file, each in its own order, or both accept all their
files and no file that only one of them checks has a tail. -/
theorem recoverAlike_iff (rt : JsonRuntime) (refusesDoubleStar : Bool) (parent name : String)
    (recoverManifest : Directory.RecoveryProgram Unit)
    (recoverManifest' : Python.Directory.RecoveryProgram Unit) (maxRotatedFiles : ℕ)
    (stamp stamp' : Instant) (directory : Directory)
    (hquiet : Directory.hasRotationEntry name directory = false) :
    RecoverAlike rt refusesDoubleStar parent name recoverManifest recoverManifest'
        maxRotatedFiles stamp stamp' directory ↔
      (parent ≠ "" ∧ ¬ Python.Directory.RefusesPatterns refusesDoubleStar name ∧
        ¬ Python.Directory.FindsStaging name directory) ∧
      ((StopsAtCorrupt (RustRefuses rt) directory (Directory.logNames name maxRotatedFiles) ∧
          StopsAtCorrupt (PythonRefuses rt) directory
            (Python.Directory.logNames name directory)) ∨
        ((∀ entry ∈ Directory.logNames name maxRotatedFiles,
            Accepts (RustRefuses rt) directory entry) ∧
          (∀ entry ∈ Python.Directory.logNames name directory,
            Accepts (PythonRefuses rt) directory entry) ∧
          ∀ entry, (entry ∈ Directory.logNames name maxRotatedFiles ↔
              entry ∉ Python.Directory.logNames name directory) →
            ∀ content ∈ contentOf entry directory, tailOf newline content = [])) := by
  by_cases hparent : parent = ""
  · -- the Rust log cannot open the empty path
    subst hparent
    refine iff_of_false ?_ (fun h => h.1.1 rfl)
    have hrust := @Directory.recoverTails_no_parent rt name recoverManifest directory hquiet
      maxRotatedFiles stamp
    rintro (⟨hok, -⟩ | ⟨hcorrupt, -⟩)
    · rw [hrust] at hok
      cases hok
    · rw [hrust] at hcorrupt
      cases hcorrupt
  by_cases hpatterns : Python.Directory.RefusesPatterns refusesDoubleStar name
  · refine iff_of_false ?_ (fun h => h.1.2.1 hpatterns)
    have hpython := @Python.Directory.recoverTails_refused rt refusesDoubleStar parent name
      recoverManifest' directory hquiet hpatterns stamp'
    rintro (⟨-, hok, -⟩ | ⟨-, error, hcorrupt, -⟩)
    · rw [hpython] at hok
      cases hok
    · rw [hpython] at hcorrupt
      cases hcorrupt
  by_cases hfinds : Python.Directory.FindsStaging name directory
  · refine iff_of_false ?_ (fun h => h.1.2.2 hfinds)
    have hpython := @Python.Directory.recoverTails_staging rt refusesDoubleStar parent name
      recoverManifest' directory hquiet hpatterns hfinds stamp'
    rintro (⟨-, hok, -⟩ | ⟨-, error, hcorrupt, hcode⟩)
    · rw [hpython] at hok
      cases hok
    · rw [hpython] at hcorrupt
      obtain rfl := Python.RecoveryError.auditError.inj (Except.error.inj hcorrupt)
      simp at hcode
  rw [and_iff_right ⟨hparent, hpatterns, hfinds⟩, RecoverAlike]
  rcases @rust_recovers rt parent name recoverManifest maxRotatedFiles directory hparent hquiet
      stamp with ⟨hrust, error, hcorrupt, hrustResult⟩ | ⟨hrust, hrustResult, hrustFinal⟩
  · rcases @python_recovers rt refusesDoubleStar parent name recoverManifest' directory hquiet
        hpatterns hfinds stamp' with
      ⟨hpython, error', hcorrupt', hpythonResult⟩ | ⟨hpython, hpythonResult, -⟩
    · rw [← hcorrupt, ← hcorrupt', hrustResult, hpythonResult]
      simp [hrust]
    · rw [hrustResult, hpythonResult]
      simp [hrust, not_stopsAtCorrupt hpython]
  · rcases @python_recovers rt refusesDoubleStar parent name recoverManifest' directory hquiet
        hpatterns hfinds stamp' with
      ⟨hpython, error', hcorrupt', hpythonResult⟩ | ⟨hpython, hpythonResult, hpythonFinal⟩
    · rw [hrustResult, hpythonResult]
      simp [hpython, not_stopsAtCorrupt hrust]
    · simp only [hrustFinal, hpythonFinal, cutTail_eq_iff, hrustResult, hpythonResult]
      constructor
      · rintro (⟨-, -, hsame⟩ | ⟨hcontra, -⟩)
        · exact .inr ⟨hrust, hpython, hsame⟩
        · cases hcontra
      · rintro (⟨hstops, -⟩ | ⟨-, -, hsame⟩)
        · exact absurd hstops (not_stopsAtCorrupt hrust)
        · exact .inl ⟨trivial, trivial, hsame⟩

end

/-- The directory `logs/` with an active file and nothing else. -/
def directoryWith (content : Bytes) : Directory :=
  Finmap.singleton "audit.jsonl" (.file ⟨content, 1⟩)

theorem recoverAlike_sample :
    let torn := directoryWith "\x7b\x7d\n\x7b".toUTF8.toList
    RecoverAlike sampleRuntime true "logs/" "audit.jsonl" (pure ()) (pure ()) 5 2 2 torn ↔
      ("logs/" ≠ "" ∧ ¬ Python.Directory.RefusesPatterns true "audit.jsonl" ∧
        ¬ Python.Directory.FindsStaging "audit.jsonl" torn) ∧
      ((StopsAtCorrupt (RustRefuses sampleRuntime) torn (Directory.logNames "audit.jsonl" 5) ∧
          StopsAtCorrupt (PythonRefuses sampleRuntime) torn
            (Python.Directory.logNames "audit.jsonl" torn)) ∨
        ((∀ entry ∈ Directory.logNames "audit.jsonl" 5,
            Accepts (RustRefuses sampleRuntime) torn entry) ∧
          (∀ entry ∈ Python.Directory.logNames "audit.jsonl" torn,
            Accepts (PythonRefuses sampleRuntime) torn entry) ∧
          ∀ entry, (entry ∈ Directory.logNames "audit.jsonl" 5 ↔
              entry ∉ Python.Directory.logNames "audit.jsonl" torn) →
            ∀ content ∈ contentOf entry torn, tailOf newline content = [])) :=
  recoverAlike_iff sampleRuntime true "logs/" "audit.jsonl" (pure ()) (pure ()) 5 2 2 _
    (by decide +kernel)

/-- An empty active file is recovered by the Python log and refused by the Rust log: it has no
lines for the one, and one empty line for the other. -/
theorem empty_file_recovered_by_python :
    Directory.hasRotationEntry "audit.jsonl" (directoryWith []) = false ∧
      ¬ RecoverAlike sampleRuntime true "logs/" "audit.jsonl" (pure ()) (pure ()) 5 2 2
        (directoryWith []) := by
  have hrust : (Directory.recoverTails sampleRuntime "logs/" "audit.jsonl" (pure ()) 5 2
      (directoryWith [])).result = .error .corrupt := by
    decide +kernel
  have hpython : (Python.Directory.recoverTails sampleRuntime true "logs/" "audit.jsonl" (pure ())
      2 (directoryWith [])).result = .ok () := by
    decide +kernel
  refine ⟨by decide +kernel, ?_⟩
  rintro (⟨hok, -⟩ | ⟨-, error, herror, -⟩)
  · rw [hrust] at hok
    cases hok
  · rw [hpython] at herror
    cases herror

/-! ## Where the two refusals agree

The two logs cut a file into lines differently: the Rust log at line feeds only, the Python log at
carriage returns as well, and the Rust log refuses a file without a complete line. On every other
content they check the same lines, and so they refuse the same files. -/

section

variable {rt : JsonRuntime} {content : Bytes}

theorem splitlinesFrom_line {line : Bytes} (hnewline : newline ∉ line)
    (hreturn : Python.carriageReturn ∉ line) (current rest : Bytes) :
    Python.splitlinesFrom current (line ++ newline :: rest) =
      (current ++ line) :: Python.splitlinesFrom [] rest := by
  induction line generalizing current with
  | nil =>
      have hne : (newline == Python.carriageReturn) = false := by decide
      cases rest with
      | nil => simp [Python.splitlinesFrom]
      | cons next rest => simp [Python.splitlinesFrom, hne]
  | cons byte line ih =>
      obtain ⟨hbyte, hline⟩ := not_or.1 (List.mem_cons.not.1 hnewline)
      obtain ⟨hbyte', hline'⟩ := not_or.1 (List.mem_cons.not.1 hreturn)
      have hrest : ∃ next more, line ++ newline :: rest = next :: more := by
        cases line with
        | nil => exact ⟨_, _, rfl⟩
        | cons next line => exact ⟨_, _, rfl⟩
      obtain ⟨next, more, hmore⟩ := hrest
      have hstep : Python.splitlinesFrom current (byte :: (line ++ newline :: rest)) =
          Python.splitlinesFrom (current ++ [byte]) (line ++ newline :: rest) := by
        rw [hmore, Python.splitlinesFrom]
        simp [Ne.symm hbyte, Ne.symm hbyte']
      rw [List.cons_append, hstep, ih hline hline', List.append_assoc, List.singleton_append]

/-- Without a carriage return, the Python log sees the lines that the Rust log sees. -/
theorem splitlines_completeText (hreturn : Python.carriageReturn ∉ content) :
    Python.splitlines (completeText newline content) = linesOf newline content := by
  obtain ⟨lines, tail, rfl, hlines, htail⟩ := exists_render newline content
  rw [completeText_render htail, linesOf_render hlines htail]
  have hreturns : ∀ line ∈ lines, Python.carriageReturn ∉ line := by
    intro line hline hmem
    refine hreturn (List.mem_append_left _ (List.mem_flatMap.2 ⟨line, hline, ?_⟩))
    exact List.mem_append_left _ hmem
  clear hreturn
  induction lines with
  | nil => rfl
  | cons line lines ih =>
      obtain ⟨hline, hlines⟩ := List.forall_mem_cons.1 hlines
      obtain ⟨hreturn, hreturns⟩ := List.forall_mem_cons.1 hreturns
      have hrest := ih hlines hreturns
      unfold Python.splitlines at hrest ⊢
      rw [render_cons, splitlinesFrom_line hline hreturn, hrest, List.nil_append]

/-- On a content with a complete line and without a carriage return, the two logs refuse alike. -/
theorem refuses_iff (hline : linesOf newline content ≠ [])
    (hreturn : Python.carriageReturn ∉ content) :
    RustRefuses rt content ↔ PythonRefuses rt content := by
  rw [RustRefuses, PythonRefuses, splitlines_completeText hreturn, or_iff_right hline]

end

end HpGuardian

import HpGuardian.Framework.Leases
import HpGuardian.Parity.Appending

/-!
# Handles of both runtimes on one log

Any number of processes of either runtime open one log, all of them with one configuration.  Each
takes the lock of the log with its first append and keeps it until it is closed or dies, so the log
is shared under a lease.  Whatever the order of their steps, and whichever of them are killed at
whatever step, no acknowledged record is lost, doubled or moved: it leaves the log only with a file
that retention removes (`acknowledged_records_survive`).

## The argument

`Accounts` (`Parity/Accounts.lean`) keeps books on a directory, in a rotation or not: the lines that
were ever written are those that were removed and those that are there.  An append of either runtime
keeps these books at every step (`Parity/Appending.lean`), and so does a recovery; since the lease
lets one process at a time take steps, a run of all of them is a sequence of whole calls, some cut
off by a kill (`Framework/Leases.lean`).  `Survives` is the invariant of this sequence, with
`Explained` to say which lines may and which must have been written.

## What counts as a step

A step is one operation on the directory.  Putting a manifest in place, by a temporary file and a
rename, is one step here: a process killed between these two leaves a temporary file that no later
open accepts (`Audit/ManifestCrash.lean`).
-/

namespace HpGuardian

open Framework

/-- The runtime of a process. -/
inductive Runtime where
  | rust
  | python
  deriving DecidableEq, Repr

/-- What processes that share a log have in common, the configuration of the log among it. Two
processes with different limits would rotate each other's files by different rules; that is not
considered here. -/
structure SharedLog where
  config : ValidConfig
  rt : JsonRuntime
  table : Python.AlnumTable
  /-- `json.dumps` of a manifest. -/
  dumps : Json → Bytes
  /-- `json.dumps` of a record. -/
  payload : AuditRecord → Bytes
  times : Python.FileTimes
  name : String
  fits : config.maxRotatedFiles < 2 ^ 64

/-- A call of `append`, with the readings of the clock that it gets and the number that a rotation
takes its name from. -/
structure HandleCall where
  record : AuditRecord
  clock : ℕ → Instant
  number : ℕ

namespace SharedLog

variable (log : SharedLog)

/-- The line of a record, without the newline. -/
def line : Runtime → AuditRecord → Bytes
  | .rust, record => log.rt.toVec record
  | .python, record => log.payload record

/-- `append`. -/
def append (runtime : Runtime) (call : HandleCall) :
    Program LogState Operation (AuditError ⊕ Python.ManifestError) Unit :=
  match runtime with
  | .rust => Program.mapError .inl
      (HpGuardian.append log.config call.clock log.rt call.record call.number)
  | .python => Program.mapError .inr
      (Python.append log.config call.clock log.rt log.table log.dumps log.times log.name
        (log.payload call.record) call.number)

/-- What a process does with the directory before its first append. -/
def recover (runtime : Runtime) (stamp : Instant) :
    Program Disk Operation (AuditError ⊕ Python.ManifestError) Unit :=
  match runtime with
  | .rust => Program.mapError .inl (recoverTails log.rt log.config.maxRotatedFiles stamp)
  | .python => Program.mapError .inr (do
      Python.recoverInterrupted log.rt log.table log.dumps
      Program.mapError .auditError (Python.recoverTails log.rt log.name (pure ()) stamp))

variable {π : Type} (runtime : π → Runtime)

/-- Processes that share the directory under the lock of the log. -/
def handles : LeaseProtocol π LogState Disk Operation (AuditError ⊕ Python.ManifestError)
    HandleCall where
  get := LogState.disk
  set := LogState.setDisk
  isOpen state := !state.closed
  program party call := log.append (runtime party) call
  close state := { state with closed := true, lease := false }

/-- The processes that have opened the log and not yet used it. -/
def opened (π : Type) (disk : Disk) : LeaseProtocol.Parties π LogState Disk :=
  ⟨disk, none, fun _ => some (LogState.fresh disk 0)⟩

/-- What can be seen of the processes. -/
abbrev Sighting (π : Type) :=
  Event π LogState Operation (AuditError ⊕ Python.ManifestError) HandleCall

/-- The line of a call that has begun. -/
def begunLine : Sighting π → Option Bytes
  | .began party call => some (log.line (runtime party) call.record)
  | _ => none

/-- The line of a call that returned `Ok`. -/
def acknowledgedLine : Sighting π → Option Bytes
  | .answered party call (.ok ()) => some (log.line (runtime party) call.record)
  | _ => none

/-- The file that a step took out of the log. -/
def removed : Sighting π → List FileData
  | .took _ step => retiredBy log.config.maxRotatedFiles step
  | _ => []

/-- Every record is one line, in either runtime: what `serde_json` and `json.dumps` write has no
line feed. -/
def OneLine : Prop := ∀ runtime record, newline ∉ log.line runtime record

end SharedLog

section

variable {log : SharedLog} {π : Type} {runtime : π → Runtime} {all : List Bytes}

/-- An append of either runtime keeps the balance. -/
theorem SharedLog.append_metered (hline : log.OneLine) (runtime : Runtime) (call : HandleCall) :
    Program.Metered (retiredBy log.config.maxRotatedFiles)
      (MayAppend log.table log.config.maxRotatedFiles all) (log.append runtime call)
      (Extended log.table log.config.maxRotatedFiles all (log.line runtime call.record))
      (fun _ => InCharge log.config.maxRotatedFiles (all ++ [log.line runtime call.record]))
      (MayAppend log.table log.config.maxRotatedFiles all) := by
  cases runtime with
  | rust =>
      exact (HpGuardian.append_metered rfl log.fits call.record call.number
        (hline .rust call.record)).mapError _
  | python =>
      exact (python_append_metered rfl log.fits call.number
        (hline .python call.record)).mapError _

theorem SharedLog.recover_metered (runtime : Runtime) (stamp : Instant) :
    Program.Metered (retired log.config.maxRotatedFiles)
      (Accounts log.table log.config.maxRotatedFiles all) (log.recover runtime stamp)
      (Accounts log.table log.config.maxRotatedFiles all)
      (fun _ => Ready log.config.maxRotatedFiles all)
      (AtRest log.config.maxRotatedFiles all) := by
  cases runtime with
  | rust => exact (recoverTails_metered _ _ all log.rt stamp).mapError _
  | python => exact (python_recoverTails_metered _ _ all log.rt log.dumps log.name stamp).mapError _

/-! ## Kills -/

/-- The lines that were written are those of some calls that began, and of all that were
acknowledged. -/
structure Explained (log : SharedLog) (runtime : π → Runtime) (seen : List (SharedLog.Sighting π))
    (written : List Bytes) : Prop where
  kept : (seen.filterMap (log.acknowledgedLine runtime)).Sublist written
  asked : written.Sublist (seen.filterMap (log.begunLine runtime))

/-- What a call takes out of the log. -/
theorem removed_call (log : SharedLog) (party : π) (call : HandleCall)
    (steps : List (LogState × Operation)) :
    (Event.began party call :: steps.map (Event.took party)).flatMap log.removed =
      steps.flatMap (retiredBy log.config.maxRotatedFiles) := by
  rw [List.flatMap_cons, List.flatMap_map]
  rfl

/-- The lines of a call up to its answer. -/
theorem lines_call (log : SharedLog) (runtime : π → Runtime) (party : π) (call : HandleCall)
    (steps : List (LogState × Operation)) :
    (Event.began party call :: steps.map (Event.took party)).filterMap
        (log.acknowledgedLine runtime) = [] ∧
      (Event.began party call :: steps.map (Event.took party)).filterMap
        (log.begunLine runtime) = [log.line (runtime party) call.record] := by
  have hacknowledged : (steps.map (Event.took party)).filterMap (log.acknowledgedLine runtime) =
      [] := by
    rw [List.filterMap_map]
    exact List.filterMap_eq_nil_iff.2 fun _ _ => rfl
  have hbegun : (steps.map (Event.took party)).filterMap (log.begunLine runtime) = [] := by
    rw [List.filterMap_map]
    exact List.filterMap_eq_nil_iff.2 fun _ _ => rfl
  constructor
  · rw [List.filterMap_cons, hacknowledged]
    rfl
  · rw [List.filterMap_cons, hbegun]
    rfl

/-- A call that is not acknowledged may or may not have written its line. -/
theorem Explained.unacknowledged {log : SharedLog} {runtime : π → Runtime}
    {seen more : List (SharedLog.Sighting π)} {written added : List Bytes}
    (h : Explained log runtime seen written)
    (hacknowledged : more.filterMap (log.acknowledgedLine runtime) = [])
    (hadded : added.Sublist (more.filterMap (log.begunLine runtime))) :
    Explained log runtime (seen ++ more) (written ++ added) := by
  constructor
  · rw [List.filterMap_append, hacknowledged, List.append_nil]
    exact h.kept.trans (List.sublist_append_left _ _)
  · rw [List.filterMap_append]
    exact h.asked.append hadded

/-- A call that is acknowledged has written its line. -/
theorem Explained.acknowledged {log : SharedLog} {runtime : π → Runtime}
    {seen more : List (SharedLog.Sighting π)} {written : List Bytes} {line : Bytes}
    (h : Explained log runtime seen written)
    (hacknowledged : more.filterMap (log.acknowledgedLine runtime) = [line])
    (hbegun : more.filterMap (log.begunLine runtime) = [line]) :
    Explained log runtime (seen ++ more) (written ++ [line]) := by
  constructor
  · rw [List.filterMap_append, hacknowledged]
    exact h.kept.append (List.Sublist.refl _)
  · rw [List.filterMap_append, hbegun]
    exact h.asked.append (List.Sublist.refl _)


/-- What is known of the processes between their calls, if these are the lines of the log and these
files are gone. -/
structure Tended (log : SharedLog) (all : List Bytes) (gone : List FileData)
    (A : LeaseProtocol.Parties π LogState Disk) : Prop where
  accounts : Accounts log.table log.config.maxRotatedFiles all gone A.shared
  /-- The holder of the lock may append. -/
  holder : ∀ party state, A.party party = some state → state.closed = false →
    A.holder = some party →
    MayAppend log.table log.config.maxRotatedFiles all gone (state.setDisk A.shared)
  /-- Nobody else takes the log for recovered. -/
  others : ∀ party state, A.party party = some state → state.closed = false →
    A.holder ≠ some party → state.recoveryComplete = false

/-- What the processes have made of the log so far: the lines that were written are explained by
the calls that were seen, and the directory, with the files that retention removed, accounts for
them. Every whole call keeps this, whether it ends or is cut off by a kill. -/
def Survives (log : SharedLog) (runtime : π → Runtime) (disk : Disk)
    (seen : List (SharedLog.Sighting π)) (A : LeaseProtocol.Parties π LogState Disk) : Prop :=
  ∃ written, Explained log runtime seen written ∧
    Tended log (gather fileLines disk.files.lookup (retainedPaths log.config.maxRotatedFiles) ++
      written) (seen.flatMap log.removed) A

/-- What nobody has used yet. -/
theorem survives_opened (log : SharedLog) (runtime : π → Runtime) {disk : Disk}
    (hquiet : disk.hasRotationEntry = false) :
    Survives log runtime disk [] (SharedLog.opened π disk) := by
  refine ⟨[], ⟨List.Sublist.refl _, List.Sublist.refl _⟩, ?_, ?_, ?_⟩
  · rw [List.append_nil]
    exact AtRest.accounts ⟨hquiet, .refl _, .refl _⟩
  · intro party state _ _ hholder
    cases hholder
  · intro party state hparty _ _
    obtain rfl := Option.some.inj hparty
    rfl

variable [DecidableEq π]

/-- Whoever may begin a call may append. -/
theorem Tended.mayAppend {gone : List FileData} {A : LeaseProtocol.Parties π LogState Disk}
    (h : Tended log all gone A) {party : π} {state : LogState}
    (hmay : (log.handles runtime).mayCall A party = some state) :
    MayAppend log.table log.config.maxRotatedFiles all gone (state.setDisk A.shared) := by
  obtain ⟨hparty, hopen, -⟩ := LeaseProtocol.mayCall_eq_some.1 hmay
  have hclosed : state.closed = false := by simpa [SharedLog.handles] using hopen
  by_cases hholder : A.holder = some party
  · exact h.holder party state hparty hclosed hholder
  · refine ⟨hclosed, h.accounts, fun hrecovered => ?_⟩
    have hfresh : state.recoveryComplete = false := h.others party state hparty hclosed hholder
    have hrecovered' : state.recoveryComplete = true := hrecovered
    rw [hfresh] at hrecovered'
    cases hrecovered'

/-- A process that closes or leaves. -/
theorem Tended.without {gone : List FileData} {A : LeaseProtocol.Parties π LogState Disk}
    (h : Tended log all gone A) (party : π) {left : Option LogState}
    (hleft : ∀ state, left = some state → state.closed = true) :
    Tended log all gone (LeaseProtocol.without A party left) := by
  have hparty : ∀ {other state}, (LeaseProtocol.without A party left).party other = some state →
      state.closed = false → other ≠ party ∧ A.party other = some state := by
    intro other state hother hopen
    by_cases heq : other = party
    · subst heq
      simp only [LeaseProtocol.without, Function.update_self] at hother
      rw [hleft state hother] at hopen
      cases hopen
    · simp only [LeaseProtocol.without, Function.update_of_ne heq] at hother
      exact ⟨heq, hother⟩
  refine ⟨h.accounts, fun other state hother hopen hholder => ?_,
    fun other state hother hopen hholder => ?_⟩
  · obtain ⟨-, hother⟩ := hparty hother hopen
    refine h.holder other state hother hopen ?_
    simp only [LeaseProtocol.without, LeaseProtocol.released] at hholder
    split at hholder
    · cases hholder
    · exact hholder
  · obtain ⟨hne, hother⟩ := hparty hother hopen
    refine h.others other state hother hopen fun hheld => hholder ?_
    rw [LeaseProtocol.without, LeaseProtocol.released_of_ne, hheld]
    rw [hheld]
    exact fun heq => hne (Option.some.inj heq)

/-- A call that ended, or that was killed. -/
theorem Tended.called {gone gone' : List FileData} {all' : List Bytes}
    {A : LeaseProtocol.Parties π LogState Disk} (h : Tended log all gone A) {party : π}
    {state : LogState} (hmay : (log.handles runtime).mayCall A party = some state) {disk : Disk}
    (haccounts : Accounts log.table log.config.maxRotatedFiles all' gone' disk)
    {holder : Option π} {left : Option LogState}
    (hleft : (holder = none ∧ left = none) ∨ ∃ final, holder = some party ∧ left = some final ∧
      MayAppend log.table log.config.maxRotatedFiles all' gone' (final.setDisk disk)) :
    Tended log all' gone' ⟨disk, holder, Function.update A.party party left⟩ := by
  obtain ⟨-, -, hfree⟩ := LeaseProtocol.mayCall_eq_some.1 hmay
  have hother : ∀ {other final}, other ≠ party →
      Function.update A.party party left other = some final → final.closed = false →
      final.recoveryComplete = false := by
    intro other final hne hfinal hopen
    rw [Function.update_of_ne hne] at hfinal
    exact h.others other final hfinal hopen fun hheld => hne (hfree other hheld)
  refine ⟨haccounts, fun other final hfinal hopen hheld => ?_,
    fun other final hfinal hopen hheld => ?_⟩
  · rcases hleft with ⟨rfl, -⟩ | ⟨final', rfl, rfl, hmayAppend⟩
    · cases hheld
    · obtain rfl := Option.some.inj hheld
      simp only [Function.update_self, Option.some.injEq] at hfinal
      exact hfinal ▸ hmayAppend
  · by_cases heq : other = party
    · subst heq
      rcases hleft with ⟨-, rfl⟩ | ⟨final', rfl, -, -⟩
      · simp at hfinal
      · exact absurd rfl hheld
    · exact hother heq hfinal hopen

theorem Survives.step (hline : log.OneLine) {disk : Disk} {seen : List (SharedLog.Sighting π)}
    {A : LeaseProtocol.Parties π LogState Disk} (h : Survives log runtime disk seen A)
    (action : LeaseProtocol.Whole π HandleCall) :
    Survives log runtime disk (seen ++ ((log.handles runtime).serial.step A action).2)
      ((log.handles runtime).serial.step A action).1 := by
  obtain ⟨written, hexplained, htended⟩ := h
  have hnothing : Survives log runtime disk (seen ++ []) A := by
    rw [List.append_nil]
    exact ⟨written, hexplained, htended⟩
  cases action with
  | call party call =>
      simp only [LeaseProtocol.serial]
      cases hmay : (log.handles runtime).mayCall A party with
      | none => exact hnothing
      | some state =>
          obtain ⟨hhalts, hend⟩ := SharedLog.append_metered hline (runtime party) call _ _
            (htended.mayAppend hmay)
          obtain ⟨hacknowledged, hbegun⟩ := lines_call log runtime party call
            (log.append (runtime party) call (state.setDisk A.shared)).steps
          have hgone : ∀ result : Except (AuditError ⊕ Python.ManifestError) Unit,
              (seen ++ (Event.began party call ::
                (log.append (runtime party) call (state.setDisk A.shared)).steps.map
                  (Event.took party) ++ [Event.answered party call result])).flatMap log.removed =
              seen.flatMap log.removed ++
                (log.append (runtime party) call (state.setDisk A.shared)).steps.flatMap
                  (retiredBy log.config.maxRotatedFiles) := by
            intro result
            rw [List.flatMap_append, List.flatMap_append, removed_call]
            exact congrArg _ (List.append_nil _)
          cases hresult : (log.append (runtime party) call (state.setDisk A.shared)).result with
          | ok value =>
              obtain ⟨⟩ := value
              rw [hresult] at hend
              refine ⟨written ++ [log.line (runtime party) call.record],
                hexplained.acknowledged ?_ ?_, ?_⟩
              · rw [List.filterMap_append]
                simp only [SharedLog.handles, hresult, hacknowledged]
                rfl
              · rw [List.filterMap_append]
                simp only [SharedLog.handles, hbegun]
                rfl
              · rw [← List.append_assoc]
                simp only [SharedLog.handles, hgone]
                exact htended.called hmay hend.ready.accounts
                  (.inr ⟨_, rfl, rfl, hend.mayAppend⟩)
          | error error =>
              rw [hresult] at hend
              refine ⟨written ++ [], hexplained.unacknowledged ?_ (List.nil_sublist _), ?_⟩
              · rw [List.filterMap_append]
                simp only [SharedLog.handles, hresult, hacknowledged]
                rfl
              · rw [List.append_nil]
                simp only [SharedLog.handles, hgone]
                exact htended.called hmay hend.accounts (.inr ⟨_, rfl, rfl, hend⟩)
  | cut party call steps =>
      simp only [LeaseProtocol.serial]
      cases hmay : (log.handles runtime).mayCall A party with
      | none => exact hnothing
      | some state =>
          obtain ⟨hhalts, -⟩ := SharedLog.append_metered hline (runtime party) call _ _
            (htended.mayAppend hmay)
          obtain ⟨hacknowledged, hbegun⟩ := lines_call log runtime party call
            ((log.append (runtime party) call (state.setDisk A.shared)).steps.take steps)
          rcases hhalts _ _ (Program.halts_take _ steps) with haccounts | haccounts
          · refine ⟨written ++ [],
              hexplained.unacknowledged hacknowledged (List.nil_sublist _), ?_⟩
            rw [List.flatMap_append]
            simp only [SharedLog.handles, removed_call, List.append_nil]
            exact htended.called hmay haccounts (.inl ⟨rfl, rfl⟩)
          · refine ⟨written ++ [log.line (runtime party) call.record],
              hexplained.unacknowledged hacknowledged (by rw [SharedLog.handles, hbegun]), ?_⟩
            rw [List.flatMap_append, ← List.append_assoc]
            simp only [SharedLog.handles, removed_call]
            exact htended.called hmay haccounts (.inl ⟨rfl, rfl⟩)
  | close party =>
      simp only [LeaseProtocol.serial]
      cases hparty : A.party party with
      | none => exact hnothing
      | some state =>
          refine ⟨written, ?_, ?_⟩
          · simpa using hexplained
          · simp only [List.append_nil]
            exact htended.without party fun state' hstate' => by
              rw [← Option.some.inj hstate']
              rfl
  | leave party =>
      refine ⟨written, ?_, ?_⟩
      · simpa [LeaseProtocol.serial] using hexplained
      · simp only [LeaseProtocol.serial, List.append_nil]
        exact htended.without party fun state' hstate' => by cases hstate'

/-- Every state of the processes accounts for the lines that have been written. -/
theorem SharedLog.accounted (hline : log.OneLine) {disk : Disk}
    (hquiet : disk.hasRotationEntry = false) {actions : List (LeaseAction π HandleCall)}
    {seen : List (SharedLog.Sighting π)}
    {W : World π LogState Disk Operation (AuditError ⊕ Python.ManifestError) HandleCall}
    (h : (log.handles runtime).Reaches (LeaseProtocol.resting (SharedLog.opened π disk)) actions
      seen W) :
    ∃ written, Explained log runtime seen written ∧
      Accounts log.table log.config.maxRotatedFiles
        (gather fileLines disk.files.lookup (retainedPaths log.config.maxRotatedFiles) ++ written)
        (seen.flatMap log.removed) W.shared := by
  obtain ⟨history, hshared, hseen⟩ := LeaseProtocol.Reaches.exists_history h
  obtain ⟨written, hexplained, htended⟩ : Survives log runtime disk
      ((log.handles runtime).events (SharedLog.opened π disk) history)
      ((log.handles runtime).serial.final (SharedLog.opened π disk) history) :=
    LeaseProtocol.serial_invariant (fun _ _ action h => h.step hline action)
      (survives_opened log runtime hquiet) history
  rw [hseen] at hexplained htended
  have haccounts := htended.accounts
  rw [hshared] at haccounts
  exact ⟨written, hexplained, haccounts⟩

/-- Whoever recovers the log leaves it at rest, whether or not they accept it. -/
theorem SharedLog.recovered_atRest {gone : List FileData} {disk : Disk}
    (h : Accounts log.table log.config.maxRotatedFiles all gone disk) (next : Runtime)
    (stamp : Instant) :
    AtRest log.config.maxRotatedFiles all
      (gone ++ (log.recover next stamp disk).steps.flatMap (retired log.config.maxRotatedFiles))
      (log.recover next stamp disk).final := by
  obtain ⟨-, hend⟩ := SharedLog.recover_metered next stamp _ _ h
  split at hend
  · exact hend.toAtRest
  · exact hend

end

/-- **No acknowledged record is lost.**  Processes of both runtimes share a log that no rotation
was interrupted in.  Whatever the order of their steps, and whichever of them are killed before
whatever step: all acknowledged lines, and of the others only lines of calls that had begun, have
been written, in this order; and whoever recovers the log next, whether or not they accept it,
leaves the directory at rest, where these lines and those of the start are, each as often as it was
written, the lines of the files that retention removed and, in their order, those in the backups and
the active file. -/
theorem acknowledged_records_survive (log : SharedLog) (hline : log.OneLine) {π : Type}
    [DecidableEq π] (runtime : π → Runtime) (disk : Disk)
    (hquiet : disk.hasRotationEntry = false)
    {actions : List (LeaseAction π HandleCall)} {seen : List (SharedLog.Sighting π)}
    {W : World π LogState Disk Operation (AuditError ⊕ Python.ManifestError) HandleCall}
    (h : (log.handles runtime).Reaches (LeaseProtocol.resting (SharedLog.opened π disk)) actions
      seen W) :
    ∃ written, Explained log runtime seen written ∧ ∀ (next : Runtime) (stamp : Instant),
      let recovery := log.recover next stamp W.shared
      AtRest log.config.maxRotatedFiles
        (gather fileLines disk.files.lookup (retainedPaths log.config.maxRotatedFiles) ++ written)
        (seen.flatMap log.removed ++
          recovery.steps.flatMap (retired log.config.maxRotatedFiles))
        recovery.final := by
  obtain ⟨written, hexplained, haccounts⟩ := SharedLog.accounted hline hquiet h
  exact ⟨written, hexplained, SharedLog.recovered_atRest haccounts⟩

/-- A log that a Rust and a Python process share. -/
def sampleShared : SharedLog where
  config := eager
  rt := sampleRuntime
  table := asciiTable
  dumps := fun _ => []
  payload := sampleRuntime.toVec
  times := nearestMicrosecond
  name := "audit.jsonl"
  fits := by decide

/-- One process of each runtime. -/
def oneOfEach : Bool → Runtime
  | true => .rust
  | false => .python

def sampleAppend : HandleCall := ⟨sampleRecord, fun _ => 3000, 3⟩

/-- The Rust process has begun its first append. -/
def sampleBegun : World Bool LogState Disk Operation (AuditError ⊕ Python.ManifestError)
    HandleCall :=
  (sampleShared.handles oneOfEach).begun
    (LeaseProtocol.resting (SharedLog.opened Bool servedDisk)) true (LogState.fresh servedDisk 0)
    sampleAppend

/-- The Rust process is killed in its first append. -/
theorem acknowledged_records_survive_sample :
    ∃ written, Explained sampleShared oneOfEach [.began true sampleAppend] written ∧
      ∀ (next : Runtime) (stamp : Instant),
        let recovery := sampleShared.recover next stamp sampleBegun.shared
        AtRest 2 (gather fileLines servedDisk.files.lookup (retainedPaths 2) ++ written)
          (recovery.steps.flatMap (retired 2)) recovery.final := by
  have hline : sampleShared.OneLine := by
    rintro (_ | _) record
    · exact (sampleRuntime_sound.recordLine record).noNewline
    · exact (sampleRuntime_sound.recordLine record).noNewline
  have hstart : (sampleShared.handles oneOfEach).Step
      (LeaseProtocol.resting (SharedLog.opened Bool servedDisk)) (.start true sampleAppend)
      (some (.began true sampleAppend)) sampleBegun :=
    .started rfl rfl fun other hother => by cases hother
  have hkill : (sampleShared.handles oneOfEach).Step sampleBegun (.kill true) none _ := .killed
  have hsurvive := acknowledged_records_survive sampleShared hline oneOfEach servedDisk
    (by decide +kernel) ((LeaseProtocol.Reaches.refl.step hstart).step hkill)
  exact hsurvive

end HpGuardian

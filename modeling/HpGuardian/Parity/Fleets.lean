import HpGuardian.Enforcement.Programs
import HpGuardian.Parity.Handles

/-!
# Enforcement boundaries on a shared log

Any number of processes share one log.  Some are Rust processes with an enforcement boundary, whose
records reach the log as appends under its lock; the others, of either runtime, append to the log
directly.  All of them use one configuration, and a step is one operation on the directory, as for
handles in general.

A boundary on a shared log is a program of a party (`boundaryClient`): `boundaryProgram` says what
each of its operations hands to the log and how it goes on, and the protocol of the lease says how
the call ends.  Between the two ends of the call other processes may be killed, rotate the log and
append to it.

The boundary notices none of that.  Each boundary behaves as it does over a log of its own whose
appends are atomic and fail where the shared log's do not succeed (`RanLike`): its turns are a run
of the machine of `Boundary`, with the failures of the shared log as an input.  Everything that is
known of that machine is so known of a boundary in the fleet.

`enforcement_survives` puts this together with what is known of handles.  Whatever a boundary
returns has its record on the log, and keeps it there through kills and recoveries, until retention
removes its file.
-/

namespace HpGuardian

open Framework

/-! ## Processes

Processes with and without a boundary, and the boundary as a program whose calls go to the shared
log. -/

/-- A process that uses the log. -/
inductive LogProcess where
  /-- A Rust process with an enforcement boundary. -/
  | boundary (process : PolicyProcess)
  /-- A process that appends to the log. -/
  | handle (runtime : Runtime)

namespace LogProcess

def runtime : LogProcess → Runtime
  | .boundary _ => .rust
  | .handle runtime => runtime

def policy : LogProcess → Option PolicyProcess
  | .boundary process => some process
  | .handle _ => none

end LogProcess

/-- An operation of a boundary, with what its append reads from its surroundings.  Whether the
append fails is not read from there. -/
structure LoggedOperation where
  input : BoundaryInput Authorization
  surroundings : Surroundings
  clock : ℕ → Instant
  number : ℕ

/-- How an append of this runtime ended.  It never ends in an error of the other. -/
def rustResult : Except (AuditError ⊕ Python.ManifestError) Unit → Except AuditError Unit
  | .ok () => .ok ()
  | .error (.inl error) => .error error
  | .error (.inr _) => .error .recoveryFailed

/-- The failure of an append, if it failed. -/
def appendFailure (result : Except (AuditError ⊕ Python.ManifestError) Unit) : Option AuditError :=
  match rustResult result with
  | .ok () => none
  | .error error => some error

/-- The process over an empty log of its own. -/
def PolicyProcess.store (process : PolicyProcess) : AuditedPolicyStore :=
  ⟨[], process.activeSnapshot, []⟩

section

variable (rt : YamlRuntime) (decode : String → Except String Yaml) (sha256 : String → String)

/-- The boundary as a program of a process: its record goes to `append` of the shared log. -/
def boundaryClient : Client PolicyProcess LoggedOperation HandleCall
    (AuditError ⊕ Python.ManifestError) (Except BoundaryError (BoundaryReply Authorization)) :=
  Client.ofCalling (fun process op => boundaryProgram rt decode sha256 process op.input
    op.surroundings) (fun op record => ⟨record, op.clock, op.number⟩) rustResult

end

/-- The input of a boundary over a log of its own whose append ends in the same way. -/
def atomicOf (input : LoggedOperation × Except (AuditError ⊕ Python.ManifestError) Unit) :
    BoundaryInput Authorization × Surroundings :=
  (input.1.input, input.1.surroundings.withAppend (appendFailure input.2))

/-- The record of a step of the boundary's program whose append succeeded. -/
def entryRecord {ρ : Type}
    (entry : (LoggedOperation × Except (AuditError ⊕ Python.ManifestError) Unit) ×
      (Option HandleCall × ρ)) : Option AuditRecord :=
  match entry.1.2 with
  | .ok () => entry.2.1.map HandleCall.record
  | .error _ => none

/-- An operation of a process that was answered. -/
abbrev LoggedTurn (π : Type) :=
  Turn π LoggedOperation HandleCall (AuditError ⊕ Python.ManifestError)
    (Except BoundaryError (BoundaryReply Authorization))

namespace LoggedTurn

variable {π : Type}

/-- A turn as an input of the boundary over a log of its own. -/
def atomicInput (turn : LoggedTurn π) : BoundaryInput Authorization × Surroundings :=
  atomicOf turn.input

/-- The record of a turn whose append succeeded. -/
def acknowledgedRecord (turn : LoggedTurn π) : Option AuditRecord := entryRecord turn.entry

end LoggedTurn

/-! ## One boundary

A boundary by itself, with the ends of its calls as an input, against the machine over a log of its
own. -/

section

variable {rt : YamlRuntime} {decode : String → Except String Yaml} {sha256 : String → String}

/-- A boundary on the shared log takes the steps of a boundary over a log of its own. -/
theorem boundaryClient_step {store : AuditedPolicyStore} {process : PolicyProcess}
    (hactive : store.activeSnapshot = process.activeSnapshot) (op : LoggedOperation)
    (result : Except (AuditError ⊕ Python.ManifestError) Unit) :
    let step := (boundaryClient rt decode sha256).machine.step process (op, result)
    let atomic := operation rt decode sha256 store op.input op.surroundings (appendFailure result)
    step.2 = ((recordFor rt decode sha256 store op.input op.surroundings).map
        (fun record => ⟨record, op.clock, op.number⟩), atomic.2) ∧
      atomic.1.activeSnapshot = step.1.activeSnapshot := by
  have hservice : ∀ record, (atomicLog (appendFailure result) store.auditLog record).1 =
      rustResult result := by
    intro record
    rcases result with (error | error) | ⟨⟩ <;> rfl
  obtain ⟨hreply, hnext, -⟩ := boundary_eq_serve rt decode sha256 hactive op.input op.surroundings
    (appendFailure result)
  have hstep := @Client.ofCalling_step _ HandleCall _ _ _ _ LoggedOperation _
    (fun process op => boundaryProgram rt decode sha256 process op.input op.surroundings)
    (fun op record => ⟨record, op.clock, op.number⟩) rustResult process op
    (boundaryProgram_atMostOnce rt decode sha256 process op.input op.surroundings) result _ _
    hservice
  rw [boundaryClient, hstep]
  refine ⟨?_, hnext⟩
  dsimp only
  rw [pending_eq_recordFor rt decode sha256 hactive op.input op.surroundings, hreply]

/-- An operation that returned something has handed over its record, and the append succeeded. -/
theorem boundaryClient_ok {store : AuditedPolicyStore} {process : PolicyProcess}
    (hactive : store.activeSnapshot = process.activeSnapshot) {op : LoggedOperation}
    {result : Except (AuditError ⊕ Python.ManifestError) Unit} {reply : BoundaryReply Authorization}
    (h : ((boundaryClient rt decode sha256).machine.step process (op, result)).2.2 = .ok reply) :
    result = .ok () ∧ ∃ call,
      ((boundaryClient rt decode sha256).machine.step process (op, result)).2.1 = some call ∧
      RepliedUnder rt decode sha256 store op.surroundings reply call.record op.input := by
  have happends := boundary_appends rt decode sha256 store op.input op.surroundings
  rw [(boundaryClient_step hactive op result).1] at h ⊢
  dsimp only at h ⊢
  cases hrecord : recordFor rt decode sha256 store op.input op.surroundings with
  | none =>
      -- the operation fails by itself
      rw [hrecord] at happends
      cases happends with
      | silent hfails hlog =>
          rw [hfails] at h
          cases h
  | some record =>
      rw [hrecord] at happends
      cases happends with
      | one hdone hlog hreply hfailed =>
          cases hfailure : appendFailure result with
          | some failure =>
              obtain ⟨left, error, hleft, -⟩ := hfailed failure
              rw [hfailure, hleft] at h
              cases h
          | none =>
              rw [hfailure, hdone] at h
              obtain rfl := Except.ok.inj h
              refine ⟨?_, _, rfl, hreply⟩
              rcases result with (_ | _) | ⟨⟩
              · cases hfailure
              · cases hfailure
              · rfl

/-- What an operation adds to a log of its own: its record, if the append succeeded. -/
theorem boundaryClient_log {store : AuditedPolicyStore} {process : PolicyProcess}
    (hactive : store.activeSnapshot = process.activeSnapshot)
    (input : LoggedOperation × Except (AuditError ⊕ Python.ManifestError) Unit) :
    ((boundary rt decode sha256).step store (atomicOf input)).1.auditLog = store.auditLog ++
      (entryRecord (input, ((boundaryClient rt decode sha256).machine.step process input).2)).toList
      := by
  obtain ⟨op, result⟩ := input
  have hatomic : (boundary rt decode sha256).step store (atomicOf (op, result)) =
    operation rt decode sha256 store op.input op.surroundings (appendFailure result) := rfl
  have happends := boundary_appends rt decode sha256 store op.input op.surroundings
  rw [(boundaryClient_step hactive op result).1, hatomic]
  cases hrecord : recordFor rt decode sha256 store op.input op.surroundings with
  | none =>
      rw [hrecord] at happends
      cases happends with
      | silent hfails hlog =>
          rw [hfails, hlog]
          cases result <;> simp [entryRecord]
  | some record =>
      rw [hrecord] at happends
      cases happends with
      | one hdone hlog hreply hfailed =>
          rcases result with (error | error) | ⟨⟩
          · obtain ⟨left, cause, hleft, hleftLog⟩ := hfailed error
            simp [appendFailure, rustResult, entryRecord, hleft, hleftLog]
          · obtain ⟨left, cause, hleft, hleftLog⟩ := hfailed .recoveryFailed
            simp [appendFailure, rustResult, entryRecord, hleft, hleftLog]
          · simp [appendFailure, rustResult, entryRecord, hdone, hlog]

variable (rt decode sha256) in
/-- A boundary on the shared log has run like one over a log of its own, with the records of its
acknowledged appends: it gave the same replies, has the same policy in force, and that log would
hold these records. -/
structure RanLike (store : AuditedPolicyStore)
    (inputs : List (BoundaryInput Authorization × Surroundings))
    (replies : List (Except BoundaryError (BoundaryReply Authorization)))
    (records : List AuditRecord) (process : PolicyProcess) : Prop where
  trace : (boundary rt decode sha256).trace store inputs = inputs.zip replies
  activeSnapshot : ((boundary rt decode sha256).final store inputs).activeSnapshot =
    process.activeSnapshot
  auditLog : ((boundary rt decode sha256).final store inputs).auditLog =
    store.auditLog ++ records

/-- A boundary that has run by itself. -/
theorem boundaryClient_ran {π : Type} {store : AuditedPolicyStore} {start process : PolicyProcess}
    (hactive : store.activeSnapshot = start.activeSnapshot) {turns : List (LoggedTurn π)}
    (h : (boundaryClient rt decode sha256).Ran start turns process) :
    RanLike rt decode sha256 store (turns.map LoggedTurn.atomicInput) (turns.map Turn.reply)
      (turns.filterMap LoggedTurn.acknowledgedRecord) process := by
  have hran := (boundaryClient rt decode sha256).machine.history_invariant
    (G := fun _ _ => True)
    (I := fun entries process => RanLike rt decode sha256 store
      (entries.map (fun entry => atomicOf entry.1)) (entries.map (fun entry => entry.2.2))
      (entries.filterMap entryRecord) process)
    (fun entries process input hentries _ => by
      obtain ⟨hstep, hnext⟩ := @boundaryClient_step rt decode sha256 _ _
        hentries.activeSnapshot input.1 input.2
      have hreply : ((boundary rt decode sha256).step ((boundary rt decode sha256).final store
          (entries.map (fun entry => atomicOf entry.1))) (atomicOf input)).2 =
          ((boundaryClient rt decode sha256).machine.step process input).2.2 :=
        (congrArg Prod.snd hstep).symm
      refine ⟨?_, ?_, ?_⟩
      · rw [List.map_append, List.map_append, Machine.trace_append, hentries.trace,
          List.zip_append (by simp)]
        simp [hreply]
      · rw [List.map_append, Machine.final_append]
        exact hnext
      · rw [List.map_append, Machine.final_append, List.filterMap_append, ← List.append_assoc,
          ← hentries.auditLog]
        exact boundaryClient_log hentries.activeSnapshot input)
    ⟨rfl, hactive, by simp⟩
    (Machine.along_of_forall _ (fun _ _ => trivial) start (turns.map Turn.input))
  rw [h.trace, h.final, List.map_map, List.map_map, List.filterMap_map] at hran
  exact hran

end

/-! ## Fleets

All of them together: the turns of each boundary, and the lines that have been written. -/

/-- An acknowledged line is the line of an acknowledged call. -/
theorem acknowledgedLine_eq (log : SharedLog) {π : Type} (runtime : π → Runtime)
    (sighting : SharedLog.Sighting π) :
    log.acknowledgedLine runtime sighting =
      sighting.acknowledged.map (fun call => log.line (runtime call.1) call.2.record) := by
  cases sighting with
  | answered party call result => rcases result with _ | ⟨⟩ <;> rfl
  | _ => rfl

/-- The lines of the calls that the boundaries made and that ended well are acknowledged lines. -/
theorem boundary_lines_sublist {log : SharedLog} {π : Type} {processes : π → LogProcess}
    {seen : List (SharedLog.Sighting π)} {turns : List (LoggedTurn π)}
    (h : turns.filterMap Turn.acknowledged = (seen.filterMap Event.acknowledged).filter
      (fun call => (processes call.1).policy.isSome)) :
    ((turns.filterMap Turn.acknowledged).map (fun call => log.line .rust call.2.record)).Sublist
      (seen.filterMap (log.acknowledgedLine (fun party => (processes party).runtime))) := by
  have hlines : seen.filterMap (log.acknowledgedLine (fun party => (processes party).runtime)) =
      (seen.filterMap Event.acknowledged).map
        (fun call => log.line (processes call.1).runtime call.2.record) := by
    rw [List.map_filterMap]
    exact List.filterMap_congr fun sighting _ => acknowledgedLine_eq log _ sighting
  have hrust : (turns.filterMap Turn.acknowledged).map (fun call => log.line .rust call.2.record) =
      (turns.filterMap Turn.acknowledged).map
        (fun call => log.line (processes call.1).runtime call.2.record) := by
    refine List.map_congr_left fun call hcall => ?_
    rw [h, List.mem_filter] at hcall
    cases hprocess : processes call.1 with
    | boundary process => rfl
    | handle runtime => simp [hprocess, LogProcess.policy] at hcall
  rw [hlines, hrust, h]
  exact List.filter_sublist.map _

section

variable (rt : YamlRuntime) (decode : String → Except String Yaml) (sha256 : String → String)
  (log : SharedLog) {π : Type} [DecidableEq π] (processes : π → LogProcess)

/-- Processes that have opened the log and not yet used it. -/
def LogProcess.moored (disk : Disk) : Fleet π LogState Disk Operation
    (AuditError ⊕ Python.ManifestError) HandleCall PolicyProcess LoggedOperation :=
  LeaseProtocol.moored (SharedLog.opened π disk) (fun party => (processes party).policy)

/-- What a fleet does, step by step. -/
abbrev LogProcess.Reach (disk : Disk) (seen : List (SharedLog.Sighting π))
    (turns : List (LoggedTurn π)) (F : Fleet π LogState Disk Operation
      (AuditError ⊕ Python.ManifestError) HandleCall PolicyProcess LoggedOperation) : Prop :=
  (log.handles (fun party => (processes party).runtime)).FleetReaches
    (boundaryClient rt decode sha256) (LogProcess.moored processes disk) seen turns F

/-- The boundaries of a fleet, if these lines have been written: each has behaved as over a log of
its own, what it has returned is accounted for by a record, and the records are on the log. -/
structure Enforced (turns : List (LoggedTurn π)) (F : Fleet π LogState Disk Operation
      (AuditError ⊕ Python.ManifestError) HandleCall PolicyProcess LoggedOperation)
    (written : List Bytes) : Prop where
  /-- Each has behaved as over a log of its own, with the same records. -/
  atomic : ∀ party process, processes party = .boundary process → ∃ next asking,
    F.client party = some (next, asking) ∧
    RanLike rt decode sha256 process.store
      ((Turn.ofParty party turns).map LoggedTurn.atomicInput)
      ((Turn.ofParty party turns).map Turn.reply)
      ((Turn.ofParty party turns).filterMap LoggedTurn.acknowledgedRecord) next
  /-- What one has returned is accounted for by a record on the log. -/
  recorded : ∀ party process, processes party = .boundary process →
    ∀ before turn after reply, Turn.ofParty party turns = before ++ turn :: after →
      turn.reply = .ok reply → ∃ call, turn.acknowledged = some (party, call) ∧
        RepliedUnder rt decode sha256
          ((boundary rt decode sha256).final process.store (before.map LoggedTurn.atomicInput))
          turn.operation.surroundings reply call.record turn.operation.input ∧
        log.line .rust call.record ∈ written
  /-- The acknowledged records of all have been written in this order. -/
  kept : ((turns.filterMap Turn.acknowledged).map
    (fun call => log.line .rust call.2.record)).Sublist written

end

/-- **Enforcement on a shared log.**  Processes share a log that no rotation was interrupted in;
some have an enforcement boundary, the others append directly.  Whatever the order of their steps,
and whichever of them are killed before whatever step: each boundary has behaved as it does over a
log of its own, where appends are atomic; what it has returned is that of the policy then in force
and accounted for by a record on the log; and the lines that have been written, these records among
them, survive the next recovery as long as retention does not remove their file. -/
theorem enforcement_survives (rt : YamlRuntime) (decode : String → Except String Yaml)
    (sha256 : String → String) (log : SharedLog) (hline : log.OneLine) {π : Type} [DecidableEq π]
    (processes : π → LogProcess) (disk : Disk) (hquiet : disk.hasRotationEntry = false)
    {seen : List (SharedLog.Sighting π)} {turns : List (LoggedTurn π)}
    {F : Fleet π LogState Disk Operation (AuditError ⊕ Python.ManifestError) HandleCall
      PolicyProcess LoggedOperation}
    (h : LogProcess.Reach rt decode sha256 log processes disk seen turns F) :
    ∃ written, Enforced rt decode sha256 log processes turns F written ∧
      Explained log (fun party => (processes party).runtime) seen written ∧
      ∀ (next : Runtime) (stamp : Instant),
        let recovery := log.recover next stamp F.world.shared
        AtRest log.config.maxRotatedFiles
          (gather fileLines disk.files.lookup (retainedPaths log.config.maxRotatedFiles) ++
            written)
          (seen.flatMap log.removed ++
            recovery.steps.flatMap (retired log.config.maxRotatedFiles))
          recovery.final := by
  have hkept := LeaseProtocol.FleetReaches.kept h
  obtain ⟨actions, hreaches⟩ := hkept.reaches
  obtain ⟨written, hexplained, haccounts⟩ := SharedLog.accounted hline hquiet hreaches
  have hlines := (boundary_lines_sublist hkept.acknowledged).trans hexplained.kept
  refine ⟨written, ⟨?_, ?_, hlines⟩, hexplained, SharedLog.recovered_atRest haccounts⟩
  · intro party process hprocess
    obtain ⟨next, asking, hclient, hran, -⟩ := hkept.alone party process (by
      rw [hprocess, LogProcess.policy])
    exact ⟨next, asking, hclient, boundaryClient_ran rfl hran⟩
  · intro party process hprocess before turn after reply hturns hreply
    obtain ⟨next, asking, hclient, hran, -⟩ := hkept.alone party process (by
      rw [hprocess, LogProcess.policy])
    rw [hturns] at hran
    obtain ⟨middle, hbefore, hstep⟩ := hran.split
    have hactive : ((boundary rt decode sha256).final process.store
        (before.map LoggedTurn.atomicInput)).activeSnapshot = middle.activeSnapshot :=
      (boundaryClient_ran rfl hbefore).activeSnapshot
    have hanswered := congrArg Prod.snd hstep
    rw [hreply] at hanswered
    obtain ⟨hresult, call, hcall, hreplied⟩ := boundaryClient_ok hactive hanswered
    have hasked : turn.call = some call := (congrArg Prod.fst hstep).symm.trans hcall
    have hmem : turn ∈ Turn.ofParty party turns := by
      rw [hturns]
      simp
    obtain ⟨hturn, hparty⟩ := List.mem_filter.1 hmem
    have hacknowledged : turn.acknowledged = some (party, call) := by
      simp only [Turn.acknowledged, hresult, hasked, Option.map_some, of_decide_eq_true hparty]
    refine ⟨call, hacknowledged, hreplied, hlines.subset ?_⟩
    exact List.mem_map.2 ⟨_, List.mem_filterMap.2 ⟨turn, hturn, hacknowledged⟩, rfl⟩

/-- A Rust process with a boundary that has no policy yet, and a Python process. -/
def sampleProcesses : Bool → LogProcess
  | true => .boundary ⟨none⟩
  | false => .handle .python

/-- An operation of the sample boundary. -/
def sampleOperation (input : BoundaryInput Authorization) : LoggedOperation :=
  ⟨input, ⟨5, 5, 5, "auth-1", none⟩, fun _ => 3000, 3⟩

/-- A policy without rules. -/
def emptyEngine : Engine where
  rules := []
  defaultAction := .allow
  version := 1
  rateLimits := ∅

/-- The outcome of an authorization under another policy. -/
def sampleOutcome : BoundaryInput Authorization :=
  .recordOutcome ⟨"c1", ⟨1, "d1", emptyEngine⟩, ⟨.allow, [0]⟩, none, none, none, none, none⟩
    .succeeded none

/-- The append of the outcome. -/
def sampleOutcomeCall : HandleCall :=
  ⟨.outcome ⟨"c1", ⟨1, "d1", emptyEngine⟩, ⟨.allow, [0]⟩, none, none, none, none, none⟩ .succeeded
    none 5, fun _ => 3000, 3⟩

/-- A request that is no object is refused. -/
def refusedTurn : LoggedTurn Bool :=
  ⟨true, sampleOperation (.request .null), none, .ok (), .error (.adapter .invalidRequest)⟩

/-- The boundary refuses a request and is killed while it records an outcome. -/
theorem enforcement_survives_sample :
    ∃ F written, Enforced ⟨fun _ => "", fun _ => none⟩ (fun _ => .error "") (fun _ => "d1")
        sampleShared sampleProcesses [refusedTurn] F written ∧
      ∀ (next : Runtime) (stamp : Instant),
        AtRest 2 (gather fileLines servedDisk.files.lookup (retainedPaths 2) ++ written)
          ((sampleShared.recover next stamp F.world.shared).steps.flatMap (retired 2))
          (sampleShared.recover next stamp F.world.shared).final := by
  have hline : sampleShared.OneLine := by
    rintro (_ | _) record
    · exact (sampleRuntime_sound.recordLine record).noNewline
    · exact (sampleRuntime_sound.recordLine record).noNewline
  let P := sampleShared.handles (fun party => (sampleProcesses party).runtime)
  let C := boundaryClient ⟨fun _ => "", fun _ => none⟩ (fun _ => .error "") (fun _ => "d1")
  have hrefused : P.FleetStep C (LogProcess.moored sampleProcesses servedDisk) none
      (some refusedTurn) _ := .alone rfl rfl rfl
  have hreach := LeaseProtocol.FleetReaches.refl.step hrefused
  have hstarted : P.Step (LogProcess.moored sampleProcesses servedDisk).world
      (.start true sampleOutcomeCall) (some (.began true sampleOutcomeCall)) _ :=
    .started rfl rfl fun other hother => by cases hother
  have hask : C.ask ⟨none⟩ (sampleOperation sampleOutcome) = some sampleOutcomeCall := rfl
  have hasked := hreach.step (.asked (Function.update_self _ _ _) hask hstarted)
  have hkilled := hasked.step (.base (.killed : P.Step _ (.kill true) none _)
    (fun hcall => by cases hcall))
  obtain ⟨written, henforced, -, hsurvives⟩ := enforcement_survives _ _ _ sampleShared hline
    sampleProcesses servedDisk (by decide +kernel) hkilled
  exact ⟨_, written, henforced, hsurvives⟩

end HpGuardian

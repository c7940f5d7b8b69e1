import HpGuardian.Framework.Leases

/-!
# Programs that make their calls under a lease

Parties of a lease protocol may run a program, which turns operations into calls: it answers an
operation at once, or it makes one call and answers when the call has ended.  The other parties
make their calls directly.  A `Fleet` is a world of the protocol with such parties, and a
`FleetStep` one step of it: a step of the protocol that is not up to a program, or a program's own
step together with the call that it begins or ends.

A program sees little of this.  By itself it is a machine (`Client.machine`), whose input is an
operation and, if the operation makes a call, how the call ended; whatever the other parties do to
the shared state reaches it through that result only.  `Client.Ran` is a run of this machine, given
by the turns that were taken.

`FleetReaches.kept` takes a fleet apart.  Its world is one that the protocol reaches, each program
has run by itself, and the calls that ended well in the world are, in their order, those of the
turns.  So a property of the protocol that holds in any interleaving and a property of the program
that holds in any surroundings can be proved apart and put together afterwards, which is what the
relation `Kept` is for: it is kept by every step (`Kept.step`), and by induction by every run.
-/

namespace Framework

universe u

variable {π σ δ ο κ χ ω ρ : Type*} {ε : Type u}

/-- A program with states `χ` that answers operations `ω` with replies `ρ`. An operation makes one
call at most, which depends on the state in which it is begun. -/
structure Client (χ ω κ : Type*) (ε : Type u) (ρ : Type*) where
  /-- The call that an operation makes. -/
  ask : χ → ω → Option κ
  /-- The answer to an operation, once its call has ended if it made one. -/
  answer : χ → ω → Option (Except ε Unit) → χ × ρ

/-- A program by itself: how a call ends is part of the input, and the call part of the output. So
the surroundings of a program, with all the other parties in them, are a sequence of results. -/
def Client.machine (C : Client χ ω κ ε ρ) : Machine χ (ω × Except ε Unit) (Option κ × ρ) where
  step state input :=
    let call := C.ask state input.1
    let (next, reply) := C.answer state input.1 (call.map (fun _ => input.2))
    (next, call, reply)

/-- An operation of a party that was answered, with the call it made, if any, how that call ended,
and the reply. An operation whose call was refused has a turn as well. -/
structure Turn (π ω κ : Type*) (ε : Type u) (ρ : Type*) where
  party : π
  operation : ω
  call : Option κ
  /-- How the call ended. -/
  result : Except ε Unit
  reply : ρ

namespace Turn

/-- A turn as a step of the party's program. -/
def entry (turn : Turn π ω κ ε ρ) : (ω × Except ε Unit) × (Option κ × ρ) :=
  ((turn.operation, turn.result), turn.call, turn.reply)

/-- What the program took in. -/
def input (turn : Turn π ω κ ε ρ) : ω × Except ε Unit :=
  (turn.operation, turn.result)

/-- The call of a turn that ended well. -/
def acknowledged (turn : Turn π ω κ ε ρ) : Option (π × κ) :=
  match turn.result with
  | .ok () => turn.call.map (fun call => (turn.party, call))
  | .error _ => none

/-- The turns of one party. -/
def ofParty [DecidableEq π] (party : π) (turns : List (Turn π ω κ ε ρ)) :
    List (Turn π ω κ ε ρ) :=
  turns.filter (fun turn => turn.party = party)

end Turn

/-- A program has run by itself to this state, with these turns: from its start, each turn is a
step of its machine, and the call that it made is the one the machine asked for. -/
structure Client.Ran (C : Client χ ω κ ε ρ) (start : χ) (turns : List (Turn π ω κ ε ρ))
    (state : χ) : Prop where
  trace : C.machine.trace start (turns.map Turn.input) = turns.map Turn.entry
  final : C.machine.final start (turns.map Turn.input) = state

theorem Client.Ran.step {C : Client χ ω κ ε ρ} {start state : χ} {turns : List (Turn π ω κ ε ρ)}
    (h : C.Ran start turns state) {turn : Turn π ω κ ε ρ}
    (hcall : turn.call = C.ask state turn.operation) {next : χ × ρ}
    (hnext : C.answer state turn.operation (turn.call.map (fun _ => turn.result)) = next)
    (hreply : turn.reply = next.2) : C.Ran start (turns ++ [turn]) next.1 := by
  have hstep : C.machine.step state turn.input = (next.1, turn.call, turn.reply) := by
    simp only [Client.machine, Turn.input, ← hcall, hnext, hreply]
  constructor
  · rw [List.map_append, List.map_singleton, Machine.trace_append, h.trace, h.final,
      Machine.trace_cons, Machine.trace_nil, hstep, List.map_append, List.map_singleton]
    rfl
  · rw [List.map_append, List.map_singleton, Machine.final_append, h.final, Machine.final_cons,
      Machine.final_nil, hstep]

/-- At each turn a program that has run by itself has run by itself, and answers by a step. -/
theorem Client.Ran.split {C : Client χ ω κ ε ρ} {start state : χ}
    {before after : List (Turn π ω κ ε ρ)} {turn : Turn π ω κ ε ρ}
    (h : C.Ran start (before ++ turn :: after) state) :
    ∃ middle, C.Ran start before middle ∧
      (C.machine.step middle turn.input).2 = (turn.call, turn.reply) := by
  have htrace := h.trace
  rw [List.map_append, List.map_append, List.map_cons, List.map_cons, Machine.trace_append,
    Machine.trace_cons] at htrace
  obtain ⟨hbefore, hafter⟩ := List.append_inj htrace (by simp)
  exact ⟨_, ⟨hbefore, rfl⟩, congrArg Prod.snd (List.cons.inj hafter).1⟩

/-- A call that was seen to end well. -/
def Event.acknowledged : Event π σ ο ε κ → Option (π × κ)
  | .answered party call (.ok ()) => some (party, call)
  | _ => none

/-- The party that acts. -/
def LeaseAction.party : LeaseAction π κ → π
  | .start party _ | .step party | .finish party | .close party | .kill party => party

/-- The actions that programs take: those that begin and end a call. -/
def LeaseAction.isCall : LeaseAction π κ → Bool
  | .start _ _ | .finish _ => true
  | .step _ | .close _ | .kill _ => false

/-- A party is in this call, or it was killed. -/
inductive Phase.Calls (call : κ) : Phase σ ο ε κ → Prop
  | inFlight (pending : List (σ × ο)) (final : σ) (result : Except ε Unit) :
      Calls call (.inFlight call pending final result)
  | gone : Calls call .gone

/-- A world whose parties may run a program: its state, and the operation whose call has not
ended. -/
structure Fleet (π σ δ ο : Type*) (ε : Type u) (κ χ ω : Type*) where
  world : World π σ δ ο ε κ
  client : π → Option (χ × Option ω)

namespace LeaseProtocol

variable [DecidableEq π] (P : LeaseProtocol π σ δ ο ε κ) (C : Client χ ω κ ε ρ)

/-- One step of a fleet, with what is seen of the protocol and the turn that it completes. The
parties that run a program begin and end their calls as it says; everything else is a step of the
protocol as before. -/
inductive FleetStep (F : Fleet π σ δ ο ε κ χ ω) :
    Option (Event π σ ο ε κ) → Option (Turn π ω κ ε ρ) → Fleet π σ δ ο ε κ χ ω → Prop
  /-- A step of the protocol that is not up to a program. -/
  | base {action event world} (hstep : P.Step F.world action event world)
      (hfree : action.isCall = true → F.client action.party = none) :
      FleetStep F event none { F with world := world }
  /-- An operation that makes no call. -/
  | alone {party : π} {resting : σ} {state : χ} {operation : ω}
      (hphase : F.world.phase party = .idle resting)
      (hclient : F.client party = some (state, none)) (hask : C.ask state operation = none) :
      FleetStep F none
        (some ⟨party, operation, none, .ok (), (C.answer state operation none).2⟩)
        { F with
          client := Function.update F.client party
            (some ((C.answer state operation none).1, none)) }
  /-- A call that is refused fails. -/
  | refused {party : π} {state : χ} {operation : ω} {call : κ} {world : World π σ δ ο ε κ}
      (error : ε) (hclient : F.client party = some (state, none))
      (hask : C.ask state operation = some call)
      (hstep : P.Step F.world (.start party call) none world) :
      FleetStep F none
        (some ⟨party, operation, some call, .error error,
          (C.answer state operation (some (.error error))).2⟩)
        { world := world
          client := Function.update F.client party
            (some ((C.answer state operation (some (.error error))).1, none)) }
  | asked {party : π} {state : χ} {operation : ω} {call : κ} {event : Event π σ ο ε κ}
      {world : World π σ δ ο ε κ} (hclient : F.client party = some (state, none))
      (hask : C.ask state operation = some call)
      (hstep : P.Step F.world (.start party call) (some event) world) :
      FleetStep F (some event) none
        { world := world
          client := Function.update F.client party (some (state, some operation)) }
  | answered {party : π} {state : χ} {operation : ω} {call : κ} {result : Except ε Unit}
      {world : World π σ δ ο ε κ} (hclient : F.client party = some (state, some operation))
      (hstep : P.Step F.world (.finish party) (some (.answered party call result)) world) :
      FleetStep F (some (.answered party call result))
        (some ⟨party, operation, some call, result,
          (C.answer state operation (some result)).2⟩)
        { world := world
          client := Function.update F.client party
            (some ((C.answer state operation (some result)).1, none)) }

/-- The fleets that a run leads to, with what is seen of the protocol and all turns, in the order
in which they were completed. -/
inductive FleetReaches (F₀ : Fleet π σ δ ο ε κ χ ω) :
    List (Event π σ ο ε κ) → List (Turn π ω κ ε ρ) → Fleet π σ δ ο ε κ χ ω → Prop
  | refl : FleetReaches F₀ [] [] F₀
  | step {seen turns F event turn F'} (h : FleetReaches F₀ seen turns F)
      (hstep : P.FleetStep C F event turn F') :
      FleetReaches F₀ (seen ++ event.toList) (turns ++ turn.toList) F'

/-- The fleet in which nobody is in a call, and these parties run the program. -/
def moored (A : Parties π σ δ) (programs : π → Option χ) : Fleet π σ δ ο ε κ χ ω :=
  ⟨resting A, fun party => (programs party).map (fun state => (state, none))⟩

variable {P C}

/-! ## What a step leaves alone

A step of the protocol is about one party.  The others keep their phase, and what is acknowledged
is acknowledged to the party that acts; these are the frame conditions of the invariant below. -/

section

variable {W W' : World π σ δ ο ε κ} {action : LeaseAction π κ} {event : Option (Event π σ ο ε κ)}

/-- A step is about one party. -/
theorem Step.phase_of_ne (h : P.Step W action event W') {other : π} (hne : other ≠ action.party) :
    W'.phase other = W.phase other := by
  cases h <;> first | rfl | exact Function.update_of_ne hne _ _

/-- A party stays in a call until the call ends or it is killed. -/
theorem Step.calls {A : Parties π σ δ} {actions : List (LeaseAction π κ)}
    {seen : List (Event π σ ο ε κ)} (hreaches : P.Reaches (resting A) actions seen W)
    (h : P.Step W action event W') (hcall : action.isCall = false) {call : κ}
    (hcalls : (W.phase action.party).Calls call) : (W'.phase action.party).Calls call := by
  cases h with
  | refused => cases hcall
  | started => cases hcall
  | advanced hphase hfound =>
      simp only [LeaseAction.party, hphase] at hcalls
      simp only [LeaseAction.party, Function.update_self]
      cases hcalls
      exact .inFlight _ _ _
  | disturbed hphase hlost =>
      exact absurd (hreaches.undisturbed hphase).2.1 hlost
  | finished => cases hcall
  | closed hphase =>
      simp only [LeaseAction.party, hphase] at hcalls
      cases hcalls
  | killed =>
      simp only [LeaseAction.party, Function.update_self]
      exact .gone

/-- Only the end of a call acknowledges it. -/
theorem Step.acknowledged_eq_none {A : Parties π σ δ} {actions : List (LeaseAction π κ)}
    {seen : List (Event π σ ο ε κ)} (hreaches : P.Reaches (resting A) actions seen W)
    (h : P.Step W action event W') (hcall : action.isCall = false) :
    event.toList.filterMap Event.acknowledged = [] := by
  cases h with
  | disturbed hphase hlost => exact absurd (hreaches.undisturbed hphase).2.1 hlost
  | finished => cases hcall
  | _ => rfl

/-- An acknowledgement is about the party that acts. -/
theorem Step.acknowledged_party {A : Parties π σ δ} {actions : List (LeaseAction π κ)}
    {seen : List (Event π σ ο ε κ)} (hreaches : P.Reaches (resting A) actions seen W)
    (h : P.Step W action event W') :
    ∀ call ∈ event.toList.filterMap Event.acknowledged, call.1 = action.party := by
  cases hcall : action.isCall with
  | false =>
      rw [h.acknowledged_eq_none hreaches hcall]
      simp
  | true =>
      cases h with
      | @finished party call final result =>
          cases result <;> simp [Event.acknowledged, LeaseAction.party]
      | disturbed => cases hcall
      | _ => simp [Event.acknowledged]

end

/-! ## Each program by itself

The invariant and its preservation.  The two directions of a program's turn are handled apart: a
step that completes a turn moves the program's machine, and a step that begins a call only records
which operation is waiting. -/

variable (P C) in
/-- What a fleet keeps: its world is one that the protocol reaches, each program has run by itself
and is in the call it asked for, and the calls of programs that ended well are those of their
turns. Everything that is known of a fleet is derived from this. -/
structure Kept (A : Parties π σ δ) (programs : π → Option χ) (seen : List (Event π σ ο ε κ))
    (turns : List (Turn π ω κ ε ρ)) (F : Fleet π σ δ ο ε κ χ ω) : Prop where
  reaches : ∃ actions, P.Reaches (resting A) actions seen F.world
  outside : ∀ party, programs party = none → F.client party = none
  alone : ∀ party start, programs party = some start →
    ∃ state asking, F.client party = some (state, asking) ∧
      C.Ran start (Turn.ofParty party turns) state ∧
      ∀ operation ∈ asking, ∃ call, C.ask state operation = some call ∧
        (F.world.phase party).Calls call
  acknowledged : turns.filterMap Turn.acknowledged =
    (seen.filterMap Event.acknowledged).filter (fun call => (programs call.1).isSome)

section

variable {A : Parties π σ δ} {programs : π → Option χ} {seen : List (Event π σ ο ε κ)}
  {turns : List (Turn π ω κ ε ρ)} {F F' : Fleet π σ δ ο ε κ χ ω}

theorem Kept.moored : Kept P C A programs [] [] (moored A programs) where
  reaches := ⟨[], .refl⟩
  outside party hnone := by simp [LeaseProtocol.moored, hnone]
  alone party start hstart :=
    ⟨start, none, by simp [LeaseProtocol.moored, hstart], ⟨rfl, rfl⟩, by simp⟩
  acknowledged := rfl

/-- A program has a start. -/
theorem Kept.exists_start (h : Kept P C A programs seen turns F) {party : π}
    {client : χ × Option ω} (hclient : F.client party = some client) :
    ∃ start, programs party = some start := by
  rw [← Option.ne_none_iff_exists']
  intro hnone
  rw [h.outside party hnone] at hclient
  cases hclient

theorem ofParty_append_self (turn : Turn π ω κ ε ρ) :
    Turn.ofParty turn.party (turns ++ [turn]) =
      Turn.ofParty turn.party turns ++ [turn] := by
  simp [Turn.ofParty]

theorem ofParty_append_of_ne {turn : Turn π ω κ ε ρ} {party : π}
    (hne : party ≠ turn.party) :
    Turn.ofParty party (turns ++ [turn]) = Turn.ofParty party turns := by
  simp [Turn.ofParty, hne.symm]

/-- A step of the protocol that is not up to a program. -/
theorem Kept.base (h : Kept P C A programs seen turns F) {action : LeaseAction π κ}
    {event : Option (Event π σ ο ε κ)} {world : World π σ δ ο ε κ}
    (hstep : P.Step F.world action event world)
    (hfree : action.isCall = true → F.client action.party = none) :
    Kept P C A programs (seen ++ event.toList) turns { F with world := world } := by
  obtain ⟨actions, hreaches⟩ := h.reaches
  refine ⟨⟨_, hreaches.step hstep⟩, h.outside, ?_, ?_⟩
  · intro party start hstart
    obtain ⟨state, asking, hclient, hran, hasking⟩ := h.alone party start hstart
    refine ⟨state, asking, hclient, hran, fun operation hoperation => ?_⟩
    obtain ⟨call, hask, hcalls⟩ := hasking operation hoperation
    refine ⟨call, hask, ?_⟩
    by_cases hparty : party = action.party
    · subst hparty
      cases hcall : action.isCall with
      | false => exact hstep.calls hreaches hcall hcalls
      | true =>
          rw [hfree hcall] at hclient
          cases hclient
    · dsimp only
      rwa [hstep.phase_of_ne hparty]
  · rw [h.acknowledged, List.filterMap_append, List.filter_append]
    -- what is acknowledged here is acknowledged to a party without a program
    have hnone : (event.toList.filterMap Event.acknowledged).filter
        (fun call => (programs call.1).isSome) = [] := by
      cases hcall : action.isCall with
      | false => rw [hstep.acknowledged_eq_none hreaches hcall, List.filter_nil]
      | true =>
          rw [List.filter_eq_nil_iff]
          intro call hmem hsome
          rw [hstep.acknowledged_party hreaches call hmem] at hsome
          obtain ⟨start, hstart⟩ := Option.isSome_iff_exists.1 hsome
          obtain ⟨state, asking, hclient, -⟩ := h.alone _ start hstart
          rw [hfree hcall] at hclient
          cases hclient
    rw [hnone, List.append_nil]

/-- A step that completes a turn. -/
theorem Kept.turn (h : Kept P C A programs seen turns F) {state : χ} {asking : Option ω}
    {turn : Turn π ω κ ε ρ} (hclient : F.client turn.party = some (state, asking))
    (hcall : turn.call = C.ask state turn.operation) {next : χ × ρ}
    (hnext : C.answer state turn.operation (turn.call.map (fun _ => turn.result)) = next)
    (hreply : turn.reply = next.2) {event : Option (Event π σ ο ε κ)}
    {world : World π σ δ ο ε κ}
    (hreaches : ∃ actions, P.Reaches (resting A) actions (seen ++ event.toList) world)
    (hothers : ∀ party, party ≠ turn.party → world.phase party = F.world.phase party)
    (hacknowledged : turn.acknowledged.toList = event.toList.filterMap Event.acknowledged) :
    Kept P C A programs (seen ++ event.toList) (turns ++ [turn])
      ⟨world, Function.update F.client turn.party (some (next.1, none))⟩ := by
  obtain ⟨start₀, hstart₀⟩ := h.exists_start hclient
  refine ⟨hreaches, ?_, ?_, ?_⟩
  · intro party hnone
    have hne : party ≠ turn.party := by
      rintro rfl
      rw [hstart₀] at hnone
      cases hnone
    exact (Function.update_of_ne hne _ _).trans (h.outside party hnone)
  · intro party start hstart
    obtain ⟨found, pending, hfound, hran, hasking⟩ := h.alone party start hstart
    by_cases hne : party = turn.party
    · subst hne
      obtain ⟨rfl, -⟩ := Prod.mk.inj (Option.some.inj (hfound.symm.trans hclient))
      refine ⟨next.1, none, Function.update_self _ _ _, ?_, by simp⟩
      rw [ofParty_append_self]
      exact hran.step hcall hnext hreply
    · refine ⟨found, pending, (Function.update_of_ne hne _ _).trans hfound, ?_, ?_⟩
      · rwa [ofParty_append_of_ne hne]
      · dsimp only
        rwa [hothers party hne]
  · rw [List.filterMap_append, List.filterMap_append, List.filter_append, ← h.acknowledged,
      ← hacknowledged]
    congr 1
    cases hresult : turn.acknowledged with
    | none => simp [hresult]
    | some call =>
        have hparty : call.1 = turn.party := by
          unfold Turn.acknowledged at hresult
          split at hresult
          · obtain ⟨_, -, rfl⟩ := Option.map_eq_some_iff.1 hresult
            rfl
          · cases hresult
        simp [hresult, hparty, hstart₀]

/-- A program begins a call. -/
theorem Kept.asked (h : Kept P C A programs seen turns F) {party : π} {state : χ}
    {operation : ω} {call : κ} {event : Event π σ ο ε κ} {world : World π σ δ ο ε κ}
    (hclient : F.client party = some (state, none)) (hask : C.ask state operation = some call)
    (hstep : P.Step F.world (.start party call) (some event) world) :
    Kept P C A programs (seen ++ [event]) turns
      ⟨world, Function.update F.client party (some (state, some operation))⟩ := by
  obtain ⟨start₀, hstart₀⟩ := h.exists_start hclient
  obtain ⟨actions, hreaches⟩ := h.reaches
  refine ⟨⟨_, hreaches.step hstep⟩, ?_, ?_, ?_⟩
  · intro other hnone
    have hne : other ≠ party := by
      rintro rfl
      rw [hstart₀] at hnone
      cases hnone
    exact (Function.update_of_ne hne _ _).trans (h.outside other hnone)
  · intro other start hstart
    obtain ⟨found, pending, hfound, hran, hasking⟩ := h.alone other start hstart
    by_cases hne : other = party
    · subst hne
      obtain ⟨rfl, -⟩ := Prod.mk.inj (Option.some.inj (hfound.symm.trans hclient))
      refine ⟨found, some operation, Function.update_self _ _ _, hran, ?_⟩
      intro asked hasked
      obtain rfl := Option.some.inj hasked
      refine ⟨call, hask, ?_⟩
      cases hstep with
      | started =>
          simp only [begun, Function.update_self]
          exact .inFlight _ _ _
    · refine ⟨found, pending, (Function.update_of_ne hne _ _).trans hfound, hran, ?_⟩
      dsimp only
      rwa [hstep.phase_of_ne hne]
  · rw [h.acknowledged, List.filterMap_append]
    cases hstep with
    | started => simp [Event.acknowledged]

/-- One step of a fleet. -/
theorem Kept.step (h : Kept P C A programs seen turns F) {event : Option (Event π σ ο ε κ)}
    {turn : Option (Turn π ω κ ε ρ)} (hstep : P.FleetStep C F event turn F') :
    Kept P C A programs (seen ++ event.toList) (turns ++ turn.toList) F' := by
  obtain ⟨actions, hreaches⟩ := h.reaches
  cases hstep with
  | base hstep hfree =>
      rw [Option.toList_none, List.append_nil]
      exact h.base hstep hfree
  | @alone party resting state operation hphase hclient hask =>
      refine h.turn hclient hask.symm rfl rfl ⟨actions, ?_⟩ (fun _ _ => rfl) rfl
      rwa [Option.toList_none, List.append_nil]
  | @refused party state operation call world error hclient hask hstep =>
      exact h.turn hclient hask.symm rfl rfl ⟨_, hreaches.step hstep⟩
        (fun _ hne => hstep.phase_of_ne hne) rfl
  | @asked party state operation call event world hclient hask hstep =>
      rw [Option.toList_none, List.append_nil]
      exact h.asked hclient hask hstep
  | @answered party state operation call result world hclient hstep =>
      obtain ⟨start, hstart⟩ := h.exists_start hclient
      obtain ⟨found, asking, hfound, -, hasking⟩ := h.alone party start hstart
      obtain ⟨rfl, rfl⟩ := Prod.mk.inj (Option.some.inj (hfound.symm.trans hclient))
      obtain ⟨call', hask, hcalls⟩ := hasking operation rfl
      have hsame : call' = call := by
        cases hstep with
        | finished hphase =>
            rw [hphase] at hcalls
            cases hcalls
            rfl
      subst hsame
      refine h.turn hclient hask.symm rfl rfl ⟨_, hreaches.step hstep⟩
        (fun _ hne => hstep.phase_of_ne hne) ?_
      cases result <;> rfl

/-- **A fleet taken apart.** Whatever the parties of a fleet do in whatever order, the protocol
reaches its world, each program has run by itself with the ends of its calls as an input, and the
calls that ended well are, in their order, those of the turns.

By induction on the run, with one case for each kind of step. -/
theorem FleetReaches.kept (h : P.FleetReaches C (moored A programs) seen turns F) :
    Kept P C A programs seen turns F := by
  induction h with
  | refl => exact .moored
  | step _ hstep ih => exact ih.step hstep

end

end LeaseProtocol

end Framework

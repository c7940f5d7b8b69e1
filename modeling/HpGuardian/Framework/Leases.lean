import HpGuardian.Framework.Runs
import HpGuardian.Framework.StepProgram
import Mathlib.Data.List.Basic

/-!
# Parties that share a state under one lease

Any number of parties run programs on a shared state.  A call first asks for the one lease, which a
party keeps until it closes or is killed; a call that finds the lease taken is refused.  The steps
of the parties interleave in any way, and a party can be killed at any moment, in the middle of a
call as well.

A call under way is what is left of its run (`Phase.inFlight`): the steps still to come, each with
the state it expects to find, and the end of the call.  A program's run is determined by the state
at its beginning, so this is what the call will do *if nobody interferes*.  The step relation does
not assume that nobody does.  If a step finds the shared state changed, the rule `disturbed` lets
anything follow.  `Reaches.undisturbed` then says that this never happens, because whoever is in a
call holds the lease.

The second main result is a serialization.  `Whole` calls are taken from beginning to end, or are
cut before one of their steps when their party is killed.  Every interleaving of steps leads to a
world that whole calls lead to, one after the other, each placed at the moment when it ends, and
the same can be seen of it (`Reaches.serial`).  The relation that carries the induction is
`Corresponds`: the world is one at rest, or one party has taken some steps of its run and all the
others rest.

With it, an invariant of single calls is an invariant of the parties (`serial_invariant`), and at
any moment the history is what whole calls would leave if the call under way were cut there
(`Reaches.exists_history`).  A user of this module proves facts about one program from one state,
with crash conditions, and never sees an interleaving.
-/

namespace Framework

universe u

variable {π : Type*} {σ δ ο : Type*} {ε : Type u} {κ : Type*}

/-- What the parties share, and what they do with it. A party's state has a shared part and a part
of its own; a program runs on the whole state, and the world keeps the shared part once. -/
structure LeaseProtocol (π σ δ ο : Type*) (ε : Type u) (κ : Type*) where
  /-- The shared part of a party's state. -/
  get : σ → δ
  /-- Replaces the shared part. -/
  set : δ → σ → σ
  /-- The party has not been closed. -/
  isOpen : σ → Bool
  /-- What a call does under the lease. -/
  program : π → κ → Program σ ο ε Unit
  /-- What closing does to a party. -/
  close : σ → σ

/-- Where a party is: between two calls, in a call, or gone. -/
inductive Phase (σ ο : Type*) (ε : Type u) (κ : Type*) where
  | idle (state : σ)
  /-- In a call: the steps still to come, and the end of the call. -/
  | inFlight (call : κ) (pending : List (σ × ο)) (final : σ) (result : Except ε Unit)
  | gone

/-- What can be seen of the parties: the calls they begin, the steps they take, and the results of
their calls. -/
inductive Event (π σ ο : Type*) (ε : Type u) (κ : Type*) where
  | began (party : π) (call : κ)
  | took (party : π) (step : σ × ο)
  | answered (party : π) (call : κ) (result : Except ε Unit)

/-- The shared state, the holder of the lease, and the parties. The shared part of a party's own
state is stale while others hold the lease, and is replaced when the party begins a call. -/
structure World (π σ δ ο : Type*) (ε : Type u) (κ : Type*) where
  shared : δ
  holder : Option π
  phase : π → Phase σ ο ε κ

/-- What can happen next. The parties are not scheduled: any action may follow any other, as far as
the phase of its party allows it. -/
inductive LeaseAction (π κ : Type*) where
  | start (party : π) (call : κ)
  | step (party : π)
  | finish (party : π)
  | close (party : π)
  | kill (party : π)

namespace LeaseProtocol

/-- The parties between their calls; a party that is gone has no state. This is the world of the
serial machine, in which nobody is ever in the middle of a call. -/
structure Parties (π σ δ : Type*) where
  shared : δ
  holder : Option π
  party : π → Option σ

/-- A party between its calls. -/
def restingPhase : Option σ → Phase σ ο ε κ
  | some state => .idle state
  | none => .gone

/-- The world in which nobody is in a call. -/
def resting (A : Parties π σ δ) : World π σ δ ο ε κ :=
  ⟨A.shared, A.holder, fun party => restingPhase (A.party party)⟩

section

variable {A : Parties π σ δ} {party : π}

theorem phase_resting_ne {call : κ} {pending : List (σ × ο)} {final : σ}
    {result : Except ε Unit} :
    (resting A).phase party ≠ .inFlight call pending final result := by
  simp only [resting]
  cases A.party party <;> simp [restingPhase]

theorem party_of_phase_resting {state : σ}
    (h : (resting (ο := ο) (ε := ε) (κ := κ) A).phase party = .idle state) :
    A.party party = some state := by
  simp only [resting] at h
  cases hparty : A.party party with
  | none => simp [hparty, restingPhase] at h
  | some state' =>
      simp only [hparty, restingPhase, Phase.idle.injEq] at h
      rw [h]

end

variable [DecidableEq π] (P : LeaseProtocol π σ δ ο ε κ)

/-- The holder of the lease after a party gave it back. -/
def released (holder : Option π) (party : π) : Option π :=
  if holder = some party then none else holder

/-- The shared state that the next step of a call expects, or that its end leaves behind. -/
def expects (pending : List (σ × ο)) (final : σ) : δ :=
  P.get ((pending.head?.map Prod.fst).getD final)

/-- The world after a party with this state has begun a call. -/
def begun (W : World π σ δ ο ε κ) (party : π) (state : σ) (call : κ) : World π σ δ ο ε κ :=
  let run := P.program party call (P.set W.shared state)
  { shared := P.expects run.steps run.final
    holder := some party
    phase := Function.update W.phase party (.inFlight call run.steps run.final run.result) }

/-- One step of the parties, and what can be seen of it. A call takes its steps one at a time, and
each may find that the shared state is not the one it expects; nothing is assumed about what
follows then. -/
inductive Step (W : World π σ δ ο ε κ) :
    LeaseAction π κ → Option (Event π σ ο ε κ) → World π σ δ ο ε κ → Prop
  /-- A closed party declines, or another holds the lease. -/
  | refused {party call state} (hphase : W.phase party = .idle state)
      (hrefused : P.isOpen state = false ∨ ∃ other ∈ W.holder, other ≠ party) :
      Step W (.start party call) none W
  | started {party call state} (hphase : W.phase party = .idle state)
      (hopen : P.isOpen state = true) (hfree : ∀ other ∈ W.holder, other = party) :
      Step W (.start party call) (some (.began party call)) (P.begun W party state call)
  | advanced {party call step pending final result}
      (hphase : W.phase party = .inFlight call (step :: pending) final result)
      (hfound : W.shared = P.get step.1) :
      Step W (.step party) (some (.took party step))
        { W with
          shared := P.expects pending final
          phase := Function.update W.phase party (.inFlight call pending final result) }
  /-- The step does not find what it expects. -/
  | disturbed {party call step pending final result phase shared event}
      (hphase : W.phase party = .inFlight call (step :: pending) final result)
      (hlost : W.shared ≠ P.get step.1) :
      Step W (.step party) event
        { W with shared := shared, phase := Function.update W.phase party phase }
  | finished {party call final result} (hphase : W.phase party = .inFlight call [] final result) :
      Step W (.finish party) (some (.answered party call result))
        { W with phase := Function.update W.phase party (.idle final) }
  | closed {party state} (hphase : W.phase party = .idle state) :
      Step W (.close party) none
        { W with
          holder := released W.holder party
          phase := Function.update W.phase party (.idle (P.close state)) }
  | killed {party} :
      Step W (.kill party) none
        { W with
          holder := released W.holder party
          phase := Function.update W.phase party .gone }

/-- The worlds that a run of actions leads to, with all that can be seen on the way: the beginnings
of calls, the steps that were taken, and the answers, in their order. -/
inductive Reaches (W₀ : World π σ δ ο ε κ) :
    List (LeaseAction π κ) → List (Event π σ ο ε κ) → World π σ δ ο ε κ → Prop
  | refl : Reaches W₀ [] [] W₀
  | step {actions events W action event W'} (h : Reaches W₀ actions events W)
      (hstep : P.Step W action event W') :
      Reaches W₀ (actions ++ [action]) (events ++ event.toList) W'

/-! ## Whole calls

The serial machine.  It has no phases: its parties are always between two calls, and its actions
are whole calls, closings and killings. -/

/-- An action of whole calls. A call that is cut is killed before the given step, so that only the
steps before it are seen. -/
inductive Whole (π κ : Type*) where
  | call (party : π) (call : κ)
  | cut (party : π) (call : κ) (steps : ℕ)
  | close (party : π)
  | leave (party : π)

/-- The action that completes a whole one. -/
def Whole.cause : Whole π κ → LeaseAction π κ
  | .call party _ => .finish party
  | .cut party _ _ => .kill party
  | .close party => .close party
  | .leave party => .kill party

/-- A party has given the lease back, and its state has become another one. -/
def without (A : Parties π σ δ) (party : π) (state : Option σ) : Parties π σ δ :=
  { A with
    holder := released A.holder party
    party := Function.update A.party party state }

/-- The state of a party that may begin a call. -/
def mayCall (A : Parties π σ δ) (party : π) : Option σ :=
  (A.party party).filter (fun state => P.isOpen state && A.holder.all (fun other => other == party))

/-- Whole calls, one after the other. -/
def serial : Machine (Parties π σ δ) (Whole π κ) (List (Event π σ ο ε κ)) where
  step A action :=
    match action with
    | .call party call =>
        match P.mayCall A party with
        | none => (A, [])
        | some state =>
            let run := P.program party call (P.set A.shared state)
            ({ shared := P.get run.final
               holder := some party
               party := Function.update A.party party (some run.final) },
              .began party call :: run.steps.map (.took party) ++
                [.answered party call run.result])
    | .cut party call steps =>
        match P.mayCall A party with
        | none => (A, [])
        | some state =>
            let run := P.program party call (P.set A.shared state)
            ({ shared := P.expects (run.steps.drop steps) run.final
               holder := none
               party := Function.update A.party party none },
              .began party call :: (run.steps.take steps).map (.took party))
    | .close party =>
        match A.party party with
        | none => (A, [])
        | some state => (without A party (some (P.close state)), [])
    | .leave party => (without A party none, [])

/-- All that can be seen of a run of whole calls. -/
def events (A : Parties π σ δ) (history : List (Whole π κ)) : List (Event π σ ο ε κ) :=
  (P.serial.trace A history).flatMap Prod.snd

/-- The world in which a party is in a call of which some steps have been taken. -/
def flying (A : Parties π σ δ) (party : π) (state : σ) (call : κ) (steps : ℕ) :
    World π σ δ ο ε κ :=
  let run := P.program party call (P.set A.shared state)
  { shared := P.expects (run.steps.drop steps) run.final
    holder := some party
    phase := Function.update (resting A).phase party
      (.inFlight call (run.steps.drop steps) run.final run.result) }

/-- A world that whole calls have led to: nobody is in a call, or one party is, has taken some
steps of its run, and the others are still to come. In the second case that party holds the lease,
which is what keeps the others from interfering. -/
inductive Corresponds (A : Parties π σ δ) (W : World π σ δ ο ε κ) :
    List (Event π σ ο ε κ) → Prop
  | atRest (h : W = resting A) : Corresponds A W []
  | inCall {party state} (call : κ) (steps : ℕ) (hmay : P.mayCall A party = some state)
      (h : W = P.flying A party state call steps) :
      Corresponds A W (.began party call ::
        ((P.program party call (P.set A.shared state)).steps.take steps).map (.took party))

variable {P}

theorem mayCall_eq_some {A : Parties π σ δ} {party : π} {state : σ} :
    P.mayCall A party = some state ↔
      A.party party = some state ∧ P.isOpen state = true ∧
        ∀ other ∈ A.holder, other = party := by
  rw [mayCall, Option.filter_eq_some_iff, Bool.and_eq_true, Option.all_eq_true]
  simp

theorem events_append (A : Parties π σ δ) (history more : List (Whole π κ)) :
    P.events A (history ++ more) =
      P.events A history ++ P.events (P.serial.final A history) more := by
  rw [events, Machine.trace_append, List.flatMap_append]
  rfl

theorem released_of_ne {holder : Option π} {party : π} (h : holder ≠ some party) :
    released holder party = holder := if_neg h

theorem restingPhase_update (A : Parties π σ δ) (party : π) (state : Option σ) :
    (fun other => restingPhase (ο := ο) (ε := ε) (κ := κ)
        (Function.update A.party party state other)) =
      Function.update (resting A).phase party (restingPhase state) := by
  funext other
  by_cases h : other = party
  · subst h
    simp
  · simp [h, resting]

theorem resting_without (A : Parties π σ δ) (party : π) (state : Option σ) :
    resting (ο := ο) (ε := ε) (κ := κ) (without A party state) =
      ⟨A.shared, released A.holder party,
        Function.update (resting A).phase party (restingPhase state)⟩ := by
  rw [← restingPhase_update]
  rfl

section Steps

variable {A : Parties π σ δ} {W' : World π σ δ ο ε κ} {action : LeaseAction π κ}
  {event : Option (Event π σ ο ε κ)}

/-- From a world at rest, a step leads to a world that whole calls lead to. -/
theorem Corresponds.step_atRest (hstep : P.Step (resting A) action event W') :
    ∃ history sofar, (history.map Whole.cause).Sublist [action] ∧
      P.Corresponds (P.serial.final A history) W' sofar ∧
      P.events A history ++ sofar = event.toList := by
  cases hstep with
  | refused hphase hrefused => exact ⟨[], [], by simp, .atRest rfl, rfl⟩
  | @started party call state hphase hopen hfree =>
      have hmay : P.mayCall A party = some state :=
        mayCall_eq_some.2 ⟨party_of_phase_resting hphase, hopen, hfree⟩
      exact ⟨[], _, by simp, .inCall call 0 hmay rfl, rfl⟩
  | advanced hphase => exact absurd hphase phase_resting_ne
  | disturbed hphase => exact absurd hphase phase_resting_ne
  | finished hphase => exact absurd hphase phase_resting_ne
  | @closed party state hphase =>
      have hparty := party_of_phase_resting hphase
      refine ⟨[.close party], [], by simp [Whole.cause], .atRest ?_, ?_⟩
      · simp only [Machine.final_cons, Machine.final_nil, serial, hparty]
        exact (resting_without A party (some (P.close state))).symm
      · simp [events, serial, hparty]
  | @killed party =>
      refine ⟨[.leave party], [], by simp [Whole.cause], .atRest ?_, ?_⟩
      · simp only [Machine.final_cons, Machine.final_nil, serial]
        exact (resting_without A party none).symm
      · simp [events, serial]

theorem mayCall_without {party other : π} {state : σ} (hmay : P.mayCall A party = some state)
    (hne : other ≠ party) (left : Option σ) :
    P.mayCall (without A other left) party = some state := by
  obtain ⟨hparty, hopen, hfree⟩ := mayCall_eq_some.1 hmay
  refine mayCall_eq_some.2 ⟨?_, hopen, ?_⟩
  · simp only [without, Function.update_of_ne hne.symm, hparty]
  · intro holder hholder
    simp only [without, released] at hholder
    split at hholder
    · simp at hholder
    · exact hfree holder hholder

/-- What another party does between its calls leaves a call under way as it is. -/
theorem flying_without {party other : π} (hne : other ≠ party) (state : σ) (call : κ) (steps : ℕ)
    (left : Option σ) :
    P.flying (without A other left) party state call steps =
      { P.flying A party state call steps with
        holder := released (some party) other
        phase := Function.update (P.flying A party state call steps).phase other
          (restingPhase left) } := by
  have hheld : released (some party) other = some party :=
    released_of_ne (fun h => hne (Option.some.inj h).symm)
  simp only [flying, hheld]
  congr 1
  rw [Function.update_comm hne.symm]
  congr 1
  exact restingPhase_update A other left

/-- While a party is in a call, the others only close or leave, and the call goes on. -/
theorem Corresponds.step_inCall {party : π} {state : σ} {call : κ} {steps : ℕ}
    (hmay : P.mayCall A party = some state)
    (hstep : P.Step (P.flying A party state call steps) action event W') :
    ∃ history sofar, (history.map Whole.cause).Sublist [action] ∧
      P.Corresponds (P.serial.final A history) W' sofar ∧
      P.events A history ++ sofar =
        (.began party call ::
          ((P.program party call (P.set A.shared state)).steps.take steps).map (.took party)) ++
            event.toList := by
  have hself : (P.flying A party state call steps).phase party =
      .inFlight call ((P.program party call (P.set A.shared state)).steps.drop steps)
        (P.program party call (P.set A.shared state)).final
        (P.program party call (P.set A.shared state)).result := by
    simp [flying]
  have hother : ∀ {other}, other ≠ party →
      (P.flying A party state call steps).phase other = (resting A).phase other :=
    fun hne => by simp only [flying, Function.update_of_ne hne]
  have hown : ∀ {other call' pending final result},
      (P.flying A party state call steps).phase other = .inFlight call' pending final result →
      other = party := by
    intro other call' pending final result hphase
    by_contra hne
    rw [hother hne] at hphase
    exact phase_resting_ne hphase
  have hidle : ∀ {other state'}, (P.flying A party state call steps).phase other = .idle state' →
      other ≠ party ∧ A.party other = some state' := by
    intro other state' hphase
    have hne : other ≠ party := by
      rintro rfl
      rw [hself] at hphase
      cases hphase
    rw [hother hne] at hphase
    exact ⟨hne, party_of_phase_resting hphase⟩
  cases hstep with
  | refused hphase hrefused =>
      exact ⟨[], _, by simp, .inCall call steps hmay rfl, (List.append_nil _).symm⟩
  | @started other call' state' hphase hopen hfree =>
      exact absurd (hfree party rfl).symm (hidle hphase).1
  | @advanced other call' step pending final result hphase hfound =>
      obtain rfl := hown hphase
      rw [hself, Phase.inFlight.injEq] at hphase
      obtain ⟨rfl, hpending, rfl, rfl⟩ := hphase
      have hdrop :
          (P.program other call (P.set A.shared state)).steps.drop (steps + 1) = pending := by
        rw [← List.tail_drop, hpending, List.tail_cons]
      have htake : (P.program other call (P.set A.shared state)).steps.take (steps + 1) =
          (P.program other call (P.set A.shared state)).steps.take steps ++ [step] := by
        rw [List.take_add_one, ← List.head?_drop, hpending]
        rfl
      refine ⟨[], _, by simp, .inCall call (steps + 1) hmay ?_, ?_⟩
      · simp only [Machine.final_nil, flying, hdrop, Function.update_idem]
      · simp [events, htake]
  | @disturbed other call' step pending final result phase shared event hphase hlost =>
      obtain rfl := hown hphase
      rw [hself, Phase.inFlight.injEq] at hphase
      refine absurd ?_ hlost
      simp only [flying, expects, hphase.2.1, List.head?_cons, Option.map_some, Option.getD_some]
  | @finished other call' final result hphase =>
      obtain rfl := hown hphase
      rw [hself, Phase.inFlight.injEq] at hphase
      obtain ⟨rfl, hpending, rfl, rfl⟩ := hphase
      refine ⟨[.call other call], [], by simp [Whole.cause], .atRest ?_, ?_⟩
      · simp only [Machine.final_cons, Machine.final_nil, serial, hmay]
        simp only [resting, restingPhase_update, flying, hpending, Function.update_idem, expects,
          List.head?_nil, Option.map_none, Option.getD_none]
        rfl
      · rw [List.take_of_length_le (List.drop_eq_nil_iff.1 hpending)]
        simp [events, serial, hmay]
  | @closed other state' hphase =>
      obtain ⟨hne, hparty⟩ := hidle hphase
      have hfinal : P.serial.final A [.close other] = without A other (some (P.close state')) := by
        simp only [Machine.final_cons, Machine.final_nil, serial, hparty]
      have hnow := Corresponds.inCall _ _ (mayCall_without hmay hne (some (P.close state')))
        (flying_without hne state call steps (some (P.close state'))).symm
      refine ⟨[.close other], _, by simp [Whole.cause], by rw [hfinal]; exact hnow, ?_⟩
      simp [events, serial, hparty, without]
  | @killed other =>
      by_cases hne : other = party
      · subst hne
        refine ⟨[.cut other call steps], [], by simp [Whole.cause], .atRest ?_, ?_⟩
        · simp only [Machine.final_cons, Machine.final_nil, serial, hmay]
          simp only [resting, restingPhase_update, flying, Function.update_idem, released, if_pos]
          rfl
        · simp [events, serial, hmay]
      · have hnow := Corresponds.inCall _ _ (mayCall_without hmay hne none)
          (flying_without hne state call steps none).symm
        refine ⟨[.leave other], _, by simp [Whole.cause], hnow, ?_⟩
        simp [events, serial, without]

end Steps

section Runs

variable {A : Parties π σ δ} {W : World π σ δ ο ε κ} {actions : List (LeaseAction π κ)}
  {seen : List (Event π σ ο ε κ)}

/-- **One after the other.** Whatever the parties do in whatever order, whole calls one after the
other, each at the moment when it ends, lead to the same world, and the same can be seen of them.

By induction on the run. From a world at rest a step begins a call or changes the parties; while a
party is in a call, it takes the next step, ends or is killed, and the others can only close or
leave. -/
theorem Reaches.serial (h : P.Reaches (resting A) actions seen W) :
    ∃ history sofar, (history.map Whole.cause).Sublist actions ∧
      P.Corresponds (P.serial.final A history) W sofar ∧ P.events A history ++ sofar = seen := by
  induction h with
  | refl => exact ⟨[], [], .slnil, .atRest rfl, rfl⟩
  | @step actions seen W action event W' h hstep ih =>
      obtain ⟨history, sofar, hcause, hcorresponds, hseen⟩ := ih
      have hnext : ∃ more sofar', (more.map Whole.cause).Sublist [action] ∧
          P.Corresponds (P.serial.final (P.serial.final A history) more) W' sofar' ∧
          P.events (P.serial.final A history) more ++ sofar' = sofar ++ event.toList := by
        cases hcorresponds with
        | atRest hrest =>
            subst hrest
            exact Corresponds.step_atRest hstep
        | inCall _ _ hmay hflying =>
            subst hflying
            exact Corresponds.step_inCall hmay hstep
      obtain ⟨more, sofar', hmore, hcorresponds', hseen'⟩ := hnext
      refine ⟨history ++ more, sofar', ?_, ?_, ?_⟩
      · rw [List.map_append]
        exact hcause.append hmore
      · rwa [Machine.final_append]
      · rw [events_append, List.append_assoc, hseen', ← hseen, List.append_assoc]

/-- **Undisturbed.** A call under way holds the lease, no other is under way, and its next step
finds the shared state as it left it. So the rule for disturbed steps is never used. -/
theorem Reaches.undisturbed (h : P.Reaches (resting A) actions seen W) {party : π} {call : κ}
    {pending : List (σ × ο)} {final : σ} {result : Except ε Unit}
    (hphase : W.phase party = .inFlight call pending final result) :
    W.holder = some party ∧ W.shared = P.expects pending final ∧
      ∀ other call' pending' final' result',
        W.phase other = .inFlight call' pending' final' result' → other = party := by
  obtain ⟨history, sofar, -, hcorresponds, -⟩ := Reaches.serial h
  cases hcorresponds with
  | atRest hrest =>
      subst hrest
      exact absurd hphase phase_resting_ne
  | @inCall holder state call₀ steps hmay hflying =>
      subst hflying
      have hown : ∀ {other call' pending' final' result'},
          (P.flying (P.serial.final A history) holder state call₀ steps).phase other =
            .inFlight call' pending' final' result' → other = holder := by
        intro other call' pending' final' result' hother
        by_contra hne
        simp only [flying, Function.update_of_ne hne] at hother
        exact phase_resting_ne hother
      obtain rfl := hown hphase
      simp only [flying, Function.update_self, Phase.inFlight.injEq] at hphase
      obtain ⟨rfl, rfl, rfl, rfl⟩ := hphase
      exact ⟨rfl, rfl, fun other call' pending' final' result' hother => hown hother⟩

/-- What whole calls preserve of the parties and of what was seen of them holds after every run of
whole calls. -/
theorem serial_invariant {I : List (Event π σ ο ε κ) → Parties π σ δ → Prop}
    (hstep : ∀ seen A action, I seen A →
      I (seen ++ (P.serial.step A action).2) (P.serial.step A action).1)
    (h0 : I [] A) (history : List (Whole π κ)) :
    I (P.events A history) (P.serial.final A history) := by
  refine P.serial.history_invariant (G := fun _ _ => True)
    (I := fun trace B => I (trace.flatMap Prod.snd) B) (fun trace B action h _ => ?_) h0
    (P.serial.along_of_forall (fun _ _ => trivial) _ _)
  simpa using hstep _ B action h

/-- What is seen at any moment is what whole calls leave if the call under way, if any, is cut
there. This is the form in which facts about single calls, with their crash conditions, apply to an
interleaving. -/
theorem Reaches.exists_history (h : P.Reaches (resting A) actions seen W) :
    ∃ history, (P.serial.final A history).shared = W.shared ∧ P.events A history = seen := by
  obtain ⟨history, sofar, -, hcorresponds, hseen⟩ := Reaches.serial h
  cases hcorresponds with
  | atRest hrest =>
      subst hrest
      exact ⟨history, rfl, by rw [← hseen, List.append_nil]⟩
  | @inCall party state call steps hmay hflying =>
      subst hflying
      refine ⟨history ++ [.cut party call steps], ?_, ?_⟩
      · simp only [Machine.final_append, Machine.final_cons, Machine.final_nil]
        simp only [LeaseProtocol.serial, flying] at hmay ⊢
        rw [hmay]
      · rw [events_append, ← hseen]
        simp only [events, Machine.trace_cons, Machine.trace_nil, List.flatMap_cons,
          List.flatMap_nil, List.append_nil]
        simp only [LeaseProtocol.serial] at hmay ⊢
        rw [hmay]

end Runs

end LeaseProtocol

end Framework

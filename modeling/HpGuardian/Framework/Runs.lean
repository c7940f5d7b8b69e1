import Mathlib.Data.List.Basic

/-!
# Runs of a deterministic machine

A machine takes an input in a state and answers with an output and the next state.  Its runs are
finite lists of inputs; `final` is the state a run ends in and `trace` pairs each input with the
output it got.

The one induction every safety proof needs is `history_invariant`: a relation between the trace so
far and the current state, preserved by each step whose state and input meet a guard, holds at the
end of every run that meets the guard throughout (`Along`).  The guard is what lets a property be
stated for the runs in which something does not happen; with the trivial guard it is about all
runs.  The relation may speak about the whole trace, so properties such as "at most so many of
these answers in any interval" are invariants as well, once they are strengthened by what the state
remembers of them.

Two machines are compared by `trace_simulates`.  A third group of rules takes machines apart that
are put in front of each other: `delegate` puts some of its inputs to another machine, whose trace
it so determines, and `project_trace` says what one of several parties gets that share a machine.
-/

namespace Framework

/-- A deterministic machine with states `σ`, inputs `ι` and outputs `ο`. What it reads from its
surroundings is part of the input. -/
structure Machine (σ ι ο : Type*) where
  step : σ → ι → σ × ο

namespace Machine

variable {σ ι ο : Type*} (M : Machine σ ι ο)

/-- The state in which a run ends. -/
def final : σ → List ι → σ
  | s, [] => s
  | s, i :: is => final (M.step s i).1 is

/-- The inputs of a run with their outputs, in order. -/
def trace : σ → List ι → List (ι × ο)
  | _, [] => []
  | s, i :: is => (i, (M.step s i).2) :: trace (M.step s i).1 is

/-- Every step of the run is taken from a state and on an input that meet the guard. The guard sees
what the step starts from, not what it answers. -/
def Along (G : σ → ι → Prop) : σ → List ι → Prop
  | _, [] => True
  | s, i :: is => G s i ∧ Along G (M.step s i).1 is

instance decidableAlong (G : σ → ι → Prop) [∀ s i, Decidable (G s i)] :
    ∀ s is, Decidable (M.Along G s is)
  | _, [] => .isTrue trivial
  | s, i :: is =>
    have := decidableAlong G (M.step s i).1 is
    inferInstanceAs (Decidable (G s i ∧ M.Along G (M.step s i).1 is))

@[simp] theorem final_nil (s : σ) : M.final s [] = s := rfl

@[simp] theorem final_cons (s : σ) (i : ι) (is : List ι) :
    M.final s (i :: is) = M.final (M.step s i).1 is := rfl

@[simp] theorem trace_nil (s : σ) : M.trace s [] = [] := rfl

@[simp] theorem trace_cons (s : σ) (i : ι) (is : List ι) :
    M.trace s (i :: is) = (i, (M.step s i).2) :: M.trace (M.step s i).1 is := rfl

@[simp] theorem along_nil (G : σ → ι → Prop) (s : σ) : M.Along G s [] := trivial

@[simp] theorem along_cons (G : σ → ι → Prop) (s : σ) (i : ι) (is : List ι) :
    M.Along G s (i :: is) ↔ G s i ∧ M.Along G (M.step s i).1 is := Iff.rfl

theorem final_append (s : σ) (is js : List ι) :
    M.final s (is ++ js) = M.final (M.final s is) js := by
  induction is generalizing s with
  | nil => rfl
  | cons i is ih => exact ih _

@[simp] theorem length_trace (s : σ) (is : List ι) : (M.trace s is).length = is.length := by
  induction is generalizing s with
  | nil => rfl
  | cons i is ih => simp [ih]

theorem trace_append (s : σ) (is js : List ι) :
    M.trace s (is ++ js) = M.trace s is ++ M.trace (M.final s is) js := by
  induction is generalizing s with
  | nil => rfl
  | cons i is ih => simp [ih]

theorem along_append (G : σ → ι → Prop) (s : σ) (is js : List ι) :
    M.Along G s (is ++ js) ↔ M.Along G s is ∧ M.Along G (M.final s is) js := by
  induction is generalizing s with
  | nil => simp
  | cons i is ih => simp [ih, and_assoc]

theorem along_of_forall {G : σ → ι → Prop} (h : ∀ s i, G s i) (s : σ) (is : List ι) :
    M.Along G s is := by
  induction is generalizing s with
  | nil => trivial
  | cons i is ih => exact ⟨h s i, ih _⟩

theorem along_of_mem {P : ι → Prop} {is : List ι} (h : ∀ i ∈ is, P i) (s : σ) :
    M.Along (fun _ i => P i) s is := by
  induction is generalizing s with
  | nil => trivial
  | cons i is ih =>
      obtain ⟨hi, his⟩ := List.forall_mem_cons.1 h
      exact ⟨hi, ih his _⟩

theorem trace_ne_nil {s : σ} {is : List ι} (h : is ≠ []) : M.trace s is ≠ [] := by
  cases is with
  | nil => exact absurd rfl h
  | cons i is => simp

/-- **The run rule.** A relation between history and state that holds at the start and is preserved
by every guarded step holds at the end of every guarded run.

The relation is proved for one step and a history that is a variable; the induction over the run is
done here, once. -/
theorem history_invariant {G : σ → ι → Prop} {I : List (ι × ο) → σ → Prop}
    (hstep : ∀ h s i, I h s → G s i → I (h ++ [(i, (M.step s i).2)]) (M.step s i).1)
    {s : σ} (h0 : I [] s) {is : List ι} (hG : M.Along G s is) :
    I (M.trace s is) (M.final s is) := by
  -- The induction is on the inputs still to come, for every history already behind.
  have key : ∀ (is : List ι) (h : List (ι × ο)) (s : σ), I h s → M.Along G s is →
      I (h ++ M.trace s is) (M.final s is) := by
    intro is
    induction is with
    | nil => intro h s hI _; simpa using hI
    | cons i is ih =>
        intro h s hI hG
        have hnext := ih (h ++ [(i, (M.step s i).2)]) _ (hstep h s i hI hG.1) hG.2
        simpa using hnext
  simpa using key is [] s h0 hG

/-- **The simulation rule.** If related states answer related inputs in a related way and stay
related, then so do related runs: their traces are related entry by entry. -/
theorem trace_simulates {σ' ι' ο' : Type*} {N : Machine σ' ι' ο'} {R : σ → σ' → Prop}
    {I : ι → ι' → Prop} {O : ο → ο' → Prop}
    (hstep : ∀ s t i j, R s t → I i j →
      O (M.step s i).2 (N.step t j).2 ∧ R (M.step s i).1 (N.step t j).1)
    {s : σ} {t : σ'} (h : R s t) {is : List ι} {js : List ι'} (hruns : List.Forall₂ I is js) :
    List.Forall₂ (fun e f => I e.1 f.1 ∧ O e.2 f.2) (M.trace s is) (N.trace t js) ∧
      R (M.final s is) (N.final t js) := by
  induction hruns generalizing s t with
  | nil => exact ⟨.nil, h⟩
  | @cons i j is js hinput _ ih =>
      obtain ⟨houtput, hnext⟩ := hstep s t i j h hinput
      obtain ⟨htrace, hfinal⟩ := ih hnext
      exact ⟨.cons ⟨hinput, houtput⟩ htrace, hfinal⟩

/-! ## A machine in front of another

Translating some inputs and passing the answers on.  What holds of the machine behind holds of the
machine in front, entry by entry. -/

/-- A machine that puts some of its inputs to `M`, as `ask` translates them, and passes the answer
on; on the other inputs it leaves the state alone. -/
def delegate {κ π : Type*} (ask : κ → Option ι) (answer : κ → Option ο → π) : Machine σ κ π where
  step s k :=
    match ask k with
    | none => (s, answer k none)
    | some i => ((M.step s i).1, answer k (some (M.step s i).2))

section Delegate

variable {κ π : Type*} {ask : κ → Option ι} {answer : κ → Option ο → π} {k : κ}

theorem delegate_step_none (h : ask k = none) (s : σ) :
    (M.delegate ask answer).step s k = (s, answer k none) := by
  simp [delegate, h]

theorem delegate_step_some {i : ι} (h : ask k = some i) (s : σ) :
    (M.delegate ask answer).step s k =
      ((M.step s i).1, answer k (some (M.step s i).2)) := by
  simp [delegate, h]

/-- The state behind the front is that of the translated run. -/
theorem final_delegate (s : σ) (ks : List κ) :
    (M.delegate ask answer).final s ks = M.final s (ks.filterMap ask) := by
  induction ks generalizing s with
  | nil => rfl
  | cons k ks ih =>
      rw [final_cons, ih]
      cases h : ask k with
      | none => rw [delegate_step_none M h, List.filterMap_cons_none h]
      | some i => rw [delegate_step_some M h, List.filterMap_cons_some h, final_cons]

/-- Machines that answer the translated run alike answer alike behind the front. -/
theorem trace_delegate_congr {σ' : Type*} {N : Machine σ' ι ο} {s : σ} {t : σ'} {ks : List κ}
    (h : M.trace s (ks.filterMap ask) = N.trace t (ks.filterMap ask)) :
    (M.delegate ask answer).trace s ks = (N.delegate ask answer).trace t ks := by
  induction ks generalizing s t with
  | nil => rfl
  | cons k ks ih =>
      rw [trace_cons, trace_cons]
      cases hk : ask k with
      | none =>
          rw [List.filterMap_cons_none hk] at h
          rw [delegate_step_none M hk, delegate_step_none N hk, ih h]
      | some i =>
          rw [List.filterMap_cons_some hk, trace_cons, trace_cons] at h
          obtain ⟨hhead, htail⟩ := List.cons.inj h
          rw [delegate_step_some M hk, delegate_step_some N hk, ih htail,
            (Prod.mk.inj hhead).2]

/-- Counting entries behind the front counts entries of the translated run, if the test ignores
the inputs that were not put to `M`. -/
theorem countP_trace_delegate {p : κ × π → Bool} {q : ι × ο → Bool}
    (hnone : ∀ k, ask k = none → p (k, answer k none) = false)
    (hsome : ∀ k i o, ask k = some i → p (k, answer k (some o)) = q (i, o)) (s : σ)
    (ks : List κ) :
    ((M.delegate ask answer).trace s ks).countP p =
      (M.trace s (ks.filterMap ask)).countP q := by
  induction ks generalizing s with
  | nil => rfl
  | cons k ks ih =>
      rw [trace_cons, List.countP_cons, ih]
      cases h : ask k with
      | none => simp [delegate_step_none M h, List.filterMap_cons_none h, hnone k h]
      | some i =>
          rw [delegate_step_some M h, List.filterMap_cons_some h, trace_cons, List.countP_cons,
            hsome k i _ h]

/-- What holds of every answer behind the front, in terms of the translated run. -/
theorem forall_trace_delegate {P : π → Prop} {Q : ο → Prop} (hnone : ∀ k, P (answer k none))
    (hsome : ∀ k o, P (answer k (some o)) ↔ Q o) (s : σ) (ks : List κ) :
    (∀ entry ∈ (M.delegate ask answer).trace s ks, P entry.2) ↔
      ∀ entry ∈ M.trace s (ks.filterMap ask), Q entry.2 := by
  induction ks generalizing s with
  | nil => simp
  | cons k ks ih =>
      rw [trace_cons, List.forall_mem_cons, ih]
      cases h : ask k with
      | none => simp [delegate_step_none M h, List.filterMap_cons_none h, hnone k]
      | some i =>
          rw [delegate_step_some M h, List.filterMap_cons_some h, trace_cons,
            List.forall_mem_cons, hsome]

end Delegate

/-- **The projection rule.**  If the steps on one party's inputs are answered as that party alone
would be answered, and no other step changes what the party's state is related to, then the party
gets the answers of a run of its own. -/
theorem project_trace {τ κ : Type*} {N : Machine τ κ ο} {own : ι → Option κ} {R : σ → τ → Prop}
    (hown : ∀ s t i k, own i = some k → R s t →
      (M.step s i).2 = (N.step t k).2 ∧ R (M.step s i).1 (N.step t k).1)
    (hother : ∀ s t i, own i = none → R s t → R (M.step s i).1 t) {s : σ} {t : τ} (h : R s t)
    (is : List ι) :
    (M.trace s is).filterMap (fun entry => (own entry.1).map (fun _ => entry.2)) =
      (N.trace t (is.filterMap own)).map Prod.snd := by
  induction is generalizing s t with
  | nil => rfl
  | cons i is ih =>
      rw [trace_cons]
      cases hi : own i with
      | none =>
          rw [List.filterMap_cons_none (by simp [hi]), List.filterMap_cons_none hi]
          exact ih (hother s t i hi h)
      | some k =>
          obtain ⟨hanswer, hnext⟩ := hown s t i k hi h
          have hhead : (own i).map (fun _ => (M.step s i).2) = some (N.step t k).2 := by
            rw [hi, hanswer, Option.map_some]
          rw [List.filterMap_cons_some hi, trace_cons, List.map_cons, ← ih hnext]
          exact List.filterMap_cons_some hhead

/-- An entry of the trace is the answer to one input of the run, from the state the inputs before
it lead to. -/
theorem exists_split_of_trace {s : σ} {is : List ι} {before after : List (ι × ο)} {i : ι} {o : ο}
    (h : M.trace s is = before ++ (i, o) :: after) :
    ∃ js ks, is = js ++ i :: ks ∧ before = M.trace s js ∧ o = (M.step (M.final s js) i).2 := by
  induction is generalizing s before with
  | nil => simp at h
  | cons j is ih =>
      rw [trace_cons] at h
      cases before with
      | nil =>
          obtain ⟨hhead, -⟩ := List.cons.inj h
          obtain ⟨rfl, rfl⟩ := Prod.mk.inj hhead
          exact ⟨[], is, rfl, rfl, rfl⟩
      | cons entry before =>
          obtain ⟨rfl, htail⟩ := List.cons.inj h
          obtain ⟨js, ks, rfl, rfl, rfl⟩ := ih htail
          exact ⟨j :: js, ks, rfl, rfl, rfl⟩

end Machine

end Framework

import Mathlib.Data.List.Basic

/-!
# Programs that can stop between their steps

A program over a state takes a sequence of labelled steps and ends with a result.  Its run records
the state before each step, so that it says what is left behind when the program is stopped there,
or when the step fails and the program returns at once.  Between two steps the program may read the
state and compute; only at a step can it be interrupted, so steps are what a program does to the
outside world, and changes of its own memory are none (`modify`).

Programs are a monad, and the constructs of an imperative language are functions on them: loops
over a list, a program on a part of the state (`zoom`), reactions to failures (`onFailure`).  How a
run is composed is given by equations, one for each construct, that are used as rewriting rules.

What can go wrong is expressed from outside.  `Stops` collects the states in which a program can be
interrupted, `Halts` adds the steps that were taken, and `failingAt` is the program with one of its
steps failing.

`Triple P p C Q E` is crash Hoare logic: from a state that satisfies `P`, the state before every
step satisfies `C`, and the program ends in `Q` with a value or in `E` with an error.  A proof
about a program that is killed somewhere is a triple whose crash condition says what can be left
behind; the loop rule lets the invariant speak about the items still to come, which is how a partly
carried out plan is described.
-/

namespace Framework

/-- What a program does from one state: its steps, each with its label and the state before it, the
state at the end, and the result. -/
structure Run (σ ο ε : Type*) (α : Type) where
  steps : List (σ × ο)
  final : σ
  result : Except ε α

/-- A run halts in `t` after `steps`: before its next step, or at its end. What a kill leaves
behind, and what had been done up to there. -/
def Run.Halts {σ ο ε : Type*} {α : Type} (run : Run σ ο ε α) (steps : List (σ × ο)) (t : σ) :
    Prop :=
  (∃ label rest, run.steps = steps ++ (t, label) :: rest) ∨ (steps = run.steps ∧ t = run.final)

/-- A program over states `σ` with steps labelled by `ο`, errors `ε` and results `α`. -/
def Program (σ ο ε : Type*) (α : Type) := σ → Run σ ο ε α

namespace Program

variable {σ τ ο ε ι : Type*} {α β : Type}

/-- No step, and a value. -/
protected def pure (a : α) : Program σ ο ε α := fun s => ⟨[], s, .ok a⟩

/-- One program after the other, unless the first fails. -/
protected def bind (p : Program σ ο ε α) (f : α → Program σ ο ε β) : Program σ ο ε β := fun s =>
  match (p s).result with
  | .ok a => ⟨(p s).steps ++ (f a (p s).final).steps, (f a (p s).final).final,
      (f a (p s).final).result⟩
  | .error e => ⟨(p s).steps, (p s).final, .error e⟩

instance : Monad (Program σ ο ε) where
  pure := Program.pure
  bind := Program.bind

/-- One step, which can be interrupted or fail before it takes effect. -/
def step (label : ο) (f : σ → σ) : Program σ ο ε Unit := fun s => ⟨[(s, label)], f s, .ok ()⟩

/-- Reads the state. -/
def read (f : σ → α) : Program σ ο ε α := fun s => ⟨[], s, .ok (f s)⟩

/-- Changes the state in a way that is no step of its own. -/
def modify (f : σ → σ) : Program σ ο ε Unit := fun s => ⟨[], f s, .ok ()⟩

/-- Fails with an error of the program. -/
def raise (e : ε) : Program σ ο ε α := fun s => ⟨[], s, .error e⟩

/-- A loop over a list. -/
def forEach (body : ι → Program σ ο ε Unit) : List ι → Program σ ο ε Unit
  | [] => pure ()
  | i :: is => do
      body i
      forEach body is

/-- A program on a part of the state. -/
def zoom (get : τ → σ) (set : σ → τ → τ) (p : Program σ ο ε α) : Program τ ο ε α := fun t =>
  ⟨(p (get t)).steps.map (fun step => (set step.1 t, step.2)), set (p (get t)).final t,
    (p (get t)).result⟩

/-- A program that reacts to a failure, its own or that of one of its steps, by a change of the
state. -/
def onFailure (p : Program σ ο ε α) (react : σ → σ) : Program σ ο ε α := fun s =>
  ⟨(p s).steps.map (fun step => (react step.1, step.2)),
    match (p s).result with
      | .ok _ => (p s).final
      | .error _ => react (p s).final,
    (p s).result⟩

/-- A program whose step number `k` fails with `e`, for `fault = some k`: the steps before it are
taken, and the program returns at once. A program with fewer steps is not affected. -/
def failingAt (fault : Option ℕ) (e : ε) (p : Program σ ο ε α) : Program σ ο ε α := fun s =>
  match fault.bind (fun k => (p s).steps[k]?.map (fun step => (k, step.1))) with
  | none => p s
  | some (k, t) => ⟨(p s).steps.take k, t, .error e⟩

/-- A program started in `s` can be stopped in `t`: before one of its steps, or at its end. The
changes of its own memory between two steps are not places to stop at. -/
def Stops (p : Program σ ο ε α) (s t : σ) : Prop :=
  (∃ label, (t, label) ∈ (p s).steps) ∨ t = (p s).final

/-- A program started in `s` can be stopped in `t` after it took a step with a marked label. -/
def StopsAfter (p : Program σ ο ε α) (marked : ο → Prop) (s t : σ) : Prop :=
  ∃ before state label after, (p s).steps = before ++ (state, label) :: after ∧ marked label ∧
    ((∃ label', (t, label') ∈ after) ∨ t = (p s).final)

/-! ## Runs of the constructs

The equations of the constructs.  They are stated for a program applied to a state, so that a
particular program can be run by rewriting. -/

@[simp] theorem pure_apply (a : α) (s : σ) : (pure a : Program σ ο ε α) s = ⟨[], s, .ok a⟩ := rfl

theorem bind_apply (p : Program σ ο ε α) (f : α → Program σ ο ε β) (s : σ) :
    (p >>= f) s =
      match (p s).result with
      | .ok a => ⟨(p s).steps ++ (f a (p s).final).steps, (f a (p s).final).final,
          (f a (p s).final).result⟩
      | .error e => ⟨(p s).steps, (p s).final, .error e⟩ := rfl

theorem bind_ok {p : Program σ ο ε α} {f : α → Program σ ο ε β} {s : σ} {a : α}
    (h : (p s).result = .ok a) :
    (p >>= f) s = ⟨(p s).steps ++ (f a (p s).final).steps, (f a (p s).final).final,
      (f a (p s).final).result⟩ := by
  rw [bind_apply, h]

theorem bind_run {p : Program σ ο ε α} {f : α → Program σ ο ε β} {s t : σ} {a : α}
    {steps : List (σ × ο)} (h : p s = ⟨steps, t, .ok a⟩) :
    (p >>= f) s = ⟨steps ++ (f a t).steps, (f a t).final, (f a t).result⟩ := by
  rw [bind_ok (a := a) (by rw [h]), h]

theorem bind_error {p : Program σ ο ε α} {f : α → Program σ ο ε β} {s : σ} {e : ε}
    (h : (p s).result = .error e) :
    (p >>= f) s = ⟨(p s).steps, (p s).final, .error e⟩ := by
  rw [bind_apply, h]

theorem mem_steps_bind_left {p : Program σ ο ε α} {f : α → Program σ ο ε β} {s : σ}
    {step : σ × ο} (h : step ∈ (p s).steps) : step ∈ ((p >>= f) s).steps := by
  rw [bind_apply]
  split
  · exact List.mem_append_left _ h
  · exact h

theorem mem_steps_bind_right {p : Program σ ο ε α} {f : α → Program σ ο ε β} {s : σ} {a : α}
    {step : σ × ο} (hp : (p s).result = .ok a) (h : step ∈ (f a (p s).final).steps) :
    step ∈ ((p >>= f) s).steps := by
  rw [bind_ok hp]
  exact List.mem_append_right _ h

@[simp] theorem read_bind_apply (f : σ → α) (g : α → Program σ ο ε β) (s : σ) :
    (read f >>= g) s = g (f s) s := rfl

@[simp] theorem modify_bind_apply (f : σ → σ) (g : Unit → Program σ ο ε β) (s : σ) :
    (modify f >>= g) s = g () (f s) := rfl

@[simp] theorem raise_apply (e : ε) (s : σ) :
    (raise e : Program σ ο ε α) s = ⟨[], s, .error e⟩ := rfl

@[simp] theorem raise_bind (e : ε) (f : α → Program σ ο ε β) :
    ((raise e : Program σ ο ε α) >>= f) = raise e := rfl

@[simp] theorem pure_bind_eq (a : α) (f : α → Program σ ο ε β) :
    ((pure a : Program σ ο ε α) >>= f) = f a := rfl

@[simp] theorem failingAt_none (e : ε) (p : Program σ ο ε α) : failingAt none e p = p := rfl

theorem failingAt_step {p : Program σ ο ε α} {s t : σ} {k : ℕ} {label : ο}
    (h : (p s).steps[k]? = some (t, label)) (e : ε) :
    failingAt (some k) e p s = ⟨(p s).steps.take k, t, .error e⟩ := by
  simp [failingAt, h]

theorem failingAt_late {p : Program σ ο ε α} {s : σ} {k : ℕ} (h : (p s).steps[k]? = none)
    (e : ε) : failingAt (some k) e p s = p s := by
  simp [failingAt, h]

/-- Where two programs do the same, they fail in the same way. -/
theorem failingAt_congr {p q : Program σ ο ε α} {s t : σ} (h : p s = q t) (fault : Option ℕ)
    (e : ε) : failingAt fault e p s = failingAt fault e q t := by
  simp only [failingAt, h]

@[simp] theorem forEach_nil (body : ι → Program σ ο ε Unit) : forEach body [] = pure () := rfl

@[simp] theorem forEach_cons (body : ι → Program σ ο ε Unit) (i : ι) (is : List ι) :
    forEach body (i :: is) = (body i >>= fun _ => forEach body is) := rfl

theorem bind_assoc_eq {γ : Type} (p : Program σ ο ε α) (f : α → Program σ ο ε β)
    (g : β → Program σ ο ε γ) : (p >>= f >>= g) = (p >>= fun a => f a >>= g) := by
  funext s
  cases hp : (p s).result with
  | error e =>
      rw [bind_error hp, bind_error (p := p >>= f) (s := s) (e := e) (by rw [bind_error hp]),
      bind_error hp]
  | ok a =>
      cases hf : (f a (p s).final).result with
      | error e =>
          rw [bind_ok hp,
            bind_error (p := p >>= f) (s := s) (e := e) (by rw [bind_ok hp]; exact hf),
            bind_ok hp, bind_error hf]
      | ok b =>
          rw [bind_ok hp, bind_ok (p := p >>= f) (s := s) (a := b) (by rw [bind_ok hp]; exact hf),
            bind_ok hp, bind_ok hf, List.append_assoc]

theorem bind_pure_unit (p : Program σ ο ε Unit) : (p >>= fun _ => pure ()) = p := by
  funext s
  cases hp : (p s).result with
  | error e =>
      rw [bind_error hp, ← hp]
  | ok a =>
      rw [bind_ok hp]
      simp [← hp]

/-- What every round preserves holds at the end of a loop. -/
theorem forEach_final {body : ι → Program σ ο ε Unit} {P : σ → Prop}
    (hround : ∀ i s, P s → P (body i s).final) (items : List ι) {s : σ} (hs : P s) :
    P (forEach body items s).final := by
  induction items generalizing s with
  | nil => exact hs
  | cons i items ih =>
      rw [forEach_cons]
      have hnext := hround i s hs
      cases hresult : (body i s).result with
      | ok a =>
          rw [bind_ok hresult]
          exact ih hnext
      | error e =>
          rw [bind_error hresult]
          exact hnext

/-- A part of a state that can be read and replaced, and the three laws that make it a part: what
is set is read back, the last setting counts, and setting what is there changes nothing. -/
structure Lens (get : τ → σ) (set : σ → τ → τ) : Prop where
  get_set : ∀ s t, get (set s t) = s
  set_set : ∀ s s' t, set s (set s' t) = set s t
  set_get : ∀ t, set (get t) t = t

theorem zoom_pure {get : τ → σ} {set : σ → τ → τ} (hlens : Lens get set) (a : α) :
    zoom get set (pure a : Program σ ο ε α) = pure a := by
  funext t
  simp [zoom, hlens.set_get]

theorem zoom_bind {get : τ → σ} {set : σ → τ → τ} (hlens : Lens get set) (p : Program σ ο ε α)
    (f : α → Program σ ο ε β) :
    zoom get set (p >>= f) = (zoom get set p >>= fun a => zoom get set (f a)) := by
  funext t
  cases hresult : (p (get t)).result with
  | ok a =>
      rw [bind_ok (p := zoom get set p) (s := t) (a := a) hresult]
      simp [zoom, bind_ok hresult, hlens.get_set, hlens.set_set]
  | error e =>
      rw [bind_error (p := zoom get set p) (s := t) (e := e) hresult]
      simp [zoom, bind_error hresult]

theorem zoom_forEach {get : τ → σ} {set : σ → τ → τ} (hlens : Lens get set)
    (body : ι → Program σ ο ε Unit) (items : List ι) :
    zoom get set (forEach body items) = forEach (fun i => zoom get set (body i)) items := by
  induction items with
  | nil => exact zoom_pure hlens ()
  | cons i items ih => rw [forEach_cons, zoom_bind hlens, forEach_cons, ih]

theorem forEach_map {κ : Type*} (body : κ → Program σ ο ε Unit) (g : ι → κ) (items : List ι) :
    forEach body (items.map g) = forEach (fun i => body (g i)) items := by
  induction items with
  | nil => rfl
  | cons i items ih => rw [List.map_cons, forEach_cons, forEach_cons, ih]

/-- Two programs end alike: from every state, in the same state and with the same result, whatever
steps they take. They may differ in the number of their steps, and so in the places where they can
be stopped. -/
def EndsAlike (p q : Program σ ο ε α) : Prop :=
  ∀ s, (p s).final = (q s).final ∧ (p s).result = (q s).result

theorem EndsAlike.refl (p : Program σ ο ε α) : EndsAlike p p := fun _ => ⟨rfl, rfl⟩

theorem EndsAlike.bind {p q : Program σ ο ε α} {f g : α → Program σ ο ε β} (hpq : EndsAlike p q)
    (hfg : ∀ a, EndsAlike (f a) (g a)) : EndsAlike (p >>= f) (q >>= g) := by
  intro s
  obtain ⟨hfinal, hresult⟩ := hpq s
  rw [bind_apply, bind_apply, hresult, hfinal]
  cases (q s).result with
  | ok a => exact hfg a _
  | error e => exact ⟨rfl, rfl⟩

theorem EndsAlike.ite {p q p' q' : Program σ ο ε α} {b : Prop} [Decidable b]
    (hp : EndsAlike p p') (hq : EndsAlike q q') :
    EndsAlike (if b then p else q) (if b then p' else q') := by
  split
  · exact hp
  · exact hq

/-! ## Where runs halt

A run halts before each of its steps and at its end, and a run of two programs in the first of them
or in the second. -/

/-- A run without steps halts at its end. -/
theorem halts_nil {result : Except ε α} {s t : σ} {steps : List (σ × ο)}
    (h : (Run.mk [] s result).Halts steps t) : steps = [] ∧ t = s := by
  rcases h with ⟨label, rest, h⟩ | h
  · exact absurd h.symm (by simp)
  · exact h

/-- A run halts before its first step or after it. -/
theorem halts_cons {result : Except ε α} {s t first : σ} {label : ο} {rest steps : List (σ × ο)}
    (h : (Run.mk ((first, label) :: rest) s result).Halts steps t) :
    (steps = [] ∧ t = first) ∨
      ∃ steps', steps = (first, label) :: steps' ∧ (Run.mk rest s result).Halts steps' t := by
  rcases h with ⟨label', rest', h⟩ | ⟨rfl, rfl⟩
  · cases steps with
    | nil =>
        obtain ⟨hfirst, -⟩ := List.cons.inj h
        exact .inl ⟨rfl, (Prod.mk.inj hfirst).1.symm⟩
    | cons step steps =>
        obtain ⟨rfl, hrest⟩ := List.cons.inj h
        exact .inr ⟨steps, rfl, .inl ⟨label', rest', hrest⟩⟩
  · exact .inr ⟨rest, rfl, .inr ⟨rfl, rfl⟩⟩

/-- A run of two programs halts in the first, or in the second after all steps of the first. -/
theorem halts_bind {p : Program σ ο ε α} {f : α → Program σ ο ε β} {s t : σ} {a : α}
    {steps : List (σ × ο)} (hp : (p s).result = .ok a) (h : ((p >>= f) s).Halts steps t) :
    (∃ label rest, (p s).steps = steps ++ (t, label) :: rest) ∨
      ∃ steps', steps = (p s).steps ++ steps' ∧ (f a (p s).final).Halts steps' t := by
  rw [bind_ok hp] at h
  rcases h with ⟨label, rest, h⟩ | ⟨rfl, rfl⟩
  · rcases List.append_eq_append_iff.1 h with ⟨steps', hsteps, hrest⟩ | ⟨between, hfirst, hrest⟩
    · exact .inr ⟨steps', hsteps, .inl ⟨label, rest, hrest⟩⟩
    · cases between with
      | nil =>
          refine .inr ⟨[], by simpa using hfirst.symm, .inl ⟨label, rest, ?_⟩⟩
          simpa using hrest.symm
      | cons step between =>
          obtain ⟨rfl, -⟩ := List.cons.inj hrest
          exact .inl ⟨label, between, hfirst⟩
  · exact .inr ⟨_, rfl, .inr ⟨rfl, rfl⟩⟩

theorem halts_of_getElem? {run : Run σ ο ε α} {t : σ} {label : ο} {k : ℕ}
    (h : run.steps[k]? = some (t, label)) : run.Halts (run.steps.take k) t := by
  obtain ⟨hk, hget⟩ := List.getElem?_eq_some_iff.1 h
  refine .inl ⟨label, run.steps.drop (k + 1), ?_⟩
  conv_lhs => rw [← List.take_append_drop k run.steps, List.drop_eq_getElem_cons hk, hget]

/-- A run halts after any number of its steps. -/
theorem halts_take (run : Run σ ο ε α) (k : ℕ) :
    run.Halts (run.steps.take k) (((run.steps.drop k).head?.map Prod.fst).getD run.final) := by
  cases hdrop : run.steps.drop k with
  | nil => exact .inr ⟨List.take_of_length_le (List.drop_eq_nil_iff.1 hdrop), rfl⟩
  | cons step rest =>
      refine .inl ⟨step.2, rest, ?_⟩
      conv_lhs => rw [← List.take_append_drop k run.steps, hdrop]
      rfl

/-- A failure within the steps of the first of two programs. -/
theorem failingAt_bind {p : Program σ ο ε α} {s : σ} {k : ℕ} (hk : k < (p s).steps.length)
    (f : α → Program σ ο ε β) (e : ε) :
    ∃ t label, (p s).steps[k]? = some (t, label) ∧
      failingAt (some k) e (p >>= f) s = ⟨(p s).steps.take k, t, .error e⟩ := by
  refine ⟨(p s).steps[k].1, (p s).steps[k].2, List.getElem?_eq_getElem hk, ?_⟩
  have hsteps : ∃ rest, ((p >>= f) s).steps = (p s).steps ++ rest := by
    cases hp : (p s).result with
    | ok a => exact ⟨_, by rw [bind_ok hp]⟩
    | error e => exact ⟨[], by rw [bind_error hp, List.append_nil]⟩
  obtain ⟨rest, hrest⟩ := hsteps
  have hstep : ((p >>= f) s).steps[k]? = some ((p s).steps[k].1, (p s).steps[k].2) := by
    rw [hrest, List.getElem?_append_left hk]
    exact List.getElem?_eq_getElem hk
  rw [failingAt_step hstep, hrest, List.take_append_of_le_length (Nat.le_of_lt hk)]

/-! ## Triples

The rules of the logic, one for each construct, and what follows from a triple about the places
where the program can be stopped. -/

/-- Crash Hoare logic: from `P`, `C` holds before every step, and the program ends in `Q` with a
value or fails in `E` with an error. -/
def Triple (P : σ → Prop) (p : Program σ ο ε α) (C : σ → ο → Prop) (Q : α → σ → Prop)
    (E : ε → σ → Prop) : Prop :=
  ∀ s, P s → (∀ step ∈ (p s).steps, C step.1 step.2) ∧
    match (p s).result with
    | .ok a => Q a (p s).final
    | .error e => E e (p s).final

namespace Triple

variable {P : σ → Prop} {p : Program σ ο ε α} {C : σ → ο → Prop} {Q : α → σ → Prop}
  {E : ε → σ → Prop}

theorem conseq (h : Triple P p C Q E) {P' : σ → Prop} {C' : σ → ο → Prop} {Q' : α → σ → Prop}
    {E' : ε → σ → Prop} (hP : ∀ s, P' s → P s) (hC : ∀ s label, C s label → C' s label)
    (hQ : ∀ a s, Q a s → Q' a s) (hE : ∀ e s, E e s → E' e s) : Triple P' p C' Q' E' := by
  intro s hs
  obtain ⟨hsteps, hend⟩ := h s (hP s hs)
  refine ⟨fun step hstep => hC _ _ (hsteps step hstep), ?_⟩
  split at hend
  · exact hQ _ _ hend
  · exact hE _ _ hend

theorem pure {a : α} (h : ∀ s, P s → Q a s) : Triple P (Pure.pure a : Program σ ο ε α) C Q E :=
  fun s hs => ⟨by simp, h s hs⟩

theorem bind {R : α → σ → Prop} {f : α → Program σ ο ε β} {Q : β → σ → Prop}
    (hp : Triple P p C R E) (hf : ∀ a, Triple (R a) (f a) C Q E) :
    Triple P (p >>= f) C Q E := by
  intro s hs
  obtain ⟨hsteps, hend⟩ := hp s hs
  rw [bind_apply]
  cases hresult : (p s).result with
  | ok a =>
      rw [hresult] at hend
      obtain ⟨hsteps', hend'⟩ := hf a _ hend
      refine ⟨fun step hstep => ?_, hend'⟩
      rcases List.mem_append.1 hstep with hstep | hstep
      · exact hsteps step hstep
      · exact hsteps' step hstep
  | error e =>
      rw [hresult] at hend
      exact ⟨hsteps, hend⟩

theorem step {label : ο} {f : σ → σ} {Q : Unit → σ → Prop}
    (h : ∀ s, P s → C s label ∧ Q () (f s)) :
    Triple P (Program.step label f : Program σ ο ε Unit) C Q E := by
  intro s hs
  refine ⟨fun step hstep => ?_, (h s hs).2⟩
  obtain rfl := List.mem_singleton.1 hstep
  exact (h s hs).1

/-- The loop rule: an invariant that may speak about the items still to come. -/
theorem forEach {body : ι → Program σ ο ε Unit} {I : List ι → σ → Prop} {items : List ι}
    (hbody : ∀ i rest, (∃ done, items = done ++ i :: rest) →
      Triple (I (i :: rest)) (body i) C (fun _ => I rest) E) :
    Triple (I items) (Program.forEach body items) C (fun _ => I []) E := by
  induction items with
  | nil => exact Triple.pure fun _ h => h
  | cons i items ih =>
      rw [forEach_cons]
      refine (hbody i items ⟨[], rfl⟩).bind fun _ => ih fun j rest hdone => ?_
      obtain ⟨done, hdone⟩ := hdone
      exact hbody j rest ⟨i :: done, by rw [hdone, List.cons_append]⟩

/-- A program on a part of the state keeps what does not depend on that part. -/
theorem zoom (h : Triple P p C Q E) {get : τ → σ} {set : σ → τ → τ}
    (hlens : Lens get set) {F : τ → Prop} (hframe : ∀ s t, F t → F (set s t)) :
    Triple (fun t => F t ∧ P (get t)) (Program.zoom get set p)
      (fun t label => F t ∧ C (get t) label) (fun a t => F t ∧ Q a (get t))
      (fun e t => F t ∧ E e (get t)) := by
  intro t ht
  obtain ⟨hsteps, hend⟩ := h (get t) ht.2
  constructor
  · intro step hstep
    obtain ⟨inner, hinner, rfl⟩ := List.mem_map.1 hstep
    exact ⟨hframe _ _ ht.1, by rw [hlens.get_set]; exact hsteps inner hinner⟩
  · simp only [Program.zoom]
    split at hend <;> exact ⟨hframe _ _ ht.1, by rwa [hlens.get_set]⟩

/-- Wherever the program is stopped, a condition that its steps and its ends share holds. -/
theorem stops (h : Triple P p C Q E) {I : σ → Prop} (hC : ∀ s label, C s label → I s)
    (hQ : ∀ a s, Q a s → I s) (hE : ∀ e s, E e s → I s) {s t : σ} (hs : P s)
    (ht : p.Stops s t) : I t := by
  obtain ⟨hsteps, hend⟩ := h s hs
  rcases ht with ⟨label, ht⟩ | rfl
  · exact hC t label (hsteps _ ht)
  · split at hend
    · exact hQ _ _ hend
    · exact hE _ _ hend

/-- What holds before every step holds of the steps of a run that halts before one. -/
theorem halts (h : Triple P p C Q E) {s t : σ} {label : ο} {steps rest : List (σ × ο)} (hs : P s)
    (hhalt : (p s).steps = steps ++ (t, label) :: rest) :
    C t label ∧ ∀ step ∈ steps, C step.1 step.2 := by
  obtain ⟨hsteps, -⟩ := h s hs
  rw [hhalt] at hsteps
  exact ⟨hsteps (t, label) (by simp), fun step hstep => hsteps step (by simp [hstep])⟩

/-- A program that cannot fail ends with a value. -/
theorem exists_ok (h : Triple P p C Q (fun _ _ => False)) {s : σ} (hs : P s) :
    ∃ a, (p s).result = .ok a ∧ Q a (p s).final := by
  obtain ⟨-, hend⟩ := h s hs
  cases hresult : (p s).result with
  | ok a =>
      rw [hresult] at hend
      exact ⟨a, rfl, hend⟩
  | error e =>
      rw [hresult] at hend
      exact hend.elim

end Triple

end Program

end Framework

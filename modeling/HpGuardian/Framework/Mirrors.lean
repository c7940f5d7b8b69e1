import HpGuardian.Framework.Outcomes
import HpGuardian.Framework.StepProgram

/-!
# Programs that mirror each other

Two programs whose errors have different types mirror each other from a state if they take the same
steps to the same end there and have the same value, or errors that a relation calls the same.
Whatever the one can be stopped in, the other can be stopped in, so a fact about all runs of the
one is a fact about all runs of the other: `Mirrors.triple` carries a triple over, and `stops_iff`
the places where the programs can be stopped.

The relation is stated from one state, not for all of them, because two implementations of one
procedure often agree only where some condition holds, for instance where the files they look at
are within the range that both look at.  The rule for a sequence therefore asks that the second
parts mirror each other from the state that the first parts end in.  Loops mirror each other if
their rounds do from every state.

Programs on different states have no steps in common.  `EndsTogether` relates their ends only: from
related states they reach related states, with the same result up to a translation of errors.  It
is what remains to be shown when one program works on a representation of the other's state.
-/

namespace Framework

namespace Program

variable {σ τ ο ε ε' ι : Type*} {α β : Type}

/-- The same program, with its errors translated. -/
def mapError (f : ε → ε') (p : Program σ ο ε α) : Program σ ο ε' α := fun s =>
  ⟨(p s).steps, (p s).final, (p s).result.mapError f⟩

/-- From `s` the programs take the same steps to the same end, and their results are alike: the
same value, or errors that the relation calls the same. -/
structure Mirrors (same : ε → ε' → Prop) (p : Program σ ο ε α) (q : Program σ ο ε' α) (s : σ) :
    Prop where
  steps : (p s).steps = (q s).steps
  final : (p s).final = (q s).final
  result : Alike Eq same (p s).result (q s).result

namespace Mirrors

variable {same : ε → ε' → Prop} {p : Program σ ο ε α} {q : Program σ ο ε' α} {s : σ}

theorem pure (a : α) (s : σ) :
    Mirrors same (Pure.pure a : Program σ ο ε α) (Pure.pure a : Program σ ο ε' α) s :=
  ⟨rfl, rfl, .ok rfl⟩

theorem raise {e : ε} {e' : ε'} (h : same e e') (s : σ) :
    Mirrors same (Program.raise e : Program σ ο ε α) (Program.raise e' : Program σ ο ε' α) s :=
  ⟨rfl, rfl, .error h⟩

theorem step (label : ο) (f : σ → σ) (s : σ) :
    Mirrors same (Program.step label f : Program σ ο ε Unit)
      (Program.step label f : Program σ ο ε' Unit) s :=
  ⟨rfl, rfl, .ok rfl⟩

theorem read (f : σ → α) (s : σ) :
    Mirrors same (Program.read f : Program σ ο ε α) (Program.read f : Program σ ο ε' α) s :=
  ⟨rfl, rfl, .ok rfl⟩

theorem modify (f : σ → σ) (s : σ) :
    Mirrors same (Program.modify f : Program σ ο ε Unit)
      (Program.modify f : Program σ ο ε' Unit) s :=
  ⟨rfl, rfl, .ok rfl⟩

theorem bind {f : α → Program σ ο ε β} {g : α → Program σ ο ε' β} (h : Mirrors same p q s)
    (hnext : ∀ a, (q s).result = .ok a → Mirrors same (f a) (g a) (q s).final) :
    Mirrors same (p >>= f) (q >>= g) s := by
  rcases h.result.results with ⟨a, b, hp, hq, rfl⟩ | ⟨e, e', hp, hq, hsame⟩
  · have hrest := hnext a hq
    rw [← h.final] at hrest
    constructor
    · rw [bind_ok hp, bind_ok hq, h.steps, ← h.final, hrest.steps]
    · rw [bind_ok hp, bind_ok hq, ← h.final]
      exact hrest.final
    · rw [bind_ok hp, bind_ok hq, ← h.final]
      exact hrest.result
  · constructor
    · rw [bind_error hp, bind_error hq]
      exact h.steps
    · rw [bind_error hp, bind_error hq]
      exact h.final
    · rw [bind_error hp, bind_error hq]
      exact .error hsame

/-- A loop mirrors another if its rounds do, from every state. -/
theorem forEach {body : ι → Program σ ο ε Unit} {body' : ι → Program σ ο ε' Unit}
    {items : List ι} (hround : ∀ i ∈ items, ∀ s, Mirrors same (body i) (body' i) s) (s : σ) :
    Mirrors same (Program.forEach body items) (Program.forEach body' items) s := by
  induction items generalizing s with
  | nil => exact pure () s
  | cons i items ih =>
      obtain ⟨hfirst, hrest⟩ := List.forall_mem_cons.1 hround
      rw [forEach_cons, forEach_cons]
      exact (hfirst s).bind fun _ _ => ih hrest _

theorem zoom {get : τ → σ} {set : σ → τ → τ} {t : τ} (h : Mirrors same p q (get t)) :
    Mirrors same (Program.zoom get set p) (Program.zoom get set q) t where
  steps := by simp only [Program.zoom, h.steps]
  final := by simp only [Program.zoom, h.final]
  result := h.result

theorem stops_iff (h : Mirrors same p q s) (t : σ) : p.Stops s t ↔ q.Stops s t := by
  simp only [Stops, h.steps, h.final]

theorem result_ok_iff (h : Mirrors same p q s) (a : α) :
    (p s).result = .ok a ↔ (q s).result = .ok a := by
  rcases h.result.results with ⟨a', b, hp, hq, rfl⟩ | ⟨e, e', hp, hq, -⟩
  · rw [hp, hq, Except.ok.injEq, Except.ok.injEq]
  · rw [hp, hq]
    simp

/-- A program that mirrors one that cannot fail keeps its triple. -/
theorem triple {P : σ → Prop} {C : σ → ο → Prop} {Q : α → σ → Prop}
    (h : ∀ s, P s → Mirrors same p q s) (hq : Triple P q C Q (fun _ _ => False)) :
    Triple P p C Q (fun _ _ => False) := by
  intro s hs
  obtain ⟨hsteps, hend⟩ := hq s hs
  rw [(h s hs).steps, (h s hs).final]
  refine ⟨hsteps, ?_⟩
  rcases (h s hs).result.results with ⟨a, b, hp, hq', rfl⟩ | ⟨e, e', -, hq', -⟩
  · rw [hp]
    rwa [hq'] at hend
  · rw [hq'] at hend
    exact hend.elim

end Mirrors

/-! ## Programs on different states

The end is all that is compared, so nothing follows for programs that are stopped on the way. -/

section

variable {ο' : Type*} {R : σ → τ → Prop} {translate : ε → ε'}

/-- From related states the programs reach related states, with the same result up to a translation
of errors. -/
def EndsTogether (R : σ → τ → Prop) (translate : ε → ε') (p : Program σ ο ε α)
    (q : Program τ ο' ε' α) : Prop :=
  ∀ s t, R s t → (q t).result = (p s).result.mapError translate ∧ R (p s).final (q t).final

namespace EndsTogether

theorem pure (a : α) :
    EndsTogether R translate (Pure.pure a : Program σ ο ε α)
      (Pure.pure a : Program τ ο' ε' α) :=
  fun _ _ h => ⟨rfl, h⟩

theorem bind {p : Program σ ο ε α} {q : Program τ ο' ε' α} {f : α → Program σ ο ε β}
    {g : α → Program τ ο' ε' β} (h : EndsTogether R translate p q)
    (hnext : ∀ a, EndsTogether R translate (f a) (g a)) :
    EndsTogether R translate (p >>= f) (q >>= g) := by
  intro s t hst
  obtain ⟨hresult, hfinal⟩ := h s t hst
  cases hp : (p s).result with
  | error e =>
      rw [hp] at hresult
      rw [bind_error hp, bind_error hresult]
      exact ⟨rfl, hfinal⟩
  | ok a =>
      rw [hp] at hresult
      rw [bind_ok hp, bind_ok hresult]
      exact hnext a _ _ hfinal

/-- Loops end together if their rounds do; the items of the one are named by those of the other. -/
theorem forEach {κ : Type*} {body : ι → Program σ ο ε Unit} {body' : κ → Program τ ο' ε' Unit}
    (name : ι → κ) (hround : ∀ i, EndsTogether R translate (body i) (body' (name i)))
    (items : List ι) :
    EndsTogether R translate (Program.forEach body items)
      (Program.forEach body' (items.map name)) := by
  induction items with
  | nil => exact pure ()
  | cons i items ih =>
      rw [List.map_cons, forEach_cons, forEach_cons]
      exact (hround i).bind fun _ => ih

end EndsTogether

end

end Program

end Framework

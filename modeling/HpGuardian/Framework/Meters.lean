import HpGuardian.Framework.Mirrors

/-!
# Programs whose steps spend something

A step of a program may spend things, such as the files that it removes.  What a step spends is a
function of its label and of the state before it, so the meter is not part of the program: a run
already determines everything that was spent in it.

`Metered` is crash Hoare logic with such a meter.  Its assertions speak about the state and about
all that was spent so far, and the crash condition holds wherever a run can be stopped, of what was
spent up to there.  It has the rules of the logic without a meter: consequence, sequence, loops,
programs on a part of the state, and reactions to failures.  Reading and silent changes of the
state spend nothing and cannot be seen in between, so their rules ask for nothing.

Because what was spent is part of every assertion, the rule for a sequence is stated for an
arbitrary amount spent before it.  That is what lets the rules be used for a program in the middle
of a longer run, and what the induction over a loop needs.
-/

namespace Framework

namespace Program

variable {σ τ ο ε ε' ι β : Type*} {α γ : Type}

/-- From `P`, every place where the program can be stopped satisfies `C`, and the program ends with
a value in `Q` or fails in `E`; all four speak of the state and of what was spent so far. -/
def Metered (cost : σ × ο → List β) (P : List β → σ → Prop) (p : Program σ ο ε α)
    (C : List β → σ → Prop) (Q : α → List β → σ → Prop) (E : List β → σ → Prop) : Prop :=
  ∀ spent s, P spent s →
    (∀ steps t, (p s).Halts steps t → C (spent ++ steps.flatMap cost) t) ∧
    match (p s).result with
    | .ok a => Q a (spent ++ (p s).steps.flatMap cost) (p s).final
    | .error _ => E (spent ++ (p s).steps.flatMap cost) (p s).final

/-- A run whose states are mapped halts where the run does, or at its end. -/
theorem halts_map {run : Run σ ο ε α} {f : σ → τ} {final : τ} {result : Except ε' γ}
    {steps : List (τ × ο)} {t : τ}
    (h : (Run.mk (run.steps.map fun step => (f step.1, step.2)) final result).Halts steps t) :
    (∃ steps₀ t₀, run.Halts steps₀ t₀ ∧ steps = steps₀.map (fun step => (f step.1, step.2)) ∧
        t = f t₀) ∨
      (steps = run.steps.map (fun step => (f step.1, step.2)) ∧ t = final) := by
  rcases h with ⟨label, rest, h⟩ | h
  · obtain ⟨steps₀, after, hsteps, rfl, hafter⟩ := List.map_eq_append_iff.1 h
    obtain ⟨⟨t₀, label₀⟩, rest₀, rfl, hfirst, rfl⟩ := List.map_eq_cons_iff.1 hafter
    obtain ⟨rfl, rfl⟩ := Prod.mk.inj hfirst
    exact .inl ⟨steps₀, t₀, .inl ⟨label₀, rest₀, hsteps⟩, rfl, rfl⟩
  · exact .inr h

namespace Metered

variable {cost : σ × ο → List β} {P : List β → σ → Prop} {p : Program σ ο ε α}
  {C : List β → σ → Prop} {Q : α → List β → σ → Prop} {E : List β → σ → Prop}

theorem conseq (h : Metered cost P p C Q E) {P' : List β → σ → Prop} {C' : List β → σ → Prop}
    {Q' : α → List β → σ → Prop} {E' : List β → σ → Prop}
    (hP : ∀ spent s, P' spent s → P spent s) (hC : ∀ spent s, C spent s → C' spent s)
    (hQ : ∀ a spent s, Q a spent s → Q' a spent s) (hE : ∀ spent s, E spent s → E' spent s) :
    Metered cost P' p C' Q' E' := by
  intro spent s hs
  obtain ⟨hhalts, hend⟩ := h spent s (hP spent s hs)
  refine ⟨fun steps t ht => hC _ _ (hhalts steps t ht), ?_⟩
  split at hend
  · exact hQ _ _ _ hend
  · exact hE _ _ hend

/-- What holds in all states of a kind has to be shown in each of them. -/
theorem of_forall (h : ∀ spent s, P spent s →
    Metered cost (fun spent' s' => spent' = spent ∧ s' = s) p C Q E) : Metered cost P p C Q E :=
  fun spent s hs => h spent s hs spent s ⟨rfl, rfl⟩

theorem pure {a : α} (h : ∀ spent s, P spent s → C spent s ∧ Q a spent s) :
    Metered cost P (Pure.pure a : Program σ ο ε α) C Q E := by
  intro spent s hs
  refine ⟨fun steps t ht => ?_, by simpa using (h spent s hs).2⟩
  obtain ⟨rfl, rfl⟩ := halts_nil ht
  simpa using (h spent _ hs).1

theorem raise {e : ε} (h : ∀ spent s, P spent s → C spent s ∧ E spent s) :
    Metered cost P (Program.raise e : Program σ ο ε α) C Q E := by
  intro spent s hs
  refine ⟨fun steps t ht => ?_, by simpa using (h spent s hs).2⟩
  obtain ⟨rfl, rfl⟩ := halts_nil ht
  simpa using (h spent _ hs).1

/-- Reading spends nothing, and the program goes on with what was read. -/
theorem read_bind {f : σ → γ} {g : γ → Program σ ο ε α}
    (h : ∀ a, Metered cost (fun spent s => P spent s ∧ f s = a) (g a) C Q E) :
    Metered cost P (Program.read f >>= g) C Q E := by
  intro spent s hs
  rw [read_bind_apply]
  exact h (f s) spent s ⟨hs, rfl⟩

theorem modify {f : σ → σ} {Q : Unit → List β → σ → Prop}
    (h : ∀ spent s, P spent s → C spent (f s) ∧ Q () spent (f s)) :
    Metered cost P (Program.modify f : Program σ ο ε Unit) C Q E := by
  intro spent s hs
  refine ⟨fun steps t ht => ?_, by simpa [Program.modify] using (h spent s hs).2⟩
  obtain ⟨rfl, rfl⟩ := halts_nil ht
  simpa using (h spent _ hs).1

/-- A silent change of the state spends nothing. -/
theorem modify_bind {f : σ → σ} {g : Unit → Program σ ο ε α} (P' : List β → σ → Prop)
    (hf : ∀ spent s, P spent s → P' spent (f s)) (h : Metered cost P' (g ()) C Q E) :
    Metered cost P (Program.modify f >>= g) C Q E := by
  intro spent s hs
  rw [modify_bind_apply]
  exact h spent (f s) (hf spent s hs)

theorem step {label : ο} {f : σ → σ} {Q : Unit → List β → σ → Prop}
    (h : ∀ spent s, P spent s → C spent s ∧ C (spent ++ cost (s, label)) (f s) ∧
      Q () (spent ++ cost (s, label)) (f s)) :
    Metered cost P (Program.step label f : Program σ ο ε Unit) C Q E := by
  intro spent s hs
  refine ⟨fun steps t ht => ?_, by simpa [Program.step] using (h spent s hs).2.2⟩
  rcases halts_cons ht with ⟨rfl, rfl⟩ | ⟨steps', rfl, ht'⟩
  · simpa using (h spent _ hs).1
  · obtain ⟨rfl, rfl⟩ := halts_nil ht'
    simpa using (h spent _ hs).2.1

theorem bind {R : α → List β → σ → Prop} {f : α → Program σ ο ε γ}
    {Q : γ → List β → σ → Prop} (hp : Metered cost P p C R E)
    (hf : ∀ a, Metered cost (R a) (f a) C Q E) : Metered cost P (p >>= f) C Q E := by
  intro spent s hs
  obtain ⟨hhalts, hend⟩ := hp spent s hs
  cases hresult : (p s).result with
  | ok a =>
      rw [hresult] at hend
      obtain ⟨hhalts', hend'⟩ := hf a _ _ hend
      constructor
      · intro steps t ht
        rcases halts_bind hresult ht with ⟨label, rest, hfirst⟩ | ⟨steps', rfl, hrest⟩
        · exact hhalts steps t (.inl ⟨label, rest, hfirst⟩)
        · rw [List.flatMap_append, ← List.append_assoc]
          exact hhalts' steps' t hrest
      · rw [bind_ok hresult]
        dsimp only
        rw [List.flatMap_append, ← List.append_assoc]
        exact hend'
  | error e =>
      rw [hresult] at hend
      rw [bind_error hresult]
      exact ⟨fun steps t ht => hhalts steps t ht, hend⟩

/-- The loop rule: an invariant that may speak about the items still to come. -/
theorem forEach {body : ι → Program σ ο ε Unit} {I : List ι → List β → σ → Prop} {items : List ι}
    (hC : ∀ spent s, I [] spent s → C spent s)
    (hbody : ∀ i rest, (∃ done, items = done ++ i :: rest) →
      Metered cost (I (i :: rest)) (body i) C (fun _ => I rest) E) :
    Metered cost (I items) (Program.forEach body items) C (fun _ => I []) E := by
  induction items with
  | nil => exact .pure fun spent s h => ⟨hC spent s h, h⟩
  | cons i items ih =>
      rw [forEach_cons]
      refine (hbody i items ⟨[], rfl⟩).bind fun _ => ih fun j rest hdone => ?_
      obtain ⟨done, hdone⟩ := hdone
      exact hbody j rest ⟨i :: done, by rw [hdone, List.cons_append]⟩

/-- A program on a part of the state spends what it spends there. -/
theorem zoom (h : Metered cost P p C Q E) {get : τ → σ} {set : σ → τ → τ} (hlens : Lens get set)
    {F : τ → Prop} (hframe : ∀ s t, F t → F (set s t)) :
    Metered (fun step : τ × ο => cost (get step.1, step.2)) (fun spent t => F t ∧ P spent (get t))
      (Program.zoom get set p) (fun spent t => F t ∧ C spent (get t))
      (fun a spent t => F t ∧ Q a spent (get t)) (fun spent t => F t ∧ E spent (get t)) := by
  intro spent t ⟨hF, hP⟩
  obtain ⟨hhalts, hend⟩ := h spent (get t) hP
  have hcost : ∀ steps : List (σ × ο),
      (steps.map fun step => (set step.1 t, step.2)).flatMap
        (fun step => cost (get step.1, step.2)) = steps.flatMap cost := by
    intro steps
    simp only [List.flatMap_map, hlens.get_set]
  constructor
  · intro steps u hu
    rcases halts_map (f := fun s => set s t) hu with ⟨steps₀, t₀, ht₀, rfl, rfl⟩ | ⟨rfl, rfl⟩
    · rw [hcost, hlens.get_set]
      exact ⟨hframe _ _ hF, hhalts steps₀ t₀ ht₀⟩
    · rw [hcost, hlens.get_set]
      exact ⟨hframe _ _ hF, hhalts _ _ (.inr ⟨rfl, rfl⟩)⟩
  · simp only [Program.zoom, hcost, hlens.get_set]
    split at hend <;> exact ⟨hframe _ _ hF, hend⟩

/-- A reaction to failures that costs nothing. -/
theorem onFailure (h : Metered cost P p C Q E) {react : σ → σ} {E' : List β → σ → Prop}
    (hcost : ∀ s label, cost (react s, label) = cost (s, label))
    (hreact : ∀ spent s, C spent s → C spent (react s))
    (hfail : ∀ spent s, E spent s → E' spent (react s)) :
    Metered cost P (Program.onFailure p react) C Q E' := by
  intro spent s hs
  obtain ⟨hhalts, hend⟩ := h spent s hs
  have hspent : ∀ steps : List (σ × ο),
      (steps.map fun step => (react step.1, step.2)).flatMap cost = steps.flatMap cost := by
    intro steps
    rw [List.flatMap_map]
    exact congrArg (steps.flatMap ·) (funext fun step => hcost step.1 step.2)
  have hlast := hhalts _ _ (.inr ⟨rfl, rfl⟩)
  constructor
  · intro steps t ht
    rcases halts_map (f := react) ht with ⟨steps₀, t₀, ht₀, rfl, rfl⟩ | ⟨rfl, rfl⟩
    · rw [hspent]
      exact hreact _ _ (hhalts steps₀ t₀ ht₀)
    · rw [hspent]
      split
      · exact hlast
      · exact hreact _ _ hlast
  · simp only [Program.onFailure, hspent]
    cases hresult : (p s).result with
    | ok a =>
        rw [hresult] at hend
        exact hend
    | error e =>
        rw [hresult] at hend
        exact hfail _ _ hend

theorem mapError (h : Metered cost P p C Q E) (f : ε → ε') :
    Metered cost P (Program.mapError f p) C Q E := by
  intro spent s hs
  obtain ⟨hhalts, hend⟩ := h spent s hs
  refine ⟨fun steps t ht => hhalts steps t ht, ?_⟩
  simp only [Program.mapError]
  cases hresult : (p s).result with
  | ok a =>
      rw [hresult] at hend
      exact hend
  | error e =>
      rw [hresult] at hend
      exact hend

/-- What is known of the end of the program in another way. -/
theorem and_final (h : Metered cost P p C Q E) {R : α → σ → Prop}
    (hR : ∀ spent s, P spent s → ∀ a, (p s).result = .ok a → R a (p s).final) :
    Metered cost P p C (fun a spent s => Q a spent s ∧ R a s) E := by
  intro spent s hs
  obtain ⟨hhalts, hend⟩ := h spent s hs
  refine ⟨hhalts, ?_⟩
  cases hresult : (p s).result with
  | ok a =>
      rw [hresult] at hend
      exact ⟨hend, hR spent s hs a hresult⟩
  | error e =>
      rw [hresult] at hend
      exact hend

/-- A program that mirrors another spends the same. -/
theorem of_mirrors {q : Program σ ο ε' α} (h : Metered cost P q C Q E) (same : ε → ε' → Prop)
    (hmirrors : ∀ spent s, P spent s → Mirrors same p q s) : Metered cost P p C Q E := by
  intro spent s hs
  obtain ⟨hhalts, hend⟩ := h spent s hs
  obtain ⟨hsteps, hfinal, hresult⟩ := hmirrors spent s hs
  constructor
  · intro steps t ht
    refine hhalts steps t ?_
    rcases ht with ⟨label, rest, ht⟩ | ⟨rfl, rfl⟩
    · exact .inl ⟨label, rest, hsteps ▸ ht⟩
    · exact .inr ⟨hsteps, hfinal⟩
  · rw [hsteps, hfinal]
    rcases hresult.results with ⟨a, b, hp, hq, rfl⟩ | ⟨e, e', hp, hq, -⟩
    · rw [hq] at hend
      rw [hp]
      exact hend
    · rw [hq] at hend
      rw [hp]
      exact hend

end Metered

end Program

end Framework

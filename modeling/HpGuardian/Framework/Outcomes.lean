import Mathlib.Data.List.Forall2
import Mathlib.Data.List.Nodup

/-!
# Comparing fallible programs

Two programs in `Except` have the same outcome for a relation on results when both fail, or both
succeed with related results; their errors need not match (`SameOutcome`).  They are alike if their
errors match as well, for a relation that says which errors count as the same (`Alike`).  Whether a
document is accepted is a question about outcomes, and which code it is refused with one about
errors.

Neither relation looks inside a program, so both can be pushed through the structure of two
programs that are written differently.  The rules here do it for binds, maps and loops.  For loops
there are three: over one list, over two lists whose items correspond, and, for outcomes, over a
list whose rounds are loops over parts, which is the loop over all parts (`foldlM_flatMap`).  A
loop whose rounds commute has the same outcome in any order (`foldlM_perm`).

`ErrorsAre` bounds the errors of a single program.  It is what is needed to compare the errors of
two programs that check things in different orders: where all errors of both are of one kind,
comparing outcomes is enough.

The last section is about loops over keyed entries that all have different keys: such a loop
succeeds iff each entry is accepted, and a part of the state that only one key touches ends up as
that key's entry left it, whatever the order of the entries.
-/

namespace Framework

universe u v w

variable {ε ε' : Type*} {α α' β β' : Type u}

@[simp] theorem ok_bind (a : α) (f : α → Except ε β) : (Except.ok a >>= f) = f a := rfl

@[simp] theorem error_bind (e : ε) (f : α → Except ε β) :
    ((Except.error e : Except ε α) >>= f) = .error e := rfl

theorem bind_ok_iff {x : Except ε α} {f : α → Except ε β} {b : β} :
    (x >>= f) = .ok b ↔ ∃ a, x = .ok a ∧ f a = .ok b := by
  cases x <;> simp

theorem bind_error_iff {x : Except ε α} {f : α → Except ε β} {e : ε} :
    (x >>= f) = .error e ↔ x = .error e ∨ ∃ a, x = .ok a ∧ f a = .error e := by
  cases x <;> simp

/-- A check that must not fail before a program goes on. -/
theorem if_error_ok_iff {p : Prop} [Decidable p] {e : ε} {x : Except ε α} {a : α} :
    (if p then .error e else x) = .ok a ↔ ¬ p ∧ x = .ok a := by
  split_ifs with h <;> simp [h]

theorem exists_ok {x : Except ε α} (h : x.toOption.isSome = true) : ∃ a, x = .ok a := by
  cases x with
  | ok a => exact ⟨a, rfl⟩
  | error e => cases h

theorem exists_error {x : Except ε α} (h : ∀ a, x ≠ .ok a) : ∃ e, x = .error e := by
  cases x with
  | ok a => exact absurd rfl (h a)
  | error e => exact ⟨e, rfl⟩

theorem ok_not_error {x : Except ε α} (hok : ∃ a, x = .ok a) : ¬ ∃ e, x = .error e := by
  rintro ⟨e, he⟩
  obtain ⟨a, ha⟩ := hok
  rw [ha] at he
  cases he

/-- A program that can be evaluated succeeds with a result that passes a test. -/
theorem exists_ok_and {x : Except ε α} {P : α → Prop} [DecidablePred P]
    (h : x.toOption.any (fun a => decide (P a)) = true) : ∃ a, x = .ok a ∧ P a := by
  cases x with
  | ok a => exact ⟨a, rfl, of_decide_eq_true h⟩
  | error e => cases h

/-- Both programs fail, or both succeed with related results. Nothing is said about the errors. -/
inductive SameOutcome (R : α → β → Prop) : Except ε α → Except ε' β → Prop
  | ok {a : α} {b : β} (h : R a b) : SameOutcome R (.ok a) (.ok b)
  | error {e : ε} {e' : ε'} : SameOutcome R (.error e) (.error e')

namespace SameOutcome

variable {R : α → β → Prop} {S : α' → β' → Prop} {x : Except ε α} {y : Except ε' β}

theorem mono {R' : α → β → Prop} (hR : ∀ a b, R a b → R' a b) (h : SameOutcome R x y) :
    SameOutcome R' x y := by
  cases h with
  | ok h => exact .ok (hR _ _ h)
  | error => exact .error

/-- The comparison, one direction at a time. -/
theorem of_forall (hleft : ∀ a, x = .ok a → ∃ b, y = .ok b ∧ R a b)
    (hright : ∀ b, y = .ok b → ∃ a, x = .ok a) : SameOutcome R x y := by
  cases hx : x with
  | ok a =>
      obtain ⟨b, rfl, hab⟩ := hleft a hx
      exact .ok hab
  | error e =>
      cases hy : y with
      | ok b =>
          obtain ⟨a, ha⟩ := hright b hy
          rw [ha] at hx
          cases hx
      | error e' => exact .error

theorem refl (x : Except ε α) : SameOutcome Eq x x := by
  cases x with
  | ok a => exact .ok rfl
  | error e => exact .error

theorem symm {y : Except ε' α} {x : Except ε α} (h : SameOutcome Eq x y) : SameOutcome Eq y x := by
  cases h with
  | ok h => exact .ok h.symm
  | error => exact .error

theorem trans {ε'' : Type*} {x : Except ε α} {y : Except ε' α} {z : Except ε'' β}
    (hxy : SameOutcome Eq x y) (hyz : SameOutcome R y z) : SameOutcome R x z := by
  cases hxy with
  | ok h =>
      subst h
      cases hyz with
      | ok h => exact .ok h
  | error =>
      cases hyz
      exact .error

/-- Two programs with the same successes. -/
theorem of_ok_iff {y : Except ε' α} (h : ∀ a, x = .ok a ↔ y = .ok a) : SameOutcome Eq x y :=
  of_forall (fun a ha => ⟨a, (h a).1 ha, rfl⟩) (fun a ha => ⟨a, (h a).2 ha⟩)

theorem exists_right {a : α} (h : SameOutcome R x y) (hx : x = .ok a) :
    ∃ b, y = .ok b ∧ R a b := by
  cases h with
  | ok h =>
      obtain rfl := Except.ok.inj hx
      exact ⟨_, rfl, h⟩
  | error => cases hx

theorem exists_left {b : β} (h : SameOutcome R x y) (hy : y = .ok b) :
    ∃ a, x = .ok a ∧ R a b := by
  cases h with
  | ok h =>
      obtain rfl := Except.ok.inj hy
      exact ⟨_, rfl, h⟩
  | error => cases hy

/-- One program succeeds iff the other does. -/
theorem isOk_iff (h : SameOutcome R x y) : (∃ a, x = .ok a) ↔ ∃ b, y = .ok b := by
  constructor
  · rintro ⟨a, ha⟩
    obtain ⟨b, hb, -⟩ := h.exists_right ha
    exact ⟨b, hb⟩
  · rintro ⟨b, hb⟩
    obtain ⟨a, ha, -⟩ := h.exists_left hb
    exact ⟨a, ha⟩

/-- One program fails iff the other does. -/
theorem isError_iff (h : SameOutcome R x y) : (∃ e, x = .error e) ↔ ∃ e', y = .error e' := by
  cases h with
  | ok h => simp
  | error => simp

theorem bind {f : α → Except ε α'} {g : β → Except ε' β'} (h : SameOutcome R x y)
    (hnext : ∀ a b, R a b → SameOutcome S (f a) (g b)) : SameOutcome S (x >>= f) (y >>= g) := by
  cases h with
  | ok h => exact hnext _ _ h
  | error => exact .error

/-- Two loops over one list, under a relation that may speak about the entries still to come. -/
theorem foldlM_same {ι : Type*} {f : α → ι → Except ε α} {g : β → ι → Except ε' β}
    {Q : List ι → α → β → Prop}
    (hround : ∀ i rest a b, Q (i :: rest) a b → SameOutcome (Q rest) (f a i) (g b i))
    {entries : List ι} {a : α} {b : β} (hab : Q entries a b) :
    SameOutcome (Q []) (entries.foldlM f a) (entries.foldlM g b) := by
  induction entries generalizing a b with
  | nil => exact .ok hab
  | cons i entries ih =>
      rw [List.foldlM_cons, List.foldlM_cons]
      exact (hround i entries a b hab).bind (fun a' b' hab' => ih hab')

/-- Two loops over one list whose rounds have the same outcome. -/
theorem foldlM {ι : Type*} {f : α → ι → Except ε α} {g : β → ι → Except ε' β}
    {entries : List ι}
    (hround : ∀ a b, R a b → ∀ i ∈ entries, SameOutcome R (f a i) (g b i)) {a : α} {b : β}
    (hab : R a b) : SameOutcome R (entries.foldlM f a) (entries.foldlM g b) := by
  induction entries generalizing a b with
  | nil => exact .ok hab
  | cons i entries ih =>
      rw [List.foldlM_cons, List.foldlM_cons]
      exact (hround a b hab i (by simp)).bind (fun a' b' hab' =>
        ih (fun a b hab j hj => hround a b hab j (List.mem_cons_of_mem _ hj)) hab')

/-- A loop whose rounds are loops over parts, and the loop over all parts. -/
theorem foldlM_flatMap {ι κ : Type*} {f : α → ι → Except ε α} {g : β → κ → Except ε' β}
    {parts : ι → List κ} {items : List ι}
    (h : ∀ a b, R a b → ∀ i ∈ items, SameOutcome R (f a i) ((parts i).foldlM g b)) {a : α} {b : β}
    (hab : R a b) : SameOutcome R (items.foldlM f a) ((items.flatMap parts).foldlM g b) := by
  induction items generalizing a b with
  | nil => exact .ok hab
  | cons i items ih =>
      rw [List.foldlM_cons, List.flatMap_cons, List.foldlM_append]
      refine (h a b hab i (by simp)).bind (fun a' b' hab' => ?_)
      exact ih (fun a b hab j hj => h a b hab j (List.mem_cons_of_mem _ hj)) hab'

/-- The order of the entries does not matter to a loop whose rounds commute. -/
theorem foldlM_perm {ι : Type*} {f : α → ι → Except ε α} {xs ys : List ι} (hperm : xs.Perm ys)
    (hcomm : ∀ i ∈ xs, ∀ j ∈ xs, i ≠ j → ∀ a,
      SameOutcome Eq (f a i >>= fun b => f b j) (f a j >>= fun b => f b i)) (a : α) :
    SameOutcome Eq (xs.foldlM f a) (ys.foldlM f a) := by
  induction hperm generalizing a with
  | nil => exact .ok rfl
  | cons i _ ih =>
      rw [List.foldlM_cons, List.foldlM_cons]
      refine SameOutcome.bind (R := Eq) (refl _) ?_
      rintro b - rfl
      exact ih (fun j hj k hk =>
        hcomm j (List.mem_cons_of_mem _ hj) k (List.mem_cons_of_mem _ hk)) b
  | swap i j xs =>
      simp only [List.foldlM_cons]
      rw [← bind_assoc, ← bind_assoc]
      have hswap : SameOutcome Eq (f a j >>= fun b => f b i) (f a i >>= fun b => f b j) := by
        by_cases hij : i = j
        · subst hij
          exact refl _
        · exact hcomm j (by simp) i (by simp) (Ne.symm hij) a
      refine SameOutcome.bind (R := Eq) hswap ?_
      rintro b - rfl
      exact refl _
  | trans hxy _ ihxy ihyz =>
      refine (ihxy hcomm a).trans (ihyz (fun i hi j hj => ?_) a)
      exact hcomm i (hxy.mem_iff.2 hi) j (hxy.mem_iff.2 hj)

end SameOutcome

/-! ## Comparing errors as well

The same rules for programs whose errors are compared, and the kinds of errors that a program may
fail with. -/

/-- Both programs succeed with related results, or both fail with errors that count as the same. -/
inductive Alike {σ τ ε δ : Type*} (rel : σ → τ → Prop) (same : ε → δ → Prop) :
    Except ε σ → Except δ τ → Prop
  | ok {s : σ} {t : τ} (h : rel s t) : Alike rel same (.ok s) (.ok t)
  | error {e : ε} {d : δ} (h : same e d) : Alike rel same (.error e) (.error d)

namespace Alike

variable {same : ε → ε' → Prop} {R : α → β → Prop} {S : α' → β' → Prop} {x : Except ε α}
  {y : Except ε' β}

theorem results (h : Alike R same x y) :
    (∃ a b, x = .ok a ∧ y = .ok b ∧ R a b) ∨ ∃ e d, x = .error e ∧ y = .error d ∧ same e d := by
  cases h with
  | ok h => exact .inl ⟨_, _, rfl, rfl, h⟩
  | error h => exact .inr ⟨_, _, rfl, rfl, h⟩

theorem exists_right {a : α} (h : Alike R same x y) (hx : x = .ok a) : ∃ b, y = .ok b ∧ R a b := by
  cases h with
  | ok h =>
      obtain rfl := Except.ok.inj hx
      exact ⟨_, rfl, h⟩
  | error => cases hx

theorem bind {f : α → Except ε α'} {g : β → Except ε' β'} (h : Alike R same x y)
    (hnext : ∀ a b, R a b → Alike S same (f a) (g b)) : Alike S same (x >>= f) (y >>= g) := by
  cases h with
  | ok h => exact hnext _ _ h
  | error h => exact .error h

theorem map {f : α → α'} {g : β → β'} (h : Alike R same x y)
    (hmap : ∀ a b, R a b → S (f a) (g b)) : Alike S same (x.map f) (y.map g) := by
  cases h with
  | ok h => exact .ok (hmap _ _ h)
  | error h => exact .error h

theorem mono {R' : α → β → Prop} (hR : ∀ a b, R a b → R' a b) (h : Alike R same x y) :
    Alike R' same x y := by
  cases h with
  | ok h => exact .ok (hR _ _ h)
  | error h => exact .error h

end Alike

/-- Every error of a program is of one kind. Nothing is said about when it fails. -/
def ErrorsAre (P : ε → Prop) (x : Except ε α) : Prop := ∀ e, x = .error e → P e

namespace ErrorsAre

variable {P : ε → Prop} {x : Except ε α}

theorem ok (a : α) : ErrorsAre P (.ok a : Except ε α) := fun _ h => by cases h

theorem error {e : ε} (h : P e) : ErrorsAre P (.error e : Except ε α) := fun e' he' => by
  obtain rfl := Except.error.inj he'
  exact h

theorem bind {f : α → Except ε β} (h : ErrorsAre P x) (hnext : ∀ a, ErrorsAre P (f a)) :
    ErrorsAre P (x >>= f) := by
  cases x with
  | ok a => exact hnext a
  | error e => exact error (h e rfl)

theorem map {f : α → β} (h : ErrorsAre P x) : ErrorsAre P (x.map f) := by
  cases x with
  | ok a => exact ok (f a)
  | error e => exact error (h e rfl)

theorem mono {Q : ε → Prop} (hPQ : ∀ e, P e → Q e) (h : ErrorsAre P x) : ErrorsAre Q x :=
  fun e he => hPQ e (h e he)

/-- The errors of a loop are those of its rounds. -/
theorem foldlM {ι : Type*} {f : α → ι → Except ε α} (h : ∀ a i, ErrorsAre P (f a i))
    (entries : List ι) (a : α) : ErrorsAre P (entries.foldlM f a) := by
  induction entries generalizing a with
  | nil => exact ok a
  | cons i entries ih =>
      rw [List.foldlM_cons]
      exact (h a i).bind ih

end ErrorsAre

/-- A program that succeeds under a condition, with one possible result, either succeeds with it
or fails outside the condition. -/
theorem ok_or_error {ε α : Type*} {x : Except ε α} {Accepted : Prop} {value : α}
    (haccepted : (∃ a, x = .ok a) ↔ Accepted) (hvalue : ∀ a, x = .ok a → a = value) :
    (Accepted ∧ x = .ok value) ∨ (¬ Accepted ∧ ∃ e, x = .error e) := by
  cases hx : x with
  | ok a => exact .inl ⟨haccepted.1 ⟨a, hx⟩, by rw [hvalue a hx]⟩
  | error e =>
      refine .inr ⟨fun h => ?_, e, rfl⟩
      obtain ⟨a, ha⟩ := haccepted.2 h
      rw [hx] at ha
      cases ha

/-! ## Loops over keyed entries

A document whose keys are distinct is read by a loop with a match on the key.  What the loop
accepts, and what it leaves in a part of its state, depends on each entry by itself. -/

section KeyedLoop

variable {ε σ ι κ : Type*} {f : σ → ι → Except ε σ}

/-- A loop whose rounds accept or reject an entry whatever the state succeeds iff it accepts
every entry. -/
theorem foldlM_isOk_iff {Accepted : ι → Prop}
    (haccepted : ∀ s i, (∃ s', f s i = .ok s') ↔ Accepted i) (entries : List ι) (s : σ) :
    (∃ s', entries.foldlM f s = .ok s') ↔ ∀ i ∈ entries, Accepted i := by
  induction entries generalizing s with
  | nil => simp [pure, Except.pure]
  | cons i entries ih =>
      rw [List.foldlM_cons, List.forall_mem_cons, ← haccepted s i]
      cases hround : f s i with
      | ok s' =>
          rw [← ih s']
          simp [bind, Except.bind]
      | error e => simp [bind, Except.bind]

/-- A loop whose rounds check the shape of an entry and then run an inner loop over its parts is
one loop over the parts of all entries. -/
theorem foldlM_flatMap_ok_iff {Shaped : ι → Prop} {parts : ι → List κ}
    {inner : σ → κ → Except ε σ} {entries : List ι}
    (hround : ∀ i ∈ entries, ∀ s s',
      f s i = .ok s' ↔ Shaped i ∧ (parts i).foldlM inner s = .ok s') {s s' : σ} :
    entries.foldlM f s = .ok s' ↔
      (∀ i ∈ entries, Shaped i) ∧ (entries.flatMap parts).foldlM inner s = .ok s' := by
  induction entries generalizing s with
  | nil => simp
  | cons i entries ih =>
      obtain ⟨hfirst, hrest⟩ := List.forall_mem_cons.1 hround
      rw [List.foldlM_cons, bind_ok_iff, List.flatMap_cons, List.foldlM_append,
        List.forall_mem_cons, bind_ok_iff]
      simp only [hfirst, ih hrest]
      constructor
      · rintro ⟨t, ⟨hshaped, hparts⟩, hentries, hrun⟩
        exact ⟨⟨hshaped, hentries⟩, t, hparts, hrun⟩
      · rintro ⟨⟨hshaped, hentries⟩, t, hparts, hrun⟩
        exact ⟨t, ⟨hshaped, hparts⟩, hentries, hrun⟩

/-- What every accepted entry satisfies holds of all entries of a loop that succeeds. -/
theorem foldlM_forall {P : ι → Prop} (hround : ∀ s s' i, f s i = .ok s' → P i)
    {entries : List ι} {s s' : σ} (hrun : entries.foldlM f s = .ok s') : ∀ i ∈ entries, P i := by
  induction entries generalizing s with
  | nil => simp
  | cons i entries ih =>
      rw [List.foldlM_cons] at hrun
      cases hfirst : f s i with
      | ok t =>
          rw [hfirst] at hrun
          exact List.forall_mem_cons.2 ⟨hround s t i hfirst, ih hrun⟩
      | error e =>
          rw [hfirst] at hrun
          cases hrun

/-- What every accepted entry preserves holds at the end of a loop that succeeds. -/
theorem foldlM_invariant {P : σ → Prop} (hround : ∀ s s' i, P s → f s i = .ok s' → P s')
    {entries : List ι} {s s' : σ} (hs : P s) (hrun : entries.foldlM f s = .ok s') : P s' := by
  induction entries generalizing s with
  | nil =>
      obtain rfl := Except.ok.inj hrun
      exact hs
  | cons i entries ih =>
      rw [List.foldlM_cons] at hrun
      obtain ⟨t, hfirst, hrest⟩ := bind_ok_iff.1 hrun
      exact ih (hround s t i hs hfirst) hrest

/-- A part of the state that no entry touches keeps its value. -/
theorem foldlM_untouched {τ : Type*} {slot : σ → τ} {entries : List ι}
    (hround : ∀ s s', ∀ i ∈ entries, f s i = .ok s' → slot s' = slot s) {s s' : σ}
    (hrun : entries.foldlM f s = .ok s') : slot s' = slot s := by
  induction entries generalizing s with
  | nil =>
      obtain rfl := Except.ok.inj hrun
      rfl
  | cons i entries ih =>
      rw [List.foldlM_cons] at hrun
      cases hfirst : f s i with
      | ok t =>
          rw [hfirst] at hrun
          have htail := ih (fun s s' j hj => hround s s' j (List.mem_cons_of_mem _ hj)) hrun
          rw [htail, hround s t i (by simp) hfirst]
      | error e =>
          rw [hfirst] at hrun
          cases hrun

/-- A loop that fails has accepted some entries and fails at the next one. -/
theorem foldlM_error_iff {entries : List ι} {s : σ} {e : ε} :
    entries.foldlM f s = .error e ↔ ∃ before i after t, entries = before ++ i :: after ∧
      before.foldlM f s = .ok t ∧ f t i = .error e := by
  constructor
  · intro hrun
    induction entries generalizing s with
    | nil => cases hrun
    | cons i entries ih =>
        rw [List.foldlM_cons, bind_error_iff] at hrun
        rcases hrun with hfirst | ⟨t, hfirst, hrest⟩
        · exact ⟨[], i, entries, s, rfl, rfl, hfirst⟩
        · obtain ⟨before, j, after, t', rfl, hbefore, hfails⟩ := ih hrest
          refine ⟨i :: before, j, after, t', rfl, ?_, hfails⟩
          rw [List.foldlM_cons, hfirst, ok_bind, hbefore]
  · rintro ⟨before, i, after, t, rfl, hbefore, hfails⟩
    rw [List.foldlM_append, hbefore, ok_bind, List.foldlM_cons, hfails, error_bind]

/-- A loop that counts its entries and collects one output for each: the output of an entry is good
for the entry and its number. -/
theorem foldlM_collects {ο : Type*} (number : σ → ℕ) (outputs : σ → List ο)
    (Good : ℕ → ι → ο → Prop) {entries : List ι}
    (hround : ∀ s s', ∀ i ∈ entries, f s i = .ok s' → ∃ o, Good (number s) i o ∧
      number s' = number s + 1 ∧ outputs s' = outputs s ++ [o])
    {s s' : σ} (hrun : entries.foldlM f s = .ok s') :
    number s' = number s + entries.length ∧
      ∃ collected, outputs s' = outputs s ++ collected ∧ collected.length = entries.length ∧
        ∀ n i, entries[n]? = some i → ∃ o, collected[n]? = some o ∧ Good (number s + n) i o := by
  induction entries generalizing s with
  | nil =>
      obtain rfl := Except.ok.inj hrun
      exact ⟨rfl, [], (List.append_nil _).symm, rfl, by simp⟩
  | cons i entries ih =>
      rw [List.foldlM_cons, bind_ok_iff] at hrun
      obtain ⟨t, hfirst, hrest⟩ := hrun
      obtain ⟨o, hgood, hnumber, houtputs⟩ := hround s t i (by simp) hfirst
      obtain ⟨hnumber', collected, hcollected, hlength, hentries⟩ :=
        ih (fun s s' j hj => hround s s' j (List.mem_cons_of_mem _ hj)) hrest
      refine ⟨?_, o :: collected, ?_, congrArg (· + 1) hlength, ?_⟩
      · rw [hnumber', hnumber, List.length_cons]
        omega
      · rw [hcollected, houtputs, List.append_assoc, List.singleton_append]
      · intro n j hj
        cases n with
        | zero =>
            obtain rfl := Option.some.inj hj
            exact ⟨o, rfl, hgood⟩
        | succ n =>
            obtain ⟨o', ho', hgood'⟩ := hentries n j hj
            refine ⟨o', ho', ?_⟩
            rwa [hnumber, Nat.add_assoc, Nat.add_comm 1] at hgood'

/-- With distinct keys, a part of the state that only the entries with one key touch ends up as the
one entry with that key left it, and as it was at the start if there is none. So a loop that fills
a record field by field fills each field from its own entry. -/
theorem foldlM_slot {τ : Type*} (slot : σ → τ) (key : ι → Option κ) (k : κ)
    (update : ι → τ → τ) {entries : List ι} (hdistinct : (entries.filterMap key).Nodup)
    (hother : ∀ s s' i, key i ≠ some k → f s i = .ok s' → slot s' = slot s)
    (hkey : ∀ s s' i, key i = some k → f s i = .ok s' → slot s' = update i (slot s)) {s s' : σ}
    (hrun : entries.foldlM f s = .ok s') :
    (∀ i ∈ entries, key i = some k → slot s' = update i (slot s)) ∧
      ((∀ i ∈ entries, key i ≠ some k) → slot s' = slot s) := by
  refine ⟨?_, fun hnone => foldlM_untouched (fun s s' i hi => hother s s' i (hnone i hi)) hrun⟩
  intro i hi hik
  induction entries generalizing s with
  | nil => simp at hi
  | cons j entries ih =>
      rw [List.foldlM_cons] at hrun
      cases hfirst : f s j with
      | error e =>
          rw [hfirst] at hrun
          cases hrun
      | ok t =>
          rw [hfirst] at hrun
          rcases List.mem_cons.1 hi with rfl | hi
          · -- the entry comes first, and no later one has its key
            rw [List.filterMap_cons_some hik, List.nodup_cons] at hdistinct
            have hlater : ∀ i ∈ entries, key i ≠ some k :=
              fun l hl hlk => hdistinct.1 (List.mem_filterMap.2 ⟨l, hl, hlk⟩)
            rw [foldlM_untouched (fun s s' i hi => hother s s' i (hlater i hi)) hrun]
            exact hkey s t i hik hfirst
          · -- the entry comes later, so the first one has another key
            have hjk : key j ≠ some k := by
              intro hjk
              rw [List.filterMap_cons_some hjk, List.nodup_cons] at hdistinct
              exact hdistinct.1 (List.mem_filterMap.2 ⟨i, hi, hik⟩)
            have htail : (entries.filterMap key).Nodup :=
              hdistinct.sublist ((List.sublist_cons_self j entries).filterMap key)
            rw [ih htail hrun hi, hother s t j hjk hfirst]

end KeyedLoop

end Framework

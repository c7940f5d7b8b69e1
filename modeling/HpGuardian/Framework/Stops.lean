import HpGuardian.Framework.Outcomes

/-!
# Where two programs stop

A program in `Except` that fails stops somewhere, and in a loop it stops at one entry.
`AtFirstError` states a condition of that entry and of the state in which the loop met it.

That state is the loop's own, and a condition on a document should not mention it.
`AtFirstRefused` describes the same entry without the program: it is the first that is not
accepted, where acceptance may depend on the entries before, as it does when the loop remembers
what it has seen.  `atFirstError_iff_atFirstRefused` replaces the one by the other, given a
relation between the entries read so far and the loop's state.  Loops within loops are loops over
all parts (`atFirstError_flatMap`).

Two programs that fail together may still fail with different errors.  `Judged` says that their
errors count as the same iff a condition holds, and it is composed along the structure of the two
programs: what follows a successful first step is judged by itself, and two loops that go through
the same entries are judged by the entry at which they stop.  Put together, these rules give an
exact condition on a document under which two readers refuse it with the same error.
-/

namespace Framework

universe u

variable {ε ε' ι : Type*} {α α' β β' : Type u}

/-! ## The entry at which a loop stops

`AtFirstError` follows the loop entry by entry.  A loop that succeeds stops nowhere, and then the
condition holds of nothing and asks nothing. -/

/-- The condition holds of the state and the entry at which a loop stops, if it stops early. The
state is the one in which the loop meets the entry. -/
def AtFirstError (f : α → ι → Except ε α) (rejected : α → ι → Prop) (s : α) : List ι → Prop
  | [] => True
  | i :: items =>
      match f s i with
      | .ok s' => AtFirstError f rejected s' items
      | .error _ => rejected s i

section

variable {f : α → ι → Except ε α} {rejected : α → ι → Prop} {s : α} {i : ι} {items : List ι}

theorem atFirstError_cons_ok {s' : α} (h : f s i = .ok s') :
    AtFirstError f rejected s (i :: items) ↔ AtFirstError f rejected s' items := by
  rw [AtFirstError, h]

theorem atFirstError_cons_error {e : ε} (h : f s i = .error e) :
    AtFirstError f rejected s (i :: items) ↔ rejected s i := by
  rw [AtFirstError, h]

/-- A loop that fails stops at one of its entries. -/
theorem exists_first_error {e : ε} (h : items.foldlM f s = .error e) :
    ∃ s', ∃ i ∈ items, f s' i = .error e ∧
      ∀ rejected : α → ι → Prop, AtFirstError f rejected s items ↔ rejected s' i := by
  induction items generalizing s with
  | nil => cases h
  | cons i items ih =>
      rw [List.foldlM_cons] at h
      cases hround : f s i with
      | error e' =>
          rw [hround] at h
          obtain rfl := Except.error.inj h
          exact ⟨s, i, by simp, hround, fun _ => atFirstError_cons_error hround⟩
      | ok next =>
          rw [hround] at h
          obtain ⟨s', j, hj, herror, hat⟩ := ih h
          refine ⟨s', j, List.mem_cons_of_mem _ hj, herror, fun rejected => ?_⟩
          rw [atFirstError_cons_ok hround, hat]

/-- A loop that succeeds stops nowhere. -/
theorem atFirstError_of_ok {s' : α} (h : items.foldlM f s = .ok s') :
    AtFirstError f rejected s items := by
  induction items generalizing s with
  | nil => trivial
  | cons i items ih =>
      rw [List.foldlM_cons] at h
      obtain ⟨next, hround, hrest⟩ := bind_ok_iff.1 h
      exact (atFirstError_cons_ok hround).2 (ih hrest)

theorem atFirstError_of_forall (h : ∀ s i, rejected s i) (s : α) (items : List ι) :
    AtFirstError f rejected s items := by
  cases hrun : items.foldlM f s with
  | ok s' => exact atFirstError_of_ok hrun
  | error e =>
      obtain ⟨s', i, -, -, hat⟩ := exists_first_error hrun
      exact (hat rejected).2 (h s' i)

/-- A loop that fails stops in the same place when more entries follow. -/
theorem atFirstError_append_of_error {e : ε} (h : items.foldlM f s = .error e) (more : List ι) :
    AtFirstError f rejected s (items ++ more) ↔ AtFirstError f rejected s items := by
  induction items generalizing s with
  | nil => cases h
  | cons i items ih =>
      rw [List.foldlM_cons] at h
      rw [List.cons_append]
      cases hround : f s i with
      | error e' => rw [atFirstError_cons_error hround, atFirstError_cons_error hround]
      | ok next =>
          rw [hround] at h
          rw [atFirstError_cons_ok hround, atFirstError_cons_ok hround, ih h]

/-- After a part that succeeds, a loop stops where the rest does. -/
theorem atFirstError_append_of_ok {s' : α} (h : items.foldlM f s = .ok s') (more : List ι) :
    AtFirstError f rejected s (items ++ more) ↔ AtFirstError f rejected s' more := by
  induction items generalizing s with
  | nil =>
      obtain rfl := Except.ok.inj h
      exact Iff.rfl
  | cons i items ih =>
      rw [List.foldlM_cons] at h
      obtain ⟨next, hround, hrest⟩ := bind_ok_iff.1 h
      rw [List.cons_append, atFirstError_cons_ok hround, ih hrest]

end

theorem atFirstError_map {κ : Type*} {g : α → κ → Except ε α} {rejected : α → κ → Prop}
    (part : ι → κ) (items : List ι) (s : α) :
    AtFirstError g rejected s (items.map part) ↔
      AtFirstError (fun s i => g s (part i)) (fun s i => rejected s (part i)) s items := by
  induction items generalizing s with
  | nil => exact Iff.rfl
  | cons i items ih =>
      cases hround : g s (part i) with
      | error e => simp only [List.map_cons, AtFirstError, hround]
      | ok next =>
          simp only [List.map_cons, AtFirstError, hround]
          exact ih next

/-! ## The first entry that is not accepted

The same place, described without the program: whether an entry is accepted may depend on the
entries before it, as it does when the loop's state remembers them. -/

/-- The condition holds of the first entry that is not accepted, if there is one. Both acceptance
and the condition may depend on the entries before it, and on nothing else. -/
def AtFirstRefused (accepted rejected : List ι → ι → Prop) (items : List ι) : Prop :=
  ∀ before i after, items = before ++ i :: after →
    (∀ earlier j later, before = earlier ++ j :: later → accepted earlier j) →
      ¬ accepted before i → rejected before i

section

variable {accepted rejected : List ι → ι → Prop} {i : ι} {items : List ι}

theorem atFirstRefused_nil : AtFirstRefused accepted rejected [] := by
  intro before i after h
  simp at h

/-- Behind an accepted entry the others are looked at as they were before. -/
theorem atFirstRefused_cons_accepted (h : accepted [] i) :
    AtFirstRefused accepted rejected (i :: items) ↔
      AtFirstRefused (fun before => accepted (i :: before)) (fun before => rejected (i :: before))
        items := by
  constructor
  · intro hat before j after hitems hbefore hrefused
    refine hat (i :: before) j after (by rw [hitems, List.cons_append]) ?_ hrefused
    rintro (_ | ⟨head, earlier⟩) k later heq
    · obtain ⟨rfl, -⟩ := List.cons.inj heq
      exact h
    · obtain ⟨rfl, hrest⟩ := List.cons.inj heq
      exact hbefore earlier k later hrest
  · rintro hat (_ | ⟨head, before⟩) j after hitems hbefore hrefused
    · obtain ⟨rfl, -⟩ := List.cons.inj hitems
      exact absurd h hrefused
    · obtain ⟨rfl, hrest⟩ := List.cons.inj hitems
      refine hat before j after hrest (fun earlier k later heq => ?_) hrefused
      exact hbefore (i :: earlier) k later (by rw [heq, List.cons_append])

theorem atFirstRefused_cons_refused (h : ¬ accepted [] i) :
    AtFirstRefused accepted rejected (i :: items) ↔ rejected [] i := by
  constructor
  · intro hat
    exact hat [] i items rfl (by simp) h
  · rintro hrejected (_ | ⟨head, before⟩) j after hitems hbefore -
    · obtain ⟨rfl, -⟩ := List.cons.inj hitems
      exact hrejected
    · obtain ⟨rfl, -⟩ := List.cons.inj hitems
      exact absurd (hbefore [] i before rfl) h

/-- Where every entry is accepted, nothing is asked. -/
theorem atFirstRefused_of_accepted (h : ∀ before, ∀ i ∈ items, accepted before i) :
    AtFirstRefused accepted rejected items := by
  rintro before i after rfl - hrefused
  exact absurd (h before i (by simp)) hrefused

end

/-- **Where a loop stops.**  If a relation between the entries read so far and the loop's state
tells which entries are accepted, the loop stops at the first that is not. -/
theorem atFirstError_iff_atFirstRefused {f : α → ι → Except ε α} {R : List ι → α → Prop}
    {accepted rejected : List ι → ι → Prop} {rejected' : α → ι → Prop} {items : List ι}
    (hstep : ∀ past s s', ∀ i ∈ items, R past s → f s i = .ok s' → R (past ++ [i]) s')
    (haccepted : ∀ past s, ∀ i ∈ items, R past s → ((∃ s', f s i = .ok s') ↔ accepted past i))
    (hrejected : ∀ past s, ∀ i ∈ items, R past s → (rejected' s i ↔ rejected past i))
    {s : α} (hs : R [] s) :
    AtFirstError f rejected' s items ↔ AtFirstRefused accepted rejected items := by
  induction items generalizing R accepted rejected s with
  | nil => exact iff_of_true trivial atFirstRefused_nil
  | cons i items ih =>
      obtain ⟨hacceptedHead, -⟩ := List.forall_mem_cons.1 (haccepted [] s)
      cases hround : f s i with
      | error e =>
          have hrefused : ¬ accepted [] i := by
            intro h
            obtain ⟨s', hok⟩ := (hacceptedHead hs).2 h
            rw [hround] at hok
            cases hok
          rw [atFirstError_cons_error hround, atFirstRefused_cons_refused hrefused]
          exact hrejected [] s i (by simp) hs
      | ok next =>
          rw [atFirstError_cons_ok hround,
            atFirstRefused_cons_accepted ((hacceptedHead hs).1 ⟨next, hround⟩)]
          refine ih (R := fun past => R (i :: past)) ?_ ?_ ?_ ?_
          · exact fun past s s' j hj => hstep (i :: past) s s' j (List.mem_cons_of_mem _ hj)
          · exact fun past s j hj => haccepted (i :: past) s j (List.mem_cons_of_mem _ hj)
          · exact fun past s j hj => hrejected (i :: past) s j (List.mem_cons_of_mem _ hj)
          · exact hstep [] s next i (by simp) hs hround

/-- A loop over entries each of which is accepted or not by itself. -/
theorem atFirstError_iff_of_isOk {f : α → ι → Except ε α} {accepted rejected : ι → Prop}
    (h : ∀ s i, (∃ s', f s i = .ok s') ↔ accepted i) (s : α) (items : List ι) :
    AtFirstError f (fun _ => rejected) s items ↔
      AtFirstRefused (fun _ => accepted) (fun _ => rejected) items := by
  refine atFirstError_iff_atFirstRefused (R := fun _ _ => True) ?_ ?_ ?_ trivial
  · exact fun _ _ _ _ _ _ _ => trivial
  · exact fun _ s i _ _ => h s i
  · exact fun _ _ _ _ _ => Iff.rfl

/-- **Nested loops.**  A loop whose rounds are loops over parts stops where the loop over all parts
does. -/
theorem atFirstError_flatMap {κ : Type*} {β : Type u} {f : α → ι → Except ε α}
    {g : β → κ → Except ε' β} {rejected : β → κ → Prop} (view : α → β) (parts : ι → List κ)
    {items : List ι}
    (h : ∀ s, ∀ i ∈ items,
      SameOutcome (fun s' t => t = view s') (f s i) ((parts i).foldlM g (view s))) (s : α) :
    AtFirstError f (fun s i => AtFirstError g rejected (view s) (parts i)) s items ↔
      AtFirstError g rejected (view s) (items.flatMap parts) := by
  induction items generalizing s with
  | nil => exact Iff.rfl
  | cons i items ih =>
      obtain ⟨hhead, -⟩ := List.forall_mem_cons.1 (h s)
      rw [List.flatMap_cons]
      generalize hround : f s i = round at hhead
      generalize hparts : (parts i).foldlM g (view s) = result at hhead
      cases hhead with
      | error =>
          rw [atFirstError_cons_error hround, atFirstError_append_of_error hparts]
      | ok hview =>
          subst hview
          rw [atFirstError_cons_ok hround, atFirstError_append_of_ok hparts]
          exact ih (fun s j hj => h s j (List.mem_cons_of_mem _ hj)) _

/-! ## Comparing the errors

The rules are those of a comparison of outcomes, with the condition carried along. -/

/-- If both programs fail, their errors count as the same iff the condition holds. Nothing is said
if one of them succeeds. -/
def Judged (same : ε → ε' → Prop) (condition : Prop) (x : Except ε α) (y : Except ε' α') : Prop :=
  ∀ e e', x = .error e → y = .error e' → (same e e' ↔ condition)

namespace Judged

variable {same : ε → ε' → Prop} {condition : Prop} {x : Except ε α} {y : Except ε' α'}

theorem ok_left (a : α) : Judged same condition (.ok a) y := fun _ _ h => by cases h

theorem ok_right (b : α') : Judged same condition x (.ok b) := fun _ _ _ h => by cases h

theorem error {e : ε} {e' : ε'} (h : same e e' ↔ condition) :
    Judged same condition (.error e : Except ε α) (.error e' : Except ε' α') := by
  intro d d' hd hd'
  obtain rfl := Except.error.inj hd
  obtain rfl := Except.error.inj hd'
  exact h

theorem congr {condition' : Prop} (h : Judged same condition x y)
    (hiff : condition ↔ condition') : Judged same condition' x y :=
  fun e e' hx hy => (h e e' hx hy).trans hiff

/-- Programs all of whose errors count as the same. -/
theorem of_errorsAre {P : ε → Prop} {P' : ε' → Prop} (hx : ErrorsAre P x) (hy : ErrorsAre P' y)
    (hsame : ∀ e e', P e → P' e' → same e e') : Judged same True x y :=
  fun e e' he he' => iff_of_true (hsame e e' (hx e he) (hy e' he')) trivial

/-- What follows the first step is judged by itself, if the first step succeeds in both. -/
theorem bind {R : α → α' → Prop} {f : α → Except ε β} {g : α' → Except ε' β'}
    (hsame : SameOutcome R x y) (hfirst : Judged same condition x y)
    (hnext : ∀ a b, x = .ok a → R a b → Judged same condition (f a) (g b)) :
    Judged same condition (x >>= f) (y >>= g) := by
  cases hsame with
  | ok h => exact hnext _ _ rfl h
  | @error e e' =>
      intro d d' hd hd'
      obtain rfl := Except.error.inj hd
      obtain rfl := Except.error.inj hd'
      exact hfirst e e' rfl rfl

/-- Two loops over one list, judged by the entry at which they stop. -/
theorem foldlM_same {f : α → ι → Except ε α} {g : α' → ι → Except ε' α'}
    {Q : List ι → α → α' → Prop} {rejected : α → ι → Prop}
    (hround : ∀ i rest a b, Q (i :: rest) a b → SameOutcome (Q rest) (f a i) (g b i))
    (hjudged : ∀ i rest a b, Q (i :: rest) a b → Judged same (rejected a i) (f a i) (g b i))
    {entries : List ι} {a : α} {b : α'} (hab : Q entries a b) :
    Judged same (AtFirstError f rejected a entries) (entries.foldlM f a) (entries.foldlM g b) := by
  induction entries generalizing a b with
  | nil => exact ok_left a
  | cons i entries ih =>
      rw [List.foldlM_cons, List.foldlM_cons]
      have hfirst := hjudged i entries a b hab
      refine bind (hround i entries a b hab) ?_ (fun a' b' hok hab' => ?_)
      · intro e e' he he'
        rw [hfirst e e' he he', atFirstError_cons_error he]
      · exact (ih hab').congr (atFirstError_cons_ok hok).symm

/-- Two loops over one list whose rounds keep a relation, judged by the entry at which they
stop. -/
theorem foldlM {R : α → α' → Prop} {f : α → ι → Except ε α} {g : α' → ι → Except ε' α'}
    {rejected : α → ι → Prop} {entries : List ι}
    (hround : ∀ a b, R a b → ∀ i ∈ entries, SameOutcome R (f a i) (g b i))
    (hjudged : ∀ a b, R a b → ∀ i ∈ entries, Judged same (rejected a i) (f a i) (g b i))
    {a : α} {b : α'} (hab : R a b) :
    Judged same (AtFirstError f rejected a entries) (entries.foldlM f a) (entries.foldlM g b) := by
  refine foldlM_same (Q := fun rest a b => R a b ∧ ∀ i ∈ rest, i ∈ entries) ?_ ?_
    ⟨hab, fun _ hi => hi⟩
  · rintro i rest a b ⟨hab, hrest⟩
    refine (hround a b hab i (hrest i (by simp))).mono (fun a' b' hab' => ⟨hab', ?_⟩)
    exact fun j hj => hrest j (List.mem_cons_of_mem _ hj)
  · rintro i rest a b ⟨hab, hrest⟩
    exact hjudged a b hab i (hrest i (by simp))

end Judged

end Framework

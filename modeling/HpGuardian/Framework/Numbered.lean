import HpGuardian.Framework.Outcomes

/-!
# Reading numbered items

A reader takes the items of a list in order, carries a state along, and stops at the first item it
refuses with an error that has the item's number.  Two readers are compared item by item: as long
as they treat each item alike they stay in step, and after an item that they treat differently they
never end alike, because any later error has a later number.

This makes an exact condition for two readers to end alike.  `InStep` says that nothing that is
treated differently comes before the first item that both refuse; it is enough
(`Readers.alike_of_inStep`).  It is also necessary, if a difference is a refusal by one of them
only or a refusal with another error (`SeparatedReaders.not_alike_of_differs`), unless the lists
themselves are different: then the two readers may lose step and by accident still end in the same
way, and the converse leaves this case open (`SeparatedReaders.inStep_or_forks`, with `Forks` for
the case).

What an item is and how two lists come to be different is up to the user: the readers may be given
the same text cut into items in two ways.
-/

namespace Framework

section Read

variable {σ α ε : Type*}

/-- Reads the items, the first of which has the number `n`. -/
def readFrom (f : ℕ → σ → α → Except ε σ) (n : ℕ) (s : σ) : List α → Except ε σ
  | [] => .ok s
  | a :: as =>
      match f n s a with
      | .ok s' => readFrom f (n + 1) s' as
      | .error e => .error e

variable {f : ℕ → σ → α → Except ε σ}

theorem readFrom_cons_ok {n : ℕ} {s s' : σ} {a : α} (h : f n s a = .ok s') (as : List α) :
    readFrom f n s (a :: as) = readFrom f (n + 1) s' as := by
  rw [readFrom, h]

theorem readFrom_cons_error {n : ℕ} {s : σ} {a : α} {e : ε} (h : f n s a = .error e)
    (as : List α) : readFrom f n s (a :: as) = .error e := by
  rw [readFrom, h]

/-- A loop over numbered items is a reader, wherever the numbers start. -/
theorem foldlM_zipIdx (step : σ → α × ℕ → Except ε σ) (start n : ℕ) (s : σ) (as : List α) :
    (as.zipIdx (start + n)).foldlM step s =
      readFrom (fun n s a => step s (a, start + n)) n s as := by
  induction as generalizing n s with
  | nil => rfl
  | cons a as ih =>
      rw [List.zipIdx_cons, List.foldlM_cons, readFrom]
      cases step s (a, start + n) with
      | error e => rfl
      | ok s' => exact ih (n + 1) s'

/-- An error has the number of one of the items. -/
theorem le_number_of_error {number : ε → ℕ} (hnumber : ∀ n s a e, f n s a = .error e → number e = n)
    {n : ℕ} {s : σ} {as : List α} {e : ε} (h : readFrom f n s as = .error e) : n ≤ number e := by
  induction as generalizing n s with
  | nil => cases h
  | cons a as ih =>
      cases hstep : f n s a with
      | error e' =>
          rw [readFrom_cons_error hstep] at h
          obtain rfl := Except.error.inj h
          exact Nat.le_of_eq (hnumber n s a e' hstep).symm
      | ok s' =>
          rw [readFrom_cons_ok hstep] at h
          exact Nat.le_of_succ_le (ih h)

end Read

/-! ## Two readers

The condition, and its two halves.  `Readers` collects what is needed for the first half, and
`SeparatedReaders` what the second half needs in addition. -/

section InStep

variable {ι α : Type*} (differs : ℕ → ι → α → Prop) (next : ℕ → ι → α → Option ι)

/-- No item that is treated differently, and no difference of the two lists, comes before the first
item that both readers refuse; `next` is the position after an item that is not refused. -/
def InStep : ℕ → ι → List α → List α → Prop
  | _, _, [], [] => True
  | n, i, a :: as, b :: bs => a = b ∧ ¬ differs n i a ∧ ∀ j ∈ next n i a, InStep (n + 1) j as bs
  | _, _, _, _ => False

/-- A difference of the two lists comes before the first item that is refused or treated
differently. From there on the readers look at different items, and nothing is said about how they
end. -/
def Forks : ℕ → ι → List α → List α → Prop
  | _, _, [], [] => False
  | n, i, a :: as, b :: bs =>
      a ≠ b ∨ (¬ differs n i a ∧ ∃ j ∈ next n i a, Forks (n + 1) j as bs)
  | _, _, _, _ => True

variable {differs next}

theorem not_forks_self (n : ℕ) (i : ι) (as : List α) : ¬ Forks differs next n i as as := by
  induction as generalizing n i with
  | nil => exact id
  | cons a as ih =>
      rintro (hne | ⟨-, j, -, hforks⟩)
      · exact hne rfl
      · exact ih (n + 1) j hforks

end InStep

/-- Two readers whose states are related at each position: unless an item is treated differently,
both take it or both refuse it with the same error. -/
structure Readers {ι σ τ α ε δ : Type*} (f : ℕ → σ → α → Except ε σ) (g : ℕ → τ → α → Except δ τ)
    (rel : ι → σ → τ → Prop) (same : ε → δ → Prop) (differs : ℕ → ι → α → Prop)
    (next : ℕ → ι → α → Option ι) : Prop where
  taken : ∀ n i s t a j, rel i s t → ¬ differs n i a → next n i a = some j →
    ∃ s' t', f n s a = .ok s' ∧ g n t a = .ok t' ∧ rel j s' t'
  refused : ∀ n i s t a, rel i s t → ¬ differs n i a → next n i a = none →
    ∃ e d, f n s a = .error e ∧ g n t a = .error d ∧ same e d

/-- An item that is treated differently is refused by one reader only, or with different errors;
and the same error has the same number in both. -/
structure SeparatedReaders {ι σ τ α ε δ : Type*} (f : ℕ → σ → α → Except ε σ)
    (g : ℕ → τ → α → Except δ τ) (rel : ι → σ → τ → Prop) (same : ε → δ → Prop)
    (number : ε → ℕ) (number' : δ → ℕ) (differs : ℕ → ι → α → Prop)
    (next : ℕ → ι → α → Option ι) : Prop extends Readers f g rel same differs next where
  apart : ∀ n i s t a, rel i s t → differs n i a →
    (∃ e t', f n s a = .error e ∧ g n t a = .ok t') ∨
      (∃ s' d, f n s a = .ok s' ∧ g n t a = .error d) ∨
      ∃ e d, f n s a = .error e ∧ g n t a = .error d ∧ ¬ same e d
  number_eq : ∀ n s a e, f n s a = .error e → number e = n
  number_eq' : ∀ n t a d, g n t a = .error d → number' d = n
  same_number : ∀ e d, same e d → number e = number' d

section Readers

variable {ι σ τ α ε δ : Type*} {f : ℕ → σ → α → Except ε σ} {g : ℕ → τ → α → Except δ τ}
  {rel : ι → σ → τ → Prop} {same : ε → δ → Prop} {number : ε → ℕ} {number' : δ → ℕ}
  {differs : ℕ → ι → α → Prop} {next : ℕ → ι → α → Option ι} {i : ι} {s : σ} {t : τ} {n : ℕ}
  {as bs : List α}

/-- **Enough.** Readers that stay in step end alike: both with related results, or both at the same
item with the same error. -/
theorem Readers.alike_of_inStep (h : Readers f g rel same differs next)
    (hrel : rel i s t) (hstep : InStep differs next n i as bs) :
    Alike (fun s t => ∃ j, rel j s t) same (readFrom f n s as) (readFrom g n t bs) := by
  induction as generalizing bs i s t n with
  | nil =>
      cases bs with
      | nil => exact .ok ⟨i, hrel⟩
      | cons b bs => exact hstep.elim
  | cons a as ih =>
      cases bs with
      | nil => exact hstep.elim
      | cons b bs =>
          obtain ⟨rfl, halike, hrest⟩ := hstep
          cases hnext : next n i a with
          | none =>
              obtain ⟨e, d, hf, hg, hsame⟩ := h.refused n i s t a hrel halike hnext
              rw [readFrom_cons_error hf, readFrom_cons_error hg]
              exact .error hsame
          | some j =>
              obtain ⟨s', t', hf, hg, hrel'⟩ := h.taken n i s t a j hrel halike hnext
              rw [readFrom_cons_ok hf, readFrom_cons_ok hg]
              exact ih hrel' (hrest j hnext)

/-- After an item that is treated differently, the readers do not end alike. -/
theorem SeparatedReaders.not_alike_of_differs
    (h : SeparatedReaders f g rel same number number' differs next)
    (hrel : rel i s t) {a : α} (hdiffers : differs n i a) (final : σ → τ → Prop) :
    ¬ Alike final same (readFrom f n s (a :: as)) (readFrom g n t (a :: bs)) := by
  rcases h.apart n i s t a hrel hdiffers with
    ⟨e, t', hf, hg⟩ | ⟨s', d, hf, hg⟩ | ⟨e, d, hf, hg, hsame⟩
  · rw [readFrom_cons_error hf, readFrom_cons_ok hg]
    generalize hrest : readFrom g (n + 1) t' bs = result
    rintro (- | ⟨hsame⟩)
    have hlater := le_number_of_error h.number_eq' hrest
    rw [← h.same_number _ _ hsame, h.number_eq n s a e hf] at hlater
    exact absurd hlater (Nat.not_succ_le_self n)
  · rw [readFrom_cons_ok hf, readFrom_cons_error hg]
    generalize hrest : readFrom f (n + 1) s' as = result
    rintro (- | ⟨hsame⟩)
    have hlater := le_number_of_error h.number_eq hrest
    rw [h.same_number _ _ hsame, h.number_eq' n t a d hg] at hlater
    exact absurd hlater (Nat.not_succ_le_self n)
  · rw [readFrom_cons_error hf, readFrom_cons_error hg]
    rintro (- | ⟨hsame'⟩)
    exact hsame hsame'

/-- **Needed.** Readers that end alike have stayed in step, unless their lists fork. -/
theorem SeparatedReaders.inStep_or_forks
    (h : SeparatedReaders f g rel same number number' differs next)
    (hrel : rel i s t) {final : σ → τ → Prop}
    (halike : Alike final same (readFrom f n s as) (readFrom g n t bs)) :
    InStep differs next n i as bs ∨ Forks differs next n i as bs := by
  induction as generalizing bs i s t n with
  | nil =>
      cases bs with
      | nil => exact .inl trivial
      | cons b bs => exact .inr trivial
  | cons a as ih =>
      cases bs with
      | nil => exact .inr trivial
      | cons b bs =>
          by_cases hab : a = b
          · subst hab
            have hagree : ¬ differs n i a := fun hdiffers =>
              h.not_alike_of_differs hrel hdiffers final halike
            cases hnext : next n i a with
            | none =>
                refine .inl ⟨rfl, hagree, fun j hj => ?_⟩
                rw [hnext] at hj
                cases hj
            | some j =>
                obtain ⟨s', t', hf, hg, hrel'⟩ := h.taken n i s t a j hrel hagree hnext
                rw [readFrom_cons_ok hf, readFrom_cons_ok hg] at halike
                refine (ih hrel' halike).imp (fun hstep => ⟨rfl, hagree, fun k hk => ?_⟩)
                  fun hforks => .inr ⟨hagree, j, hnext, hforks⟩
                rw [hnext] at hk
                obtain rfl := Option.some.inj hk
                exact hstep
          · exact .inr (.inl hab)

end Readers

end Framework

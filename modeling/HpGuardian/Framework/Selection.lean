import Mathlib.Data.List.MinMax

/-!
# The first of the largest elements

A loop that replaces its candidate only by a strictly larger element ends at the first of the
largest elements of a list, which is Mathlib's `List.argmax`.  Here that element is described by
the split of the list around it: no element is larger, and none before it is as large
(`FirstLargest`).

The description determines the element and its place (`unique`), so it serves as a specification of
the loop (`foldl_mem_argmax`).  It also shows what depends on the order of the list and what does
not.  The key of the element does not (`key_eq_of_perm`); the element itself may, among those that
share the largest key, and a program that lets the first of them win has a result that depends on
the order exactly there.
-/

namespace Framework

variable {α κ : Type*} [LinearOrder κ] {key : α → κ} {l before after before' after' : List α}
  {best best' : α}

/-- In `before ++ best :: after` no element is larger than `best`, and none before it is as large.
Elements that are as large may follow it. -/
structure FirstLargest (key : α → κ) (before : List α) (best : α) (after : List α) : Prop where
  before : ∀ a ∈ before, key a < key best
  after : ∀ a ∈ after, key a ≤ key best

namespace FirstLargest

theorem le (h : FirstLargest key before best after) {a : α} (ha : a ∈ before ++ best :: after) :
    key a ≤ key best := by
  rcases List.mem_append.1 ha with ha | ha
  · exact (h.before a ha).le
  · rcases List.mem_cons.1 ha with rfl | ha
    · exact le_rfl
    · exact h.after a ha

/-- A longer first part of the same list would contain `best` before a strictly larger element. -/
theorem before_eq_nil {between : List α} (h : FirstLargest key before best after)
    (h' : FirstLargest key (before ++ between) best' after')
    (heq : best :: after = between ++ best' :: after') : between = [] := by
  cases between with
  | nil => rfl
  | cons a between =>
      rw [List.cons_append, List.cons.injEq] at heq
      obtain ⟨rfl, rfl⟩ := heq
      have hlt : key best < key best' := h'.before best (by simp)
      exact absurd (h.after best' (by simp)) (not_le_of_gt hlt)

/-- The split of a list around the first of its largest elements is unique. -/
theorem unique (h : FirstLargest key before best after) (h' : FirstLargest key before' best' after')
    (heq : before ++ best :: after = before' ++ best' :: after') :
    before = before' ∧ best = best' ∧ after = after' := by
  rcases List.append_eq_append_iff.1 heq with ⟨between, rfl, hrest⟩ | ⟨between, rfl, hrest⟩
  · obtain rfl := h.before_eq_nil h' hrest
    simpa using hrest
  · obtain rfl := h'.before_eq_nil h hrest
    simpa [eq_comm] using hrest

/-- Two orders of one list have largest elements with equal keys. -/
theorem key_eq_of_perm (h : FirstLargest key before best after)
    (h' : FirstLargest key before' best' after')
    (hperm : (before ++ best :: after).Perm (before' ++ best' :: after')) : key best = key best' :=
  le_antisymm (h'.le (hperm.mem_iff.1 (by simp))) (h.le (hperm.mem_iff.2 (by simp)))

end FirstLargest

/-- The maximum of a list splits it into what comes before and after. -/
theorem exists_firstLargest_of_mem_argmax (h : best ∈ l.argmax key) :
    ∃ before after, l = before ++ best :: after ∧ FirstLargest key before best after := by
  induction l using List.reverseRecOn generalizing best with
  | nil => simp at h
  | append_singleton l a ih =>
      rw [List.argmax_concat] at h
      cases hmax : l.argmax key with
      | none =>
          obtain rfl := List.argmax_eq_none.1 hmax
          obtain rfl : a = best := by simpa using h
          exact ⟨[], [], rfl, by simp, by simp⟩
      | some m =>
          obtain ⟨before, after, rfl, hm⟩ := ih (Option.mem_def.2 hmax)
          rw [hmax] at h
          dsimp only at h
          split at h
          · -- the last element is larger than all others
            rename_i hlt
            obtain rfl := Option.some.inj h
            exact ⟨before ++ m :: after, [], rfl, fun b hb => (hm.le hb).trans_lt hlt, by simp⟩
          · rename_i hle
            obtain rfl := Option.some.inj h
            refine ⟨before, after ++ [a], by simp, hm.before, fun b hb => ?_⟩
            rcases List.mem_append.1 hb with hb | hb
            · exact hm.after b hb
            · rw [List.mem_singleton.1 hb]
              exact not_lt.1 hle

/-- A loop that keeps its candidate against equals computes the maximum. -/
theorem foldl_mem_argmax (key : α → κ) (first : α) (others : List α) :
    others.foldl (fun best a => if key best < key a then a else best) first ∈
      (first :: others).argmax key := by
  induction others using List.reverseRecOn with
  | nil => simp
  | append_singleton others a ih =>
      rw [List.foldl_append, List.foldl_cons, List.foldl_nil, ← List.cons_append,
        List.argmax_concat, Option.mem_def.1 ih]
      dsimp only
      split <;> rfl

end Framework

import Mathlib.Data.List.Basic

/-!
# Tests that may be undefined

A pass over a list with a test in `Option` is undefined as soon as it meets an element on which the
test is undefined.  If the test is defined on the whole list, the three passes below are the
ordinary ones.

A test that calls a function which may fail (one that needs a time of day to be given, say) is of
this kind.  A program that has checked beforehand that the function cannot fail on its list may be
read as if the test were Boolean, and the lemmas here are that reading: each takes the values of
the test on the list as a Boolean function.
-/

namespace Framework

variable {α : Type} {p : α → Option Bool} {q : α → Bool} {l : List α}

theorem allM_eq_some (h : ∀ a ∈ l, p a = some (q a)) : l.allM p = some (l.all q) := by
  induction l with
  | nil => rfl
  | cons a l ih =>
      obtain ⟨hhead, htail⟩ := List.forall_mem_cons.1 h
      rw [List.allM, hhead, List.all_cons]
      cases q a with
      | true => exact ih htail
      | false => rfl

theorem anyM_eq_some (h : ∀ a ∈ l, p a = some (q a)) : l.anyM p = some (l.any q) := by
  induction l with
  | nil => rfl
  | cons a l ih =>
      obtain ⟨hhead, htail⟩ := List.forall_mem_cons.1 h
      rw [List.anyM, hhead, List.any_cons]
      cases q a with
      | true => rfl
      | false => exact ih htail

theorem filterAuxM_eq_some (h : ∀ a ∈ l, p a = some (q a)) (acc : List α) :
    l.filterAuxM p acc = some ((l.filter q).reverse ++ acc) := by
  induction l generalizing acc with
  | nil => rfl
  | cons a l ih =>
      obtain ⟨hhead, htail⟩ := List.forall_mem_cons.1 h
      rw [List.filterAuxM, hhead]
      cases hq : q a with
      | true =>
          rw [List.filter_cons_of_pos hq, List.reverse_cons, List.append_assoc]
          exact ih htail _
      | false =>
          rw [List.filter_cons_of_neg (by simp [hq])]
          exact ih htail _

theorem filterM_eq_some (h : ∀ a ∈ l, p a = some (q a)) : l.filterM p = some (l.filter q) := by
  rw [List.filterM, filterAuxM_eq_some h, List.append_nil]
  simp

end Framework

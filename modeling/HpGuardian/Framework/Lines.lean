import Mathlib.Data.List.DropRight

/-!
# Texts of terminated lines

A text splits in one way into complete lines, each ended by a terminator, and an unterminated tail.
`render` writes complete lines; `completeText` and `tailOf` take a text apart, and `exists_render`
says that every text is complete lines followed by a tail, none of which contains the terminator.

This normal form is how statements about texts of lines are proved: a text is replaced by its lines
and its tail, after which appending a line, cutting the tail off and reading the lines back are
equations (`render_append`, `completeText_render`, `linesOf_render`).  The letters are arbitrary,
so that the same lemmas serve bytes and characters.
-/

namespace Framework

/-- The lines, each with its terminator. -/
def render {α : Type*} (terminator : α) (lines : List (List α)) : List α :=
  lines.flatMap (fun line => line ++ [terminator])

section Render

variable {α : Type*} {terminator : α}

@[simp] theorem render_nil : render terminator [] = [] := rfl

@[simp] theorem render_cons (line : List α) (lines : List (List α)) :
    render terminator (line :: lines) = line ++ terminator :: render terminator lines := by
  simp [render]

@[simp] theorem render_append (lines lines' : List (List α)) :
    render terminator (lines ++ lines') = render terminator lines ++ render terminator lines' := by
  simp [render]

theorem render_eq_nil_iff {lines : List (List α)} : render terminator lines = [] ↔ lines = [] := by
  cases lines <;> simp

/-- A rendered text is empty or ends with a terminator. -/
theorem render_ends (lines : List (List α)) :
    render terminator lines = [] ∨ ∃ init, render terminator lines = init ++ [terminator] := by
  rcases List.eq_nil_or_concat lines with rfl | ⟨init, line, rfl⟩
  · exact .inl rfl
  · exact .inr ⟨render terminator init ++ line, by simp⟩

/-- Lines with a terminator between them and one at the end. -/
theorem intercalate_append_terminator {lines : List (List α)} (hne : lines ≠ []) :
    [terminator].intercalate lines ++ [terminator] = render terminator lines := by
  induction lines with
  | nil => exact absurd rfl hne
  | cons line lines ih =>
      cases lines with
      | nil => simp
      | cons next lines =>
          rw [render_cons, ← ih (by simp)]
          simp [List.intercalate]

end Render

variable {α : Type*} [DecidableEq α] (terminator : α)

/-- The text up to and with the last terminator. -/
def completeText (text : List α) : List α := text.rdropWhile (fun a => a ≠ terminator)

/-- The text after the last terminator. -/
def tailOf (text : List α) : List α := text.rtakeWhile (fun a => a ≠ terminator)

/-- The complete lines of a text, without their terminators. A tail is not one of them. -/
def linesOf (text : List α) : List (List α) :=
  if completeText terminator text = [] then []
  else (completeText terminator text).dropLast.splitOn terminator

variable {terminator}

/-- A text that is empty or ends with a terminator has nothing but complete lines. -/
theorem completeText_append {text tail : List α}
    (htext : text = [] ∨ ∃ init, text = init ++ [terminator]) (htail : terminator ∉ tail) :
    completeText terminator (text ++ tail) = text := by
  induction tail using List.reverseRecOn with
  | nil =>
      rcases htext with rfl | ⟨init, rfl⟩
      · simp [completeText]
      · simp [completeText]
  | append_singleton tail a ih =>
      rw [List.mem_append, not_or] at htail
      have ha : a ≠ terminator := fun h => htail.2 (by simp [h])
      have hstep : completeText terminator (text ++ (tail ++ [a])) =
          completeText terminator (text ++ tail) := by
        rw [completeText, ← List.append_assoc, List.rdropWhile_concat, if_pos (by simpa using ha)]
        rfl
      rw [hstep]
      exact ih htail.1

theorem tailOf_append {text tail : List α}
    (htext : text = [] ∨ ∃ init, text = init ++ [terminator]) (htail : terminator ∉ tail) :
    tailOf terminator (text ++ tail) = tail := by
  induction tail using List.reverseRecOn with
  | nil =>
      rcases htext with rfl | ⟨init, rfl⟩
      · simp [tailOf]
      · simp [tailOf]
  | append_singleton tail a ih =>
      rw [List.mem_append, not_or] at htail
      have ha : a ≠ terminator := fun h => htail.2 (by simp [h])
      have hstep : tailOf terminator (text ++ (tail ++ [a])) =
          tailOf terminator (text ++ tail) ++ [a] := by
        rw [tailOf, ← List.append_assoc, List.rtakeWhile_concat, if_pos (by simpa using ha)]
        rfl
      rw [hstep, ih htail.1]

theorem completeText_render {lines : List (List α)} {tail : List α} (htail : terminator ∉ tail) :
    completeText terminator (render terminator lines ++ tail) = render terminator lines :=
  completeText_append (render_ends lines) htail

theorem tailOf_render {lines : List (List α)} {tail : List α} (htail : terminator ∉ tail) :
    tailOf terminator (render terminator lines ++ tail) = tail :=
  tailOf_append (render_ends lines) htail

theorem completeText_append_tailOf (text : List α) :
    completeText terminator text ++ tailOf terminator text = text := by
  induction text using List.reverseRecOn with
  | nil => rfl
  | append_singleton text a ih =>
      rw [completeText, tailOf, List.rdropWhile_concat, List.rtakeWhile_concat]
      split_ifs with h
      · rw [← List.append_assoc]
        exact congrArg (· ++ [a]) ih
      · simp

/-- Every text consists of complete lines and a tail, and neither the lines nor the tail contain
the terminator. A text that is torn in the middle of a line is one with a tail. -/
theorem exists_render (terminator : α) (text : List α) :
    ∃ lines tail, text = render terminator lines ++ tail ∧
      (∀ line ∈ lines, terminator ∉ line) ∧ terminator ∉ tail := by
  induction text with
  | nil => exact ⟨[], [], rfl, by simp, by simp⟩
  | cons a text ih =>
      obtain ⟨lines, tail, rfl, hlines, htail⟩ := ih
      by_cases ha : a = terminator
      · subst ha
        exact ⟨[] :: lines, tail, by simp, List.forall_mem_cons.2 ⟨by simp, hlines⟩, htail⟩
      · cases lines with
        | nil => exact ⟨[], a :: tail, rfl, by simp, by simp [Ne.symm ha, htail]⟩
        | cons line lines =>
            obtain ⟨hline, hlines⟩ := List.forall_mem_cons.1 hlines
            exact ⟨(a :: line) :: lines, tail, by simp,
              List.forall_mem_cons.2 ⟨by simp [Ne.symm ha, hline], hlines⟩, htail⟩

/-- The lines of a rendered text, read back. -/
theorem splitOn_render {lines : List (List α)} (hne : lines ≠ [])
    (hlines : ∀ line ∈ lines, terminator ∉ line) :
    (render terminator lines).dropLast.splitOn terminator = lines := by
  have hdrop : (render terminator lines).dropLast = [terminator].intercalate lines := by
    induction lines with
    | nil => exact absurd rfl hne
    | cons line lines ih =>
        cases lines with
        | nil => simp
        | cons next lines =>
            have hrest := ih (by simp) (fun l hl => hlines l (List.mem_cons_of_mem _ hl))
            have hnil : render terminator (next :: lines) ≠ [] := by simp
            rw [render_cons, List.dropLast_append_of_ne_nil (by simp),
              List.dropLast_cons_of_ne_nil hnil, hrest]
            simp [List.intercalate]
  rw [hdrop, List.splitOn_intercalate terminator hlines hne]

theorem linesOf_render {lines : List (List α)} {tail : List α}
    (hlines : ∀ line ∈ lines, terminator ∉ line) (htail : terminator ∉ tail) :
    linesOf terminator (render terminator lines ++ tail) = lines := by
  unfold linesOf
  rw [completeText_render htail]
  split_ifs with h
  · exact (render_eq_nil_iff.1 h).symm
  · exact splitOn_render (fun hnil => h (by rw [hnil]; rfl)) hlines

/-- The complete part of a text has the same lines and no tail. -/
theorem linesOf_completeText (terminator : α) (text : List α) :
    linesOf terminator (completeText terminator text) = linesOf terminator text ∧
      tailOf terminator (completeText terminator text) = [] := by
  obtain ⟨lines, tail, rfl, hlines, htail⟩ := exists_render terminator text
  have hnil : terminator ∉ ([] : List α) := by simp
  rw [completeText_render htail, linesOf_render hlines htail,
    ← List.append_nil (render terminator lines)]
  exact ⟨linesOf_render hlines hnil, tailOf_render hnil⟩

end Framework

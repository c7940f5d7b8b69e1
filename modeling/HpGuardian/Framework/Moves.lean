import HpGuardian.Framework.FiniteMap
import HpGuardian.Framework.StepProgram

/-!
# Restartable plans of moves

A move takes a file from a source to a target.  It is checked before it is carried out: exactly one
of the two must exist if the file is expected, and neither otherwise, so a move that was carried
out before is recognized and skipped.  A plan is a list of moves, carried out one after the other,
and it can be interrupted between any two of its steps and started again from the beginning.

`InFlight` is what holds of the files in the meantime, however often that happens: each file that
is expected is at its source or at its target, and the paths outside the plan are as they were.  It
says nothing about which moves were carried out.  Both the files before the plan and the files
after it are in flight, and a restarted plan cannot tell where it was stopped; it has to work from
any of these states.

It does if the plan is separate, that is, if no path occurs in two moves.  Then carrying out one
move leaves the others as they were (`InFlight.rename`), and `forEach_move` carries a plan from any
state in flight to its end, with every file at its target, and in flight wherever it is stopped.
-/

namespace Framework

variable {κ ν ο ε ι : Type*} [DecidableEq κ]

/-- Files by path. -/
abbrev Files (κ ν : Type*) := Finmap (fun _ : κ => ν)

/-- Gives the file at the source the path of the target. -/
def rename (source target : κ) (files : Files κ ν) : Files κ ν :=
  match files.lookup source with
  | some file => (files.erase source).insert target file
  | none => files

theorem lookup_rename {source target : κ} {files : Files κ ν} {file : ν}
    (hsource : files.lookup source = some file) (hne : source ≠ target) (path : κ) :
    (rename source target files).lookup path =
      if path = target then some file else if path = source then none else files.lookup path := by
  unfold rename
  rw [hsource]
  by_cases htarget : path = target
  · subst htarget
    simp
  · rw [Finmap.lookup_insert_of_ne _ htarget, if_neg htarget]
    by_cases hpath : path = source
    · subst hpath
      simp
    · rw [Finmap.lookup_erase_ne hpath, if_neg hpath]

/-- A source, a target, and whether a file is expected. A move without a file still has its place
in a plan, where it makes sure that nothing is in the way. -/
structure Move (κ : Type*) where
  source : κ
  target : κ
  expected : Bool

/-- Checks a move and carries it out unless it was carried out before. A file that is at neither
place or at both is an error, as is one that is not expected. -/
def move (renamed : κ → κ → ο) (synced : ο) (conflict : ε) (m : Move κ) :
    Program (Files κ ν) ο ε Unit := do
  let sourceExists ← Program.read (fun files => decide (m.source ∈ files))
  let targetExists ← Program.read (fun files => decide (m.target ∈ files))
  if !m.expected then
    if sourceExists || targetExists then Program.raise conflict else pure ()
  else if sourceExists && targetExists then
    Program.raise conflict
  else if sourceExists then do
    Program.step (renamed m.source m.target) (rename m.source m.target)
    Program.step synced id
  else if targetExists then
    pure ()
  else
    Program.raise conflict

/-- The file of a move is still at the source. For a move without a file it says that both places
are empty. -/
def Move.Pending (m : Move κ) (file : Option ν) (files : Files κ ν) : Prop :=
  files.lookup m.source = file ∧ files.lookup m.target = none

/-- The file of a move has reached the target. -/
def Move.Moved (m : Move κ) (file : Option ν) (files : Files κ ν) : Prop :=
  files.lookup m.source = none ∧ files.lookup m.target = file

/-- No two moves of a plan share a path, nor does a move have the same source and target, so that a
move that is carried out changes nothing for the others. -/
structure Separate (moveOf : ι → Move κ) (plan : List ι) : Prop where
  nodup : plan.Nodup
  self : ∀ i ∈ plan, (moveOf i).source ≠ (moveOf i).target
  source : ∀ i ∈ plan, ∀ j ∈ plan, i ≠ j → (moveOf i).source ≠ (moveOf j).source ∧
    (moveOf i).source ≠ (moveOf j).target
  target : ∀ i ∈ plan, ∀ j ∈ plan, i ≠ j → (moveOf i).target ≠ (moveOf j).source ∧
    (moveOf i).target ≠ (moveOf j).target

/-- A path that no move of the plan touches. -/
def Untouched (moveOf : ι → Move κ) (plan : List ι) (path : κ) : Prop :=
  ∀ i ∈ plan, path ≠ (moveOf i).source ∧ path ≠ (moveOf i).target

/-- While a plan is carried out, the file of each move is at its source or at its target, and the
paths outside the plan are as they were. The state before the plan and the state after it are the
two extremes. -/
structure InFlight (moveOf : ι → Move κ) (plan : List ι) (file : ι → Option ν)
    (other : κ → Option ν) (files : Files κ ν) : Prop where
  each : ∀ i ∈ plan, (moveOf i).Pending (file i) files ∨ (moveOf i).Moved (file i) files
  frame : ∀ path, Untouched moveOf plan path → files.lookup path = other path

section

variable {renamed : κ → κ → ο} {synced : ο} {conflict : ε} {moveOf : ι → Move κ}
  {plan : List ι} {file : ι → Option ν} {other : κ → Option ν}

theorem mem_iff_lookup {path : κ} {files : Files κ ν} :
    path ∈ files ↔ (files.lookup path).isSome = true := by
  rw [Finmap.lookup_isSome]

/-- Carrying out one move of a plan leaves the plan in flight, with that move carried out and the
others as they were. -/
theorem InFlight.rename {files : Files κ ν} (h : InFlight moveOf plan file other files)
    (hsep : Separate moveOf plan) {i : ι} (hi : i ∈ plan) {value : ν} (hfile : file i = some value)
    (hsource : files.lookup (moveOf i).source = some value) :
    InFlight moveOf plan file other (rename (moveOf i).source (moveOf i).target files) ∧
      (moveOf i).Moved (file i) (Framework.rename (moveOf i).source (moveOf i).target files) ∧
      ∀ j ∈ plan, (moveOf j).Moved (file j) files →
        (moveOf j).Moved (file j) (Framework.rename (moveOf i).source (moveOf i).target files) := by
  have hlookup := lookup_rename hsource (hsep.self i hi)
  have hmoved : (moveOf i).Moved (file i)
      (Framework.rename (moveOf i).source (moveOf i).target files) := by
    simp [Move.Moved, hlookup, hsep.self i hi, hfile]
  -- a path of another move keeps its file
  have hother : ∀ j ∈ plan, j ≠ i →
      (Framework.rename (moveOf i).source (moveOf i).target files).lookup (moveOf j).source =
          files.lookup (moveOf j).source ∧
        (Framework.rename (moveOf i).source (moveOf i).target files).lookup (moveOf j).target =
          files.lookup (moveOf j).target := by
    intro j hj hji
    have hs := hsep.source j hj i hi hji
    have ht := hsep.target j hj i hi hji
    simp [hlookup, hs.1, hs.2, ht.1, ht.2]
  refine ⟨⟨fun j hj => ?_, fun path hpath => ?_⟩, hmoved, fun j hj hjmoved => ?_⟩
  · by_cases hji : j = i
    · subst hji
      exact .inr hmoved
    · simp only [Move.Pending, Move.Moved, hother j hj hji]
      exact h.each j hj
  · rw [hlookup, if_neg (hpath i hi).2, if_neg (hpath i hi).1]
    exact h.frame path hpath
  · by_cases hji : j = i
    · subst hji
      exact hmoved
    · simpa only [Move.Moved, hother j hj hji] using hjmoved

/-- A step that the loop over a plan takes. -/
def PlanStep (renamed : κ → κ → ο) (synced : ο) (moveOf : ι → Move κ) (plan : List ι)
    (label : ο) : Prop :=
  label = synced ∨ ∃ i ∈ plan, label = renamed (moveOf i).source (moveOf i).target

/-- **Plans restart.** From any state in flight, the loop over the plan succeeds and leaves every
file at its target; wherever it is interrupted, the plan is still in flight. So it can be
interrupted and started again any number of times. -/
theorem forEach_move (renamed : κ → κ → ο) (synced : ο) (conflict : ε) (other : κ → Option ν)
    (hsep : Separate moveOf plan)
    (hexpected : ∀ i ∈ plan, (moveOf i).expected = (file i).isSome) :
    Program.Triple (InFlight moveOf plan file other)
      (Program.forEach (fun i => move renamed synced conflict (moveOf i)) plan)
      (fun files label => InFlight moveOf plan file other files ∧
        PlanStep renamed synced moveOf plan label)
      (fun _ files => InFlight moveOf plan file other files ∧
        ∀ i ∈ plan, (moveOf i).Moved (file i) files)
      (fun _ _ => False) := by
  -- The invariant: the moves before the remaining ones have been carried out.
  have hloop : Program.Triple
      (fun files => InFlight moveOf plan file other files ∧
        ∀ i ∈ plan, i ∉ plan → (moveOf i).Moved (file i) files)
      (Program.forEach (fun i => move renamed synced conflict (moveOf i)) plan)
      (fun files label => InFlight moveOf plan file other files ∧
        PlanStep renamed synced moveOf plan label)
      (fun _ files => InFlight moveOf plan file other files ∧
        ∀ i ∈ plan, i ∉ ([] : List ι) → (moveOf i).Moved (file i) files)
      (fun _ _ => False) := by
    refine Program.Triple.forEach
      (I := fun rest files => InFlight moveOf plan file other files ∧
        ∀ i ∈ plan, i ∉ rest → (moveOf i).Moved (file i) files) ?_
    rintro i rest ⟨done, hplan⟩ files ⟨hflight, hdone⟩
    have hi : i ∈ plan := by simp [hplan]
    -- after this move, the remaining ones are `rest`
    have hnext : ∀ files' : Files κ ν, (moveOf i).Moved (file i) files' →
        (∀ j ∈ plan, (moveOf j).Moved (file j) files → (moveOf j).Moved (file j) files') →
        ∀ j ∈ plan, j ∉ rest → (moveOf j).Moved (file j) files' := by
      intro files' hmoved hkeep j hj hjrest
      by_cases hji : j = i
      · subst hji
        exact hmoved
      · exact hkeep j hj (hdone j hj (by simp [hji, hjrest]))
    have hexp := hexpected i hi
    simp only [move, Program.read_bind_apply, mem_iff_lookup]
    cases hvalue : file i with
    | none =>
        have hboth : files.lookup (moveOf i).source = none ∧
            files.lookup (moveOf i).target = none := by
          rcases hflight.each i hi with h | h <;> simpa [Move.Pending, Move.Moved, hvalue] using h
        have hmoved : (moveOf i).Moved (file i) files := by simpa [Move.Moved, hvalue] using hboth
        simp only [hexp, hvalue, hboth]
        exact ⟨by simp, hflight, hnext files hmoved fun _ _ h => h⟩
    | some value =>
        rcases hflight.each i hi with h | h
        · obtain ⟨hsource, htarget⟩ := h
          rw [hvalue] at hsource
          obtain ⟨hflight', hmoved, hkeep⟩ := hflight.rename hsep hi hvalue hsource
          simp only [hexp, hvalue, hsource, htarget]
          refine ⟨?_, hflight', hnext _ hmoved hkeep⟩
          intro step hstep
          rcases List.mem_cons.1 hstep with rfl | hstep
          · exact ⟨hflight, .inr ⟨i, hi, rfl⟩⟩
          · obtain rfl := List.mem_singleton.1 hstep
            exact ⟨hflight', .inl rfl⟩
        · obtain ⟨hsource, htarget⟩ := h
          rw [hvalue] at htarget
          simp only [hexp, hvalue, hsource, htarget]
          exact ⟨by simp, hflight, hnext files ⟨hsource, by rw [htarget, hvalue]⟩ fun _ _ h => h⟩
  exact hloop.conseq (fun files h => ⟨h, fun i hi hnot => absurd hi hnot⟩) (fun _ _ h => h)
    (fun _ files h => ⟨h.1, fun i hi => h.2 i hi (by simp)⟩) (fun _ _ h => h)

end

end Framework

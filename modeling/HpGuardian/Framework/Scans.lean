import HpGuardian.Framework.Moves

/-!
# Loops that fail at the first bad item

Each round of the loop finds its item in order and skips it, acts on it, or fails.  What the rounds
find is independent: acting on one item changes nothing about the others.  `FailsFirst` is the
condition under which such a loop, if it fails, has not acted on anything.

The condition is exact.  A loop that fails although an item to act on comes before the first
failing one has acted on that item; a loop that fails first has only skipped.  `Scans` collects
what has to be known of the rounds for this: each does what its verdict on the state says, an
action leaves the verdicts on the other items alone, and its trace in the state (`done`) is not
undone later.  With it, `unchanged_iff` compares the state before and after for any notion of
sameness that notices a single action.

Plans of moves are scans, by `move_scans`: a move that was carried out leaves its source empty.
-/

namespace Framework

/-- What a round does with its item: leaves it, changes it, or ends the loop with an error. -/
inductive Verdict where
  | skip
  | act
  | fail
  deriving DecidableEq, Repr

/-- No item to act on comes before the first item that fails. Of a list without failing items
nothing is asked. -/
def FailsFirst {ι : Type*} (verdict : ι → Verdict) : List ι → Prop
  | [] => True
  | i :: is =>
      match verdict i with
      | .fail => True
      | .skip => FailsFirst verdict is
      | .act => ∀ j ∈ is, verdict j ≠ .fail

section FailsFirst

variable {ι : Type*} {verdict verdict' : ι → Verdict} {items : List ι}

theorem failsFirst_of_forall (h : ∀ i ∈ items, verdict i ≠ .fail) :
    FailsFirst verdict items := by
  induction items with
  | nil => trivial
  | cons i items ih =>
      obtain ⟨hi, hitems⟩ := List.forall_mem_cons.1 h
      simp only [FailsFirst]
      cases hverdict : verdict i with
      | fail => trivial
      | skip => exact ih hitems
      | act => exact hitems

/-- Without the condition, an item to act on comes first. -/
theorem exists_act_of_not_failsFirst (h : ¬ FailsFirst verdict items) :
    (∃ i ∈ items, verdict i = .fail) ∧
      ∃ before i after, items = before ++ i :: after ∧ verdict i = .act ∧
        ∀ j ∈ before, verdict j ≠ .fail := by
  induction items with
  | nil => exact absurd trivial h
  | cons i items ih =>
      simp only [FailsFirst] at h
      cases hverdict : verdict i with
      | fail =>
          rw [hverdict] at h
          exact absurd trivial h
      | skip =>
          rw [hverdict] at h
          obtain ⟨⟨k, hk, hfail⟩, before, j, after, rfl, hact, hbefore⟩ := ih h
          refine ⟨⟨k, List.mem_cons_of_mem _ hk, hfail⟩, i :: before, j, after, rfl, hact, ?_⟩
          exact List.forall_mem_cons.2 ⟨by simp [hverdict], hbefore⟩
      | act =>
          rw [hverdict] at h
          push Not at h
          obtain ⟨k, hk, hfail⟩ := h
          exact ⟨⟨k, List.mem_cons_of_mem _ hk, hfail⟩, [], i, items, rfl, hverdict, by simp⟩

end FailsFirst

/-- A loop whose rounds skip, act or fail by a verdict on the state, independently of each other;
`done` says that an item has been acted on, and stays true. -/
structure Scans {σ ο ε ι : Type*} (body : ι → Program σ ο ε Unit) (verdict : ι → σ → Verdict)
    (done : ι → σ → Prop) (e : ε) (items : List ι) : Prop where
  nodup : items.Nodup
  skip : ∀ i ∈ items, ∀ s, verdict i s = .skip → body i s = ⟨[], s, .ok ()⟩
  fail : ∀ i ∈ items, ∀ s, verdict i s = .fail → body i s = ⟨[], s, .error e⟩
  act : ∀ i ∈ items, ∀ s, verdict i s = .act → ∃ steps t, body i s = ⟨steps, t, .ok ()⟩ ∧
    done i t ∧ ∀ j ∈ items, j ≠ i → verdict j t = verdict j s ∧ (done j s → done j t)

namespace Scans

variable {σ ο ε ι : Type*} {body : ι → Program σ ο ε Unit} {verdict : ι → σ → Verdict}
  {done : ι → σ → Prop} {e : ε} {i : ι} {items : List ι} {s : σ}

theorem tail (h : Scans body verdict done e (i :: items)) : Scans body verdict done e items where
  nodup := (List.nodup_cons.1 h.nodup).2
  skip j hj := h.skip j (List.mem_cons_of_mem _ hj)
  fail j hj := h.fail j (List.mem_cons_of_mem _ hj)
  act j hj s hact := by
    obtain ⟨steps, t, hrun, hdone, hother⟩ := h.act j (List.mem_cons_of_mem _ hj) s hact
    exact ⟨steps, t, hrun, hdone, fun k hk => hother k (List.mem_cons_of_mem _ hk)⟩

/-- One round and the loop over the rest; the rest finds what it would have found before. -/
theorem round (h : Scans body verdict done e (i :: items)) (s : σ) :
    (verdict i s = .fail ∧ Program.forEach body (i :: items) s = ⟨[], s, .error e⟩) ∨
      (verdict i s = .skip ∧ Program.forEach body (i :: items) s = Program.forEach body items s) ∨
      (verdict i s = .act ∧ ∃ steps t, done i t ∧
        (∀ j ∈ items, verdict j t = verdict j s ∧ (done j s → done j t)) ∧
        Program.forEach body (i :: items) s =
          ⟨steps ++ (Program.forEach body items t).steps, (Program.forEach body items t).final,
            (Program.forEach body items t).result⟩) := by
  rw [Program.forEach_cons]
  cases hverdict : verdict i s with
  | fail =>
      refine .inl ⟨rfl, ?_⟩
      have hrun := h.fail i List.mem_cons_self s hverdict
      rw [Program.bind_error (e := e) (by rw [hrun]), hrun]
  | skip =>
      refine .inr (.inl ⟨rfl, ?_⟩)
      rw [Program.bind_run (h.skip i List.mem_cons_self s hverdict)]
      rfl
  | act =>
      obtain ⟨steps, t, hrun, hdone, hother⟩ := h.act i List.mem_cons_self s hverdict
      refine .inr (.inr ⟨rfl, steps, t, hdone, fun j hj => hother j (List.mem_cons_of_mem _ hj) ?_,
        Program.bind_run hrun⟩)
      rintro rfl
      exact (List.nodup_cons.1 h.nodup).1 hj

/-- The loop fails iff an item fails. -/
theorem result (h : Scans body verdict done e items) (s : σ) :
    ((Program.forEach body items s).result = .ok () ∧ ∀ i ∈ items, verdict i s ≠ .fail) ∨
      ((Program.forEach body items s).result = .error e ∧ ∃ i ∈ items, verdict i s = .fail) := by
  induction items generalizing s with
  | nil => exact .inl ⟨rfl, by simp⟩
  | cons i items ih =>
      rcases h.round s with ⟨hfail, hrun⟩ | ⟨hskip, hrun⟩ | ⟨hact, steps, t, -, hother, hrun⟩
      · rw [hrun]
        exact .inr ⟨rfl, i, List.mem_cons_self, hfail⟩
      · rw [hrun]
        refine (ih h.tail s).imp ?_ ?_
        · rintro ⟨hok, hall⟩
          exact ⟨hok, List.forall_mem_cons.2 ⟨by simp [hskip], hall⟩⟩
        · rintro ⟨herror, j, hj, hfail⟩
          exact ⟨herror, j, List.mem_cons_of_mem _ hj, hfail⟩
      · rw [hrun]
        refine (ih h.tail t).imp ?_ ?_
        · rintro ⟨hok, hall⟩
          exact ⟨hok, List.forall_mem_cons.2 ⟨by simp [hact], fun j hj => by
            rw [← (hother j hj).1]
            exact hall j hj⟩⟩
        · rintro ⟨herror, j, hj, hfail⟩
          exact ⟨herror, j, List.mem_cons_of_mem _ hj, by rw [← (hother j hj).1, hfail]⟩

/-- A loop that fails first leaves the state as it was. -/
theorem unchanged (h : Scans body verdict done e items)
    (hfail : ∃ i ∈ items, verdict i s = .fail)
    (hfirst : FailsFirst (fun i => verdict i s) items) :
    (Program.forEach body items s).final = s := by
  induction items with
  | nil => rfl
  | cons i items ih =>
      rcases h.round s with ⟨-, hrun⟩ | ⟨hskip, hrun⟩ | ⟨hact, -⟩
      · rw [hrun]
      · rw [hrun]
        obtain ⟨j, hj, hfail⟩ := hfail
        refine ih h.tail ⟨j, ?_, hfail⟩ (by simpa [FailsFirst, hskip] using hfirst)
        rcases List.mem_cons.1 hj with rfl | hj
        · rw [hskip] at hfail
          cases hfail
        · exact hj
      · -- an item to act on comes first, so nothing fails
        obtain ⟨j, hj, hfail⟩ := hfail
        simp only [FailsFirst, hact] at hfirst
        rcases List.mem_cons.1 hj with rfl | hj
        · rw [hact] at hfail
          cases hfail
        · exact absurd hfail (hfirst j hj)

/-- A loop without items to act on leaves the state as it was. -/
theorem idle (h : Scans body verdict done e items) (hidle : ∀ i ∈ items, verdict i s = .skip) :
    Program.forEach body items s = ⟨[], s, .ok ()⟩ := by
  induction items with
  | nil => rfl
  | cons i items ih =>
      obtain ⟨hi, hitems⟩ := List.forall_mem_cons.1 hidle
      rw [Program.forEach_cons, Program.bind_run (h.skip i List.mem_cons_self s hi),
        ih h.tail hitems]
      rfl

/-- An item that has been acted on stays so in a loop over other items. -/
theorem done_forEach {all : List ι} (h : Scans body verdict done e all) {k : ι} (hk : k ∈ all)
    (hsub : ∀ i ∈ items, i ∈ all) (hnot : k ∉ items) (hdone : done k s) :
    done k (Program.forEach body items s).final := by
  induction items generalizing s with
  | nil => exact hdone
  | cons i items ih =>
      obtain ⟨hi, hitems⟩ := List.forall_mem_cons.1 hsub
      obtain ⟨hne, hrest⟩ := not_or.1 (List.mem_cons.not.1 hnot)
      rw [Program.forEach_cons]
      cases hverdict : verdict i s with
      | skip =>
          rw [Program.bind_run (h.skip i hi s hverdict)]
          exact ih hitems hrest hdone
      | fail =>
          have hrun := h.fail i hi s hverdict
          rw [Program.bind_error (e := e) (by rw [hrun]), hrun]
          exact hdone
      | act =>
          obtain ⟨steps, t, hrun, -, hother⟩ := h.act i hi s hverdict
          rw [Program.bind_run hrun]
          exact ih hitems hrest ((hother k hk hne).2 hdone)

/-- An item to act on that comes before all failing ones is acted on. -/
theorem done_of_act {before after : List ι}
    (h : Scans body verdict done e (before ++ i :: after)) (hact : verdict i s = .act)
    (hbefore : ∀ j ∈ before, verdict j s ≠ .fail) :
    done i (Program.forEach body (before ++ i :: after) s).final := by
  induction before generalizing s with
  | nil =>
      rcases h.round s with ⟨hfail, -⟩ | ⟨hskip, -⟩ | ⟨-, steps, t, hdone, -, hrun⟩
      · rw [hact] at hfail
        cases hfail
      · rw [hact] at hskip
        cases hskip
      · rw [List.nil_append, hrun]
        exact h.done_forEach List.mem_cons_self (fun j hj => List.mem_cons_of_mem _ hj)
          (List.nodup_cons.1 h.nodup).1 hdone
  | cons j before ih =>
      obtain ⟨hj, hbefore⟩ := List.forall_mem_cons.1 hbefore
      rw [List.cons_append] at h ⊢
      rcases h.round s with ⟨hfail, -⟩ | ⟨-, hrun⟩ | ⟨-, steps, t, -, hother, hrun⟩
      · exact absurd hfail hj
      · rw [hrun]
        exact ih h.tail hact hbefore
      · rw [hrun]
        refine ih h.tail ?_ fun k hk => ?_
        · rw [(hother i (by simp)).1, hact]
        · rw [(hother k (by simp [hk])).1]
          exact hbefore k hk

/-- A loop that fails leaves the state as it was iff it fails first, for a comparison of states
that tells when an item has been acted on. If an item to act on comes first, the loop acts on it,
and nothing that follows undoes that. -/
theorem unchanged_iff (h : Scans body verdict done e items) (Same : σ → σ → Prop)
    (hrefl : Same s s) (hchanged : ∀ i ∈ items, verdict i s = .act → ∀ t, done i t → ¬ Same s t)
    (hfail : ∃ i ∈ items, verdict i s = .fail) :
    Same s (Program.forEach body items s).final ↔ FailsFirst (fun i => verdict i s) items := by
  constructor
  · intro hsame
    by_contra hfirst
    obtain ⟨-, before, i, after, rfl, hact, hbefore⟩ := exists_act_of_not_failsFirst hfirst
    exact hchanged i (by simp) hact _ (h.done_of_act hact hbefore) hsame
  · intro hfirst
    rw [h.unchanged hfail hfirst]
    exact hrefl

/-- A loop that does not fail leaves the state as it was iff it has nothing to act on. -/
theorem unchanged_iff_idle (h : Scans body verdict done e items) (Same : σ → σ → Prop)
    (hrefl : Same s s) (hchanged : ∀ i ∈ items, verdict i s = .act → ∀ t, done i t → ¬ Same s t)
    (hok : ∀ i ∈ items, verdict i s ≠ .fail) :
    Same s (Program.forEach body items s).final ↔ ∀ i ∈ items, verdict i s = .skip := by
  constructor
  · intro hsame i hi
    cases hverdict : verdict i s with
    | skip => rfl
    | fail => exact absurd hverdict (hok i hi)
    | act =>
        obtain ⟨before, after, rfl⟩ := List.append_of_mem hi
        have hdone := h.done_of_act hverdict fun j hj => hok j (List.mem_append_left _ hj)
        exact absurd hsame (hchanged i hi hverdict _ hdone)
  · intro hidle
    rw [h.idle hidle]
    exact hrefl

end Scans

/-! ## Moves

The loop over a plan of separate moves as a scan.  The verdict on a move is that of its check: skip
if it was carried out, act if its file is at the source, fail otherwise. -/

section Moves

variable {κ ν ο ε ι : Type*} [DecidableEq κ] {moveOf : ι → Move κ} {plan : List ι}

/-- What the check of a move finds. -/
def Move.verdict (m : Move κ) (files : Files κ ν) : Verdict :=
  match m.expected, decide (m.source ∈ files), decide (m.target ∈ files) with
  | false, false, false => .skip
  | true, true, false => .act
  | true, false, true => .skip
  | _, _, _ => .fail

/-- The file of a move, at its source or at its target. -/
def Move.file (m : Move κ) (files : Files κ ν) : Option ν :=
  (files.lookup m.source).or (files.lookup m.target)

/-- A move that does not fail finds its file, if it expects one, at exactly one of the two. -/
theorem Move.of_verdict_ne_fail {m : Move κ} {files : Files κ ν} (h : m.verdict files ≠ .fail) :
    m.expected = (m.file files).isSome ∧
      (m.Pending (m.file files) files ∨ m.Moved (m.file files) files) := by
  unfold Move.verdict at h
  simp only [mem_iff_lookup] at h
  unfold Move.file Move.Pending Move.Moved
  cases hsource : files.lookup m.source <;> cases htarget : files.lookup m.target <;>
    cases hexpected : m.expected <;> simp_all

/-- A move to be carried out has its file at the source. -/
theorem Move.of_verdict_act {m : Move κ} {files : Files κ ν} (h : m.verdict files = .act) :
    (files.lookup m.source).isSome = true := by
  unfold Move.verdict at h
  simp only [mem_iff_lookup] at h
  cases hsource : files.lookup m.source <;> cases htarget : files.lookup m.target <;>
    cases hexpected : m.expected <;> simp_all

/-- A plan of separate moves is a scan: a move that was carried out leaves its source empty. -/
theorem move_scans (renamed : κ → κ → ο) (synced : ο) (conflict : ε)
    (hsep : Separate moveOf plan) :
    Scans (fun i => (move renamed synced conflict (moveOf i) :
        Program (Files κ ν) ο ε Unit)) (fun i files => (moveOf i).verdict files)
      (fun i files => files.lookup (moveOf i).source = none) conflict plan where
  nodup := hsep.nodup
  skip i hi files hskip := by
    simp only [move, Program.read_bind_apply]
    revert hskip
    unfold Move.verdict
    cases (moveOf i).expected <;> cases decide ((moveOf i).source ∈ files) <;>
      cases decide ((moveOf i).target ∈ files) <;> simp
  fail i hi files hfail := by
    simp only [move, Program.read_bind_apply]
    revert hfail
    unfold Move.verdict
    cases (moveOf i).expected <;> cases decide ((moveOf i).source ∈ files) <;>
      cases decide ((moveOf i).target ∈ files) <;> simp
  act i hi files hact := by
    have hboth : (moveOf i).expected = true ∧ (moveOf i).source ∈ files ∧
        (moveOf i).target ∉ files := by
      revert hact
      unfold Move.verdict
      by_cases hsource : (moveOf i).source ∈ files <;>
        by_cases htarget : (moveOf i).target ∈ files <;>
        cases (moveOf i).expected <;> simp [hsource, htarget]
    obtain ⟨hexpected, hsource, htarget⟩ := hboth
    obtain ⟨file, hfile⟩ := Option.isSome_iff_exists.1 (mem_iff_lookup.1 hsource)
    have hlookup := lookup_rename hfile (hsep.self i hi)
    refine ⟨[(files, renamed (moveOf i).source (moveOf i).target),
      (rename (moveOf i).source (moveOf i).target files, synced)],
      rename (moveOf i).source (moveOf i).target files, ?_, ?_, fun j hj hne => ?_⟩
    · simp only [move, Program.read_bind_apply, hexpected, hsource, htarget]
      rfl
    · rw [hlookup, if_neg (hsep.self i hi), if_pos rfl]
    · -- the paths of another move keep their files
      have hs := hsep.source j hj i hi hne
      have ht := hsep.target j hj i hi hne
      have hsource' := hlookup (moveOf j).source
      have htarget' := hlookup (moveOf j).target
      rw [if_neg hs.2, if_neg hs.1] at hsource'
      rw [if_neg ht.2, if_neg ht.1] at htarget'
      refine ⟨?_, fun hdone => hsource'.trans hdone⟩
      simp only [Move.verdict, mem_iff_lookup, hsource', htarget']

end Moves

end Framework

import Mathlib.Computability.Language

/-!
# Languages of starred items

An item is a test on single letters, optionally starred; a list of items denotes the product of its
items' languages.  Patterns without alternatives and groups are of this form: literal characters, a
wildcard for one letter, and either of them repeated.

A backtracking matcher over such a list is correct as soon as it satisfies the three equations of
`MatchesPrefix` below: the empty list, a plain head, and a starred head unfolded once.  The
equations are what a recursive matcher computes in one step, so its correctness is an induction
that follows the matcher's own recursion, whether it goes down a list, counts positions in a text
or looks results up in a table.
-/

namespace Framework

/-- A test on one letter, possibly repeated: the building block of patterns without alternatives
and groups. -/
structure Item (α : Type*) where
  test : α → Bool
  starred : Bool

namespace Item

variable {α : Type*}

/-- The one-letter words that pass the test. -/
def letters (item : Item α) : Language α := {w | ∃ c, item.test c = true ∧ w = [c]}

open Computability in
/-- The language of one item. -/
def language (item : Item α) : Language α := if item.starred then item.letters∗ else item.letters

/-- The language of a list of items, one after the other. -/
def listLanguage (items : List (Item α)) : Language α := (items.map language).prod

@[simp] theorem listLanguage_nil : listLanguage ([] : List (Item α)) = 1 := rfl

@[simp] theorem listLanguage_cons (item : Item α) (items : List (Item α)) :
    listLanguage (item :: items) = item.language * listLanguage items := by
  simp [listLanguage]

/-- A word matches a list of items up to a tail that meets `final`. With a tail that must be empty
this is membership in the language of the list; with any tail it says that a prefix of the word
matches. -/
def MatchesPrefix (items : List (Item α)) (final : List α → Prop) (w : List α) : Prop :=
  ∃ u v, w = u ++ v ∧ u ∈ listLanguage items ∧ final v

section

variable {item : Item α} {items : List (Item α)} {final : List α → Prop} {w : List α}

theorem matchesPrefix_nil : MatchesPrefix [] final w ↔ final w := by
  constructor
  · rintro ⟨u, v, rfl, hu, hv⟩
    rw [listLanguage_nil, Language.mem_one] at hu
    simpa [hu] using hv
  · intro h
    exact ⟨[], w, rfl, by simp, h⟩

/-- A plain head consumes exactly one letter. -/
theorem matchesPrefix_plain (h : item.starred = false) :
    MatchesPrefix (item :: items) final w ↔
      ∃ c w', w = c :: w' ∧ item.test c = true ∧ MatchesPrefix items final w' := by
  constructor
  · rintro ⟨u, v, rfl, hu, hv⟩
    simp only [listLanguage_cons, language, h, Bool.false_eq_true, if_false,
      Language.mem_mul] at hu
    obtain ⟨-, ⟨c, hc, rfl⟩, b, hb, rfl⟩ := hu
    exact ⟨c, b ++ v, rfl, hc, b, v, rfl, hb, hv⟩
  · rintro ⟨c, -, rfl, hc, u, v, rfl, hu, hv⟩
    refine ⟨c :: u, v, rfl, ?_, hv⟩
    simp only [listLanguage_cons, language, h, Bool.false_eq_true, if_false]
    exact Language.mem_mul.2 ⟨[c], ⟨c, hc, rfl⟩, u, hu, rfl⟩

open Computability in
theorem letters_kstar_cons {c : α} {u : List α} :
    c :: u ∈ item.letters∗ ↔ item.test c = true ∧ u ∈ item.letters∗ := by
  constructor
  · intro h
    obtain ⟨L, hflat, hL⟩ := Language.mem_kstar.1 h
    match L with
    | [] => simp at hflat
    | y :: L =>
        obtain ⟨d, hd, rfl⟩ := hL y (by simp)
        simp only [List.flatten_cons, List.singleton_append, List.cons.injEq] at hflat
        obtain ⟨rfl, rfl⟩ := hflat
        exact ⟨hd, Language.join_mem_kstar (fun z hz => hL z (List.mem_cons_of_mem _ hz))⟩
  · rintro ⟨hc, hu⟩
    obtain ⟨L, rfl, hL⟩ := Language.mem_kstar.1 hu
    refine Language.mem_kstar.2 ⟨[c] :: L, rfl, fun z hz => ?_⟩
    rcases List.mem_cons.1 hz with rfl | hz
    · exact ⟨c, hc, rfl⟩
    · exact hL z hz

open Computability in
theorem mem_letters_kstar {u : List α} : u ∈ item.letters∗ ↔ ∀ c ∈ u, item.test c = true := by
  induction u with
  | nil => simp [Language.nil_mem_kstar]
  | cons c u ih => rw [letters_kstar_cons, ih, List.forall_mem_cons]

/-- The words of one item: a letter that passes the test, or any number of them if it is
starred. -/
theorem mem_language_iff {u : List α} :
    u ∈ item.language ↔
      (∀ c ∈ u, item.test c = true) ∧ (item.starred = true ∨ u.length = 1) := by
  unfold language
  split_ifs with h
  · rw [mem_letters_kstar, and_iff_left (.inl h)]
  · rw [List.length_eq_one_iff, or_iff_right h]
    constructor
    · rintro ⟨c, hc, rfl⟩
      exact ⟨by simpa using hc, c, rfl⟩
    · rintro ⟨hall, c, rfl⟩
      exact ⟨c, hall c (by simp), rfl⟩

/-- A starred head is skipped, or consumes one letter and stays. -/
theorem matchesPrefix_starred (h : item.starred = true) :
    MatchesPrefix (item :: items) final w ↔
      MatchesPrefix items final w ∨
        ∃ c w', w = c :: w' ∧ item.test c = true ∧ MatchesPrefix (item :: items) final w' := by
  constructor
  · rintro ⟨u, v, rfl, hu, hv⟩
    simp only [listLanguage_cons, language, h, if_true, Language.mem_mul] at hu
    obtain ⟨a, ha, b, hb, rfl⟩ := hu
    cases a with
    | nil => exact .inl ⟨b, v, rfl, hb, hv⟩
    | cons c a =>
        obtain ⟨hc, ha⟩ := letters_kstar_cons.1 ha
        refine .inr ⟨c, a ++ b ++ v, by simp, hc, a ++ b, v, rfl, ?_, hv⟩
        simp only [listLanguage_cons, language, h, if_true]
        exact Language.append_mem_mul ha hb
  · rintro (⟨u, v, rfl, hu, hv⟩ | ⟨c, w', rfl, hc, u, v, rfl, hu, hv⟩)
    · refine ⟨u, v, rfl, ?_, hv⟩
      simp only [listLanguage_cons, language, h, if_true]
      exact Language.mem_mul.2 ⟨[], Language.nil_mem_kstar _, u, hu, rfl⟩
    · simp only [listLanguage_cons, language, h, if_true, Language.mem_mul] at hu
      obtain ⟨a, ha, b, hb, rfl⟩ := hu
      refine ⟨c :: (a ++ b), v, rfl, ?_, hv⟩
      simp only [listLanguage_cons, language, h, if_true]
      exact Language.mem_mul.2 ⟨c :: a, letters_kstar_cons.2 ⟨hc, ha⟩, b, hb, rfl⟩

end

end Item

end Framework

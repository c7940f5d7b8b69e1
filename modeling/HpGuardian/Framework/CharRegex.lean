import Mathlib.Computability.Language

/-!
# Regular expressions over letter classes

Regular expressions whose letters are tests on characters, matched against a whole word by
derivatives.

A matcher that a program calls is a backtracking engine.  As long as it has no look-around and no
back-references, the words it accepts as a whole are those of the expression's language: the order
in which it tries the alternatives decides which match it finds, not whether there is one.  So the
matcher here is the shortest correct one, Brzozowski's.  `derivative` is what is left of an
expression after one letter, `nullable` whether nothing need be left, and `fullMatch` folds the one
over the word and asks the other at the end.

The language is given by Mathlib's operations on `Language`, so that its laws are at hand.
`fullMatch_iff` says that the words matched are those of the language; its proof is the step
`mem_language_derivative`, by induction on the expression, and then an induction on the word.  The
`mem_language` lemmas read a language off its expression, one for each constructor and one for each
of the shorthands `seqs`, `alts`, `optional` and `plus`, so that a particular expression can be
turned into a statement about words by `simp`.
-/

namespace Framework

/-- A regular expression over an alphabet of letter classes. A letter is a test, so one expression
can speak of digits of any script or of everything but a newline. -/
inductive Regex (α : Type) where
  | empty
  | epsilon
  | letter (test : α → Bool)
  | seq (first second : Regex α)
  | alt (first second : Regex α)
  | star (body : Regex α)

namespace Regex

variable {α : Type}

/-- Whether the empty word matches. -/
def nullable : Regex α → Bool
  | .empty => false
  | .epsilon => true
  | .letter _ => false
  | .seq first second => first.nullable && second.nullable
  | .alt first second => first.nullable || second.nullable
  | .star _ => true

/-- What is left to match after one letter: the words that complete the letter to a word of the
expression. A product whose first factor may be empty can begin in its second factor as well. -/
def derivative (c : α) : Regex α → Regex α
  | .empty => .empty
  | .epsilon => .empty
  | .letter test => if test c then .epsilon else .empty
  | .seq first second =>
      if first.nullable then .alt (.seq (first.derivative c) second) (second.derivative c)
      else .seq (first.derivative c) second
  | .alt first second => .alt (first.derivative c) (second.derivative c)
  | .star body => .seq (body.derivative c) (.star body)

/-- Whether the whole word matches. -/
def fullMatch (regex : Regex α) (word : List α) : Bool :=
  (word.foldl (fun r c => r.derivative c) regex).nullable

/-- One after the other. -/
def seqs (regexes : List (Regex α)) : Regex α := regexes.foldr seq epsilon

/-- One of several. -/
def alts (regexes : List (Regex α)) : Regex α := regexes.foldr alt empty

/-- Zero or one. -/
def optional (regex : Regex α) : Regex α := .alt regex .epsilon

/-- One or more. -/
def plus (regex : Regex α) : Regex α := .seq regex (.star regex)

/-! ## The language of an expression

Words, not matches: one lemma for each way of building an expression. -/

open Computability in
/-- The words that an expression stands for. -/
def language : Regex α → Language α
  | .empty => 0
  | .epsilon => 1
  | .letter test => {word | ∃ c, test c = true ∧ word = [c]}
  | .seq first second => first.language * second.language
  | .alt first second => first.language + second.language
  | .star body => body.language∗

section

variable {regex first second : Regex α} {word : List α} {c : α}

@[simp] theorem mem_language_empty : word ∈ (empty : Regex α).language ↔ False :=
  ⟨Language.notMem_zero word, False.elim⟩

@[simp] theorem mem_language_epsilon : word ∈ (epsilon : Regex α).language ↔ word = [] :=
  Language.mem_one word

@[simp] theorem mem_language_letter {test : α → Bool} :
    word ∈ (letter test).language ↔ ∃ c, test c = true ∧ word = [c] := Iff.rfl

@[simp] theorem mem_language_seq :
    word ∈ (seq first second).language ↔
      ∃ u ∈ first.language, ∃ v ∈ second.language, u ++ v = word := Language.mem_mul

@[simp] theorem mem_language_alt :
    word ∈ (alt first second).language ↔ word ∈ first.language ∨ word ∈ second.language :=
  Language.mem_add _ _ _

theorem mem_language_star :
    word ∈ (star regex).language ↔
      ∃ words : List (List α), word = words.flatten ∧ ∀ u ∈ words, u ∈ regex.language :=
  Language.mem_kstar

@[simp] theorem mem_language_optional :
    word ∈ regex.optional.language ↔ word ∈ regex.language ∨ word = [] := by
  rw [optional, mem_language_alt, mem_language_epsilon]

/-- A word of a repeated letter class. -/
@[simp] theorem mem_language_star_letter {test : α → Bool} :
    word ∈ (star (letter test)).language ↔ ∀ c ∈ word, test c = true := by
  rw [mem_language_star]
  constructor
  · rintro ⟨words, rfl, hwords⟩ c hc
    obtain ⟨u, hu, hcu⟩ := List.mem_flatten.1 hc
    obtain ⟨d, hd, rfl⟩ := hwords u hu
    rwa [List.mem_singleton.1 hcu]
  · intro h
    refine ⟨word.map (fun c => [c]), by simp [← List.flatMap_def], fun u hu => ?_⟩
    obtain ⟨c, hc, rfl⟩ := List.mem_map.1 hu
    exact ⟨c, h c hc, rfl⟩

/-- One or more words, one after the other. -/
theorem mem_language_plus :
    word ∈ regex.plus.language ↔
      ∃ words : List (List α),
        words ≠ [] ∧ word = words.flatten ∧ ∀ u ∈ words, u ∈ regex.language := by
  rw [plus, mem_language_seq]
  constructor
  · rintro ⟨u, hu, v, hv, rfl⟩
    obtain ⟨words, rfl, hwords⟩ := mem_language_star.1 hv
    exact ⟨u :: words, List.cons_ne_nil u words, rfl, List.forall_mem_cons.2 ⟨hu, hwords⟩⟩
  · rintro ⟨words, hne, rfl, hwords⟩
    obtain ⟨u, rest, rfl⟩ := List.exists_cons_of_ne_nil hne
    obtain ⟨hu, hrest⟩ := List.forall_mem_cons.1 hwords
    exact ⟨u, hu, rest.flatten, mem_language_star.2 ⟨rest, rfl, hrest⟩, rfl⟩

@[simp] theorem mem_language_seqs_nil : word ∈ (seqs ([] : List (Regex α))).language ↔ word = [] :=
  mem_language_epsilon

@[simp] theorem mem_language_seqs_cons {regexes : List (Regex α)} :
    word ∈ (seqs (regex :: regexes)).language ↔
      ∃ u ∈ regex.language, ∃ v ∈ (seqs regexes).language, u ++ v = word := mem_language_seq

theorem mem_language_alts {regexes : List (Regex α)} :
    word ∈ (alts regexes).language ↔ ∃ regex ∈ regexes, word ∈ regex.language := by
  induction regexes with
  | nil => simp [alts]
  | cons regex regexes ih =>
      rw [List.exists_mem_cons_iff, ← ih]
      exact mem_language_alt

/-! ## Matching by derivatives

The two facts about starred languages and products that the derivative rests on, and the
correctness of the matcher. -/

theorem nullable_iff (regex : Regex α) : regex.nullable = true ↔ [] ∈ regex.language := by
  induction regex with
  | empty => simp [nullable]
  | epsilon => simp [nullable]
  | letter test => simp [nullable]
  | seq first second ihfirst ihsecond => simp [nullable, ihfirst, ihsecond]
  | alt first second ihfirst ihsecond => simp [nullable, ihfirst, ihsecond]
  | star body => simp [nullable, language, Language.nil_mem_kstar]

open Computability in
/-- A nonempty word of a starred language begins with a nonempty word of the language. -/
theorem cons_mem_kstar {L : Language α} :
    c :: word ∈ L∗ ↔ ∃ u v, word = u ++ v ∧ c :: u ∈ L ∧ v ∈ L∗ := by
  constructor
  · intro h
    obtain ⟨words, hflat, hwords⟩ := Language.mem_kstar_iff_exists_nonempty.1 h
    rcases words with _ | ⟨_ | ⟨d, u⟩, words⟩
    · cases hflat
    · exact absurd rfl (hwords [] (by simp)).2
    · rw [List.flatten_cons, List.cons_append, List.cons.injEq] at hflat
      obtain ⟨rfl, rfl⟩ := hflat
      exact ⟨u, words.flatten, rfl, (hwords _ (by simp)).1,
        Language.mem_kstar.2 ⟨words, rfl, fun w hw => (hwords w (by simp [hw])).1⟩⟩
  · rintro ⟨u, v, rfl, hu, hv⟩
    obtain ⟨words, rfl, hwords⟩ := Language.mem_kstar.1 hv
    exact Language.mem_kstar.2 ⟨(c :: u) :: words, rfl, List.forall_mem_cons.2 ⟨hu, hwords⟩⟩

/-- A nonempty word of a product begins in the first factor, or in the second one if the first
factor has the empty word. -/
theorem cons_mem_language_seq :
    c :: word ∈ (seq first second).language ↔
      (∃ u v, word = u ++ v ∧ c :: u ∈ first.language ∧ v ∈ second.language) ∨
        [] ∈ first.language ∧ c :: word ∈ second.language := by
  rw [mem_language_seq]
  constructor
  · rintro ⟨u, hu, v, hv, hword⟩
    cases u with
    | nil => exact .inr ⟨hu, by rwa [← hword]⟩
    | cons d u =>
        rw [List.cons_append, List.cons.injEq] at hword
        obtain ⟨rfl, rfl⟩ := hword
        exact .inl ⟨u, v, rfl, hu, hv⟩
  · rintro (⟨u, v, rfl, hu, hv⟩ | ⟨hnil, hword⟩)
    · exact ⟨c :: u, hu, v, hv, rfl⟩
    · exact ⟨[], hnil, c :: word, hword, rfl⟩

/-- The derivative has the words that complete the letter. -/
theorem mem_language_derivative (regex : Regex α) :
    word ∈ (regex.derivative c).language ↔ c :: word ∈ regex.language := by
  induction regex generalizing word with
  | empty => simp [derivative]
  | epsilon => simp [derivative]
  | letter test =>
      cases htest : test c <;> simp [derivative, htest]
  | seq first second ihfirst ihsecond =>
      have hseq : ∀ word, word ∈ (seq (first.derivative c) second).language ↔
          ∃ u v, word = u ++ v ∧ c :: u ∈ first.language ∧ v ∈ second.language := by
        intro word
        simp only [mem_language_seq, ihfirst]
        constructor
        · rintro ⟨u, hu, v, hv, rfl⟩
          exact ⟨u, v, rfl, hu, hv⟩
        · rintro ⟨u, v, rfl, hu, hv⟩
          exact ⟨u, hu, v, hv, rfl⟩
      rw [cons_mem_language_seq, ← nullable_iff, derivative]
      split
      · rename_i hnullable
        rw [mem_language_alt, hseq, ihsecond]
        simp [hnullable]
      · rename_i hnullable
        rw [hseq]
        simp [hnullable]
  | alt first second ihfirst ihsecond => simp [derivative, ihfirst, ihsecond]
  | star body ih =>
      rw [derivative, mem_language_seq, language, cons_mem_kstar]
      simp only [ih]
      constructor
      · rintro ⟨u, hu, v, hv, rfl⟩
        exact ⟨u, v, rfl, hu, hv⟩
      · rintro ⟨u, v, rfl, hu, hv⟩
        exact ⟨u, hu, v, hv, rfl⟩

/-- **Matching.** A whole word is matched iff it is one of the language. The word is taken apart
letter by letter: each letter replaces the expression by its derivative, whose words are the ones
that complete the letter. -/
theorem fullMatch_iff (regex : Regex α) (word : List α) :
    regex.fullMatch word = true ↔ word ∈ regex.language := by
  induction word generalizing regex with
  | nil => exact nullable_iff regex
  | cons c word ih =>
      rw [← mem_language_derivative]
      exact ih (regex.derivative c)

end

end Regex

end Framework

import HpGuardian.Framework.StarredItems

/-!
# Shell-style patterns

A shell-style pattern is a text in which `*` stands for any text, `?` for any character and a set in
brackets for one character of the set; every other character stands for itself.  `glob` reads a
pattern as a list of starred items, so that the texts it matches are the words of a product of
languages (`globMatches_iff`).

The reader of sets follows Python's `fnmatch`.  In a set, `a-z` is a range and a `!` in front takes
the characters that are not in the set; a `]` in front is an ordinary member, and a bracket that is
never closed is an ordinary character.  `fnmatch` drops the empty ranges before it looks for the
`!`, so that one behind an empty range counts as well (`setTest`).

Two facts carry the use of patterns that are put together from a name and a fixed ending.  A name
without pattern characters is read as itself, so the texts such a pattern matches are the name
followed by a text that matches the ending (`globMatches_append_iff`).  A name with pattern
characters has no such reading.
-/

namespace Framework

/-! ## Matching by backtracking

A pattern is a list of starred items, and the matcher tries for a starred item each way of dividing
the text.  That it finds a division if there is one is the correctness of matchers over starred
items in general (`matchesPrefix`), of which this is an instance. -/

namespace Item

section

variable {α : Type*}

/-- What may be left of a text when a starred test has taken a part of it. -/
def remainders (test : α → Bool) : List α → List (List α)
  | [] => [[]]
  | c :: text => (c :: text) :: if test c then remainders test text else []

/-- The items take the whole text, one after the other. -/
def matchesAll : List (Item α) → List α → Bool
  | [], text => text.isEmpty
  | item :: items, text =>
      if item.starred then (remainders item.test text).any (matchesAll items)
      else
        match text with
        | [] => false
        | c :: rest => item.test c && matchesAll items rest

theorem any_remainders_iff {item : Item α} {items : List (Item α)} (hstarred : item.starred = true)
    (ih : ∀ text, matchesAll items text = true ↔ MatchesPrefix items (· = []) text)
    (text : List α) :
    (remainders item.test text).any (matchesAll items) = true ↔
      MatchesPrefix (item :: items) (· = []) text := by
  induction text with
  | nil =>
      rw [matchesPrefix_starred hstarred, remainders, List.any_cons, List.any_nil, Bool.or_false,
        ih]
      refine (or_iff_left ?_).symm
      rintro ⟨c, rest, heq, -⟩
      cases heq
  | cons c text ihText =>
      rw [matchesPrefix_starred hstarred, remainders, List.any_cons, Bool.or_eq_true, ih]
      refine or_congr_right ?_
      cases htest : item.test c with
      | true =>
          rw [if_pos rfl, ihText]
          constructor
          · intro h
            exact ⟨c, text, rfl, htest, h⟩
          · rintro ⟨d, rest, heq, -, h⟩
            obtain ⟨rfl, rfl⟩ := List.cons.inj heq
            exact h
      | false =>
          rw [if_neg Bool.false_ne_true]
          refine iff_of_false (by simp) ?_
          rintro ⟨d, rest, heq, hpass, -⟩
          obtain ⟨rfl, rfl⟩ := List.cons.inj heq
          rw [htest] at hpass
          cases hpass

theorem matchesAll_iff_matchesPrefix (items : List (Item α)) (text : List α) :
    matchesAll items text = true ↔ MatchesPrefix items (· = []) text := by
  induction items generalizing text with
  | nil => rw [matchesPrefix_nil, matchesAll, List.isEmpty_iff]
  | cons item items ih =>
      cases hstarred : item.starred with
      | true =>
          simp only [matchesAll, hstarred, if_true]
          exact any_remainders_iff hstarred ih text
      | false =>
          rw [matchesPrefix_plain hstarred]
          cases text with
          | nil => simp [matchesAll, hstarred]
          | cons c rest =>
              simp only [matchesAll, hstarred, Bool.false_eq_true, if_false, Bool.and_eq_true, ih]
              constructor
              · rintro ⟨htest, h⟩
                exact ⟨c, rest, rfl, htest, h⟩
              · rintro ⟨d, rest', heq, htest, h⟩
                obtain ⟨rfl, rfl⟩ := List.cons.inj heq
                exact ⟨htest, h⟩

/-- **Matching.** The matcher finds the words of the items' language. It satisfies the equations of
a backtracking matcher, and these determine it. -/
theorem matchesAll_iff (items : List (Item α)) (text : List α) :
    matchesAll items text = true ↔ text ∈ listLanguage items := by
  rw [matchesAll_iff_matchesPrefix]
  constructor
  · rintro ⟨u, v, rfl, hu, rfl⟩
    rwa [List.append_nil]
  · intro h
    exact ⟨text, [], (List.append_nil text).symm, h, rfl⟩

end

/-- The item that takes exactly this character. -/
def literal (c : Char) : Item Char := ⟨fun d => d == c, false⟩

/-- The item that takes any text. -/
def anyText : Item Char := ⟨fun _ => true, true⟩

/-- The item that takes any character. -/
def anyLetter : Item Char := ⟨fun _ => true, false⟩

/-- Literals take themselves and leave the rest to the other items. -/
theorem mem_listLanguage_literals {name text : List Char} {items : List (Item Char)} :
    text ∈ listLanguage (name.map literal ++ items) ↔
      ∃ rest, text = name ++ rest ∧ rest ∈ listLanguage items := by
  induction name generalizing text with
  | nil => simp
  | cons c name ih =>
      rw [List.map_cons, List.cons_append, listLanguage_cons, Language.mem_mul]
      have hletter : ∀ word, word ∈ (literal c).language ↔ word = [c] := by
        intro word
        rw [mem_language_iff]
        constructor
        · rintro ⟨htest, hstar | hlength⟩
          · cases hstar
          · obtain ⟨d, rfl⟩ := List.length_eq_one_iff.1 hlength
            rw [beq_iff_eq.1 (htest d (by simp))]
        · rintro rfl
          exact ⟨by simp [literal], .inr rfl⟩
      constructor
      · rintro ⟨word, hword, tail, htail, rfl⟩
        obtain ⟨rest, rfl, hrest⟩ := ih.1 htail
        rw [(hletter word).1 hword]
        exact ⟨rest, rfl, hrest⟩
      · rintro ⟨rest, rfl, hrest⟩
        exact ⟨[c], (hletter [c]).2 rfl, name ++ rest, ih.2 ⟨rest, rfl, hrest⟩, rfl⟩

theorem mem_language_anyText (text : List Char) : text ∈ anyText.language :=
  mem_language_iff.2 ⟨fun _ _ => rfl, .inl rfl⟩

end Item

/-! ## Reading a pattern

The reader goes through the pattern from left to right.  Only a bracket looks ahead: what follows
it is a set if a `]` closes it, and otherwise the bracket stands for itself. -/

/-- A member of a set: a character, or a range of them. -/
inductive SetMember where
  | letter (c : Char)
  | range (low high : Char)

namespace SetMember

/-- The member is an empty range. -/
def isEmpty : SetMember → Bool
  | letter _ => false
  | range low high => decide (high < low)

/-- The character belongs to the member. -/
def contains (c : Char) : SetMember → Bool
  | letter d => c == d
  | range low high => decide (low ≤ c ∧ c ≤ high)

/-- The members that a text between brackets stands for. -/
def parse : List Char → List SetMember
  | low :: '-' :: high :: rest => range low high :: parse rest
  | c :: rest => letter c :: parse rest
  | [] => []

end SetMember

/-- The test of a set.  A `!` in front of what is left without the empty ranges takes the other
characters; a range that starts with this `!` is then taken apart. -/
def setTest (members : List SetMember) (c : Char) : Bool :=
  match members.filter (fun member => !member.isEmpty) with
  | .letter '!' :: rest => !rest.any (SetMember.contains c)
  | .range '!' high :: rest =>
      !(SetMember.letter '-' :: .letter high :: rest).any (SetMember.contains c)
  | rest => rest.any (SetMember.contains c)

/-- The members of the set between brackets; a `!` in front does not start a range. -/
def setMembers : List Char → List SetMember
  | '!' :: rest => .letter '!' :: SetMember.parse rest
  | text => SetMember.parse text

/-- The text up to the first `]`, and the text behind it. -/
def closeSet : List Char → Option (List Char × List Char)
  | [] => none
  | c :: rest =>
      if c = ']' then some ([], rest)
      else (closeSet rest).map (fun (members, rest) => (c :: members, rest))

/-- What follows a `[`: the text up to the `]` that closes the set, and the text behind it.  A `]`
in front, or behind a `!` in front, does not close the set. -/
def splitSet : List Char → Option (List Char × List Char)
  | '!' :: ']' :: rest =>
      (closeSet rest).map (fun (members, rest) => ('!' :: ']' :: members, rest))
  | ']' :: rest => (closeSet rest).map (fun (members, rest) => (']' :: members, rest))
  | text => closeSet text

/-- The items of a pattern; every step reads a character at least, so the length of the pattern is
enough fuel. -/
def globFrom : ℕ → List Char → List (Item Char)
  | 0, _ => []
  | _ + 1, [] => []
  | fuel + 1, c :: rest =>
      if c = '*' then .anyText :: globFrom fuel rest
      else if c = '?' then .anyLetter :: globFrom fuel rest
      else if c = '[' then
        match splitSet rest with
        | some (members, rest) => ⟨setTest (setMembers members), false⟩ :: globFrom fuel rest
        | none => .literal '[' :: globFrom fuel rest
      else .literal c :: globFrom fuel rest

/-- The items of a pattern. -/
def glob (pattern : List Char) : List (Item Char) := globFrom pattern.length pattern

/-- `fnmatchcase`: the pattern matches the whole text. -/
def globMatches (pattern text : String) : Bool :=
  Item.matchesAll (glob pattern.toList) text.toList

/-- **The texts a pattern matches** are the words of the product of its items' languages. -/
theorem globMatches_iff (pattern text : String) :
    globMatches pattern text = true ↔ text.toList ∈ Item.listLanguage (glob pattern.toList) :=
  Item.matchesAll_iff _ _

/-- The pattern `*` matches every text. -/
theorem globMatches_star (text : String) : globMatches "*" text = true := by
  have hitems : glob "*".toList = [Item.anyText] := rfl
  rw [globMatches_iff, hitems, Item.listLanguage_cons, Item.listLanguage_nil, mul_one]
  exact Item.mem_language_anyText _

/-- A set and then any text. -/
theorem globMatches_set_iff {pattern : String} {test : Char → Bool}
    (hitems : glob pattern.toList = [⟨test, false⟩, .anyText]) (text : String) :
    globMatches pattern text = true ↔ ∃ c rest, text.toList = c :: rest ∧ test c = true := by
  rw [globMatches_iff, hitems, Item.listLanguage_cons, Language.mem_mul]
  constructor
  · rintro ⟨word, hword, rest, -, heq⟩
    obtain ⟨htest, hstar | hlength⟩ := Item.mem_language_iff.1 hword
    · cases hstar
    · obtain ⟨c, rfl⟩ := List.length_eq_one_iff.1 hlength
      exact ⟨c, rest, heq.symm, htest c (by simp)⟩
  · rintro ⟨c, rest, heq, htest⟩
    refine ⟨[c], Item.mem_language_iff.2 ⟨by simpa using htest, .inr rfl⟩, rest, ?_, heq.symm⟩
    rw [Item.listLanguage_cons, Item.listLanguage_nil, mul_one]
    exact Item.mem_language_anyText rest

/-! ## Names and endings

A pattern that is a name followed by an ending.  Where the name has no pattern characters, what the
whole matches is the name and then what the ending matches; nothing is said about other names,
which may match anything. -/

/-- A character that stands for itself in every pattern. -/
def PlainLetter (c : Char) : Prop := c ≠ '*' ∧ c ≠ '?' ∧ c ≠ '['

/-- A name that stands for itself in every pattern: it has none of the characters `*`, `?` and
`[`. -/
def PlainName (name : String) : Prop := ∀ c ∈ name.toList, PlainLetter c

instance : DecidablePred PlainLetter := fun c =>
  inferInstanceAs (Decidable (c ≠ '*' ∧ c ≠ '?' ∧ c ≠ '['))

instance : DecidablePred PlainName := fun name =>
  List.decidableBAll PlainLetter name.toList

theorem globFrom_append {name : List Char} (hplain : ∀ c ∈ name, PlainLetter c) (fuel : ℕ)
    (ending : List Char) :
    globFrom (name.length + fuel) (name ++ ending) =
      name.map Item.literal ++ globFrom fuel ending := by
  induction name with
  | nil => rw [List.length_nil, Nat.zero_add, List.nil_append, List.map_nil, List.nil_append]
  | cons c name ih =>
      obtain ⟨⟨hstar, hquestion, hbracket⟩, hrest⟩ := List.forall_mem_cons.1 hplain
      have hfuel : (c :: name).length + fuel = (name.length + fuel) + 1 := by
        rw [List.length_cons, Nat.add_right_comm]
      rw [hfuel, List.cons_append, globFrom, if_neg hstar, if_neg hquestion, if_neg hbracket,
        ih hrest, List.map_cons, List.cons_append]

/-- **A plain name with an ending.** The pattern matches the name followed by whatever the ending
matches, and nothing else. -/
theorem globMatches_append_iff {name : String} (hplain : PlainName name) (ending text : String) :
    globMatches (name ++ ending) text = true ↔
      ∃ rest, text = name ++ rest ∧ globMatches ending rest = true := by
  rw [globMatches_iff, String.toList_append, glob, List.length_append, globFrom_append hplain,
    Item.mem_listLanguage_literals]
  constructor
  · rintro ⟨rest, heq, hrest⟩
    refine ⟨String.ofList rest, ?_, (globMatches_iff _ _).2 (by simpa [glob] using hrest)⟩
    apply String.toList_injective
    rw [String.toList_append, heq, String.toList_ofList]
  · rintro ⟨rest, rfl, hrest⟩
    exact ⟨rest.toList, String.toList_append .., (globMatches_iff _ _).1 hrest⟩

end Framework

import HpGuardian.Framework.StarredItems

/-!
# The portable pattern languages (`src/conditions.rs`)

`args_match` patterns are parsed into a token list with two anchor flags and matched by a recursion
over token and character positions with a memo table.  `path_pattern` matching is a dynamic program
with one row per pattern character.  Both are translated with their tables, so that what the tables
do to the answers is part of what is proved.

The memo is part of the model.  `matchesFrom_answers` shows that it never changes an answer: a
table whose entries are right stays right, and the answer is membership in the language of the
remaining tokens.  An `Answers` pairs the two facts, since the recursion hands the table on from
one branch to the next.  The recursion is on the number of tokens and characters that are left,
which decreases in each call.

The language is that of starred items (`Token.item`): a token is a test on one character, possibly
repeated, and a pattern stands for the product of its tokens.  What this language is in the terms
of the pattern's text is said in `PatternLanguages`, and which texts are patterns in
`PatternGrammar`.
-/

namespace HpGuardian

open Framework

/-! ## Tokens -/

inductive TokenKind where
  | literal (character : Char)
  | any
  deriving DecidableEq, Repr

structure Token where
  kind : TokenKind
  repeated : Bool
  deriving DecidableEq, Repr

/-- `Token::matches`. -/
def Token.matchesChar (token : Token) (character : Char) : Bool :=
  match token.kind with
  | .literal expected => expected == character
  | .any => true

structure ArgsPattern where
  startAnchored : Bool
  endAnchored : Bool
  tokens : List Token
  deriving DecidableEq, Repr

/-! ## Parsing a pattern

One pass over the characters.  A `*` repeats the token before it, a backslash escapes the character
after it, and what is reserved for later versions of the language is refused. -/

/-- The characters a backslash may escape. -/
def escapableCharacters : List Char := ['\\', '.', '*', '^', '$']

/-- The characters reserved for constructs outside the v1 language. -/
def unsupportedCharacters : List Char := ['[', ']', '(', ')', '{', '}', '|', '+', '?']

/-- The `while` loop of `parse_args_pattern` on the characters from `index` on, with the tokens
read so far; it returns the end anchor and the tokens. -/
def parseArgsTokens : List Char → List Token → Except String (Bool × List Token)
  | [], tokens => .ok (false, tokens)
  | character :: rest, tokens =>
      if character = '$' ∧ rest = [] then
        .ok (true, tokens)
      else if character = '^' ∨ character = '$' then
        .error "anchors are only valid at pattern boundaries"
      else if character = '\\' then
        match rest with
        | [] => .error "pattern ends with an escape"
        | escaped :: rest =>
            if escaped ∈ escapableCharacters then
              parseArgsTokens rest (tokens ++ [⟨.literal escaped, false⟩])
            else
              .error ("unsupported escape: \\" ++ escaped.toString)
      else if character = '*' then
        match tokens.getLast? with
        | none => .error "* must follow a literal or ."
        | some previous =>
            if previous.repeated then
              .error "* cannot repeat another *"
            else
              parseArgsTokens rest (tokens.dropLast ++ [{ previous with repeated := true }])
      else if character = '.' then
        parseArgsTokens rest (tokens ++ [⟨.any, false⟩])
      else if character ∈ unsupportedCharacters then
        .error ("unsupported pattern character: " ++ character.toString)
      else
        parseArgsTokens rest (tokens ++ [⟨.literal character, false⟩])

/-- `parse_args_pattern`. -/
def parseArgsPattern (pattern : String) : Except String ArgsPattern :=
  let characters := pattern.toList
  let startAnchored := characters.head? == some '^'
  let rest := if startAnchored then characters.tail else characters
  match parseArgsTokens rest [] with
  | .error reason => .error reason
  | .ok (endAnchored, tokens) => .ok ⟨startAnchored, endAnchored, tokens⟩

/-- `validate_args_match`. -/
def validateArgsMatch (pattern : String) : Except String Unit :=
  (parseArgsPattern pattern).map (fun _ => ())

/-! ## Matching with a memo table

The recursion hands its table from call to call.  A match at one start position has a table of its
own. -/

/-- The memo table: one optional answer per token and character position. -/
abbrev Memo := ℕ → ℕ → Option Bool

/-- The table of a fresh match. -/
def Memo.empty : Memo := fun _ _ => none

/-- `memo[token_index][character_index] = Some(result)`. -/
def Memo.set (memo : Memo) (tokenIndex characterIndex : ℕ) (result : Bool) : Memo :=
  fun t c => if t = tokenIndex ∧ c = characterIndex then some result else memo t c

/-- The character at a position is there and passes the token's test. -/
def consumes (token : Token) (characters : List Char) (characterIndex : ℕ) : Bool :=
  match characters[characterIndex]? with
  | some character => token.matchesChar character
  | none => false

/-- `matches_from`. -/
def matchesFrom (pattern : ArgsPattern) (characters : List Char)
    (tokenIndex characterIndex : ℕ) (memo : Memo) : Bool × Memo :=
  match memo tokenIndex characterIndex with
  | some result => (result, memo)
  | none =>
      let (result, memo) :=
        if htoken : tokenIndex < pattern.tokens.length then
          let token := pattern.tokens[tokenIndex]
          if token.repeated then
            let (skipped, memo) :=
              matchesFrom pattern characters (tokenIndex + 1) characterIndex memo
            if skipped then
              (true, memo)
            else if hchar : characterIndex < characters.length then
              if consumes token characters characterIndex then
                matchesFrom pattern characters tokenIndex (characterIndex + 1) memo
              else
                (false, memo)
            else
              (false, memo)
          else if consumes token characters characterIndex then
            matchesFrom pattern characters (tokenIndex + 1) (characterIndex + 1) memo
          else
            (false, memo)
        else
          -- every token is consumed
          (!pattern.endAnchored || characterIndex == characters.length, memo)
      (result, memo.set tokenIndex characterIndex result)
termination_by (pattern.tokens.length - tokenIndex) + (characters.length - characterIndex)

/-- `matches_at`: a match from one start position, with a table of its own. -/
def matchesAt (pattern : ArgsPattern) (characters : List Char) (start : ℕ) : Bool :=
  (matchesFrom pattern characters 0 start .empty).1

/-- `args_match`; a pattern that does not parse matches nothing. -/
def argsMatch (text pattern : String) : Bool :=
  match parseArgsPattern pattern with
  | .error _ => false
  | .ok pattern =>
      let characters := text.toList
      if pattern.startAnchored then
        matchesAt pattern characters 0
      else
        (List.range (characters.length + 1)).any (fun start => matchesAt pattern characters start)

/-! ## Path patterns

A row holds one cell for each prefix of the path; each pattern character makes the next row. -/

/-- The row of a `*`: `current[0] = previous[0]` and
`current[index] = previous[index] || current[index - 1]`. -/
def starRow (previous : List Bool) : List Bool :=
  previous.tail.scanl (fun current cell => cell || current) (previous.headD false)

/-- The row of a literal: `current[index] = previous[index - 1] && literal == path[index - 1]`. -/
def literalRow (literal : Char) (path : List Char) (previous : List Bool) : List Bool :=
  false :: List.zipWith (fun cell character => cell && literal == character) previous path

/-- The row before the first pattern character. -/
def initialRow (path : List Char) : List Bool := true :: List.replicate path.length false

/-- One pattern character of `path_matches`. -/
def pathRow (path : List Char) (previous : List Bool) (patternCharacter : Char) : List Bool :=
  if patternCharacter = '*' then starRow previous else literalRow patternCharacter path previous

/-- `path_matches`. -/
def pathMatches (pattern path : String) : Bool :=
  let row := pattern.toList.foldl (pathRow path.toList) (initialRow path.toList)
  row[path.toList.length]?.getD false

/-! ## What a token list means

The matcher against the language of the remaining tokens, one lemma for each branch of the
recursion. -/

/-- A token as a starred item. -/
def Token.item (token : Token) : Item Char := ⟨token.matchesChar, token.repeated⟩

/-- The answer at a position: the characters from there on start with a word of the remaining
tokens, and reach the end of the text if the pattern is end-anchored. -/
def ArgsPattern.MatchesFrom (pattern : ArgsPattern) (characters : List Char)
    (tokenIndex characterIndex : ℕ) : Prop :=
  Item.MatchesPrefix ((pattern.tokens.drop tokenIndex).map Token.item)
    (fun rest => pattern.endAnchored = true → rest = []) (characters.drop characterIndex)

/-- Every entry of the table is the right answer for its position. This is the invariant of the
search: it starts with the empty table and fills in what it has found. -/
def Memo.Sound (pattern : ArgsPattern) (characters : List Char) (memo : Memo) : Prop :=
  ∀ t c result, c ≤ characters.length → memo t c = some result →
    (result = true ↔ pattern.MatchesFrom characters t c)

theorem Memo.sound_empty (pattern : ArgsPattern) (characters : List Char) :
    Memo.Sound pattern characters .empty := by
  simp [Memo.Sound, Memo.empty]

section

variable {pattern : ArgsPattern} {characters : List Char} {memo : Memo} {t c : ℕ}

/-- An answer for a position: the right truth value, and a table that is still sound. Both are
needed at once, since the next position is searched with the table that this one leaves. -/
structure Answers (pattern : ArgsPattern) (characters : List Char) (t c : ℕ)
    (answer : Bool × Memo) : Prop where
  correct : answer.1 = true ↔ pattern.MatchesFrom characters t c
  sound : answer.2.Sound pattern characters

/-- Writing the answer into the table keeps it sound. -/
theorem Answers.record {answer : Bool × Memo} (h : Answers pattern characters t c answer) :
    Answers pattern characters t c (answer.1, answer.2.set t c answer.1) where
  correct := h.correct
  sound := by
    intro t' c' result' hc' hlook
    simp only [Memo.set] at hlook
    split at hlook
    · rename_i hpos
      obtain ⟨rfl, rfl⟩ := hpos
      obtain rfl := Option.some.inj hlook
      exact h.correct
    · exact h.sound t' c' result' hc' hlook

/-- With no token left only the end anchor can fail. -/
theorem matchesFrom_end (ht : pattern.tokens.length ≤ t) (hc : c ≤ characters.length) :
    pattern.MatchesFrom characters t c ↔
      (pattern.endAnchored = true → c = characters.length) := by
  have hend : characters.drop c = [] ↔ c = characters.length := by
    rw [List.drop_eq_nil_iff]
    omega
  rw [ArgsPattern.MatchesFrom, List.drop_eq_nil_of_le ht, List.map_nil, Item.matchesPrefix_nil,
    hend]

/-- A token that consumes the next character leaves the text one character shorter. -/
theorem consumes_iff {token : Token} :
    consumes token characters c = true ↔
      ∃ d, characters.drop c = d :: characters.drop (c + 1) ∧ token.matchesChar d = true := by
  unfold consumes
  by_cases hc : c < characters.length
  · rw [List.getElem?_eq_getElem hc, List.drop_eq_getElem_cons hc]
    simp only [List.cons.injEq, and_true, exists_eq_left']
  · rw [List.getElem?_eq_none (by omega), List.drop_eq_nil_of_le (by omega)]
    simp

theorem drop_tokens (ht : t < pattern.tokens.length) :
    (pattern.tokens.drop t).map Token.item =
      pattern.tokens[t].item :: (pattern.tokens.drop (t + 1)).map Token.item := by
  rw [List.drop_eq_getElem_cons ht, List.map_cons]

theorem matchesFrom_plain (ht : t < pattern.tokens.length)
    (hrep : pattern.tokens[t].repeated = false) :
    pattern.MatchesFrom characters t c ↔
      consumes pattern.tokens[t] characters c = true ∧
        pattern.MatchesFrom characters (t + 1) (c + 1) := by
  rw [ArgsPattern.MatchesFrom, drop_tokens ht, Item.matchesPrefix_plain hrep, consumes_iff]
  constructor
  · rintro ⟨d, rest, hd, htest, hrest⟩
    have htail : characters.drop (c + 1) = rest := by rw [← List.tail_drop, hd, List.tail_cons]
    exact ⟨⟨d, by rw [hd, htail], htest⟩, by rw [ArgsPattern.MatchesFrom, htail]; exact hrest⟩
  · rintro ⟨⟨d, hd, htest⟩, hrest⟩
    exact ⟨d, _, hd, htest, hrest⟩

theorem matchesFrom_repeated (ht : t < pattern.tokens.length)
    (hrep : pattern.tokens[t].repeated = true) :
    pattern.MatchesFrom characters t c ↔
      pattern.MatchesFrom characters (t + 1) c ∨
        consumes pattern.tokens[t] characters c = true ∧
          pattern.MatchesFrom characters t (c + 1) := by
  rw [ArgsPattern.MatchesFrom, drop_tokens ht, Item.matchesPrefix_starred hrep, consumes_iff]
  refine or_congr Iff.rfl ?_
  rw [ArgsPattern.MatchesFrom, drop_tokens ht]
  constructor
  · rintro ⟨d, rest, hd, htest, hrest⟩
    have htail : characters.drop (c + 1) = rest := by rw [← List.tail_drop, hd, List.tail_cons]
    exact ⟨⟨d, by rw [hd, htail], htest⟩, by rw [htail]; exact hrest⟩
  · rintro ⟨⟨d, hd, htest⟩, hrest⟩
    exact ⟨d, _, hd, htest, hrest⟩

theorem consumes_lt {token : Token} (h : consumes token characters c = true) :
    c < characters.length := by
  by_contra hcon
  simp [consumes, List.getElem?_eq_none (not_lt.1 hcon)] at h

end

/-- **The memo is transparent.**  From a sound table the answer at a position is membership in
the language of the remaining tokens, and the table stays sound. -/
theorem matchesFrom_answers (pattern : ArgsPattern) (characters : List Char) (t c : ℕ)
    (memo : Memo) (hc : c ≤ characters.length) (hmemo : memo.Sound pattern characters) :
    Answers pattern characters t c (matchesFrom pattern characters t c memo) := by
  -- Every recursive call shortens the remaining tokens or the remaining text.
  induction h : (pattern.tokens.length - t) + (characters.length - c)
    using Nat.strong_induction_on generalizing t c memo with
  | _ n ih =>
  subst h
  rw [matchesFrom]
  cases hlook : memo t c with
  | some result => exact ⟨hmemo t c result hc hlook, hmemo⟩
  | none =>
      refine @Answers.record _ _ _ _ (dite _ _ _) ?_
      by_cases ht : t < pattern.tokens.length
      · rw [dif_pos ht]
        dsimp only
        cases hrep : pattern.tokens[t].repeated with
        | true =>
            rw [if_pos rfl]
            have hskip := ih _ (by omega) (t + 1) c memo hc hmemo rfl
            rcases hm : matchesFrom pattern characters (t + 1) c memo with ⟨skipped, memo'⟩
            rw [hm] at hskip
            cases skipped with
            | true =>
                refine ⟨?_, hskip.sound⟩
                rw [matchesFrom_repeated ht hrep]
                exact ⟨fun _ => .inl (hskip.correct.1 rfl), fun _ => rfl⟩
            | false =>
                have hnot : ¬ pattern.MatchesFrom characters (t + 1) c :=
                  fun hmatch => Bool.false_ne_true (hskip.correct.2 hmatch)
                rw [if_neg Bool.false_ne_true]
                by_cases hlt : c < characters.length
                · rw [dif_pos hlt]
                  by_cases hcons : consumes pattern.tokens[t] characters c = true
                  · rw [if_pos hcons]
                    have hstay := ih _ (by omega) t (c + 1) memo' hlt hskip.sound rfl
                    refine ⟨?_, hstay.sound⟩
                    rw [matchesFrom_repeated ht hrep, hstay.correct]
                    exact ⟨fun h => .inr ⟨hcons, h⟩, fun h => (h.resolve_left hnot).2⟩
                  · rw [if_neg hcons]
                    refine ⟨?_, hskip.sound⟩
                    rw [matchesFrom_repeated ht hrep]
                    exact ⟨fun h => absurd h Bool.false_ne_true,
                      fun h => absurd (h.resolve_left hnot).1 hcons⟩
                · rw [dif_neg hlt]
                  refine ⟨?_, hskip.sound⟩
                  rw [matchesFrom_repeated ht hrep]
                  exact ⟨fun h => absurd h Bool.false_ne_true,
                    fun h => absurd (consumes_lt (h.resolve_left hnot).1) hlt⟩
        | false =>
            rw [if_neg Bool.false_ne_true]
            by_cases hcons : consumes pattern.tokens[t] characters c = true
            · rw [if_pos hcons]
              have hlt := consumes_lt hcons
              have hnext := ih _ (by omega) (t + 1) (c + 1) memo hlt hmemo rfl
              refine ⟨?_, hnext.sound⟩
              rw [matchesFrom_plain ht hrep, hnext.correct]
              exact ⟨fun h => ⟨hcons, h⟩, fun h => h.2⟩
            · rw [if_neg hcons]
              refine ⟨?_, hmemo⟩
              rw [matchesFrom_plain ht hrep]
              exact ⟨fun h => absurd h Bool.false_ne_true, fun h => absurd h.1 hcons⟩
      · rw [dif_neg ht]
        refine ⟨?_, hmemo⟩
        rw [matchesFrom_end (not_lt.1 ht) hc]
        cases pattern.endAnchored <;> simp

theorem matchesAt_iff (pattern : ArgsPattern) (characters : List Char) {start : ℕ}
    (hstart : start ≤ characters.length) :
    matchesAt pattern characters start = true ↔ pattern.MatchesFrom characters 0 start :=
  (matchesFrom_answers pattern characters 0 start .empty hstart (Memo.sound_empty _ _)).correct

/-- A parsed pattern matches a text iff it matches from some start position, which is the first
one if the pattern is start-anchored. -/
theorem argsMatch_iff {text source : String} {pattern : ArgsPattern}
    (hparse : parseArgsPattern source = .ok pattern) :
    argsMatch text source = true ↔
      ∃ start ≤ text.toList.length, (pattern.startAnchored = true → start = 0) ∧
        pattern.MatchesFrom text.toList 0 start := by
  unfold argsMatch
  rw [hparse]
  dsimp only
  cases hanchor : pattern.startAnchored with
  | true =>
      rw [if_pos rfl, matchesAt_iff _ _ (Nat.zero_le _)]
      constructor
      · intro h
        exact ⟨0, Nat.zero_le _, fun _ => rfl, h⟩
      · rintro ⟨start, -, hzero, h⟩
        rwa [hzero rfl] at h
  | false =>
      rw [if_neg (by simp), List.any_eq_true]
      constructor
      · rintro ⟨start, hmem, h⟩
        have hle : start ≤ text.toList.length := by
          have := List.mem_range.1 hmem
          omega
        exact ⟨start, hle, by simp, (matchesAt_iff _ _ hle).1 h⟩
      · rintro ⟨start, hle, -, h⟩
        exact ⟨start, List.mem_range.2 (by omega), (matchesAt_iff _ _ hle).2 h⟩

end HpGuardian

import HpGuardian.Framework.Outcomes
import HpGuardian.Policy.ArgsPattern
import HpGuardian.Python.Engine

/-!
# The two pattern matchers agree

The Rust and the Python pattern parsers accept the same `args_match` patterns and read the same
tokens from them.  The parsers are loops over the pattern that differ in how they look ahead for a
`*`; past the start of a pattern they are at the same place with the same tokens after each round.

Their matchers decompose a repeated token differently, one character at a time against an inner
loop, so neither can follow the other step by step.  Both are compared with the language of the
remaining tokens instead: the one by the equations of a backtracking matcher, the other by an
induction on the inner loop (`repeatLoop_iff`).

The `path_pattern` programs fill the same rows of a table, cell by cell, in both runtimes, and the
answer is the last cell; these are compared row by row.
-/

namespace HpGuardian

open Framework

/-! ## Parsing `args_match` patterns

The two loops, with the pattern and the position in it as their state. -/

/-- A token as the Python runtime holds it. -/
def Token.python (token : Token) : Python.PatternToken :=
  (match token.kind with
    | .literal character => some character
    | .any => none,
    token.repeated)

/-- A parsed pattern as the Python runtime holds it. -/
def ArgsPattern.python (pattern : ArgsPattern) : Python.ParsedPattern :=
  ⟨pattern.tokens.map Token.python, pattern.startAnchored, pattern.endAnchored⟩

/-- The Python parser read the tokens and the end anchor that the Rust loop returned. -/
def SameTokens (anchored : Bool) (read : Bool × List Token) (parsed : Python.ParsedPattern) :
    Prop :=
  parsed = (⟨anchored, read.1, read.2⟩ : ArgsPattern).python

theorem mem_unsupported {character : Char} :
    character ∈ unsupportedCharacters ↔
      character ∈ ['[', ']', '(', ')', '|', '+', '?', '{', '}'] := by
  simp only [unsupportedCharacters, List.mem_cons, List.not_mem_nil, or_false]
  tauto

/-- Past the start of a pattern the two loops read the same tokens and the same end anchor, and
they reject the same patterns. -/
theorem sameOutcome_parseArgsLoop (characters : List Char) (tokens : List Token)
    (anchored : Bool) (index : ℕ) (hindex : index ≠ 0 ∨ characters.head? ≠ some '^') :
    SameOutcome (SameTokens anchored) (parseArgsTokens characters tokens)
      (Python.parseArgsLoop index characters ⟨tokens.map Token.python, anchored, false⟩) := by
  fun_induction parseArgsTokens characters tokens generalizing index with
  | case1 tokens =>
      rw [Python.parseArgsLoop]
      exact .ok rfl
  | case2 character rest tokens hend =>
      obtain ⟨rfl, rfl⟩ := hend
      simp [Python.parseArgsLoop]
      exact .ok rfl
  | case3 character rest tokens hnotend hanchor =>
      -- a `^` past the start, or a `$` before the end
      unfold Python.parseArgsLoop
      rcases hanchor with rfl | rfl
      · have hnonzero : index ≠ 0 := by simpa using hindex
        simp [hnonzero]
        exact .error
      · have hrest : rest ≠ [] := fun hrest => hnotend ⟨rfl, hrest⟩
        simp [hrest]
        exact .error
  | case4 tokens =>
      simp [Python.parseArgsLoop]
      exact .error
  | case5 tokens escaped rest hescaped _ _ ih =>
      unfold Python.parseArgsLoop
      rw [if_pos rfl]
      dsimp only
      rw [if_pos (by simpa [escapableCharacters] using hescaped)]
      simpa [Token.python] using ih (index + 2) (.inl (by omega))
  | case6 tokens escaped rest hescaped =>
      unfold Python.parseArgsLoop
      rw [if_pos rfl]
      dsimp only
      rw [if_neg (by simpa [escapableCharacters] using hescaped)]
      exact .error
  | case7 rest tokens hlast =>
      unfold Python.parseArgsLoop
      simp [hlast]
      exact .error
  | case8 rest tokens previous hlast hrepeated =>
      unfold Python.parseArgsLoop
      simp [hlast, hrepeated, Token.python]
      exact .error
  | case9 rest tokens previous hlast hrepeated _ _ _ ih =>
      unfold Python.parseArgsLoop
      simp [hlast, hrepeated, Token.python]
      simpa [Token.python] using ih (index + 1) (.inl (by omega))
  | case10 rest tokens _ _ _ _ ih =>
      unfold Python.parseArgsLoop
      simp
      simpa [Token.python] using ih (index + 1) (.inl (by omega))
  | case11 character rest tokens _ hanchor hescape hstar hdot hunsupported =>
      obtain ⟨hstart, hend⟩ := not_or.1 hanchor
      unfold Python.parseArgsLoop
      rw [if_neg hescape, if_neg hstart, if_neg hend, if_neg hdot, if_neg hstar,
        if_pos (mem_unsupported.1 hunsupported)]
      exact .error
  | case12 character rest tokens _ hanchor hescape hstar hdot hunsupported ih =>
      obtain ⟨hstart, hend⟩ := not_or.1 hanchor
      unfold Python.parseArgsLoop
      rw [if_neg hescape, if_neg hstart, if_neg hend, if_neg hdot, if_neg hstar,
        if_neg (mt mem_unsupported.2 hunsupported)]
      simpa [Token.python] using ih (index + 1) (.inl (by omega))

/-- The two parsers accept the same patterns and read the same pattern. -/
theorem sameOutcome_parseArgsPattern (pattern : String) :
    SameOutcome (fun rust python => python = rust.python) (parseArgsPattern pattern)
      (Python.parseArgsPattern pattern) := by
  unfold parseArgsPattern Python.parseArgsPattern
  by_cases hstart : pattern.toList.head? = some '^'
  · -- the Python loop reads the start anchor itself
    obtain ⟨rest, hpattern⟩ := List.head?_eq_some_iff.1 hstart
    have hloop : Python.parseArgsLoop 0 ('^' :: rest) ⟨[], false, false⟩ =
        Python.parseArgsLoop 1 rest ⟨[], true, false⟩ := by
      rw [Python.parseArgsLoop.eq_def]
      simp
    have h := sameOutcome_parseArgsLoop rest [] true 1 (.inl one_ne_zero)
    rw [List.map_nil] at h
    simp only [hpattern, hloop, List.head?_cons, List.tail_cons, beq_self_eq_true, if_true]
    generalize parseArgsTokens rest [] = read at h ⊢
    generalize Python.parseArgsLoop 1 rest _ = parsed at h ⊢
    cases h with
    | ok h => exact .ok h
    | error => exact .error
  · have h := sameOutcome_parseArgsLoop pattern.toList [] false 0 (.inr hstart)
    rw [List.map_nil] at h
    have hanchor : (pattern.toList.head? == some '^') = false := by simpa using hstart
    simp only [hanchor, Bool.false_eq_true, if_false]
    generalize parseArgsTokens pattern.toList [] = read at h ⊢
    generalize Python.parseArgsLoop 0 pattern.toList _ = parsed at h ⊢
    cases h with
    | ok h => exact .ok h
    | error => exact .error

/-! ## Matching `args_match` patterns

The Python matcher decides the language of the remaining tokens, as the Rust matcher does. -/

section

variable {pattern : ArgsPattern} {text : List Char} {t c : ℕ}

theorem consumes_python (token : Token) (text : List Char) (c : ℕ) :
    Python.consumes token.python.1 text c = consumes token text c := by
  unfold Python.consumes consumes Python.tokenMatches Token.matchesChar Token.python
  cases text[c]? <;> cases token.kind <;> rfl

/-- The inner loop finds a match iff the repeated token consumes a character and the pattern
matches from the next position with the token still in front. -/
theorem repeatLoop_iff (ht : t < pattern.tokens.length)
    (hrepeated : pattern.tokens[t].repeated = true) {next : ℕ → Bool}
    (hnext : ∀ c ≤ text.length, next c = true ↔ pattern.MatchesFrom text (t + 1) c)
    (hc : c ≤ text.length) :
    Python.repeatLoop pattern.tokens[t].python.1 text next c = true ↔
      consumes pattern.tokens[t] text c = true ∧ pattern.MatchesFrom text t (c + 1) := by
  induction h : text.length - c generalizing c with
  | zero =>
      have hend : ¬ c < text.length := by omega
      rw [Python.repeatLoop, dif_neg hend]
      exact ⟨fun h => absurd h Bool.false_ne_true, fun h => absurd (consumes_lt h.1) hend⟩
  | succ n ih =>
      have hlt : c < text.length := by omega
      rw [Python.repeatLoop, dif_pos hlt, consumes_python]
      by_cases hconsumes : consumes pattern.tokens[t] text c = true
      · rw [if_pos hconsumes, matchesFrom_repeated ht hrepeated, ← hnext (c + 1) hlt,
          ← ih hlt (by omega)]
        simp only [hconsumes, true_and]
        split <;> simp_all
      · simp [hconsumes]

/-- The recursion over the remaining tokens decides the language of the remaining tokens. -/
theorem python_matchesFrom_iff (hc : c ≤ text.length) (ht : t ≤ pattern.tokens.length) :
    Python.matchesFrom pattern.endAnchored text ((pattern.tokens.drop t).map Token.python) c =
        true ↔
      pattern.MatchesFrom text t c := by
  induction h : pattern.tokens.length - t generalizing t c with
  | zero =>
      rw [List.drop_eq_nil_of_le (by omega), List.map_nil, Python.matchesFrom,
        matchesFrom_end (by omega) hc]
      cases pattern.endAnchored <;> simp
  | succ n ih =>
      have hlt : t < pattern.tokens.length := by omega
      have hnext : ∀ c ≤ text.length,
          Python.matchesFrom pattern.endAnchored text
              ((pattern.tokens.drop (t + 1)).map Token.python) c = true ↔
            pattern.MatchesFrom text (t + 1) c :=
        fun c hc => ih hc hlt (by omega)
      rw [List.drop_eq_getElem_cons hlt, List.map_cons, Python.matchesFrom]
      cases hrepeated : pattern.tokens[t].repeated with
      | true =>
          rw [matchesFrom_repeated hlt hrepeated, ← hnext c hc,
            ← repeatLoop_iff hlt hrepeated hnext hc]
          simp [Token.python, hrepeated]
      | false =>
          rw [matchesFrom_plain hlt hrepeated]
          have hpython : pattern.tokens[t].python.2 = false := hrepeated
          rw [hpython, if_neg Bool.false_ne_true, Bool.and_eq_true, consumes_python]
          constructor
          · rintro ⟨hconsumes, h⟩
            exact ⟨hconsumes, (hnext _ (consumes_lt hconsumes)).1 h⟩
          · rintro ⟨hconsumes, h⟩
            exact ⟨hconsumes, (hnext _ (consumes_lt hconsumes)).2 h⟩

end

/-- Both `args_match` matchers give the same answer for every pattern that the parsers accept;
the Python one joins the arguments itself. -/
theorem python_argsMatch (args : List String) {source : String} {pattern : ArgsPattern}
    (hparse : parseArgsPattern source = .ok pattern) :
    Python.argsMatch args source = .ok (argsMatch (" ".intercalate args) source) := by
  obtain ⟨parsed, hparsed, rfl⟩ := (sameOutcome_parseArgsPattern source).exists_right hparse
  have hmatcher : ∀ c ≤ (" ".intercalate args).toList.length,
      Python.matchesFrom pattern.python.anchoredEnd (" ".intercalate args).toList
          pattern.python.tokens c = true ↔
        pattern.MatchesFrom (" ".intercalate args).toList 0 c :=
    fun c hc => python_matchesFrom_iff hc (Nat.zero_le _)
  rw [Python.argsMatch, hparsed]
  refine congrArg Except.ok (Bool.eq_iff_iff.2 ?_)
  rw [argsMatch_iff hparse, List.any_eq_true]
  cases hanchor : pattern.startAnchored with
  | true =>
      rw [if_pos (show pattern.python.anchoredStart = true from hanchor)]
      constructor
      · rintro ⟨start, hstart, h⟩
        obtain rfl := List.mem_singleton.1 hstart
        exact ⟨0, Nat.zero_le _, fun _ => rfl, (hmatcher 0 (Nat.zero_le _)).1 h⟩
      · rintro ⟨start, hle, hzero, h⟩
        obtain rfl := hzero rfl
        exact ⟨0, List.mem_singleton.2 rfl, (hmatcher 0 hle).2 h⟩
  | false =>
      rw [if_neg (show ¬ pattern.python.anchoredStart = true by simp [ArgsPattern.python, hanchor])]
      constructor
      · rintro ⟨start, hstart, h⟩
        have hle := Nat.lt_succ_iff.1 (List.mem_range.1 hstart)
        exact ⟨start, hle, by simp, (hmatcher start hle).1 h⟩
      · rintro ⟨start, hle, -, h⟩
        exact ⟨start, List.mem_range.2 (Nat.lt_succ_of_le hle), (hmatcher start hle).2 h⟩

/-! ## Matching `path_pattern` patterns

Each row is made from the one before by the same rule. -/

theorem starCells_eq (previous : List Bool) (first : Bool) :
    first :: Python.starCells first previous =
      previous.scanl (fun current cell => cell || current) first := by
  induction previous generalizing first with
  | nil => rfl
  | cons cell previous ih => rw [Python.starCells, List.scanl_cons, ← ih (cell || first)]

theorem literalCells_eq (literal : Char) (path : List Char) (previous : List Bool) :
    Python.literalCells literal path previous =
      List.zipWith (fun cell character => cell && literal == character) previous path := by
  induction path generalizing previous with
  | nil => cases previous <;> rfl
  | cons character path ih =>
      cases previous with
      | nil => rfl
      | cons cell previous => rw [Python.literalCells, List.zipWith_cons_cons, ih]

theorem length_pathRow {path : List Char} {previous : List Bool} (patternCharacter : Char)
    (hlength : previous.length = path.length + 1) :
    (pathRow path previous patternCharacter).length = path.length + 1 := by
  unfold pathRow
  split
  · simp [starRow, hlength]
  · simp [literalRow, hlength]

theorem python_pathRow {path : List Char} {previous : List Bool} (patternCharacter : Char)
    (hlength : previous.length = path.length + 1) :
    Python.pathRow path previous patternCharacter = pathRow path previous patternCharacter := by
  unfold Python.pathRow pathRow
  split
  · cases previous with
    | nil => simp at hlength
    | cons first rest => exact starCells_eq rest first
  · rw [literalCells_eq, literalRow]

/-- The two programs fill the same rows, and the last cell is the one at the path's length. -/
theorem python_foldl_pathRow (path : List Char) (pattern : List Char) {row : List Bool}
    (hlength : row.length = path.length + 1) :
    pattern.foldl (Python.pathRow path) row = pattern.foldl (pathRow path) row ∧
      (pattern.foldl (pathRow path) row).length = path.length + 1 := by
  induction pattern generalizing row with
  | nil => exact ⟨rfl, hlength⟩
  | cons character pattern ih =>
      rw [List.foldl_cons, List.foldl_cons, python_pathRow character hlength]
      exact ih (length_pathRow character hlength)

theorem python_pathMatches (pattern path : String) :
    Python.pathMatches pattern path = pathMatches pattern path := by
  have hlength : (initialRow path.toList).length = path.toList.length + 1 := by
    simp [initialRow]
  obtain ⟨hrows, hrow⟩ := python_foldl_pathRow path.toList pattern.toList hlength
  unfold Python.pathMatches pathMatches
  dsimp only
  rw [← initialRow, hrows, List.getLast?_eq_getElem?, hrow, Nat.add_sub_cancel]

end HpGuardian

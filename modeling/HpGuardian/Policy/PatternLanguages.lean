import HpGuardian.Policy.ArgsPattern
import Mathlib.Algebra.Group.Nat.Even
import Mathlib.Data.List.DropRight
import Mathlib.Data.List.Forall2

/-!
# The documented pattern languages

`argsMatch_iff_language` says that `args_match` searches the text for a word of the pattern's
language, from the start of the text if the pattern begins with `^` and up to its end if the
pattern ends with an unescaped `$`.  The anchors are described on the text of the pattern: whether
a `$` at the end is escaped depends on the parity of the backslashes before it, since these escape
each other.

`pathMatches_iff_glob` says that `path_pattern` matching splits the path into one piece for each
pattern character, where `*` takes any piece.  The dynamic program fills one row for each pattern
character; the invariant is that a row's cells say, for each cut of the path, whether the pattern
so far matches the part before the cut (`RowOf`).  It is kept by both kinds of rows, and the last
cell of the last row is the answer.
-/

namespace HpGuardian

open Framework

/-! ## Anchors

The two flags of a parsed pattern, read off its text. -/

/-- The pattern begins with `^`. -/
def BeginsWithAnchor (source : List Char) : Prop := source.head? = some '^'

/-- The number of backslashes at the end. -/
def trailingBackslashes (source : List Char) : ℕ := (source.rtakeWhile (· == '\\')).length

/-- The pattern ends with a `$` that is not escaped: an even number of backslashes, which escape
each other, stands right before it. -/
def EndsWithAnchor (source : List Char) : Prop :=
  ∃ body, source = body ++ ['$'] ∧ Even (trailingBackslashes body)

theorem not_endsWithAnchor_nil : ¬ EndsWithAnchor [] := by
  rintro ⟨body, h, -⟩
  simp at h

theorem trailingBackslashes_append {front body : List Char} (h : ¬ ∀ c ∈ body, c = '\\') :
    trailingBackslashes (front ++ body) = trailingBackslashes body := by
  have hlength : (body.reverse.takeWhile (· == '\\')).length ≠ body.reverse.length := by
    intro hlength
    refine h (fun c hc => ?_)
    have hall := List.takeWhile_eq_self_iff.1
      ((List.takeWhile_prefix (· == '\\')).eq_of_length hlength)
    simpa using hall c (List.mem_reverse.2 hc)
  rw [trailingBackslashes, trailingBackslashes, List.rtakeWhile, List.rtakeWhile,
    List.reverse_append, List.takeWhile_append, if_neg hlength]

theorem trailingBackslashes_of_all {body : List Char} (h : ∀ c ∈ body, c = '\\') :
    trailingBackslashes body = body.length := by
  have hself : body.rtakeWhile (· == '\\') = body :=
    List.rtakeWhile_eq_self_iff.2 (fun c hc => by simpa using h c hc)
  rw [trailingBackslashes, hself]

/-- A character other than a backslash in front does not count. -/
theorem trailingBackslashes_cons {c : Char} (hc : c ≠ '\\') (body : List Char) :
    trailingBackslashes (c :: body) = trailingBackslashes body := by
  rw [trailingBackslashes, trailingBackslashes, List.rtakeWhile, List.rtakeWhile,
    List.reverse_cons, List.takeWhile_append]
  split
  · rename_i hlength
    rw [(List.takeWhile_prefix (· == '\\')).eq_of_length hlength]
    simp [hc]
  · rfl

/-- A backslash with the character it escapes in front does not change the parity. -/
theorem even_trailingBackslashes_escape (escaped : Char) (body : List Char) :
    Even (trailingBackslashes ('\\' :: escaped :: body)) ↔ Even (trailingBackslashes body) := by
  by_cases hbody : ∀ c ∈ body, c = '\\'
  · by_cases hescaped : escaped = '\\'
    · have hall : ∀ c ∈ '\\' :: escaped :: body, c = '\\' := by
        simpa [hescaped] using hbody
      rw [trailingBackslashes_of_all hall, trailingBackslashes_of_all hbody, List.length_cons,
        List.length_cons, Nat.even_add_one, Nat.even_add_one, not_not]
    · have hsome : ¬ ∀ c ∈ escaped :: body, c = '\\' := fun h => hescaped (h escaped (by simp))
      rw [show '\\' :: escaped :: body = ['\\'] ++ (escaped :: body) from rfl,
        trailingBackslashes_append hsome, trailingBackslashes_cons hescaped]
  · rw [show '\\' :: escaped :: body = ['\\', escaped] ++ body from rfl,
      trailingBackslashes_append hbody]

/-- A character in front that is neither a backslash nor the last `$`. -/
theorem endsWithAnchor_cons {c : Char} {rest : List Char} (hc : c ≠ '\\')
    (hend : ¬ (c = '$' ∧ rest = [])) : EndsWithAnchor (c :: rest) ↔ EndsWithAnchor rest := by
  constructor
  · rintro ⟨body, hbody, heven⟩
    cases body with
    | nil =>
        rw [List.nil_append, List.cons.injEq] at hbody
        exact absurd hbody hend
    | cons b body =>
        rw [List.cons_append, List.cons.injEq] at hbody
        obtain ⟨rfl, rfl⟩ := hbody
        exact ⟨body, rfl, by rwa [trailingBackslashes_cons hc] at heven⟩
  · rintro ⟨body, rfl, heven⟩
    exact ⟨c :: body, rfl, by rwa [trailingBackslashes_cons hc]⟩

theorem endsWithAnchor_escape (escaped : Char) (rest : List Char) :
    EndsWithAnchor ('\\' :: escaped :: rest) ↔ EndsWithAnchor rest := by
  constructor
  · rintro ⟨body, hbody, heven⟩
    rcases body with _ | ⟨b, _ | ⟨b', body⟩⟩
    · simp at hbody
    · -- the dollar is the escaped character
      simp only [List.cons_append, List.nil_append, List.cons.injEq] at hbody
      obtain ⟨rfl, -, -⟩ := hbody
      simp [trailingBackslashes, List.rtakeWhile] at heven
    · simp only [List.cons_append, List.cons.injEq] at hbody
      obtain ⟨rfl, rfl, rfl⟩ := hbody
      exact ⟨body, rfl, (even_trailingBackslashes_escape _ _).1 heven⟩
  · rintro ⟨body, rfl, heven⟩
    exact ⟨'\\' :: escaped :: body, rfl, (even_trailingBackslashes_escape _ _).2 heven⟩

/-- The end anchor that the parsing loop returns. -/
theorem parseArgsTokens_endAnchored {characters : List Char} {tokens read : List Token}
    {endAnchored : Bool} (hrun : parseArgsTokens characters tokens = .ok (endAnchored, read)) :
    endAnchored = true ↔ EndsWithAnchor characters := by
  fun_induction parseArgsTokens characters tokens with
  | case1 tokens =>
      obtain ⟨rfl, -⟩ := Prod.ext_iff.1 (Except.ok.inj hrun)
      simp [not_endsWithAnchor_nil]
  | case2 character rest tokens hend =>
      obtain ⟨rfl, -⟩ := Prod.ext_iff.1 (Except.ok.inj hrun)
      obtain ⟨rfl, rfl⟩ := hend
      exact ⟨fun _ => ⟨[], rfl, by simp [trailingBackslashes]⟩, fun _ => rfl⟩
  | case3 => cases hrun
  | case4 => cases hrun
  | case5 tokens escaped rest _ _ _ ih =>
      rw [endsWithAnchor_escape]
      exact ih hrun
  | case6 => cases hrun
  | case7 => cases hrun
  | case8 => cases hrun
  | case9 rest tokens previous _ _ hend _ _ ih =>
      rw [endsWithAnchor_cons (by decide) hend]
      exact ih hrun
  | case10 rest tokens hend _ _ _ ih =>
      rw [endsWithAnchor_cons (by decide) hend]
      exact ih hrun
  | case11 => cases hrun
  | case12 character rest tokens hend _ hescape _ _ _ ih =>
      rw [endsWithAnchor_cons hescape hend]
      exact ih hrun

/-- The two anchor flags of a parsed pattern. -/
theorem parseArgsPattern_anchors {source : String} {pattern : ArgsPattern}
    (hparse : parseArgsPattern source = .ok pattern) :
    (pattern.startAnchored = true ↔ BeginsWithAnchor source.toList) ∧
      (pattern.endAnchored = true ↔ EndsWithAnchor source.toList) := by
  unfold parseArgsPattern at hparse
  dsimp only at hparse
  split at hparse
  · cases hparse
  · rename_i endAnchored tokens hrun
    obtain rfl := Except.ok.inj hparse
    refine ⟨by simp [BeginsWithAnchor], (parseArgsTokens_endAnchored hrun).trans ?_⟩
    split
    · rename_i hstart
      obtain ⟨rest, hsource⟩ := List.head?_eq_some_iff.1 (by simpa using hstart)
      rw [hsource, List.tail_cons, endsWithAnchor_cons (by decide) (by simp)]
    · rfl

/-! ## `args_match`

The words of a pattern, character by character, and the search for one of them. -/

/-- The words of a token list: the words of its tokens, one after the other.  A token stands for
one character that it matches, or for any number of them if it is repeated. -/
def ArgsPattern.language (pattern : ArgsPattern) : Language Char :=
  Item.listLanguage (pattern.tokens.map Token.item)

/-- The characters that a token stands for: a literal for itself, `.` for every character. -/
def TokenKind.StandsFor : TokenKind → Char → Prop
  | .literal expected, character => character = expected
  | .any, _ => True

/-- The words of a token: one character that it stands for, or any number of them if it is
repeated. -/
theorem mem_language_item (token : Token) (word : List Char) :
    word ∈ token.item.language ↔
      (∀ character ∈ word, token.kind.StandsFor character) ∧
        (token.repeated = true ∨ word.length = 1) := by
  have htest : ∀ character,
      token.item.test character = true ↔ token.kind.StandsFor character := by
    intro character
    rcases token with ⟨expected | _, repeated⟩
    · exact beq_iff_eq.trans eq_comm
    · exact iff_of_true rfl trivial
  rw [Item.mem_language_iff]
  simp only [htest]
  rfl

/-- A match from a position is a word of the pattern from there to a second position, which is
the end of the text for an end-anchored pattern. -/
theorem matchesFrom_zero_iff (pattern : ArgsPattern) (text : List Char) {i : ℕ}
    (hi : i ≤ text.length) :
    pattern.MatchesFrom text 0 i ↔
      ∃ j, i ≤ j ∧ j ≤ text.length ∧ (text.drop i).take (j - i) ∈ pattern.language ∧
        (pattern.endAnchored = true → j = text.length) := by
  rw [ArgsPattern.MatchesFrom, List.drop_zero]
  constructor
  · rintro ⟨u, v, hsplit, hu, hv⟩
    have hlength := congrArg List.length hsplit
    rw [List.length_drop, List.length_append] at hlength
    refine ⟨i + u.length, by omega, by omega, ?_, fun hend => ?_⟩
    · rwa [hsplit, Nat.add_sub_cancel_left, List.take_left]
    · rw [hv hend, List.length_nil] at hlength
      omega
  · rintro ⟨j, hij, hj, hword, hend⟩
    refine ⟨_, _, (List.take_append_drop (j - i) (text.drop i)).symm, hword, fun hanchored => ?_⟩
    rw [List.drop_drop, hend hanchored]
    exact List.drop_eq_nil_of_le (by omega)

/-- **`args_match` decides the documented pattern language.**  For every accepted pattern and
every text the matcher, which terminates, answers whether some stretch of the text is a word of
the pattern; `^` puts its start at the start of the text, and an unescaped `$` its end at the end
of the text. -/
theorem argsMatch_iff_language {source : String} {pattern : ArgsPattern}
    (hparse : parseArgsPattern source = .ok pattern) (text : String) :
    argsMatch text source = true ↔
      ∃ i j, i ≤ j ∧ j ≤ text.toList.length ∧
        (text.toList.drop i).take (j - i) ∈ pattern.language ∧
        (BeginsWithAnchor source.toList → i = 0) ∧
        (EndsWithAnchor source.toList → j = text.toList.length) := by
  obtain ⟨hbegins, hends⟩ := parseArgsPattern_anchors hparse
  rw [argsMatch_iff hparse, hbegins, ← hends]
  constructor
  · rintro ⟨i, hi, hbegin, hmatch⟩
    obtain ⟨j, hij, hj, hword, hend⟩ := (matchesFrom_zero_iff pattern _ hi).1 hmatch
    exact ⟨i, j, hij, hj, hword, hbegin, hend⟩
  · rintro ⟨i, j, hij, hj, hword, hbegin, hend⟩
    exact ⟨i, hij.trans hj, hbegin,
      (matchesFrom_zero_iff pattern _ (hij.trans hj)).2 ⟨j, hij, hj, hword, hend⟩⟩

/-- A pattern with a repeated token and an end anchor, against a text that it matches from the
second character on. -/
theorem argsMatch_iff_language_sample :
    argsMatch "xrm -rf" "rm .*$" = true ↔
      ∃ i j, i ≤ j ∧ j ≤ "xrm -rf".toList.length ∧
        ("xrm -rf".toList.drop i).take (j - i) ∈ ArgsPattern.language
          ⟨false, true, [⟨.literal 'r', false⟩, ⟨.literal 'm', false⟩, ⟨.literal ' ', false⟩,
            ⟨.any, true⟩]⟩ ∧
        (BeginsWithAnchor "rm .*$".toList → i = 0) ∧
        (EndsWithAnchor "rm .*$".toList → j = "xrm -rf".toList.length) :=
  argsMatch_iff_language (by decide +kernel) "xrm -rf"

/-! ## `path_pattern`

The declarative meaning of a path pattern, and the rows of the dynamic program. -/

/-- The pieces that one pattern character takes: any for `*`, else the character itself. -/
def TakesPiece (patternCharacter : Char) (piece : List Char) : Prop :=
  patternCharacter = '*' ∨ piece = [patternCharacter]

/-- The path is split into consecutive pieces, one for each pattern character: a `*` takes any
piece, the empty one included, and every other character takes itself. -/
def GlobMatches (pattern path : List Char) : Prop :=
  ∃ pieces : List (List Char), List.Forall₂ TakesPiece pattern pieces ∧ path = pieces.flatten

theorem globMatches_nil {path : List Char} : GlobMatches [] path ↔ path = [] := by
  simp [GlobMatches]

/-- The last pattern character takes the end of the path. -/
theorem globMatches_concat {pattern path : List Char} {c : Char} :
    GlobMatches (pattern ++ [c]) path ↔
      ∃ front piece, path = front ++ piece ∧ GlobMatches pattern front ∧ TakesPiece c piece := by
  constructor
  · rintro ⟨pieces, hpieces, rfl⟩
    rw [← List.forall₂_reverse_iff, List.reverse_append, List.reverse_singleton,
      List.singleton_append, List.forall₂_cons_left_iff] at hpieces
    obtain ⟨piece, rest, hpiece, hrest, hreverse⟩ := hpieces
    obtain rfl : pieces = rest.reverse ++ [piece] := by
      rw [← List.reverse_reverse pieces, hreverse, List.reverse_cons]
    exact ⟨rest.reverse.flatten, piece, by simp,
      ⟨rest.reverse, by rwa [← List.forall₂_reverse_iff, List.reverse_reverse], rfl⟩, hpiece⟩
  · rintro ⟨front, piece, rfl, ⟨pieces, hpieces, rfl⟩, hpiece⟩
    exact ⟨pieces ++ [piece], List.rel_append hpieces (.cons hpiece .nil), by simp⟩

/-- A `*` at the end takes what is left after some cut. -/
theorem globMatches_concat_star {pattern path : List Char} {k : ℕ} (hk : k ≤ path.length) :
    GlobMatches (pattern ++ ['*']) (path.take k) ↔ ∃ m ≤ k, GlobMatches pattern (path.take m) := by
  rw [globMatches_concat]
  constructor
  · rintro ⟨front, piece, hsplit, hfront, -⟩
    have hlength := congrArg List.length hsplit
    rw [List.length_take, List.length_append] at hlength
    refine ⟨front.length, by omega, ?_⟩
    have htake : path.take front.length = front := by
      have h := congrArg (List.take front.length) hsplit
      rwa [List.take_left, List.take_take, Nat.min_eq_left (by omega)] at h
    rwa [htake]
  · rintro ⟨m, hm, hfront⟩
    refine ⟨path.take m, (path.take k).drop m, ?_, hfront, .inl rfl⟩
    rw [← Nat.min_eq_left hm, ← List.take_take, Nat.min_eq_left hm, List.take_append_drop]

/-- Another character at the end takes the last character of the path. -/
theorem globMatches_concat_literal {pattern path : List Char} {c : Char} (hc : c ≠ '*') {k : ℕ}
    (hk : k < path.length) :
    GlobMatches (pattern ++ [c]) (path.take (k + 1)) ↔
      GlobMatches pattern (path.take k) ∧ c = path[k] := by
  have htake : path.take (k + 1) = path.take k ++ [path[k]] := by
    rw [List.take_succ_eq_append_getElem hk]
  rw [globMatches_concat, htake]
  constructor
  · rintro ⟨front, piece, hsplit, hfront, hpiece⟩
    obtain rfl := hpiece.resolve_left hc
    obtain ⟨rfl, hlast⟩ := List.append_inj' hsplit rfl
    exact ⟨hfront, (List.singleton_inj.1 hlast).symm⟩
  · rintro ⟨hfront, hlast⟩
    exact ⟨_, _, rfl, hfront, .inr (by rw [hlast])⟩

theorem not_globMatches_concat_literal_nil {pattern : List Char} {c : Char} (hc : c ≠ '*') :
    ¬ GlobMatches (pattern ++ [c]) [] := by
  rw [globMatches_concat]
  rintro ⟨front, piece, hsplit, -, hpiece⟩
  rw [hpiece.resolve_left hc] at hsplit
  simp at hsplit

/-- The row for a pattern: one cell for each cut of the path, which says whether the pattern
matches the part before the cut. -/
structure RowOf (path pattern : List Char) (row : List Bool) : Prop where
  length : row.length = path.length + 1
  cell : ∀ k ≤ path.length, row[k]? = some true ↔ GlobMatches pattern (path.take k)

theorem rowOf_initialRow (path : List Char) : RowOf path [] (initialRow path) where
  length := by simp [initialRow]
  cell k hk := by
    rw [globMatches_nil, initialRow]
    cases k with
    | zero => simp
    | succ k =>
        rw [List.getElem?_cons_succ, List.getElem?_replicate_of_lt hk]
        cases path with
        | nil => simp at hk
        | cons c path => simp

/-- A cell of the row of a `*` says whether some cell up to it was set. -/
theorem starRow_getElem? {previous : List Bool} {k : ℕ} (hk : k < previous.length) :
    (starRow previous)[k]? = some true ↔ ∃ m ≤ k, previous[m]? = some true := by
  cases previous with
  | nil => simp at hk
  | cons first rest =>
      rw [List.length_cons] at hk
      induction k with
      | zero => simp [starRow]
      | succ k ih =>
          have hcell : rest[k]? = some rest[k] := List.getElem?_eq_getElem (by omega)
          have hprevious := ih (by omega)
          rw [starRow, List.headD_cons, List.tail_cons] at hprevious ⊢
          rw [List.getElem?_succ_scanl, hcell]
          obtain ⟨b, hb⟩ : ∃ b, (rest.scanl (fun current cell => cell || current) first)[k]? =
              some b := ⟨_, List.getElem?_eq_getElem (by rw [List.length_scanl]; omega)⟩
          rw [hb] at hprevious ⊢
          simp only [Option.bind_some, Option.map_some, Option.some.injEq, Bool.or_eq_true]
            at hprevious ⊢
          rw [hprevious]
          constructor
          · rintro (hset | ⟨m, hm, hset⟩)
            · exact ⟨k + 1, le_rfl, by rw [List.getElem?_cons_succ, hcell, hset]⟩
            · exact ⟨m, by omega, hset⟩
          · rintro ⟨m, hm, hset⟩
            rcases Nat.lt_or_ge k m with hlt | hle
            · obtain rfl : m = k + 1 := by omega
              rw [List.getElem?_cons_succ, hcell] at hset
              exact .inl (Option.some.inj hset)
            · exact .inr ⟨m, hle, hset⟩

/-- One pattern character fills the row of the longer pattern. -/
theorem RowOf.pathRow {path pattern : List Char} {previous : List Bool}
    (h : RowOf path pattern previous) (c : Char) :
    RowOf path (pattern ++ [c]) (pathRow path previous c) := by
  rw [HpGuardian.pathRow]
  split
  · rename_i hstar
    subst hstar
    refine ⟨by simp [starRow, h.length], fun k hk => ?_⟩
    rw [starRow_getElem? (by rw [h.length]; omega), globMatches_concat_star hk]
    refine exists_congr (fun m => and_congr_right (fun hm => h.cell m (hm.trans hk)))
  · rename_i hc
    refine ⟨by simp [literalRow, h.length], fun k hk => ?_⟩
    cases k with
    | zero => simp [literalRow, not_globMatches_concat_literal_nil hc]
    | succ k =>
        rw [globMatches_concat_literal hc hk, ← h.cell k (by omega), literalRow,
          List.getElem?_cons_succ, List.getElem?_zipWith_eq_some]
        constructor
        · rintro ⟨cell, character, hcell, hcharacter, hset⟩
          rw [List.getElem?_eq_getElem hk, Option.some.injEq] at hcharacter
          rw [Bool.and_eq_true, beq_iff_eq] at hset
          exact ⟨by rw [hcell, hset.1], by rw [hset.2, hcharacter]⟩
        · rintro ⟨hcell, hcharacter⟩
          exact ⟨true, path[k], hcell, List.getElem?_eq_getElem hk, by simp [hcharacter]⟩

/-- The rows are filled one pattern character after the other. -/
theorem rowOf_foldl {path pattern rest : List Char} {row : List Bool}
    (h : RowOf path pattern row) :
    RowOf path (pattern ++ rest) (rest.foldl (HpGuardian.pathRow path) row) := by
  induction rest generalizing pattern row with
  | nil => simpa using h
  | cons c rest ih =>
      rw [List.foldl_cons, ← List.singleton_append, ← List.append_assoc]
      exact ih (h.pathRow c)

/-- **`path_pattern` matching is glob matching.**  For every pattern and path the answer is
whether the whole path is split into consecutive pieces, one for each pattern character, where a
`*` takes any piece and another character takes itself. -/
theorem pathMatches_iff_glob (pattern path : String) :
    pathMatches pattern path = true ↔ GlobMatches pattern.toList path.toList := by
  have hrow : RowOf path.toList pattern.toList
      (pattern.toList.foldl (HpGuardian.pathRow path.toList) (initialRow path.toList)) :=
    @rowOf_foldl path.toList [] pattern.toList _ (rowOf_initialRow path.toList)
  have hlast := hrow.cell path.toList.length le_rfl
  rw [List.take_length] at hlast
  rw [← hlast, pathMatches]
  cases (pattern.toList.foldl (HpGuardian.pathRow path.toList)
    (initialRow path.toList))[path.toList.length]? <;> simp

end HpGuardian

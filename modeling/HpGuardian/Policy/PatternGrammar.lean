import HpGuardian.Policy.ArgsPattern

/-!
# The grammar of `args_match` patterns

`PatternForm` is the notation: an optional `^`, items that are each followed by at most one `*`,
and an optional `$`.  It is defined on texts, without reference to the parser.  An item is a
character that needs no escape, `.`, or a backslash with one of the characters that may be escaped.

The parser is compared with the notation through printing.  Printing a parsed pattern gives its
source back (`parseArgsPattern_print`), and a printed pattern parses back to itself
(`parseArgsPattern_of_print`), so the parser accepts this notation and nothing else, and loses
nothing (`parseArgsPattern_grammar`); in particular two texts never parse alike.  The first is an
induction over the parsing loop, whose invariant is that what it has read, printed, is what it has
consumed.  The second is an induction over the tokens.

The only case in which a printed token could be read as something else is an anchor: a literal `^`
in front and a literal `$` at the end are printed with a backslash.
-/

namespace HpGuardian

/-! ## The notation

Pieces of text, from items to whole patterns. -/

/-- One item of a pattern: a plain character, `.`, or an escaped character. -/
inductive PatternItem : List Char → Prop
  | plain {character : Char} (hplain : character ∉ escapableCharacters)
      (hsupported : character ∉ unsupportedCharacters) : PatternItem [character]
  | any : PatternItem ['.']
  | escaped {character : Char} (h : character ∈ escapableCharacters) :
      PatternItem ['\\', character]

/-- An item with at most one `*` after it. -/
inductive PatternPiece : List Char → Prop
  | once {item : List Char} (h : PatternItem item) : PatternPiece item
  | repeated {item : List Char} (h : PatternItem item) : PatternPiece (item ++ ['*'])

/-- An anchor, if there is one. -/
def anchor (anchored : Bool) (character : Char) : List Char := if anchored then [character] else []

/-- The form of a pattern: an optional `^`, pieces, and an optional `$`. It is stated over the
characters alone and knows nothing of tokens. -/
def PatternForm (source : List Char) : Prop :=
  ∃ (startAnchored endAnchored : Bool) (pieces : List (List Char)),
    (∀ piece ∈ pieces, PatternPiece piece) ∧
      source = anchor startAnchored '^' ++ pieces.flatten ++ anchor endAnchored '$'

/-! ## Printing

A pattern as a text, for tokens that the notation can express.  Those are the tokens that the
parser reads. -/

/-- A token without its `*`. -/
def TokenKind.print : TokenKind → List Char
  | .any => ['.']
  | .literal character =>
      if character ∈ escapableCharacters then ['\\', character] else [character]

def Token.print (token : Token) : List Char := token.kind.print ++ anchor token.repeated '*'

def printTokens (tokens : List Token) : List Char := tokens.flatMap Token.print

/-- A pattern in the notation that it was parsed from. -/
def ArgsPattern.print (pattern : ArgsPattern) : String :=
  String.ofList (anchor pattern.startAnchored '^' ++ printTokens pattern.tokens ++
    anchor pattern.endAnchored '$')

/-- The notation can express the token. The unsupported characters cannot be escaped, so no pattern
stands for them. -/
def Token.Printable (token : Token) : Prop :=
  ∀ character, token.kind = .literal character → character ∉ unsupportedCharacters

@[simp] theorem anchor_false (character : Char) : anchor false character = [] := rfl

@[simp] theorem anchor_true (character : Char) : anchor true character = [character] := rfl

@[simp] theorem printTokens_nil : printTokens [] = [] := rfl

@[simp] theorem printTokens_cons (token : Token) (tokens : List Token) :
    printTokens (token :: tokens) = token.print ++ printTokens tokens := rfl

@[simp] theorem printTokens_append (tokens tokens' : List Token) :
    printTokens (tokens ++ tokens') = printTokens tokens ++ printTokens tokens' :=
  List.flatMap_append

/-- A character that can be escaped is not one of those that are refused. -/
theorem not_unsupported_of_escapable {character : Char} (h : character ∈ escapableCharacters) :
    character ∉ unsupportedCharacters := by
  simp only [escapableCharacters, List.mem_cons, List.not_mem_nil, or_false] at h
  rcases h with rfl | rfl | rfl | rfl | rfl <;> simp [unsupportedCharacters]

theorem patternItem_print {kind : TokenKind}
    (h : ∀ character, kind = .literal character → character ∉ unsupportedCharacters) :
    PatternItem kind.print := by
  cases kind with
  | any => exact .any
  | literal character =>
      rw [TokenKind.print]
      split
      · rename_i hescapable
        exact .escaped hescapable
      · rename_i hplain
        exact .plain hplain (h character rfl)

theorem PatternItem.exists_kind {item : List Char} (h : PatternItem item) :
    ∃ kind : TokenKind, kind.print = item ∧
      ∀ character, kind = .literal character → character ∉ unsupportedCharacters := by
  cases h with
  | @plain character hplain hsupported =>
      refine ⟨.literal character, if_neg hplain, fun other hother => ?_⟩
      obtain rfl := TokenKind.literal.inj hother
      exact hsupported
  | any => exact ⟨.any, rfl, by simp⟩
  | @escaped character hescapable =>
      refine ⟨.literal character, if_pos hescapable, fun other hother => ?_⟩
      obtain rfl := TokenKind.literal.inj hother
      exact not_unsupported_of_escapable hescapable

/-- A printed token is a piece of the notation. -/
theorem patternPiece_print {token : Token} (h : token.Printable) : PatternPiece token.print := by
  have hitem := patternItem_print h
  rw [Token.print]
  cases token.repeated with
  | true => exact .repeated hitem
  | false => simpa using PatternPiece.once hitem

/-- Every piece of the notation is a printed token. -/
theorem PatternPiece.exists_token {piece : List Char} (h : PatternPiece piece) :
    ∃ token : Token, token.Printable ∧ token.print = piece := by
  cases h with
  | once hitem =>
      obtain ⟨kind, rfl, hkind⟩ := hitem.exists_kind
      exact ⟨⟨kind, false⟩, hkind, List.append_nil _⟩
  | repeated hitem =>
      obtain ⟨kind, rfl, hkind⟩ := hitem.exists_kind
      exact ⟨⟨kind, true⟩, hkind, rfl⟩

/-- The notation is what patterns of expressible tokens print. -/
theorem patternForm_iff_print (source : String) :
    PatternForm source.toList ↔
      ∃ pattern : ArgsPattern, (∀ token ∈ pattern.tokens, token.Printable) ∧
        pattern.print = source := by
  constructor
  · rintro ⟨startAnchored, endAnchored, pieces, hpieces, hsource⟩
    have htokens : ∃ tokens : List Token, (∀ token ∈ tokens, token.Printable) ∧
        printTokens tokens = pieces.flatten := by
      clear hsource
      induction pieces with
      | nil => exact ⟨[], by simp, rfl⟩
      | cons piece pieces ih =>
          obtain ⟨hpiece, hpieces⟩ := List.forall_mem_cons.1 hpieces
          obtain ⟨token, htoken, hprint⟩ := hpiece.exists_token
          obtain ⟨tokens, htokens, hrest⟩ := ih hpieces
          exact ⟨token :: tokens, List.forall_mem_cons.2 ⟨htoken, htokens⟩, by simp [hprint, hrest]⟩
    obtain ⟨tokens, hprintable, hprint⟩ := htokens
    refine ⟨⟨startAnchored, endAnchored, tokens⟩, hprintable, ?_⟩
    rw [ArgsPattern.print, hprint, ← hsource, String.ofList_toList]
  · rintro ⟨pattern, hprintable, rfl⟩
    refine ⟨pattern.startAnchored, pattern.endAnchored, pattern.tokens.map Token.print, ?_, ?_⟩
    · intro piece hpiece
      obtain ⟨token, htoken, rfl⟩ := List.mem_map.1 hpiece
      exact patternPiece_print (hprintable token htoken)
    · rw [ArgsPattern.print, String.toList_ofList, printTokens, List.flatMap_def]

/-! ## What is parsed prints as its source

The invariant of the parsing loop. -/

/-- Repeating the last token read prints one `*` more. -/
theorem printTokens_repeatLast {tokens : List Token} {previous : Token}
    (hlast : tokens.getLast? = some previous) (honce : ¬ previous.repeated = true) :
    printTokens (tokens.dropLast ++ [{ previous with repeated := true }]) =
      printTokens tokens ++ ['*'] := by
  obtain ⟨front, rfl⟩ := List.getLast?_eq_some_iff.1 hlast
  simp [Token.print, eq_false_of_ne_true honce]

/-- What the loop has read, printed, is what it has consumed. -/
theorem parseArgsTokens_print {characters : List Char} {tokens read : List Token}
    {endAnchored : Bool} (hrun : parseArgsTokens characters tokens = .ok (endAnchored, read))
    (hprintable : ∀ token ∈ tokens, token.Printable) :
    printTokens read ++ anchor endAnchored '$' = printTokens tokens ++ characters ∧
      ∀ token ∈ read, token.Printable := by
  have hpush : ∀ {tokens : List Token} {token : Token}, (∀ t ∈ tokens, t.Printable) →
      token.Printable → ∀ t ∈ tokens ++ [token], t.Printable := by
    intro tokens token htokens htoken t ht
    rcases List.mem_append.1 ht with ht | ht
    · exact htokens t ht
    · rwa [List.mem_singleton.1 ht]
  fun_induction parseArgsTokens characters tokens with
  | case1 tokens =>
      obtain ⟨rfl, rfl⟩ := Prod.mk.inj (Except.ok.inj hrun)
      exact ⟨rfl, hprintable⟩
  | case2 character rest tokens hend =>
      obtain ⟨rfl, rfl⟩ := Prod.mk.inj (Except.ok.inj hrun)
      obtain ⟨rfl, rfl⟩ := hend
      exact ⟨rfl, hprintable⟩
  | case3 => cases hrun
  | case4 => cases hrun
  | case5 tokens escaped rest hescapable _ _ ih =>
      have htoken : Token.Printable ⟨.literal escaped, false⟩ := by
        rintro character hcharacter
        obtain rfl := TokenKind.literal.inj hcharacter
        exact not_unsupported_of_escapable hescapable
      obtain ⟨hprint, hread⟩ := ih hrun (hpush hprintable htoken)
      refine ⟨?_, hread⟩
      rw [hprint]
      simp [Token.print, TokenKind.print, hescapable]
  | case6 => cases hrun
  | case7 => cases hrun
  | case8 => cases hrun
  | case9 rest tokens previous hlast honce _ _ _ ih =>
      have hprevious : Token.Printable { previous with repeated := true } :=
        hprintable previous (List.mem_of_getLast? hlast)
      obtain ⟨hprint, hread⟩ := ih hrun
        (hpush (fun t ht => hprintable t (List.mem_of_mem_dropLast ht)) hprevious)
      refine ⟨?_, hread⟩
      rw [hprint, printTokens_repeatLast hlast honce, List.append_assoc]
      rfl
  | case10 rest tokens _ _ _ _ ih =>
      have htoken : Token.Printable ⟨.any, false⟩ := by simp [Token.Printable]
      obtain ⟨hprint, hread⟩ := ih hrun (hpush hprintable htoken)
      refine ⟨?_, hread⟩
      rw [hprint]
      simp [Token.print, TokenKind.print]
  | case11 => cases hrun
  | case12 character rest tokens _ hanchor hescape hstar hdot hsupported ih =>
      have htoken : Token.Printable ⟨.literal character, false⟩ := by
        rintro other hother
        obtain rfl := TokenKind.literal.inj hother
        exact hsupported
      have hplain : character ∉ escapableCharacters := by
        simp only [escapableCharacters, List.mem_cons, List.not_mem_nil, or_false]
        tauto
      obtain ⟨hprint, hread⟩ := ih hrun (hpush hprintable htoken)
      refine ⟨?_, hread⟩
      rw [hprint]
      simp [Token.print, TokenKind.print, hplain]

/-- The parser loses nothing: a parsed pattern prints as its source. -/
theorem parseArgsPattern_print {source : String} {pattern : ArgsPattern}
    (hparse : parseArgsPattern source = .ok pattern) :
    pattern.print = source ∧ ∀ token ∈ pattern.tokens, token.Printable := by
  unfold parseArgsPattern at hparse
  dsimp only at hparse
  split at hparse
  · cases hparse
  · rename_i endAnchored tokens hrun
    obtain rfl := Except.ok.inj hparse
    obtain ⟨hprint, hprintable⟩ := parseArgsTokens_print hrun (by simp)
    refine ⟨?_, hprintable⟩
    rw [ArgsPattern.print, List.append_assoc, hprint, printTokens_nil, List.nil_append]
    conv_rhs => rw [← String.ofList_toList (s := source)]
    congr 1
    split
    · rename_i hstart
      obtain ⟨rest, hsource⟩ := List.head?_eq_some_iff.1 (by simpa using hstart)
      simp [hsource]
    · rename_i hstart
      rw [eq_false_of_ne_true hstart, anchor_false, List.nil_append]

/-! ## What is printed parses back

The parsing loop on the text of a token, of several, and of a pattern. -/

/-- The loop reads a printed token. -/
theorem parseArgsTokens_token {token : Token} (h : token.Printable) (rest : List Char)
    (tokens : List Token) :
    parseArgsTokens (token.print ++ rest) tokens = parseArgsTokens rest (tokens ++ [token]) := by
  obtain ⟨kind, repeated⟩ := token
  have hitem : ∀ rest : List Char, parseArgsTokens (kind.print ++ rest) tokens =
      parseArgsTokens rest (tokens ++ [⟨kind, false⟩]) := by
    intro rest
    cases kind with
    | any =>
        rw [parseArgsTokens.eq_def]
        simp [TokenKind.print]
    | literal character =>
        rw [TokenKind.print]
        split
        · rename_i hescapable
          simp [parseArgsTokens, hescapable]
        · rename_i hplain
          have hsupported := h character rfl
          simp only [escapableCharacters, List.mem_cons, List.not_mem_nil, or_false, not_or]
            at hplain
          obtain ⟨hbackslash, hdot, hstar, hcaret, hdollar⟩ := hplain
          rw [List.singleton_append, parseArgsTokens.eq_def]
          simp [hbackslash, hdot, hstar, hcaret, hdollar, hsupported]
  cases repeated with
  | false => simpa [Token.print] using hitem rest
  | true =>
      rw [Token.print, List.append_assoc, hitem, anchor_true, List.singleton_append,
        parseArgsTokens.eq_def]
      simp

theorem parseArgsTokens_tokens {printed : List Token} (h : ∀ token ∈ printed, token.Printable)
    (rest : List Char) (tokens : List Token) :
    parseArgsTokens (printTokens printed ++ rest) tokens =
      parseArgsTokens rest (tokens ++ printed) := by
  induction printed generalizing tokens with
  | nil => simp
  | cons token printed ih =>
      obtain ⟨htoken, hprinted⟩ := List.forall_mem_cons.1 h
      rw [printTokens_cons, List.append_assoc, parseArgsTokens_token htoken, ih hprinted,
        List.append_assoc, List.singleton_append]

theorem parseArgsTokens_anchor (endAnchored : Bool) (tokens : List Token) :
    parseArgsTokens (anchor endAnchored '$') tokens = .ok (endAnchored, tokens) := by
  cases endAnchored <;> simp [parseArgsTokens]

/-- Nothing but the start anchor is printed as a `^` in front. -/
theorem head_printTokens_ne (tokens : List Token) (endAnchored : Bool) :
    (printTokens tokens ++ anchor endAnchored '$').head? ≠ some '^' := by
  cases tokens with
  | nil => cases endAnchored <;> simp
  | cons token tokens =>
      obtain ⟨kind, repeated⟩ := token
      cases kind with
      | any => simp [Token.print, TokenKind.print]
      | literal character =>
          rw [printTokens_cons, Token.print, TokenKind.print]
          split
          · simp
          · rename_i hplain
            have hne : character ≠ '^' := by
              rintro rfl
              exact hplain (by decide)
            simp [hne]

/-- A printed pattern parses back to itself. -/
theorem parseArgsPattern_of_print {pattern : ArgsPattern}
    (h : ∀ token ∈ pattern.tokens, token.Printable) :
    parseArgsPattern pattern.print = .ok pattern := by
  obtain ⟨startAnchored, endAnchored, tokens⟩ := pattern
  have hbody : parseArgsTokens (printTokens tokens ++ anchor endAnchored '$') [] =
      .ok (endAnchored, tokens) := by
    rw [parseArgsTokens_tokens h, List.nil_append, parseArgsTokens_anchor]
  unfold parseArgsPattern
  rw [ArgsPattern.print, String.toList_ofList, List.append_assoc]
  cases startAnchored with
  | true => simp [hbody]
  | false =>
      have hhead : ((printTokens tokens ++ anchor endAnchored '$').head? == some '^') = false :=
        beq_false_of_ne (head_printTokens_ne tokens endAnchored)
      dsimp only
      rw [anchor_false, List.nil_append, hhead, if_neg Bool.false_ne_true, hbody]

/-- **The pattern parser accepts exactly its grammar and loses nothing.**  A text is accepted iff
it has the form of a pattern; a parsed pattern prints as the text it was parsed from, so different
texts are never parsed alike; and what is printed parses back to the same pattern. -/
theorem parseArgsPattern_grammar :
    (∀ source : String, (∃ pattern, parseArgsPattern source = .ok pattern) ↔
      PatternForm source.toList) ∧
    (∀ source pattern, parseArgsPattern source = .ok pattern → pattern.print = source) ∧
    (∀ source source' pattern, parseArgsPattern source = .ok pattern →
      parseArgsPattern source' = .ok pattern → source = source') ∧
    ∀ pattern : ArgsPattern, (∀ token ∈ pattern.tokens, token.Printable) →
      parseArgsPattern pattern.print = .ok pattern := by
  refine ⟨fun source => ?_, fun source pattern hparse => (parseArgsPattern_print hparse).1,
    fun source source' pattern hparse hparse' => ?_,
    fun pattern hprintable => parseArgsPattern_of_print hprintable⟩
  · rw [patternForm_iff_print]
    constructor
    · rintro ⟨pattern, hparse⟩
      obtain ⟨hprint, hprintable⟩ := parseArgsPattern_print hparse
      exact ⟨pattern, hprintable, hprint⟩
    · rintro ⟨pattern, hprintable, rfl⟩
      exact ⟨pattern, parseArgsPattern_of_print hprintable⟩
  · rw [← (parseArgsPattern_print hparse).1, (parseArgsPattern_print hparse').1]

end HpGuardian

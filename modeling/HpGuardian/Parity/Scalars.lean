import HpGuardian.Policy.Parser
import HpGuardian.Python.Scalars
import Mathlib.Data.List.Sections

/-!
# The two classes of ambiguous scalars

A string in a policy must not look like another scalar.  The Rust runtime classes a string as
ambiguous by a word list and a set of characters: it is one of the words, or it begins with a digit
or a sign and has only characters of numeric forms.  The Python runtime matches eight regular
expressions, for words, dates, decimal numbers, other bases, sexagesimal numbers and infinities.

The two classes overlap without being equal.  `isAmbiguous_agree_iff` lists the kinds of strings
that one runtime classes as ambiguous and the other does not (`ClassedDifferently`): a word that
only one has, a letter that `re.IGNORECASE` takes for another, an infinity, characters of numbers
that make up no number, and numbers with a character that the set lacks, such as the letters of
hexadecimal forms.

The expressions are read as plain decompositions of the string first (`IsDate`, `IsDecimal` and so
on), by the lemmas about the languages of expressions.  The comparison is then about the characters
in these decompositions.  Digits are those of the runtime: a `\d` stands for every decimal digit of
Unicode.
-/

namespace HpGuardian

open Framework

/-! ## Letters

Case folding.  Only ASCII letters have another case in the one runtime; the other one also matches
three letters beyond ASCII with an `i` or an `s`. -/

/-- `to_ascii_lowercase` changes the capital letters only, and each into a small letter. -/
theorem toLower_cases (c : Char) :
    (¬ (65 ≤ c.toNat ∧ c.toNat ≤ 90) ∧ c.toLower = c) ∨
      (65 ≤ c.toNat ∧ c.toNat ≤ 90 ∧ c.toLower.toNat = c.toNat + 32) := by
  have hbounds : (c.val ≥ 'A'.val ∧ c.val ≤ 'Z'.val) ↔ 65 ≤ c.toNat ∧ c.toNat ≤ 90 := by
    rw [ge_iff_le, UInt32.le_iff_toNat_le, UInt32.le_iff_toNat_le]
    exact Iff.rfl
  unfold Char.toLower
  split
  · rename_i h
    obtain ⟨hlower, hupper⟩ := hbounds.1 h
    refine .inr ⟨hlower, hupper, ?_⟩
    show (c.val + ('a'.val - 'A'.val)).toNat = c.val.toNat + 32
    have hc : c.val.toNat ≤ 90 := hupper
    rw [UInt32.toNat_add, show ('a'.val - 'A'.val).toNat = 32 from rfl]
    omega
  · rename_i h
    exact .inl ⟨mt hbounds.2 h, rfl⟩

/-- No other character is lowered to one outside ASCII. -/
theorem toLower_eq_iff {c k : Char} (hk : 122 < k.toNat) : c.toLower = k ↔ c = k := by
  rcases toLower_cases c with ⟨-, hsame⟩ | ⟨hlower, hupper, hlowered⟩
  · rw [hsame]
  · constructor
    · intro h
      rw [h] at hlowered
      omega
    · rintro rfl
      omega

/-- A decimal digit is an ASCII digit or lies beyond ASCII. -/
theorem isDecimalDigit_bounds {c : Char} (h : Python.isDecimalDigit c = true) :
    (48 ≤ c.toNat ∧ c.toNat ≤ 57) ∨ 1632 ≤ c.toNat := by
  unfold Python.isDecimalDigit at h
  obtain ⟨first, hfirst, hc⟩ := List.any_eq_true.1 h
  rw [Bool.and_eq_true, decide_eq_true_eq, decide_eq_true_eq] at hc
  have hzeros : ∀ first ∈ Python.decimalZeros, first = 48 ∨ 1632 ≤ first := by decide
  rcases hzeros first hfirst with rfl | hlarge
  · exact .inl ⟨hc.1, by omega⟩
  · exact .inr (hlarge.trans hc.1)

/-- An ASCII digit is a decimal digit. -/
theorem isDecimalDigit_of_isDigit {c : Char} (h : c.isDigit = true) :
    Python.isDecimalDigit c = true := by
  unfold Char.isDigit at h
  rw [Bool.and_eq_true, decide_eq_true_eq, decide_eq_true_eq, ge_iff_le,
    UInt32.le_iff_toNat_le, UInt32.le_iff_toNat_le] at h
  have hlower : 48 ≤ c.toNat := h.1
  have hupper : c.toNat ≤ 57 := h.2
  refine List.any_eq_true.2 ⟨0x30, by decide, ?_⟩
  rw [Bool.and_eq_true, decide_eq_true_eq, decide_eq_true_eq]
  exact ⟨hlower, by omega⟩

/-- The first characters of dates and numbers. -/
def StartsNumber (c : Char) : Prop := Python.isDecimalDigit c = true ∨ c ∈ ['+', '-', '.']

/-- A date or number has no case at its start. -/
theorem StartsNumber.toLower {c : Char} (h : StartsNumber c) : c.toLower = c := by
  rcases toLower_cases c with ⟨-, hsame⟩ | ⟨hlower, hupper, -⟩
  · exact hsame
  · exfalso
    rcases h with h | h
    · rcases isDecimalDigit_bounds h with h | h <;> omega
    · have hsmall : ∀ c ∈ ['+', '-', '.'], c.toNat < 65 := by simp
      exact absurd hlower (not_le.2 (hsmall c h))

/-! ## Words

The word lists, lowered.  Most words are shared. -/

/-- The lowered characters of a string. -/
def lowered (w : List Char) : List Char := w.map Char.toLower

/-- The lowered characters that match a letter under `re.IGNORECASE`. -/
def variants (letter : Char) : List Char :=
  if letter = 's' then ['s', 'ſ'] else if letter = 'i' then ['i', 'İ', 'ı'] else [letter]

theorem equalsIgnoringCase_iff (letter c : Char) :
    Python.equalsIgnoringCase letter c = true ↔ c.toLower ∈ variants letter := by
  have hlong : c.toLower = 'ſ' ↔ c = 'ſ' := toLower_eq_iff (by decide)
  have hdotted : c.toLower = 'İ' ↔ c = 'İ' := toLower_eq_iff (by decide)
  have hdotless : c.toLower = 'ı' ↔ c = 'ı' := toLower_eq_iff (by decide)
  unfold Python.equalsIgnoringCase variants
  by_cases hs : letter = 's'
  · subst hs
    simp [hlong]
  by_cases hi : letter = 'i'
  · subst hi
    simp [hdotted, hdotless]
  · simp [hs, hi]

/-- The lowered spellings of a word under `re.IGNORECASE`. -/
def spellings (word : String) : List (List Char) := (word.toList.map variants).sections

theorem mem_wordIgnoringCase (word : String) (w : List Char) :
    w ∈ (Python.wordIgnoringCase word).language ↔ lowered w ∈ spellings word := by
  unfold Python.wordIgnoringCase spellings lowered
  rw [List.mem_sections]
  generalize word.toList = letters
  induction letters generalizing w with
  | nil => simp
  | cons letter letters ih =>
      rw [List.map_cons, List.map_cons, List.forall₂_cons_right_iff,
        Regex.mem_language_seqs_cons]
      constructor
      · rintro ⟨-, ⟨c, hc, rfl⟩, v, hv, rfl⟩
        exact ⟨c.toLower, lowered v, (equalsIgnoringCase_iff _ _).1 hc, (ih v).1 hv, rfl⟩
      · rintro ⟨first, rest, hletter, hrest, hw⟩
        obtain ⟨c, v, rfl, rfl, rfl⟩ := List.map_eq_cons_iff.1 hw
        exact ⟨[c], ⟨c, (equalsIgnoringCase_iff _ _).2 hletter, rfl⟩, v, (ih v).2 hrest, rfl⟩

/-- The words that both runtimes list. -/
def sharedWords : List String := ["true", "false", "yes", "no", "on", "off", "null", "~"]

/-- The words that only the Rust runtime lists. -/
def letterWords : List String := ["y", "n"]

/-- The spellings with a long s, which only `re.IGNORECASE` takes for the word. -/
def longSWords : List String := ["falſe", "yeſ"]

theorem mem_booleanOrNull (w : List Char) :
    w ∈ Python.booleanOrNull.language ↔
      lowered w ∈ (sharedWords ++ longSWords).map String.toList := by
  have hspellings : ∀ l : List Char,
      (∃ word ∈ sharedWords, l ∈ spellings word) ↔
        l ∈ (sharedWords ++ longSWords).map String.toList := by
    intro l
    simp [sharedWords, longSWords, spellings, variants, List.sections]
    tauto
  rw [Python.booleanOrNull, Regex.mem_language_alts, ← hspellings]
  simp only [sharedWords, List.map_cons, List.map_nil, List.exists_mem_cons_iff,
    mem_wordIgnoringCase, List.not_mem_nil, false_and, exists_false]

/-! ## Dates and numbers

The documented forms as decompositions, and each expression against its form. -/

/-- Nothing, `+` or `-`. -/
def IsSign (w : List Char) : Prop := w = [] ∨ w = ['+'] ∨ w = ['-']

/-- Decimal digits and underscores. -/
def SeparatedDigits (w : List Char) : Prop := ∀ c ∈ w, Python.isDecimalDigit c = true ∨ c = '_'

/-- A decimal digit, and digits and underscores after it. -/
def DigitRun (w : List Char) : Prop :=
  ∃ d rest, Python.isDecimalDigit d = true ∧ SeparatedDigits rest ∧ w = d :: rest

/-- A fixed number of decimal digits. -/
def IsDigits (n : ℕ) (w : List Char) : Prop :=
  w.length = n ∧ ∀ c ∈ w, Python.isDecimalDigit c = true

/-- A date `YYYY-MM-DD`, and after it nothing or a separator and the rest of a line. The digits may
be of any script, and the numbers need not be those of a day. -/
def IsDate (w : List Char) : Prop :=
  ∃ year month day tail, IsDigits 4 year ∧ IsDigits 2 month ∧ IsDigits 2 day ∧
    (tail = [] ∨
      ∃ separator ∈ ['T', 't', ' ', '_'], ∃ rest, '\n' ∉ rest ∧ tail = separator :: rest) ∧
    w = year ++ '-' :: (month ++ '-' :: (day ++ tail))

/-- A digit run with a point and digits after it or not, or a point before a digit run. -/
def IsMantissa (w : List Char) : Prop :=
  (∃ whole point fraction, DigitRun whole ∧ (point = ['.'] ∨ point = []) ∧
    SeparatedDigits fraction ∧ w = whole ++ (point ++ fraction)) ∨
  ∃ fraction, DigitRun fraction ∧ w = '.' :: fraction

/-- Nothing, or an exponent with an optional sign. -/
def IsExponent (w : List Char) : Prop :=
  (∃ mark ∈ ['e', 'E'], ∃ sign digits,
    IsSign sign ∧ DigitRun digits ∧ w = mark :: (sign ++ digits)) ∨ w = []

/-- A decimal number. -/
def IsDecimal (w : List Char) : Prop :=
  ∃ sign mantissa exponent, IsSign sign ∧ IsMantissa mantissa ∧ IsExponent exponent ∧
    w = sign ++ (mantissa ++ exponent)

/-- A zero, a mark and one or more numerals after an optional sign. -/
def IsBased (marks numerals : String) (w : List Char) : Prop :=
  ∃ sign, IsSign sign ∧ ∃ mark ∈ marks.toList, ∃ body, body ≠ [] ∧
    (∀ c ∈ body, c ∈ numerals.toList) ∧ w = sign ++ '0' :: mark :: body

/-- A colon and a digit run, with a point and a digit run after it or not. -/
def IsSexagesimalGroup (w : List Char) : Prop :=
  ∃ digits tail, DigitRun digits ∧
    ((∃ fraction, DigitRun fraction ∧ tail = '.' :: fraction) ∨ tail = []) ∧
    w = ':' :: (digits ++ tail)

/-- Digit runs between colons. -/
def IsSexagesimal (w : List Char) : Prop :=
  ∃ sign first, IsSign sign ∧ DigitRun first ∧ ∃ groups : List (List Char), groups ≠ [] ∧
    (∀ group ∈ groups, IsSexagesimalGroup group) ∧ w = sign ++ (first ++ groups.flatten)

/-- A date or a number in one of the documented forms. One string may have several of them. -/
inductive DateOrNumber (w : List Char) : Prop
  | date (h : IsDate w)
  | decimal (h : IsDecimal w)
  | hexadecimal (h : IsBased "xX" "0123456789abcdefABCDEF_" w)
  | octal (h : IsBased "oO" "01234567_" w)
  | binary (h : IsBased "bB" "01_" w)
  | sexagesimal (h : IsSexagesimal w)

/-- An infinity or a not-a-number, in any case. -/
def InfinityOrNan (w : List Char) : Prop :=
  ∃ sign body, IsSign sign ∧
    lowered body ∈ ["inf", "İnf", "ınf", "nan"].map String.toList ∧ w = sign ++ '.' :: body

section

variable {w : List Char}

theorem mem_oneOf {characters : String} :
    w ∈ (Python.oneOf characters).language ↔ ∃ c ∈ characters.toList, w = [c] := by
  simp [Python.oneOf]

theorem mem_sign : w ∈ Python.sign.language ↔ IsSign w := by
  simp [Python.sign, mem_oneOf, IsSign]
  tauto

theorem mem_digitsOrUnderscores :
    w ∈ Python.digitsOrUnderscores.language ↔ SeparatedDigits w := by
  simp [Python.digitsOrUnderscores, SeparatedDigits]

theorem mem_digits : w ∈ Python.digits.language ↔ DigitRun w := by
  simp only [Python.digits, Python.digit, Regex.mem_language_seq, Regex.mem_language_letter,
    mem_digitsOrUnderscores, DigitRun]
  constructor
  · rintro ⟨-, ⟨d, hd, rfl⟩, rest, hrest, rfl⟩
    exact ⟨d, rest, hd, hrest, rfl⟩
  · rintro ⟨d, rest, hd, hrest, rfl⟩
    exact ⟨[d], ⟨d, hd, rfl⟩, rest, hrest, rfl⟩

/-- A sequence that begins with a letter class. -/
theorem mem_seqs_letter {test : Char → Bool} {regexes : List (Regex Char)} :
    w ∈ (Regex.seqs (.letter test :: regexes)).language ↔
      ∃ c v, test c = true ∧ v ∈ (Regex.seqs regexes).language ∧ w = c :: v := by
  rw [Regex.mem_language_seqs_cons]
  constructor
  · rintro ⟨-, ⟨c, hc, rfl⟩, v, hv, rfl⟩
    exact ⟨c, v, hc, hv, rfl⟩
  · rintro ⟨c, v, hc, hv, rfl⟩
    exact ⟨[c], ⟨c, hc, rfl⟩, v, hv, rfl⟩

/-- A sequence that begins with several decimal digits. -/
theorem mem_seqs_digits (n : ℕ) {regexes : List (Regex Char)} :
    w ∈ (Regex.seqs (List.replicate n Python.digit ++ regexes)).language ↔
      ∃ u v, IsDigits n u ∧ v ∈ (Regex.seqs regexes).language ∧ w = u ++ v := by
  induction n generalizing w with
  | zero =>
      constructor
      · intro h
        exact ⟨[], w, ⟨rfl, by simp⟩, h, rfl⟩
      · rintro ⟨u, v, ⟨hlength, -⟩, hv, rfl⟩
        rw [List.length_eq_zero_iff.1 hlength]
        exact hv
  | succ n ih =>
      rw [List.replicate_succ, List.cons_append, Python.digit, mem_seqs_letter]
      constructor
      · rintro ⟨c, rest, hc, hrest, rfl⟩
        obtain ⟨u, v, ⟨hlength, hu⟩, hv, rfl⟩ := ih.1 hrest
        exact ⟨c :: u, v, ⟨by simp [hlength], List.forall_mem_cons.2 ⟨hc, hu⟩⟩, hv, rfl⟩
      · rintro ⟨u, v, ⟨hlength, hu⟩, hv, rfl⟩
        obtain ⟨c, u, rfl⟩ := List.exists_cons_of_length_eq_add_one hlength
        obtain ⟨hc, hu⟩ := List.forall_mem_cons.1 hu
        exact ⟨c, u ++ v, hc, ih.2 ⟨u, v, ⟨by simpa using hlength, hu⟩, hv, rfl⟩, rfl⟩

/-- A sequence that begins with one given character. -/
theorem mem_seqs_character {c : Char} {regexes : List (Regex Char)} :
    w ∈ (Regex.seqs (Python.oneOf (String.singleton c) :: regexes)).language ↔
      ∃ v, v ∈ (Regex.seqs regexes).language ∧ w = c :: v := by
  rw [Python.oneOf, mem_seqs_letter]
  simp

/-- A sequence of one expression. -/
theorem mem_seqs_singleton {regex : Regex Char} :
    w ∈ (Regex.seqs [regex]).language ↔ w ∈ regex.language := by
  simp

theorem mem_dateTail :
    w ∈ (Regex.optional (.seq (Python.oneOf "Tt _")
        (.star (.letter (fun c => c != '\n'))))).language ↔
      w = [] ∨ ∃ separator ∈ ['T', 't', ' ', '_'], ∃ rest, '\n' ∉ rest ∧ w = separator :: rest := by
  have hrest : ∀ rest : List Char, (∀ c ∈ rest, (c != '\n') = true) ↔ '\n' ∉ rest := by
    intro rest
    simp only [bne_iff_ne]
    exact ⟨fun h hmem => h _ hmem rfl, fun h c hc hcn => h (hcn ▸ hc)⟩
  rw [Regex.mem_language_optional, or_comm, Regex.mem_language_seq]
  simp only [mem_oneOf, Regex.mem_language_star_letter, hrest]
  refine or_congr Iff.rfl ⟨?_, ?_⟩
  · rintro ⟨-, ⟨separator, hseparator, rfl⟩, rest, hline, rfl⟩
    exact ⟨separator, hseparator, rest, hline, rfl⟩
  · rintro ⟨separator, hseparator, rest, hline, rfl⟩
    exact ⟨[separator], ⟨separator, hseparator, rfl⟩, rest, hline, rfl⟩

theorem mem_timestampLike : w ∈ Python.timestampLike.language ↔ IsDate w := by
  have hseqs : Python.timestampLike = Regex.seqs (List.replicate 4 Python.digit ++
      Python.oneOf (String.singleton '-') :: (List.replicate 2 Python.digit ++
      Python.oneOf (String.singleton '-') :: (List.replicate 2 Python.digit ++
      [Regex.optional (.seq (Python.oneOf "Tt _") (.star (.letter (fun c => c != '\n'))))]))) := rfl
  rw [hseqs, mem_seqs_digits]
  simp only [mem_seqs_character, mem_seqs_digits, mem_seqs_singleton, mem_dateTail]
  constructor
  · rintro ⟨year, -, hyear, ⟨-, ⟨month, -, hmonth, ⟨-, ⟨day, tail, hday, htail, rfl⟩, rfl⟩, rfl⟩,
      rfl⟩, rfl⟩
    exact ⟨year, month, day, tail, hyear, hmonth, hday, htail, rfl⟩
  · rintro ⟨year, month, day, tail, hyear, hmonth, hday, htail, rfl⟩
    exact ⟨year, _, hyear, ⟨_, ⟨month, _, hmonth, ⟨_, ⟨day, tail, hday, htail, rfl⟩, rfl⟩, rfl⟩,
      rfl⟩, rfl⟩

theorem mem_mantissa :
    w ∈ (Regex.alt (Regex.seqs [Python.digits, .optional (Python.oneOf "."),
        Python.digitsOrUnderscores]) (.seq (Python.oneOf ".") Python.digits)).language ↔
      IsMantissa w := by
  rw [Regex.mem_language_alt, Regex.mem_language_seqs_cons, Regex.mem_language_seq]
  simp only [Regex.mem_language_seqs_cons, Regex.mem_language_seqs_nil, exists_eq_left,
    List.append_nil, exists_eq_right, Regex.mem_language_optional, mem_digits,
    mem_digitsOrUnderscores, mem_oneOf]
  refine or_congr ⟨?_, ?_⟩ ⟨?_, ?_⟩
  · rintro ⟨whole, hwhole, -, ⟨point, hpoint, fraction, hfraction, rfl⟩, rfl⟩
    exact ⟨whole, point, fraction, hwhole, by simpa using hpoint, hfraction, rfl⟩
  · rintro ⟨whole, point, fraction, hwhole, hpoint, hfraction, rfl⟩
    exact ⟨whole, hwhole, _, ⟨point, by simpa using hpoint, fraction, hfraction, rfl⟩, rfl⟩
  · rintro ⟨point, ⟨c, hc, rfl⟩, fraction, hfraction, rfl⟩
    obtain rfl : c = '.' := by simpa using hc
    exact ⟨fraction, hfraction, rfl⟩
  · rintro ⟨fraction, hfraction, rfl⟩
    exact ⟨['.'], ⟨'.', by simp, rfl⟩, fraction, hfraction, rfl⟩

theorem mem_exponent :
    w ∈ (Regex.optional (Regex.seqs [Python.oneOf "eE", Python.sign, Python.digits])).language ↔
      IsExponent w := by
  rw [Regex.mem_language_optional, Regex.mem_language_seqs_cons]
  simp only [Regex.mem_language_seqs_cons, Regex.mem_language_seqs_nil, exists_eq_left,
    List.append_nil, exists_eq_right, mem_digits, mem_oneOf, mem_sign]
  refine or_congr ⟨?_, ?_⟩ Iff.rfl
  · rintro ⟨-, ⟨mark, hmark, rfl⟩, -, ⟨sign, hsign, digits, hdigits, rfl⟩, rfl⟩
    exact ⟨mark, hmark, sign, digits, hsign, hdigits, rfl⟩
  · rintro ⟨mark, hmark, sign, digits, hsign, hdigits, rfl⟩
    exact ⟨_, ⟨mark, hmark, rfl⟩, _, ⟨sign, hsign, digits, hdigits, rfl⟩, rfl⟩

theorem mem_decimal : w ∈ Python.decimal.language ↔ IsDecimal w := by
  rw [Python.decimal, Regex.mem_language_seqs_cons]
  simp only [Regex.mem_language_seqs_cons, Regex.mem_language_seqs_nil, exists_eq_left,
    List.append_nil, exists_eq_right, mem_mantissa, mem_exponent, mem_sign]
  constructor
  · rintro ⟨sign, hsign, -, ⟨mantissa, hmantissa, exponent, hexponent, rfl⟩, rfl⟩
    exact ⟨sign, mantissa, exponent, hsign, hmantissa, hexponent, rfl⟩
  · rintro ⟨sign, mantissa, exponent, hsign, hmantissa, hexponent, rfl⟩
    exact ⟨sign, hsign, _, ⟨mantissa, hmantissa, exponent, hexponent, rfl⟩, rfl⟩

/-- One or more of given characters. -/
theorem mem_plus_oneOf {numerals : String} :
    w ∈ (Regex.plus (Python.oneOf numerals)).language ↔
      w ≠ [] ∧ ∀ c ∈ w, c ∈ numerals.toList := by
  rw [Regex.plus, Regex.mem_language_seq, Python.oneOf]
  simp only [Regex.mem_language_letter, Regex.mem_language_star_letter, List.contains_iff_mem]
  constructor
  · rintro ⟨-, ⟨c, hc, rfl⟩, rest, hrest, rfl⟩
    exact ⟨List.cons_ne_nil c rest, List.forall_mem_cons.2 ⟨hc, hrest⟩⟩
  · rintro ⟨hne, hall⟩
    obtain ⟨c, rest, rfl⟩ := List.exists_cons_of_ne_nil hne
    obtain ⟨hc, hrest⟩ := List.forall_mem_cons.1 hall
    exact ⟨[c], ⟨c, hc, rfl⟩, rest, hrest, rfl⟩

/-- The hexadecimal, octal and binary forms. -/
theorem mem_based (marks numerals : String) :
    w ∈ (Regex.seqs [Python.sign, Python.oneOf "0", Python.oneOf marks,
        .plus (Python.oneOf numerals)]).language ↔ IsBased marks numerals w := by
  have hzero : Python.oneOf "0" = Python.oneOf (String.singleton '0') := rfl
  rw [hzero, Regex.mem_language_seqs_cons]
  simp only [mem_seqs_character]
  simp only [Regex.mem_language_seqs_cons, Regex.mem_language_seqs_nil, exists_eq_left,
    List.append_nil, exists_eq_right, mem_plus_oneOf, mem_oneOf, mem_sign]
  constructor
  · rintro ⟨sign, hsign, -, ⟨-, ⟨-, ⟨mark, hmark, rfl⟩, body, ⟨hne, hbody⟩, rfl⟩, rfl⟩, rfl⟩
    exact ⟨sign, hsign, mark, hmark, body, hne, hbody, rfl⟩
  · rintro ⟨sign, hsign, mark, hmark, body, hne, hbody, rfl⟩
    exact ⟨sign, hsign, _, ⟨_, ⟨_, ⟨mark, hmark, rfl⟩, body, ⟨hne, hbody⟩, rfl⟩, rfl⟩, rfl⟩

theorem mem_sexagesimalGroup :
    w ∈ (Regex.seqs [Python.oneOf ":", Python.digits,
        .optional (.seq (Python.oneOf ".") Python.digits)]).language ↔ IsSexagesimalGroup w := by
  have htail : ∀ tail : List Char,
      tail ∈ (Regex.optional (.seq (Python.oneOf ".") Python.digits)).language ↔
        (∃ fraction, DigitRun fraction ∧ tail = '.' :: fraction) ∨ tail = [] := by
    intro tail
    simp only [Regex.mem_language_optional, Regex.mem_language_seq, mem_oneOf, mem_digits]
    refine or_congr ⟨?_, ?_⟩ Iff.rfl
    · rintro ⟨-, ⟨c, hc, rfl⟩, fraction, hfraction, rfl⟩
      obtain rfl : c = '.' := by simpa using hc
      exact ⟨fraction, hfraction, rfl⟩
    · rintro ⟨fraction, hfraction, rfl⟩
      exact ⟨['.'], ⟨'.', by simp, rfl⟩, fraction, hfraction, rfl⟩
  have hcolon : Python.oneOf ":" = Python.oneOf (String.singleton ':') := rfl
  rw [hcolon, mem_seqs_character]
  simp only [Regex.mem_language_seqs_cons, Regex.mem_language_seqs_nil, exists_eq_left,
    List.append_nil, exists_eq_right, mem_digits, htail]
  constructor
  · rintro ⟨-, ⟨digits, hdigits, tail, htail, rfl⟩, rfl⟩
    exact ⟨digits, tail, hdigits, htail, rfl⟩
  · rintro ⟨digits, tail, hdigits, htail, rfl⟩
    exact ⟨_, ⟨digits, hdigits, tail, htail, rfl⟩, rfl⟩

theorem mem_sexagesimal : w ∈ Python.sexagesimal.language ↔ IsSexagesimal w := by
  have hgroups : ∀ v : List Char,
      v ∈ (Regex.plus (Regex.seqs [Python.oneOf ":", Python.digits,
        .optional (.seq (Python.oneOf ".") Python.digits)])).language ↔
      ∃ groups : List (List Char), groups ≠ [] ∧ (∀ group ∈ groups, IsSexagesimalGroup group) ∧
        v = groups.flatten := by
    intro v
    simp only [Regex.mem_language_plus, mem_sexagesimalGroup, and_comm]
  rw [Python.sexagesimal, Regex.mem_language_seqs_cons]
  simp only [Regex.mem_language_seqs_cons, Regex.mem_language_seqs_nil, exists_eq_left,
    List.append_nil, exists_eq_right, mem_sign, mem_digits, hgroups]
  constructor
  · rintro ⟨sign, hsign, -, ⟨first, hfirst, -, ⟨groups, hne, hgroups, rfl⟩, rfl⟩, rfl⟩
    exact ⟨sign, first, hsign, hfirst, groups, hne, hgroups, rfl⟩
  · rintro ⟨sign, first, hsign, hfirst, groups, hne, hgroups, rfl⟩
    exact ⟨sign, hsign, _, ⟨first, hfirst, _, ⟨groups, hne, hgroups, rfl⟩, rfl⟩, rfl⟩

theorem mem_infOrNan : w ∈ Python.infOrNan.language ↔ InfinityOrNan w := by
  have hwords : ∀ body : List Char,
      lowered body ∈ spellings "inf" ∨ lowered body ∈ spellings "nan" ↔
        lowered body ∈ ["inf", "İnf", "ınf", "nan"].map String.toList := by
    intro body
    generalize lowered body = l
    simp [spellings, variants, List.sections]
    tauto
  have hpoint : Python.oneOf "." = Python.oneOf (String.singleton '.') := rfl
  rw [Python.infOrNan, hpoint, Regex.mem_language_seqs_cons]
  simp only [mem_seqs_character, mem_seqs_singleton, mem_sign, Regex.mem_language_alt,
    mem_wordIgnoringCase, hwords]
  constructor
  · rintro ⟨sign, hsign, -, ⟨body, hbody, rfl⟩, rfl⟩
    exact ⟨sign, body, hsign, hbody, rfl⟩
  · rintro ⟨sign, body, hsign, hbody, rfl⟩
    exact ⟨sign, hsign, _, ⟨body, hbody, rfl⟩, rfl⟩

theorem dateOrNumber_iff :
    DateOrNumber w ↔
      IsDate w ∨ IsDecimal w ∨ IsBased "xX" "0123456789abcdefABCDEF_" w ∨
        IsBased "oO" "01234567_" w ∨ IsBased "bB" "01_" w ∨ IsSexagesimal w := by
  constructor
  · rintro (h | h | h | h | h | h) <;> simp [h]
  · rintro (h | h | h | h | h | h)
    · exact .date h
    · exact .decimal h
    · exact .hexadecimal h
    · exact .octal h
    · exact .binary h
    · exact .sexagesimal h

end

/-! ## The two classes

What each runtime classes as ambiguous, in terms of words and forms. -/

/-- What the Python runtime classes as ambiguous. -/
theorem python_isAmbiguousScalar_iff (value : String) :
    Python.isAmbiguousScalar value = true ↔
      lowered value.toList ∈ (sharedWords ++ longSWords).map String.toList ∨
        DateOrNumber value.toList ∨ InfinityOrNan value.toList := by
  rw [Python.isAmbiguousScalar, List.any_eq_true, dateOrNumber_iff]
  simp only [Regex.fullMatch_iff, Python.ambiguousScalarPatterns, List.exists_mem_cons_iff,
    List.not_mem_nil, false_and, exists_false, or_false, mem_booleanOrNull, mem_timestampLike,
    mem_decimal, Python.hexadecimal, Python.octal, Python.binary, mem_based, mem_sexagesimal,
    mem_infOrNan, or_assoc]

/-- The string is written with the characters of numeric forms and begins with an ASCII digit or
a sign. -/
def WrittenNumerically (w : List Char) : Prop :=
  (∃ first ∈ w.head?, first.isDigit = true ∨ first ∈ ['+', '-']) ∧
    ∀ c ∈ w, isNumericFormCharacter c = true

/-- What the Rust runtime classes as ambiguous. -/
theorem isAmbiguousYamlScalar_iff (value : String) :
    isAmbiguousYamlScalar value = true ↔
      lowered value.toList ∈ (sharedWords ++ letterWords).map String.toList ∨
        WrittenNumerically value.toList := by
  have hwords : ambiguousWords.contains (toAsciiLowercase value) = true ↔
      lowered value.toList ∈ (sharedWords ++ letterWords).map String.toList := by
    have hsame : ∀ word : String, word ∈ ambiguousWords ↔ word ∈ sharedWords ++ letterWords := by
      intro word
      simp [ambiguousWords, sharedWords, letterWords]
      tauto
    have hlowered : lowered value.toList = (toAsciiLowercase value).toList := by
      rw [toAsciiLowercase, String.toList_ofList, lowered]
    rw [List.contains_iff_mem, hsame, hlowered,
      List.mem_map_of_injective (fun _ _ h => String.toList_inj.1 h)]
  rw [← hwords, isAmbiguousYamlScalar, WrittenNumerically]
  by_cases hword : ambiguousWords.contains (toAsciiLowercase value) = true
  · rw [if_pos hword]
    exact ⟨fun _ => .inl hword, fun _ => rfl⟩
  · rw [if_neg hword, or_iff_right hword]
    cases value.toList.head? with
    | none => simp
    | some first =>
        dsimp only
        by_cases hfirst : first.isDigit = true ∨ first ∈ ['+', '-']
        · have hskip : ¬ (!first.isDigit && !(['+', '-'].contains first)) = true := by
            simpa [or_iff_not_imp_left] using hfirst
          rw [if_neg hskip, List.all_eq_true]
          exact ⟨fun h => ⟨⟨first, rfl, hfirst⟩, h⟩, fun h => h.2⟩
        · have hskip : (!first.isDigit && !(['+', '-'].contains first)) = true := by
            simpa [not_or] using hfirst
          rw [if_pos hskip]
          refine ⟨fun h => absurd h Bool.false_ne_true, ?_⟩
          rintro ⟨⟨first', hfirst', hclass⟩, -⟩
          obtain rfl := Option.some.inj hfirst'
          exact absurd hclass hfirst

/-! ## Where they differ

The comparison.  Words and numbers do not overlap, since no word begins like a number. -/

section

variable {w : List Char}

theorem IsSign.starts {sign rest : List Char} (hsign : IsSign sign) {c : Char}
    (hc : StartsNumber c) :
    ∃ first, (sign ++ c :: rest).head? = some first ∧ StartsNumber first := by
  rcases hsign with rfl | rfl | rfl
  · exact ⟨c, rfl, hc⟩
  · exact ⟨'+', rfl, .inr (by simp)⟩
  · exact ⟨'-', rfl, .inr (by simp)⟩

/-- A date or number begins like one. -/
theorem DateOrNumber.starts (h : DateOrNumber w) :
    ∃ first, w.head? = some first ∧ StartsNumber first := by
  have hbased : ∀ {marks numerals}, IsBased marks numerals w →
      ∃ first, w.head? = some first ∧ StartsNumber first := by
    rintro marks numerals ⟨sign, hsign, mark, -, body, -, -, rfl⟩
    exact hsign.starts (.inl (by decide))
  rcases h with h | h | h | h | h | h
  · obtain ⟨year, month, day, tail, ⟨hlength, hyear⟩, -, -, -, rfl⟩ := h
    obtain ⟨d, rest, rfl⟩ := List.exists_cons_of_length_eq_add_one hlength
    exact ⟨d, rfl, .inl (hyear d (by simp))⟩
  · obtain ⟨sign, mantissa, exponent, hsign, hmantissa, -, rfl⟩ := h
    rcases hmantissa with ⟨-, point, fraction, ⟨d, rest, hd, -, rfl⟩, -, -, rfl⟩ |
      ⟨fraction, -, rfl⟩
    · exact hsign.starts (.inl hd)
    · exact hsign.starts (.inr (by simp))
  · exact hbased h
  · exact hbased h
  · exact hbased h
  · obtain ⟨sign, -, hsign, ⟨d, rest, hd, -, rfl⟩, groups, -, -, rfl⟩ := h
    exact hsign.starts (.inl hd)

theorem InfinityOrNan.starts (h : InfinityOrNan w) :
    ∃ first, w.head? = some first ∧ StartsNumber first := by
  obtain ⟨sign, body, hsign, -, rfl⟩ := h
  exact hsign.starts (.inr (by simp))

theorem WrittenNumerically.starts (h : WrittenNumerically w) :
    ∃ first, w.head? = some first ∧ StartsNumber first := by
  obtain ⟨⟨first, hfirst, hclass⟩, -⟩ := h
  refine ⟨first, hfirst, ?_⟩
  rcases hclass with hdigit | hsign
  · exact .inl (isDecimalDigit_of_isDigit hdigit)
  · refine .inr ?_
    simp only [List.mem_cons, List.not_mem_nil, or_false] at hsign ⊢
    tauto

/-- No word of either list begins like a number. -/
theorem not_word_of_starts (h : ∃ first, w.head? = some first ∧ StartsNumber first) :
    lowered w ∉ (sharedWords ++ letterWords ++ longSWords).map String.toList := by
  obtain ⟨first, hfirst, hstarts⟩ := h
  obtain ⟨rest, rfl⟩ := List.head?_eq_some_iff.1 hfirst
  rw [lowered, List.map_cons, hstarts.toLower]
  intro hword
  obtain ⟨word, hmem, heq⟩ := List.mem_map.1 hword
  have hhead : word.toList.head? = some first := by rw [heq, List.head?_cons]
  -- the words begin with letters or a tilde
  have hletter : ∀ word ∈ sharedWords ++ letterWords ++ longSWords,
      word.toList.head?.any (fun c => ['t', 'f', 'y', 'n', 'o', '~'].contains c) = true := by
    decide
  have hfirst : first ∈ ['t', 'f', 'y', 'n', 'o', '~'] := by
    simpa [hhead] using hletter word hmem
  simp only [List.mem_cons, List.not_mem_nil, or_false] at hfirst
  revert hstarts
  rcases hfirst with rfl | rfl | rfl | rfl | rfl | rfl <;>
    exact fun h => absurd h (by unfold StartsNumber; decide)

/-- An infinity has a letter that no number has. -/
theorem InfinityOrNan.not_writtenNumerically (h : InfinityOrNan w) : ¬ WrittenNumerically w := by
  rintro ⟨-, hall⟩
  obtain ⟨sign, body, -, hbody, rfl⟩ := h
  obtain ⟨c, hc, hlowered⟩ : ∃ c ∈ body, c.toLower = 'n' := by
    have hn : 'n' ∈ lowered body := by
      have hwords : ∀ l ∈ ["inf", "İnf", "ınf", "nan"].map String.toList, 'n' ∈ l := by decide
      exact hwords _ hbody
    obtain ⟨c, hc, hcn⟩ := List.mem_map.1 hn
    exact ⟨c, hc, hcn⟩
  have hform := hall c (by simp [hc])
  rw [isNumericFormCharacter, Bool.or_eq_true] at hform
  rcases hform with hdigit | hmark
  · have hsame := StartsNumber.toLower (.inl (isDecimalDigit_of_isDigit hdigit))
    rw [← hsame, hlowered] at hdigit
    exact absurd hdigit (by decide)
  · simp only [List.contains_iff_mem, List.mem_cons, List.not_mem_nil, or_false] at hmark
    rcases hmark with rfl | rfl | rfl | rfl | rfl | rfl | rfl | rfl | rfl | rfl | rfl | rfl |
      rfl <;> exact absurd hlowered (by decide)

end

/-- The strings that one runtime classes as ambiguous and the other does not. -/
inductive ClassedDifferently (w : List Char) : Prop
  /-- `y` or `n`, which only the Rust runtime lists. -/
  | letterWord (h : lowered w ∈ letterWords.map String.toList)
  /-- A long s in a word, which only `re.IGNORECASE` takes for an `s`. -/
  | longS (h : lowered w ∈ longSWords.map String.toList)
  /-- An infinity or a not-a-number, which the Rust runtime does not look for. -/
  | infinityOrNan (h : InfinityOrNan w)
  /-- Characters of numeric forms that make up none, such as `1-2`. -/
  | noForm (hwritten : WrittenNumerically w) (hform : ¬ DateOrNumber w)
  /-- A date or number that begins with a point or has another character, such as `0xff`. -/
  | otherwiseWritten (hform : DateOrNumber w) (hwritten : ¬ WrittenNumerically w)

/-- **Ambiguous scalars.** The two runtimes class a string alike iff it is none of the strings
listed. The strings are arbitrary, in every script: the decimal digits and the white space of
Unicode are read from the tables of the two languages. -/
theorem isAmbiguous_agree_iff (value : String) :
    isAmbiguousYamlScalar value = Python.isAmbiguousScalar value ↔
      ¬ ClassedDifferently value.toList := by
  rw [Bool.eq_iff_iff, isAmbiguousYamlScalar_iff, python_isAmbiguousScalar_iff]
  generalize value.toList = w
  have hword : ∀ {words : List String}, words ⊆ sharedWords ++ letterWords ++ longSWords →
      lowered w ∈ words.map String.toList →
        ¬ WrittenNumerically w ∧ ¬ DateOrNumber w ∧ ¬ InfinityOrNan w := by
    intro words hsub hmem
    have hall := List.map_subset String.toList hsub hmem
    exact ⟨fun h => not_word_of_starts h.starts hall, fun h => not_word_of_starts h.starts hall,
      fun h => not_word_of_starts h.starts hall⟩
  constructor
  · intro hagree hdifferent
    cases hdifferent with
    | letterWord h =>
        obtain ⟨-, hform, hinfinity⟩ := hword (fun word hword => by simp [hword]) h
        have hpython := hagree.1 (.inl (by rw [List.map_append]; exact List.mem_append_right _ h))
        have hother : lowered w ∉ (sharedWords ++ longSWords).map String.toList := by
          have hwords : ∀ l ∈ letterWords.map String.toList,
              l ∉ (sharedWords ++ longSWords).map String.toList := by decide
          exact hwords _ h
        exact hpython.elim hother (fun h => h.elim hform hinfinity)
    | longS h =>
        obtain ⟨hwritten, -, -⟩ := hword (fun word hword => by simp [hword]) h
        have hrust := hagree.2 (.inl (by rw [List.map_append]; exact List.mem_append_right _ h))
        have hother : lowered w ∉ (sharedWords ++ letterWords).map String.toList := by
          have hwords : ∀ l ∈ longSWords.map String.toList,
              l ∉ (sharedWords ++ letterWords).map String.toList := by decide
          exact hwords _ h
        exact hrust.elim hother hwritten
    | infinityOrNan h =>
        rcases hagree.2 (.inr (.inr h)) with hrust | hrust
        · exact (hword (by simp) hrust).2.2 h
        · exact h.not_writtenNumerically hrust
    | noForm hwritten hform =>
        rcases hagree.1 (.inr hwritten) with hpython | hpython | hpython
        · have hsub : sharedWords ++ longSWords ⊆ sharedWords ++ letterWords ++ longSWords :=
            List.append_subset.2
              ⟨fun word hword => by simp [hword], fun word hword => by simp [hword]⟩
          exact (hword hsub hpython).1 hwritten
        · exact hform hpython
        · exact hpython.not_writtenNumerically hwritten
    | otherwiseWritten hform hwritten =>
        rcases hagree.2 (.inr (.inl hform)) with hrust | hrust
        · exact (hword (by simp) hrust).2.1 hform
        · exact hwritten hrust
  · intro hsame
    rw [List.map_append, List.map_append, List.mem_append, List.mem_append]
    constructor
    · rintro ((hshared | hletter) | hwritten)
      · exact .inl (.inl hshared)
      · exact absurd (.letterWord hletter) hsame
      · by_contra hpython
        exact hsame (.noForm hwritten (fun hform => hpython (.inr (.inl hform))))
    · rintro ((hshared | hlong) | hform | hinfinity)
      · exact .inl (.inl hshared)
      · exact absurd (.longS hlong) hsame
      · by_contra hrust
        exact hsame (.otherwiseWritten hform (fun hwritten => hrust (.inr hwritten)))
      · exact absurd (.infinityOrNan hinfinity) hsame

/-- A hexadecimal number with a letter beyond `e` is ambiguous for the Python runtime only. -/
theorem hexadecimal_classed_differently :
    ¬ ∀ value : String,
      isAmbiguousYamlScalar value = true ↔ Python.isAmbiguousScalar value = true := by
  intro hsame
  have hrust : isAmbiguousYamlScalar "0xff" = false := by decide +kernel
  have hpython : Python.isAmbiguousScalar "0xff" = true := by decide +kernel
  rw [(hsame "0xff").2 hpython] at hrust
  exact absurd hrust (by decide)

end HpGuardian

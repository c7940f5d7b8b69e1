import Mathlib.Data.List.Infix
import Mathlib.Order.Basic
import Mathlib.Order.Nat
import Mathlib.Tactic.IntervalCases

/-!
# JSON texts

The grammar of RFC 8259 over characters, and a compact writer.

The grammar is an inductive predicate, `Derives`, with a phrase for values and one each for the
contents of arrays and objects; what is not nested (numbers, strings, white space) is described by
predicates of its own.  It is the meaning of the word JSON here, and the writer is measured against
it.

The main fact is about texts that are cut.  A scanner goes through a text and keeps count of the
brackets that are open, with quoted strings passed over.  Every phrase of the grammar is *neutral*
for it: from outside a string the scanner comes back to the depth at which it started, and is never
below it on the way (`Derives.neutral`, by induction on the derivation).  An object opens a bracket
with its first character and closes it with its last, so at every cut between the two the scanner
has a bracket open, and what comes before the cut is not neutral.  Hence no strict prefix of an
object is a JSON text (`not_isJsonText_of_strictPrefix`).

The writer produces what a compact serializer does: no white space, control characters escaped.
Two things are shown of it.  What it writes is neutral and has no control character (`Written`), in
particular no line end; and it is a value of the grammar (`CompactValue`), so that a written value
read by anyone's parser is accepted.  Both are proved piece by piece, from characters to objects,
and composed by lemmas that take the facts about the parts as hypotheses.
-/

namespace Framework

/-! ## Grammar

Values, and what stands in them between brackets and quotes.  White space is allowed where the
standard allows it, although the writer below never produces any. -/

/-- White space between tokens. -/
def IsBlank (t : List Char) : Prop := ∀ c ∈ t, c ∈ [' ', '\t', '\n', '\r']

/-- A run of decimal digits. -/
def IsDigits (t : List Char) : Prop := ∀ c ∈ t, c.isDigit = true

/-- A hexadecimal digit. -/
def IsHexDigit (c : Char) : Prop :=
  c.isDigit = true ∨ ('a' ≤ c ∧ c ≤ 'f') ∨ ('A' ≤ c ∧ c ≤ 'F')

/-- A number: an optional sign, an integer without leading zeros, and an optional fraction and
exponent. -/
def IsNumber (t : List Char) : Prop :=
  ∃ sign int frac exp, t = sign ++ int ++ frac ++ exp ∧
    (sign = [] ∨ sign = ['-']) ∧
    (int = ['0'] ∨ ∃ first rest, int = first :: rest ∧ first ≠ '0' ∧ IsDigits int) ∧
    (frac = [] ∨ ∃ digits, digits ≠ [] ∧ IsDigits digits ∧ frac = '.' :: digits) ∧
    (exp = [] ∨ ∃ e digits sign, digits ≠ [] ∧ IsDigits digits ∧ e ∈ ['e', 'E'] ∧
      sign ∈ [[], ['+'], ['-']] ∧ exp = e :: (sign ++ digits))

/-- The characters between the quotes of a string: characters that stand for themselves,
two-character escapes, and `\u` with four hexadecimal digits. -/
inductive StringBody : List Char → Prop
  | nil : StringBody []
  | plain {c : Char} {t : List Char} (hc : ' ' ≤ c ∧ c ≠ '"' ∧ c ≠ '\\') (h : StringBody t) :
      StringBody (c :: t)
  | escape {c : Char} {t : List Char} (hc : c ∈ ['"', '\\', '/', 'b', 'f', 'n', 'r', 't'])
      (h : StringBody t) : StringBody ('\\' :: c :: t)
  | unicode {digits t : List Char} (hlength : digits.length = 4)
      (hdigits : ∀ c ∈ digits, IsHexDigit c) (h : StringBody t) :
      StringBody ('\\' :: 'u' :: (digits ++ t))

/-- A quoted string. -/
def IsString (t : List Char) : Prop := ∃ body, StringBody body ∧ t = '"' :: (body ++ ['"'])

/-- The three kinds of phrases of the grammar. -/
inductive Phrase where
  | value
  | elements
  | members

/-- The phrases of the grammar: values, and the non-empty comma-separated contents of arrays and
objects. The three kinds are defined together because they contain each other. -/
inductive Derives : Phrase → List Char → Prop
  | literal {t : List Char} (h : t ∈ ["true".toList, "false".toList, "null".toList]) :
      Derives .value t
  | number {t : List Char} (h : IsNumber t) : Derives .value t
  | string {t : List Char} (h : IsString t) : Derives .value t
  | emptyArray {w : List Char} (hw : IsBlank w) : Derives .value ('[' :: (w ++ [']']))
  | array {t : List Char} (h : Derives .elements t) : Derives .value ('[' :: (t ++ [']']))
  | emptyObject {w : List Char} (hw : IsBlank w) : Derives .value ('{' :: (w ++ ['}']))
  | object {t : List Char} (h : Derives .members t) : Derives .value ('{' :: (t ++ ['}']))
  | element {w t w' : List Char} (hw : IsBlank w) (h : Derives .value t) (hw' : IsBlank w') :
      Derives .elements (w ++ t ++ w')
  | moreElements {t t' : List Char} (h : Derives .elements t) (h' : Derives .elements t') :
      Derives .elements (t ++ ',' :: t')
  | member {w name w' x t y : List Char} (hw : IsBlank w) (hname : IsString name)
      (hw' : IsBlank w') (hx : IsBlank x) (h : Derives .value t) (hy : IsBlank y) :
      Derives .members (w ++ name ++ w' ++ ':' :: (x ++ t ++ y))
  | moreMembers {t t' : List Char} (h : Derives .members t) (h' : Derives .members t') :
      Derives .members (t ++ ',' :: t')

/-- A JSON text: a value between white space. Nothing may follow it, so of a text and its strict
prefixes at most a few are JSON texts, and of an object none. -/
def IsJsonText (t : List Char) : Prop :=
  ∃ w value w', IsBlank w ∧ Derives .value value ∧ IsBlank w' ∧ t = w ++ value ++ w'

/-! ## Scanning

The scanner and its invariant.  `Stays` bounds the depth from below at every place of the text,
which is what a cut needs; `Neutral` adds that the text leads back to where it started. -/

/-- What a scanner knows: how many brackets are open, and whether it is in a string or behind a
backslash in one. Brackets of both kinds are counted together, which is all that a cut needs. -/
inductive Scan where
  | outside (depth : ℕ)
  | quoted (depth : ℕ)
  | escaped (depth : ℕ)
  deriving DecidableEq

/-- The open brackets. -/
def Scan.depth : Scan → ℕ
  | .outside depth => depth
  | .quoted depth => depth
  | .escaped depth => depth

/-- One character. -/
def Scan.next : Scan → Char → Scan
  | .outside depth, c =>
      if c = '"' then .quoted depth
      else if c = '{' ∨ c = '[' then .outside (depth + 1)
      else if c = '}' ∨ c = ']' then .outside (depth - 1)
      else .outside depth
  | .quoted depth, c =>
      if c = '"' then .outside depth else if c = '\\' then .escaped depth else .quoted depth
  | .escaped depth, _ => .quoted depth

/-- A text, from a state. -/
def scan (s : Scan) (t : List Char) : Scan := t.foldl Scan.next s

/-- The depth never falls below a bound. -/
def Stays (bound : ℕ) : Scan → List Char → Prop
  | s, [] => bound ≤ s.depth
  | s, c :: t => bound ≤ s.depth ∧ Stays bound (s.next c) t

/-- From outside a string the text leads back to the depth it starts at, and never below it. A text
of balanced brackets is neutral, whatever its strings contain. -/
structure Neutral (t : List Char) : Prop where
  ends : ∀ depth, scan (.outside depth) t = .outside depth
  stays : ∀ depth, Stays depth (.outside depth) t

@[simp] theorem scan_nil (s : Scan) : scan s [] = s := rfl

@[simp] theorem scan_cons (s : Scan) (c : Char) (t : List Char) :
    scan s (c :: t) = scan (s.next c) t := rfl

@[simp] theorem scan_append (s : Scan) (t t' : List Char) :
    scan s (t ++ t') = scan (scan s t) t' := List.foldl_append

theorem stays_cons {bound : ℕ} {s : Scan} {c : Char} {t : List Char} :
    Stays bound s (c :: t) ↔ bound ≤ s.depth ∧ Stays bound (s.next c) t := Iff.rfl

theorem Stays.depth_le {bound : ℕ} {s : Scan} {t : List Char} (h : Stays bound s t) :
    bound ≤ s.depth := by
  cases t with
  | nil => exact h
  | cons c t => exact h.1

theorem stays_append {bound : ℕ} {s : Scan} {t t' : List Char} :
    Stays bound s (t ++ t') ↔ Stays bound s t ∧ Stays bound (scan s t) t' := by
  induction t generalizing s with
  | nil => exact ⟨fun h => ⟨h.depth_le, h⟩, fun h => h.2⟩
  | cons c t ih =>
      rw [List.cons_append, stays_cons, stays_cons, ih, and_assoc, scan_cons]

/-- The depth bound holds at every cut. -/
theorem Stays.of_cut {bound : ℕ} {s : Scan} {q t : List Char} (h : Stays bound s t)
    (hq : q <+: t) : bound ≤ (scan s q).depth := by
  obtain ⟨r, rfl⟩ := hq
  exact (stays_append.1 h).2.depth_le

theorem Stays.mono {bound bound' : ℕ} (hle : bound' ≤ bound) {s : Scan} {t : List Char}
    (h : Stays bound s t) : Stays bound' s t := by
  induction t generalizing s with
  | nil => exact hle.trans h
  | cons c t ih => exact ⟨hle.trans h.1, ih h.2⟩

/-! ## Every phrase is neutral

One lemma for each rule of the grammar: plain characters leave the depth alone, a string is passed
over, and brackets lift what is inside by one level. -/

theorem neutral_nil : Neutral [] := ⟨fun _ => rfl, fun _ => le_rfl⟩

theorem Neutral.append {t t' : List Char} (h : Neutral t) (h' : Neutral t') :
    Neutral (t ++ t') where
  ends depth := by rw [scan_append, h.ends, h'.ends]
  stays depth := by
    rw [stays_append, h.ends]
    exact ⟨h.stays depth, h'.stays depth⟩

/-- A character outside strings that neither quotes nor brackets. -/
def IsPlain (c : Char) : Prop := c ∉ ['"', '{', '[', '}', ']']

instance : DecidablePred IsPlain := fun c => inferInstanceAs (Decidable (c ∉ _))

theorem neutral_of_plain {t : List Char} (h : ∀ c ∈ t, IsPlain c) : Neutral t := by
  have hnext : ∀ c ∈ t, ∀ depth, (Scan.outside depth).next c = .outside depth := by
    intro c hc depth
    have hplain := h c hc
    simp only [IsPlain, List.mem_cons, List.not_mem_nil, or_false, not_or] at hplain
    simp [Scan.next, hplain]
  clear h
  induction t with
  | nil => exact neutral_nil
  | cons c t ih =>
      obtain ⟨hc, ht⟩ := List.forall_mem_cons.1 hnext
      have hrest := ih ht
      refine ⟨fun depth => ?_, fun depth => ⟨le_rfl, ?_⟩⟩
      · rw [scan_cons, hc, hrest.ends]
      · rw [hc]
        exact hrest.stays depth

theorem Neutral.cons {c : Char} {t : List Char} (hc : IsPlain c) (h : Neutral t) :
    Neutral (c :: t) :=
  (neutral_of_plain (t := [c]) (by simpa using hc)).append h

/-- What stays neutral inside a pair of brackets stays one level up there. -/
theorem stays_bracketed {o : Char} (ho : o = '{' ∨ o = '[') {t : List Char} (h : Neutral t)
    (depth : ℕ) :
    (Scan.outside depth).next o = .outside (depth + 1) ∧
      Stays (depth + 1) (.outside (depth + 1)) t := by
  refine ⟨?_, h.stays _⟩
  rcases ho with rfl | rfl <;> rfl

theorem Neutral.bracketed {o c : Char} (ho : o = '{' ∨ o = '[') (hc : c = '}' ∨ c = ']')
    {t : List Char} (h : Neutral t) : Neutral (o :: (t ++ [c])) := by
  have hclose : ∀ depth, (Scan.outside (depth + 1)).next c = .outside depth := by
    intro depth
    rcases hc with rfl | rfl <;> rfl
  refine ⟨fun depth => ?_, fun depth => ⟨le_rfl, ?_⟩⟩
  · rw [scan_cons, (stays_bracketed ho h depth).1, scan_append, h.ends, scan_cons, hclose, scan_nil]
  · rw [(stays_bracketed ho h depth).1, stays_append, h.ends]
    refine ⟨(h.stays _).mono (Nat.le_succ depth), Nat.le_succ depth, ?_⟩
    rw [hclose]
    exact le_rfl

/-- Between the quotes the scanner stays in the string. -/
theorem StringBody.scan {t : List Char} (h : StringBody t) (depth : ℕ) :
    scan (.quoted depth) t = .quoted depth ∧ Stays depth (.quoted depth) t := by
  induction h with
  | nil => exact ⟨rfl, le_rfl⟩
  | plain hc _ ih =>
      obtain ⟨-, hquote, hbackslash⟩ := hc
      rw [scan_cons]
      simp only [Scan.next, hquote, hbackslash, if_false, Stays]
      exact ⟨ih.1, le_rfl, ih.2⟩
  | escape _ _ ih => exact ⟨ih.1, le_rfl, le_rfl, ih.2⟩
  | @unicode digits t hlength hdigits _ ih =>
      have hnext : ∀ c ∈ digits, (Scan.quoted depth).next c = .quoted depth := by
        intro c hc
        have hplain : c ≠ '"' ∧ c ≠ '\\' := by
          constructor <;> rintro rfl <;> exact absurd (hdigits _ hc) (by unfold IsHexDigit; decide)
        simp [Scan.next, hplain]
      have hall : ∀ ds : List Char, (∀ c ∈ ds, (Scan.quoted depth).next c = .quoted depth) →
          Framework.scan (.quoted depth) (ds ++ t) = .quoted depth ∧
            Stays depth (.quoted depth) (ds ++ t) := by
        intro ds hds
        induction ds with
        | nil => exact ih
        | cons d ds ihds =>
            obtain ⟨hd, hds⟩ := List.forall_mem_cons.1 hds
            have hrest := ihds hds
            rw [List.cons_append, scan_cons, hd]
            refine ⟨hrest.1, le_rfl, ?_⟩
            rw [hd]
            exact hrest.2
      exact ⟨(hall digits hnext).1, le_rfl, le_rfl, (hall digits hnext).2⟩

theorem neutral_of_isString {t : List Char} (h : IsString t) : Neutral t := by
  obtain ⟨body, hbody, rfl⟩ := h
  have hopen : ∀ depth, (Scan.outside depth).next '"' = .quoted depth := fun _ => rfl
  refine ⟨fun depth => ?_, fun depth => ⟨le_rfl, ?_⟩⟩
  · rw [scan_cons, hopen, scan_append, (hbody.scan depth).1]
    rfl
  · rw [hopen, stays_append, (hbody.scan depth).1]
    exact ⟨(hbody.scan depth).2, le_rfl, le_rfl⟩

/-- A check of every character of a text that can be evaluated. -/
theorem forall_of_all {p : Char → Prop} [DecidablePred p] {t : List Char}
    (h : t.all (fun c => decide (p c)) = true) : ∀ c ∈ t, p c :=
  fun c hc => of_decide_eq_true (List.all_eq_true.1 h c hc)

theorem isPlain_of_blank {w : List Char} (hw : IsBlank w) : ∀ c ∈ w, IsPlain c := by
  intro c hc
  have hmem := hw c hc
  simp only [List.mem_cons, List.not_mem_nil, or_false] at hmem
  rcases hmem with rfl | rfl | rfl | rfl <;> decide

theorem isPlain_of_isDigit {c : Char} (hc : c.isDigit = true) : IsPlain c := by
  unfold IsPlain
  simp only [List.mem_cons, List.not_mem_nil, or_false]
  rintro (rfl | rfl | rfl | rfl | rfl) <;> exact absurd hc (by decide)

theorem neutral_of_blank {w : List Char} (hw : IsBlank w) : Neutral w :=
  neutral_of_plain (isPlain_of_blank hw)

theorem neutral_of_digits {t : List Char} (h : IsDigits t) : Neutral t :=
  neutral_of_plain (fun c hc => isPlain_of_isDigit (h c hc))

theorem neutral_of_isNumber {t : List Char} (h : IsNumber t) : Neutral t := by
  obtain ⟨sign, int, frac, exp, rfl, hsign, hint, hfrac, hexp⟩ := h
  have hplain : ∀ {c : Char}, c ∈ ['-', '+', '.', 'e', 'E', '0'] → IsPlain c :=
    forall_of_all (by decide) _
  have hmark : ∀ {c : Char}, c ∈ ['-', '+', '.', 'e', 'E', '0'] → Neutral [c] :=
    fun hc => neutral_of_plain (by simpa using hplain hc)
  refine ((Neutral.append ?_ ?_).append ?_).append ?_
  · rcases hsign with rfl | rfl
    · exact neutral_nil
    · exact hmark (by simp)
  · rcases hint with rfl | ⟨first, rest, -, -, hdigits⟩
    · exact hmark (by simp)
    · exact neutral_of_digits hdigits
  · rcases hfrac with rfl | ⟨digits, -, hdigits, rfl⟩
    · exact neutral_nil
    · exact (neutral_of_digits hdigits).cons (hplain (by simp))
  · rcases hexp with rfl | ⟨e, digits, sign, -, hdigits, he, hs, rfl⟩
    · exact neutral_nil
    · refine Neutral.cons (hplain ?_) (Neutral.append ?_ (neutral_of_digits hdigits))
      · simp only [List.mem_cons, List.not_mem_nil, or_false] at he
        rcases he with rfl | rfl <;> simp
      · simp only [List.mem_cons, List.not_mem_nil, or_false] at hs
        rcases hs with rfl | rfl | rfl
        · exact neutral_nil
        · exact hmark (by simp)
        · exact hmark (by simp)

/-- Every phrase of the grammar closes what it opens, by induction on the derivation. -/
theorem Derives.neutral {phrase : Phrase} {t : List Char} (h : Derives phrase t) : Neutral t := by
  induction h with
  | literal h =>
      refine neutral_of_plain ?_
      simp only [List.mem_cons, List.not_mem_nil, or_false] at h
      rcases h with rfl | rfl | rfl <;> exact forall_of_all (by decide)
  | number h => exact neutral_of_isNumber h
  | string h => exact neutral_of_isString h
  | emptyArray hw => exact (neutral_of_blank hw).bracketed (.inr rfl) (.inr rfl)
  | array _ ih => exact ih.bracketed (.inr rfl) (.inr rfl)
  | emptyObject hw => exact (neutral_of_blank hw).bracketed (.inl rfl) (.inl rfl)
  | object _ ih => exact ih.bracketed (.inl rfl) (.inl rfl)
  | element hw _ hw' ih => exact ((neutral_of_blank hw).append ih).append (neutral_of_blank hw')
  | moreElements _ _ ih ih' => exact ih.append (ih'.cons (by decide))
  | member hw hname hw' hx _ hy ih =>
      have hvalue := ((neutral_of_blank hx).append ih).append (neutral_of_blank hy)
      exact (((neutral_of_blank hw).append (neutral_of_isString hname)).append
        (neutral_of_blank hw')).append (hvalue.cons (by decide))
  | moreMembers _ _ ih ih' => exact ih.append (ih'.cons (by decide))

theorem IsJsonText.neutral {t : List Char} (h : IsJsonText t) : Neutral t := by
  obtain ⟨w, value, w', hw, hvalue, hw', rfl⟩ := h
  exact ((neutral_of_blank hw).append hvalue.neutral).append (neutral_of_blank hw')

/-- A value has characters. -/
theorem Derives.ne_nil {t : List Char} (h : Derives .value t) : t ≠ [] := by
  cases h with
  | literal h =>
      simp only [List.mem_cons, List.not_mem_nil, or_false] at h
      rcases h with rfl | rfl | rfl <;> decide
  | number h =>
      obtain ⟨sign, int, frac, exp, rfl, -, hint, -, -⟩ := h
      rcases hint with rfl | ⟨first, rest, rfl, -, -⟩ <;> simp
  | string h =>
      obtain ⟨body, -, rfl⟩ := h
      simp
  | emptyArray _ => simp
  | array _ => simp
  | emptyObject _ => simp
  | object _ => simp

theorem IsJsonText.ne_nil {t : List Char} (h : IsJsonText t) : t ≠ [] := by
  obtain ⟨w, value, w', -, hvalue, -, rfl⟩ := h
  simp [hvalue.ne_nil]

/-- **No strict prefix of an object is a JSON text.** Up to its last character the object has an
open bracket, and a JSON text leaves none open. -/
theorem not_isJsonText_of_strictPrefix {body q : List Char} (hbody : Neutral body)
    (hq : q <+: '{' :: (body ++ ['}'])) (hstrict : q ≠ '{' :: (body ++ ['}'])) :
    ¬ IsJsonText q := by
  intro htext
  cases q with
  | nil => exact htext.ne_nil rfl
  | cons c q =>
      obtain ⟨rfl, hrest⟩ := List.cons_prefix_cons.1 hq
      rcases List.prefix_concat_iff.1 hrest with rfl | hcut
      · exact hstrict rfl
      · have hopen := (hbody.stays 1).of_cut hcut
        have hclosed := htext.neutral.ends 0
        have hfirst : (Scan.outside 0).next '{' = .outside 1 := rfl
        rw [scan_cons, hfirst] at hclosed
        rw [hclosed] at hopen
        exact absurd hopen (by decide)

/-! ## A compact writer

The writer, with what is needed to cut its output: each written piece is neutral and printable. -/

/-- A character of a string: quotes, backslashes and control characters are escaped, everything
else stands for itself. -/
def writeChar (c : Char) : List Char :=
  if c = '"' then ['\\', '"']
  else if c = '\\' then ['\\', '\\']
  else if c = '\x08' then ['\\', 'b']
  else if c = '\t' then ['\\', 't']
  else if c = '\n' then ['\\', 'n']
  else if c = '\x0c' then ['\\', 'f']
  else if c = '\r' then ['\\', 'r']
  else if c < ' ' then
    '\\' :: 'u' :: ['0', '0', Nat.digitChar (c.toNat / 16), Nat.digitChar (c.toNat % 16)]
  else [c]

/-- A string. -/
def writeString (s : String) : List Char := '"' :: (s.toList.flatMap writeChar ++ ['"'])

/-- A natural number. -/
def writeNat (n : ℕ) : List Char := Nat.toDigits 10 n

/-- An integer. -/
def writeInt : ℤ → List Char
  | .ofNat n => writeNat n
  | .negSucc n => '-' :: writeNat (n + 1)

/-- An optional value. -/
def writeOption {α : Type} (write : α → List Char) : Option α → List Char
  | none => "null".toList
  | some a => write a

/-- An array of written values. -/
def writeArray (items : List (List Char)) : List Char :=
  '[' :: ([','].intercalate items ++ [']'])

/-- The members of an object, between its braces. -/
def writeMembers (members : List (String × List Char)) : List Char :=
  [','].intercalate (members.map (fun member => writeString member.1 ++ ':' :: member.2))

/-- An object with written values. -/
def writeObject (members : List (String × List Char)) : List Char :=
  '{' :: (writeMembers members ++ ['}'])

/-- A written phrase: it closes what it opens and has no control characters. Phrases are put
together from such phrases, with brackets and commas. -/
structure Written (t : List Char) : Prop where
  neutral : Neutral t
  printable : ∀ c ∈ t, ' ' ≤ c

theorem Written.append {t t' : List Char} (h : Written t) (h' : Written t') :
    Written (t ++ t') where
  neutral := h.neutral.append h'.neutral
  printable := by
    intro c hc
    rcases List.mem_append.1 hc with hc | hc
    · exact h.printable c hc
    · exact h'.printable c hc

theorem Written.bracketed {o c : Char} (ho : o = '{' ∨ o = '[') (hc : c = '}' ∨ c = ']')
    {t : List Char} (h : Written t) : Written (o :: (t ++ [c])) where
  neutral := h.neutral.bracketed ho hc
  printable := by
    have hopen : ' ' ≤ o := by rcases ho with rfl | rfl <;> decide
    have hclose : ' ' ≤ c := by rcases hc with rfl | rfl <;> decide
    simpa [hopen, hclose, or_imp, forall_and] using h.printable

theorem written_of_plain {t : List Char} (h : ∀ c ∈ t, IsPlain c ∧ ' ' ≤ c) : Written t where
  neutral := neutral_of_plain (fun c hc => (h c hc).1)
  printable c hc := (h c hc).2

theorem written_nil : Written [] := written_of_plain (by simp)

/-- Phrases between commas. -/
theorem written_intercalate {items : List (List Char)} (h : ∀ t ∈ items, Written t) :
    Written ([','].intercalate items) := by
  have hcomma : Written [','] := written_of_plain (forall_of_all (by decide))
  induction items with
  | nil => exact written_nil
  | cons t items ih =>
      obtain ⟨ht, hitems⟩ := List.forall_mem_cons.1 h
      cases items with
      | nil => simpa [List.intercalate] using ht
      | cons t' items =>
          have hrest := ih hitems
          have hcons : [','].intercalate (t :: t' :: items) =
              t ++ ([','] ++ [','].intercalate (t' :: items)) := by
            simp [List.intercalate]
          rw [hcons]
          exact ht.append (hcomma.append hrest)

theorem stringBody_append {t t' : List Char} (h : StringBody t) (h' : StringBody t') :
    StringBody (t ++ t') := by
  induction h with
  | nil => exact h'
  | plain hc _ ih => exact .plain hc ih
  | escape hc _ ih => exact .escape hc ih
  | unicode hlength hdigits _ ih =>
      rw [List.cons_append, List.cons_append, List.append_assoc]
      exact .unicode hlength hdigits ih

theorem isHexDigit_digitChar {n : ℕ} (h : n < 16) :
    IsHexDigit (Nat.digitChar n) ∧ ' ' ≤ Nat.digitChar n := by
  unfold IsHexDigit
  interval_cases n <;> decide

/-- A written character is a piece of a string. -/
theorem stringBody_writeChar (c : Char) : StringBody (writeChar c) := by
  unfold writeChar
  split_ifs with h1 h2 h3 h4 h5 h6 h7 h8
  · exact .escape (by decide) .nil
  · exact .escape (by decide) .nil
  · exact .escape (by decide) .nil
  · exact .escape (by decide) .nil
  · exact .escape (by decide) .nil
  · exact .escape (by decide) .nil
  · exact .escape (by decide) .nil
  · have hlt : c.toNat < 32 := h8
    have hhigh := (isHexDigit_digitChar (show c.toNat / 16 < 16 by omega)).1
    have hlow := (isHexDigit_digitChar (show c.toNat % 16 < 16 by omega)).1
    have hzero : IsHexDigit '0' := .inl (by decide)
    have hdigits : ∀ d ∈ ['0', '0', Nat.digitChar (c.toNat / 16), Nat.digitChar (c.toNat % 16)],
        IsHexDigit d := by
      simp [hhigh, hlow, hzero]
    exact .unicode rfl hdigits .nil
  · exact .plain ⟨Char.not_lt.1 h8, h1, h2⟩ .nil

theorem printable_writeChar (c : Char) : ∀ d ∈ writeChar c, ' ' ≤ d := by
  unfold writeChar
  split_ifs with h1 h2 h3 h4 h5 h6 h7 h8
  iterate 7 · exact forall_of_all (by decide)
  · have hlt : c.toNat < 32 := h8
    have hhigh := (isHexDigit_digitChar (show c.toNat / 16 < 16 by omega)).2
    have hlow := (isHexDigit_digitChar (show c.toNat % 16 < 16 by omega)).2
    simp only [List.mem_cons, List.not_mem_nil, or_false]
    rintro d (rfl | rfl | rfl | rfl | rfl | rfl)
    · decide
    · decide
    · decide
    · decide
    · exact hhigh
    · exact hlow
  · simpa using Char.not_lt.1 h8

theorem written_writeString (s : String) : Written (writeString s) where
  neutral := by
    refine neutral_of_isString ⟨_, ?_, rfl⟩
    induction s.toList with
    | nil => exact .nil
    | cons c t ih =>
        rw [List.flatMap_cons]
        exact stringBody_append (stringBody_writeChar c) ih
  printable := by
    intro d hd
    simp only [writeString, List.mem_cons, List.mem_append, List.mem_flatMap,
      List.not_mem_nil, or_false] at hd
    rcases hd with rfl | ⟨c, -, hc⟩ | rfl
    · decide
    · exact printable_writeChar c d hc
    · decide

theorem written_writeNat (n : ℕ) : Written (writeNat n) := by
  refine written_of_plain (fun c hc => ?_)
  have hdigit := Nat.isDigit_of_mem_toDigits (by decide) (by decide) hc
  refine ⟨isPlain_of_isDigit hdigit, ?_⟩
  have hrange : 48 ≤ c.val ∧ c.val ≤ 57 := by simpa [Char.isDigit] using hdigit
  exact UInt32.le_trans (by decide) hrange.1

theorem written_writeInt (n : ℤ) : Written (writeInt n) := by
  cases n with
  | ofNat n => exact written_writeNat n
  | negSucc n =>
      have hsign : Written ['-'] := written_of_plain (forall_of_all (by decide))
      exact hsign.append (written_writeNat (n + 1))

theorem written_writeOption {α : Type} {write : α → List Char} (h : ∀ a, Written (write a))
    (a : Option α) : Written (writeOption write a) := by
  cases a with
  | none =>
      have hnull : Written "null".toList := written_of_plain (forall_of_all (by decide))
      exact hnull
  | some a => exact h a

theorem written_writeArray {items : List (List Char)} (h : ∀ t ∈ items, Written t) :
    Written (writeArray items) :=
  (written_intercalate h).bracketed (.inr rfl) (.inr rfl)

theorem written_writeMembers {members : List (String × List Char)}
    (h : ∀ member ∈ members, Written member.2) : Written (writeMembers members) := by
  have hcolon : Written [':'] := written_of_plain (forall_of_all (by decide))
  refine written_intercalate (fun t ht => ?_)
  obtain ⟨member, hmember, rfl⟩ := List.mem_map.1 ht
  exact (written_writeString member.1).append (hcolon.append (h member hmember))

theorem written_writeObject {members : List (String × List Char)}
    (h : ∀ member ∈ members, Written member.2) : Written (writeObject members) :=
  (written_writeMembers h).bracketed (.inl rfl) (.inl rfl)

/-- No strict prefix of a written object is a JSON text. -/
theorem not_isJsonText_of_cut {members : List (String × List Char)}
    (h : ∀ member ∈ members, Written member.2) {q : List Char} (hq : q <+: writeObject members)
    (hstrict : q ≠ writeObject members) : ¬ IsJsonText q :=
  not_isJsonText_of_strictPrefix (written_writeMembers h).neutral hq hstrict

/-! ## What the writer writes is JSON

The same pieces as phrases of the grammar.  `CompactValue` puts both facts together, and is what
the types of a program that have a written form are shown to satisfy. -/

/-- A Boolean. -/
def writeBool (b : Bool) : List Char := (if b then "true" else "false").toList

theorem derives_writeBool (b : Bool) : Derives .value (writeBool b) := by
  cases b <;> exact .literal (by simp [writeBool])

theorem stringBody_flatMap (t : List Char) : StringBody (t.flatMap writeChar) := by
  induction t with
  | nil => exact .nil
  | cons c t ih =>
      rw [List.flatMap_cons]
      exact stringBody_append (stringBody_writeChar c) ih

theorem isString_writeString (s : String) : IsString (writeString s) :=
  ⟨_, stringBody_flatMap s.toList, rfl⟩

theorem isBlank_nil : IsBlank [] := fun _ h => by cases h

/-- The digits of a number other than zero begin with another digit than zero. -/
theorem writeNat_head {n : ℕ} (h : 0 < n) :
    ∃ first rest, writeNat n = first :: rest ∧ first ≠ '0' := by
  induction n using Nat.strong_induction_on with
  | h n ih =>
      by_cases hsmall : n < 10
      · refine ⟨n.digitChar, [], Nat.toDigits_of_lt_base hsmall, ?_⟩
        interval_cases n <;> decide
      · obtain ⟨first, rest, hfirst, hne⟩ := ih (n / 10) (by omega) (by omega)
        refine ⟨first, rest ++ [(n % 10).digitChar], ?_, hne⟩
        rw [writeNat] at hfirst ⊢
        rw [Nat.toDigits_of_base_le (by decide) (by omega), hfirst, List.cons_append]

/-- The integer part of a number. -/
theorem writeNat_int (n : ℕ) :
    writeNat n = ['0'] ∨
      ∃ first rest, writeNat n = first :: rest ∧ first ≠ '0' ∧ IsDigits (writeNat n) := by
  rcases Nat.eq_zero_or_pos n with rfl | hpos
  · exact .inl (Nat.toDigits_zero 10)
  · obtain ⟨first, rest, hwritten, hne⟩ := writeNat_head hpos
    exact .inr ⟨first, rest, hwritten, hne, fun c hc =>
      Nat.isDigit_of_mem_toDigits (by decide) (by decide) hc⟩

theorem isNumber_writeNat (n : ℕ) : IsNumber (writeNat n) :=
  ⟨[], writeNat n, [], [], by simp, .inl rfl, writeNat_int n, .inl rfl, .inl rfl⟩

theorem isNumber_writeInt (n : ℤ) : IsNumber (writeInt n) := by
  cases n with
  | ofNat n => exact isNumber_writeNat n
  | negSucc n =>
      exact ⟨['-'], writeNat (n + 1), [], [], by simp [writeInt], .inr rfl, writeNat_int (n + 1),
        .inl rfl, .inl rfl⟩

/-- Phrases of one kind between commas. -/
theorem derives_intercalate {phrase : Phrase} {items : List (List Char)} (hne : items ≠ [])
    (hmore : ∀ t t', Derives phrase t → Derives phrase t' → Derives phrase (t ++ ',' :: t'))
    (h : ∀ t ∈ items, Derives phrase t) : Derives phrase ([','].intercalate items) := by
  induction items with
  | nil => exact absurd rfl hne
  | cons t items ih =>
      obtain ⟨ht, hitems⟩ := List.forall_mem_cons.1 h
      cases items with
      | nil => simpa [List.intercalate] using ht
      | cons t' items =>
          have hcons : [','].intercalate (t :: t' :: items) =
              t ++ ',' :: [','].intercalate (t' :: items) := by
            simp [List.intercalate]
          rw [hcons]
          exact hmore _ _ ht (ih (by simp) hitems)

theorem derives_writeArray {items : List (List Char)} (h : ∀ t ∈ items, Derives .value t) :
    Derives .value (writeArray items) := by
  by_cases hempty : items = []
  · subst hempty
    exact .emptyArray isBlank_nil
  · refine .array (derives_intercalate hempty (fun _ _ => .moreElements) fun t ht => ?_)
    simpa using Derives.element isBlank_nil (h t ht) isBlank_nil

theorem derives_writeObject {members : List (String × List Char)}
    (h : ∀ member ∈ members, Derives .value member.2) : Derives .value (writeObject members) := by
  by_cases hempty : members = []
  · subst hempty
    exact .emptyObject isBlank_nil
  · refine .object (derives_intercalate (by simpa using hempty) (fun _ _ => .moreMembers) ?_)
    intro t ht
    obtain ⟨member, hmember, rfl⟩ := List.mem_map.1 ht
    simpa using Derives.member isBlank_nil (isString_writeString member.1) isBlank_nil isBlank_nil
      (h member hmember) isBlank_nil

theorem derives_writeOption {α : Type} {write : α → List Char}
    (h : ∀ a, Derives .value (write a)) (a : Option α) : Derives .value (writeOption write a) := by
  cases a with
  | none => exact .literal (by simp [writeOption])
  | some a => exact h a

/-- A written JSON value: a phrase of the grammar without control characters, hence on one line. -/
structure CompactValue (t : List Char) : Prop where
  value : Derives .value t
  printable : ∀ c ∈ t, ' ' ≤ c

theorem CompactValue.written {t : List Char} (h : CompactValue t) : Written t :=
  ⟨h.value.neutral, h.printable⟩

theorem CompactValue.isJsonText {t : List Char} (h : CompactValue t) : IsJsonText t :=
  ⟨[], t, [], isBlank_nil, h.value, isBlank_nil, by simp⟩

/-- A written value stays on its line. -/
theorem CompactValue.newline_notMem {t : List Char} (h : CompactValue t) : '\n' ∉ t :=
  fun hmem => absurd (h.printable _ hmem) (by decide)

theorem compactValue_writeString (s : String) : CompactValue (writeString s) :=
  ⟨.string (isString_writeString s), (written_writeString s).printable⟩

theorem compactValue_writeNat (n : ℕ) : CompactValue (writeNat n) :=
  ⟨.number (isNumber_writeNat n), (written_writeNat n).printable⟩

theorem compactValue_writeInt (n : ℤ) : CompactValue (writeInt n) :=
  ⟨.number (isNumber_writeInt n), (written_writeInt n).printable⟩

theorem compactValue_writeBool (b : Bool) : CompactValue (writeBool b) :=
  ⟨derives_writeBool b, by cases b <;> exact forall_of_all (by decide)⟩

theorem compactValue_writeOption {α : Type} {write : α → List Char}
    (h : ∀ a, CompactValue (write a)) (a : Option α) : CompactValue (writeOption write a) :=
  ⟨derives_writeOption (fun a => (h a).value) a,
    (written_writeOption (fun a => (h a).written) a).printable⟩

theorem compactValue_writeArray {items : List (List Char)} (h : ∀ t ∈ items, CompactValue t) :
    CompactValue (writeArray items) :=
  ⟨derives_writeArray fun t ht => (h t ht).value,
    (written_writeArray fun t ht => (h t ht).written).printable⟩

theorem compactValue_writeObject {members : List (String × List Char)}
    (h : ∀ member ∈ members, CompactValue member.2) : CompactValue (writeObject members) :=
  ⟨derives_writeObject fun member hmember => (h member hmember).value,
    (written_writeObject fun member hmember => (h member hmember).written).printable⟩

end Framework

import HpGuardian.Framework.CharRegex

/-!
# Ambiguous scalars in the Python runtime (`src/hp_guard/parser.py`)

`_AMBIGUOUS_SCALAR_PATTERNS` is a list of regular expressions that are matched against a whole
string.  Each is written down here as an expression over letter classes, under the pattern of the
source, and the matcher is the library's matcher of such expressions.

A class is a test on one character, and two of the tests are Python's own.  `\d` is any Unicode
decimal digit, of every script that the interpreter's tables know, and `re.IGNORECASE` also pairs
`s` with `ſ` and `i` with the dotted and dotless letters.  The blocks of decimal digits are listed
by their zeros.
-/

namespace HpGuardian.Python

open Framework

/-- The zero digits of the decimal digit blocks of Unicode 15, which Python 3.12 and 3.13 follow;
each block has ten digits.  Other versions differ in the scripts that they add: what is proved
about `\d` below uses only that the ASCII digits are among them and that the others begin at
U+0660. -/
def decimalZeros : List Nat :=
  [0x30, 0x660, 0x6f0, 0x7c0, 0x966, 0x9e6, 0xa66, 0xae6, 0xb66, 0xbe6, 0xc66, 0xce6, 0xd66,
    0xde6, 0xe50, 0xed0, 0xf20, 0x1040, 0x1090, 0x17e0, 0x1810, 0x1946, 0x19d0, 0x1a80, 0x1a90,
    0x1b50, 0x1bb0, 0x1c40, 0x1c50, 0xa620, 0xa8d0, 0xa900, 0xa9d0, 0xa9f0, 0xaa50, 0xabf0,
    0xff10, 0x104a0, 0x10d30, 0x11066, 0x110f0, 0x11136, 0x111d0, 0x112f0, 0x11450, 0x114d0,
    0x11650, 0x116c0, 0x11730, 0x118e0, 0x11950, 0x11c50, 0x11d50, 0x11da0, 0x11f50, 0x16a60,
    0x16ac0, 0x16b50, 0x1d7ce, 0x1d7d8, 0x1d7e2, 0x1d7ec, 0x1d7f6, 0x1e140, 0x1e2f0, 0x1e4f0,
    0x1e950, 0x1fbf0]

/-- `\d`. -/
def isDecimalDigit (c : Char) : Bool :=
  decimalZeros.any (fun first => first ≤ c.toNat && c.toNat < first + 10)

/-- A letter of a pattern under `re.IGNORECASE`. -/
def equalsIgnoringCase (letter c : Char) : Bool :=
  c.toLower == letter || (letter == 's' && c == 'ſ') ||
    (letter == 'i' && (c == 'İ' || c == 'ı'))

/-- A class of single characters. -/
def oneOf (characters : String) : Regex Char := .letter (fun c => characters.toList.contains c)

/-- `\d`, as a letter. -/
def digit : Regex Char := .letter isDecimalDigit

/-- `[\d_]*`. -/
def digitsOrUnderscores : Regex Char := .star (.letter (fun c => isDecimalDigit c || c == '_'))

/-- `\d[\d_]*`. -/
def digits : Regex Char := .seq digit digitsOrUnderscores

/-- A word under `re.IGNORECASE`. -/
def wordIgnoringCase (word : String) : Regex Char :=
  Regex.seqs (word.toList.map (fun letter => .letter (equalsIgnoringCase letter)))

/-- `[+-]?`. -/
def sign : Regex Char := .optional (oneOf "+-")

/-- `^(?:true|false|yes|no|on|off|null|~)$`, ignoring case. -/
def booleanOrNull : Regex Char :=
  Regex.alts (["true", "false", "yes", "no", "on", "off", "null", "~"].map wordIgnoringCase)

/-- `^\d{4}-\d{2}-\d{2}(?:[Tt _].*)?$`, where `.` is any character but a newline. -/
def timestampLike : Regex Char :=
  Regex.seqs [digit, digit, digit, digit, oneOf "-", digit, digit, oneOf "-", digit, digit,
    .optional (.seq (oneOf "Tt _") (.star (.letter (fun c => c != '\n'))))]

/-- `^[+-]?(?:\d[\d_]*\.?[\d_]*|\.\d[\d_]*)(?:[eE][+-]?\d[\d_]*)?$`. -/
def decimal : Regex Char :=
  Regex.seqs [sign,
    .alt (Regex.seqs [digits, .optional (oneOf "."), digitsOrUnderscores])
      (.seq (oneOf ".") digits),
    .optional (Regex.seqs [oneOf "eE", sign, digits])]

/-- `^[+-]?0[xX][0-9a-fA-F_]+$`. -/
def hexadecimal : Regex Char :=
  Regex.seqs [sign, oneOf "0", oneOf "xX", .plus (oneOf "0123456789abcdefABCDEF_")]

/-- `^[+-]?0[oO][0-7_]+$`. -/
def octal : Regex Char := Regex.seqs [sign, oneOf "0", oneOf "oO", .plus (oneOf "01234567_")]

/-- `^[+-]?0[bB][01_]+$`. -/
def binary : Regex Char := Regex.seqs [sign, oneOf "0", oneOf "bB", .plus (oneOf "01_")]

/-- `^[+-]?\d[\d_]*(?::\d[\d_]*(?:\.\d[\d_]*)?)+$`. -/
def sexagesimal : Regex Char :=
  Regex.seqs [sign, digits,
    .plus (Regex.seqs [oneOf ":", digits, .optional (.seq (oneOf ".") digits)])]

/-- `^[+-]?\.(?:inf|nan)$`, ignoring case. -/
def infOrNan : Regex Char :=
  Regex.seqs [sign, oneOf ".", .alt (wordIgnoringCase "inf") (wordIgnoringCase "nan")]

/-- `_AMBIGUOUS_SCALAR_PATTERNS`. -/
def ambiguousScalarPatterns : List (Regex Char) :=
  [booleanOrNull, timestampLike, decimal, hexadecimal, octal, binary, sexagesimal, infOrNan]

/-- Whether one of the patterns matches the whole string. -/
def isAmbiguousScalar (value : String) : Bool :=
  ambiguousScalarPatterns.any (fun pattern => pattern.fullMatch value.toList)

end HpGuardian.Python

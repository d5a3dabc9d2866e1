/-!
# TOML numerals

Whole numbers as they are written.  Reading settles where a numeral ends and where its underscores
stand; which number it stands for, if any, is settled where a number is needed.
-/

namespace LateBinding.Toml

/-- The value of a digit or letter in bases up to sixteen. -/
def digitValue (c : Char) : Nat :=
  if c.isDigit then c.toNat - 48 else c.toLower.toNat - 87

def isHexDigit (c : Char) : Bool :=
  c.isDigit || ('a' ≤ c && c ≤ 'f') || ('A' ≤ c && c ≤ 'F')

/-- Whether a character is a digit below the base. -/
def isDigitOf (base : Nat) (c : Char) : Bool :=
  isHexDigit c && digitValue c < base

/-- The number that digits stand for, the first of them being the highest. -/
def ofDigits (base : Nat) (digits : List Char) : Nat :=
  digits.foldl (fun n c => base * n + digitValue c) 0

/-- Removes the underscores of a run.  Each stands between two digits. -/
def ungroup (isDigit : Char → Bool) : List Char → Option (List Char)
  | [] => some []
  | '_' :: _ => none
  | c :: '_' :: rest =>
    if isDigit c ∧ rest.head?.any isDigit then (ungroup isDigit rest).map (c :: ·) else none
  | c :: rest => (ungroup isDigit rest).map (c :: ·)

/-- A run without its sign, and whether the sign is negative. -/
def splitSign : List Char → Bool × List Char
  | '+' :: rest => (false, rest)
  | '-' :: rest => (true, rest)
  | cs => (false, cs)

/-- Whether a run begins with a zero and goes on. -/
def hasLeadingZero (cs : List Char) : Bool :=
  cs.head? = some '0' && cs != ['0']

/-- A whole number as it is written, without the mark of its base and without underscores. -/
structure Numeral where
  negative : Bool
  base : Nat
  text : List Char

namespace Numeral

/-- The number that a numeral stands for.  The text must be digits of the base, at least one. -/
def value? (n : Numeral) : Option Int :=
  if n.text ≠ [] ∧ n.text.all (isDigitOf n.base) then
    let size : Int := ofDigits n.base n.text
    some (if n.negative then -size else size)
  else none

/-- Reads what follows the mark of a base: digits of the base, or nothing. -/
def marked? (base : Nat) (cs : List Char) : Option Numeral := do
  let text ← ungroup isHexDigit cs
  if text.all (isDigitOf base) then some ⟨false, base, text⟩ else none

/-- Reads a decimal numeral: digits without a leading zero, and what underscores join to them.  The
characters at an underscore are hexadecimal digits.  A point, or the letter of an exponent, belongs
to a float, and a space to a date with its time. -/
def decimal? (cs : List Char) : Option Numeral := do
  let (negative, run) := splitSign cs
  let text ← ungroup isHexDigit run
  if run.head?.any Char.isDigit ∧ (run.dropWhile Char.isDigit).head?.all (· = '_') ∧
      ¬ hasLeadingZero run ∧ run.all fun c => !(['.', 'e', 'E', ' '].contains c) then
    some ⟨negative, 10, text⟩
  else none

/-- Reads a run as a numeral of one of the four bases. -/
def ofRun? : List Char → Option Numeral
  | '0' :: 'x' :: rest => marked? 16 rest
  | '0' :: 'o' :: rest => marked? 8 rest
  | '0' :: 'b' :: rest => marked? 2 rest
  | cs => decimal? cs

end Numeral

end LateBinding.Toml

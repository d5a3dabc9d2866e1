import LateBinding.Text.Unprintable

/-!
# Quoted texts

Inspection texts quote characters and strings.  The quote itself and the backslash are escaped, the
common controls have letters, and every other character that would not show, or that would attach to
its neighbour, is spelled by its code point in hexadecimal.
-/

namespace LateBinding.Text

/-- A code point in hexadecimal between braces. -/
def codePointEscape (c : Char) : String :=
  "\\u\x7b" ++ String.ofList (Nat.toDigits 16 c.toNat) ++ "\x7d"

/-- A character as it stands between two marks `quote`. -/
def escape (quote c : Char) : String :=
  if c = '\x00' then "\\0"
  else if c = '\t' then "\\t"
  else if c = '\r' then "\\r"
  else if c = '\n' then "\\n"
  else if c = '\\' then "\\\\"
  else if c = quote then "\\" ++ String.singleton c
  else if isAttachingMark c || isUnprintable c then codePointEscape c
  else String.singleton c

def quoteString (s : String) : String :=
  "\"" ++ String.join (s.toList.map (escape '\x22')) ++ "\""

def quoteChar (c : Char) : String :=
  "'" ++ escape '\x27' c ++ "'"

end LateBinding.Text

import LateBinding.Toml.Scalar

/-!
# TOML strings

Strings between quotes: basic ones, where a backslash escapes, and literal ones, where nothing does,
each on one line or over several.  The readers start after the opening quotes and give the
characters of the string and the rest of the text.
-/

namespace LateBinding.Toml

/-- Controls that may stand nowhere: all but the tab. -/
def isForbidden (c : Char) : Bool :=
  (c.toNat < 0x20 && c != '\t') || c.toNat = 0x7F

/-- The character of a code point written in hexadecimal. -/
def codePoint? (digits : List Char) : Option Char :=
  let n := ofDigits 16 digits
  if digits.all isHexDigit ∧ n.isValidChar then some (Char.ofNat n) else none

/-- The character that an escape of one letter stands for. -/
def letterEscape? : Char → Option Char
  | 'b' => some '\x08'
  | 't' => some '\t'
  | 'n' => some '\n'
  | 'f' => some '\x0c'
  | 'r' => some '\r'
  | 'e' => some '\x1b'
  | '\x22' => some '\x22'
  | '\\' => some '\\'
  | _ => none

def escape? : List Char → Option (Char × List Char)
  | 'x' :: rest => (codePoint? (rest.take 2)).map fun c => (c, rest.drop 2)
  | 'u' :: rest => (codePoint? (rest.take 4)).map fun c => (c, rest.drop 4)
  | 'U' :: rest => (codePoint? (rest.take 8)).map fun c => (c, rest.drop 8)
  | c :: rest => (letterEscape? c).map fun d => (d, rest)
  | [] => none

/-- Reads a basic string on one line. -/
def basic? (fuel : Nat) (cs : List Char) : Option (List Char × List Char) :=
  match fuel, cs with
  | _, '\x22' :: rest => some ([], rest)
  | fuel + 1, '\\' :: rest => do
    let (c, rest) ← escape? rest
    let (body, rest) ← basic? fuel rest
    return (c :: body, rest)
  | fuel + 1, c :: rest => do
    if isForbidden c then none
    else
      let (body, rest) ← basic? fuel rest
      return (c :: body, rest)
  | _, _ => none

/-- Reads a literal string on one line. -/
def literal? : List Char → Option (List Char × List Char)
  | [] => none
  | '\x27' :: rest => some ([], rest)
  | c :: rest =>
    if isForbidden c then none else (literal? rest).map fun (body, rest) => (c :: body, rest)

/-- Reads the end of a string over several lines: three quotes, before which two more may belong to
the string. -/
def closing? (quote : Char) (cs : List Char) : Option (List Char × List Char) :=
  let count := min 5 (cs.takeWhile (· = quote)).length
  if count < 3 then none else some (List.replicate (count - 3) quote, cs.drop count)

def isSpace (c : Char) : Bool :=
  c = ' ' || c = '\t'

def newline? : List Char → Option (List Char)
  | '\n' :: rest => some rest
  | '\r' :: '\n' :: rest => some rest
  | _ => none

/-- What follows blanks and line ends. -/
def skipBlankLines : List Char → List Char
  | ' ' :: rest | '\t' :: rest | '\n' :: rest | '\r' :: '\n' :: rest => skipBlankLines rest
  | cs => cs

/-- What follows a backslash at the end of a line, without the blanks and line ends before it. -/
def afterFold? (cs : List Char) : Option (List Char) :=
  (newline? (cs.dropWhile isSpace)).map skipBlankLines

/-- Reads a string over several lines.  In a basic one a backslash escapes, or folds lines. -/
def multiline? (quote : Char) (fuel : Nat) (cs : List Char) : Option (List Char × List Char) :=
  match fuel with
  | 0 => none
  | fuel + 1 =>
    match closing? quote cs with
    | some closed => some closed
    | none =>
      match cs with
      | [] => none
      | c :: rest =>
        if c = '\\' ∧ quote = '\x22' then
          match afterFold? rest with
          | some rest => multiline? quote fuel rest
          | none => do
            let (escaped, rest) ← escape? rest
            let (body, rest) ← multiline? quote fuel rest
            return (escaped :: body, rest)
        else
          match newline? cs with
          | some rest => (multiline? quote fuel rest).map fun (body, rest) => ('\n' :: body, rest)
          | none =>
            if isForbidden c then none
            else (multiline? quote fuel rest).map fun (body, rest) => (c :: body, rest)

/-- Reads a string of any of the four forms. -/
def string? : List Char → Option (String × List Char)
  | '\x22' :: '\x22' :: '\x22' :: rest => several '\x22' rest
  | '\x27' :: '\x27' :: '\x27' :: rest => several '\x27' rest
  | '\x22' :: rest => (basic? rest.length rest).map fun (body, rest) => (String.ofList body, rest)
  | '\x27' :: rest => (literal? rest).map fun (body, rest) => (String.ofList body, rest)
  | _ => none
where
  /-- A line end directly after the opening quotes does not belong to the string. -/
  several (quote : Char) (cs : List Char) : Option (String × List Char) :=
    let cs := (newline? cs).getD cs
    (multiline? quote (cs.length + 1) cs).map fun (body, rest) => (String.ofList body, rest)

end LateBinding.Toml

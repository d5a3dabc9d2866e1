import LateBinding.Toml.Quoted

/-!
# TOML documents

A document is read into its lines, which are then entered one after the other into the table of the
document.
-/

namespace LateBinding.Toml

def isBareKey (c : Char) : Bool :=
  c.isAlphanum || c = '_' || c = '-'

def skipSpaces (cs : List Char) : List Char :=
  cs.dropWhile isSpace

/-- Reads one part of a key: bare, or a string on one line. -/
def keyPart? (cs : List Char) : Option (String × List Char) :=
  match cs with
  | '\x22' :: rest => (basic? rest.length rest).map fun (body, rest) => (String.ofList body, rest)
  | '\x27' :: rest => (literal? rest).map fun (body, rest) => (String.ofList body, rest)
  | _ =>
    let bare := cs.takeWhile isBareKey
    if bare.isEmpty then none else some (String.ofList bare, cs.drop bare.length)

/-- How many arrays and inline tables may stand in one another, and how many parts a key may
have. -/
def depthLimit : Nat :=
  80

/-- Reads a key of parts joined by points, with the blanks around it. -/
def key? (cs : List Char) : Option (List String × List Char) :=
  parts? depthLimit cs
where
  /-- Reads at most so many parts. -/
  parts? (count : Nat) (cs : List Char) : Option (List String × List Char) := do
    match count with
    | 0 => none
    | count + 1 =>
      let (part, rest) ← keyPart? (skipSpaces cs)
      match skipSpaces rest with
      | '.' :: rest =>
        let (parts, rest) ← parts? count rest
        return (part :: parts, rest)
      | rest => return ([part], rest)

/-- What follows a comment, up to the end of its line. -/
def afterComment? : List Char → Option (List Char)
  | '#' :: rest =>
    let comment := rest.takeWhile fun c => c != '\n' && c != '\r'
    if comment.any isForbidden then none else some (rest.drop comment.length)
  | cs => some cs

/-- What follows blanks, comments and line ends. -/
def skipFiller? (fuel : Nat) (cs : List Char) : Option (List Char) := do
  let cs ← afterComment? (skipSpaces cs)
  match fuel, newline? cs with
  | fuel + 1, some rest => skipFiller? fuel rest
  | _, _ => return cs

/-- What follows the end of a line, which may hold blanks and a comment, or the end of the text. -/
def lineEnd? (cs : List Char) : Option (List Char) := do
  match ← afterComment? (skipSpaces cs) with
  | [] => some []
  | cs => newline? cs

/-- Whether a character belongs to a scalar without quotes: all but blanks, line ends and the marks
that order a document. -/
def isScalar (c : Char) : Bool :=
  !(isSpace c || c = '\n' || c = '\r' || ['=', ',', '[', ']', '\x7b', '\x7d', '#'].contains c)

/-- Whether a scalar without quotes goes on after blanks.  A quote there begins a string. -/
def goesOn (cs : List Char) : Bool :=
  (skipSpaces cs).head?.any fun c => isScalar c && c != '\x22' && c != '\x27'

/-- The run of a scalar without quotes, with the blanks inside it, and the rest of the text. -/
def scalarRun : List Char → List Char × List Char
  | [] => ([], [])
  | c :: rest =>
    if isScalar c || (isSpace c && goesOn rest) then
      let (run, rest) := scalarRun rest
      (c :: run, rest)
    else ([], c :: rest)

def bareScalar? (cs : List Char) : Option (Value × List Char) :=
  let (run, rest) := scalarRun cs
  (scalar? run).map fun v => (v, rest)

mutual

/-- Reads a value that may hold so many levels of arrays and inline tables. -/
def value? (fuel levels : Nat) (cs : List Char) : Option (Value × List Char) :=
  match fuel, levels, cs with
  | fuel + 1, levels + 1, '[' :: rest =>
    (items? fuel levels rest).map fun (items, rest) => (.array .inline items, rest)
  | fuel + 1, levels + 1, '\x7b' :: rest =>
    (entries? fuel levels [] rest).map fun (entries, rest) => (.table .inline entries, rest)
  | _, _, '\x22' :: _ | _, _, '\x27' :: _ => (string? cs).map fun (s, rest) => (.string s, rest)
  | _, _, _ => bareScalar? cs

/-- Reads the items of an array up to its closing bracket. -/
def items? (fuel levels : Nat) (cs : List Char) : Option (List Value × List Char) :=
  match fuel with
  | 0 => none
  | fuel + 1 => do
    match ← skipFiller? cs.length cs with
    | ']' :: rest => return ([], rest)
    | cs =>
      let (v, rest) ← value? fuel levels cs
      match ← skipFiller? rest.length rest with
      | ']' :: rest => return ([v], rest)
      | ',' :: rest =>
        let (items, rest) ← items? fuel levels rest
        return (v :: items, rest)
      | _ => none

/-- Reads the entries of an inline table up to its closing brace.  Unlike a line of the document, an
entry may go on over several lines. -/
def entries? (fuel levels : Nat) (done : Entries) (cs : List Char) :
    Option (Entries × List Char) :=
  match fuel with
  | 0 => none
  | fuel + 1 => do
    match ← skipFiller? cs.length cs with
    | '\x7d' :: rest => return (done, rest)
    | cs =>
      let (key, rest) ← key? cs
      let '=' :: rest ← skipFiller? rest.length rest | none
      let (v, rest) ← value? fuel levels (← skipFiller? rest.length rest)
      let done ← done.assign v key
      match ← skipFiller? rest.length rest with
      | '\x7d' :: rest => return (done, rest)
      | ',' :: rest => entries? fuel levels done rest
      | _ => none

end

/-- One line of a document that is not empty. -/
inductive Line where
  | header (key : List String)
  | arrayHeader (key : List String)
  | assignment (key : List String) (v : Value)

/-- Reads a line up to where a comment may follow. -/
def line? (cs : List Char) : Option (Line × List Char) := do
  match cs with
  | '[' :: '[' :: rest =>
    let (key, rest) ← key? rest
    let ']' :: ']' :: rest := rest | none
    return (.arrayHeader key, rest)
  | '[' :: rest =>
    let (key, rest) ← key? rest
    let ']' :: rest := rest | none
    return (.header key, rest)
  | _ =>
    let (key, rest) ← key? cs
    let '=' :: rest := rest | none
    let (v, rest) ← value? (2 * cs.length + 2) depthLimit (skipSpaces rest)
    return (.assignment key v, rest)

def lines? (fuel : Nat) (cs : List Char) : Option (List Line) := do
  match fuel, ← skipFiller? cs.length cs with
  | _, [] => return []
  | 0, _ => none
  | fuel + 1, cs =>
    let (line, rest) ← line? cs
    return line :: (← lines? fuel (← lineEnd? rest))

/-- Enters lines into the table of a document, `current` being the key of the last header. -/
def enter (current : List String) (entries : Entries) : List Line → Option Entries
  | [] => some entries
  | .assignment key v :: rest => do
    enter current (← entries.under (Entries.assign v key) current) rest
  | .header key :: rest => do
    let last ← key.getLast?
    enter key (← entries.under (Entries.openTable last) key.dropLast) rest
  | .arrayHeader key :: rest => do
    let last ← key.getLast?
    enter key (← entries.under (Entries.openArray last) key.dropLast) rest

/-- The table of a document, which may begin with a byte order mark. -/
def document? (text : String) : Option Entries := do
  let cs := match text.toList with
    | '\uFEFF' :: rest => rest
    | cs => cs
  enter [] [] (← lines? cs.length cs)

end LateBinding.Toml

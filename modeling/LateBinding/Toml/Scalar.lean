import LateBinding.Toml.Value

/-!
# TOML scalars

Numbers, booleans, dates and times.  A scalar without quotes is the longest run of characters that
may occur in one, blanks between them included, and the run as a whole must be of one of the forms.
-/

namespace LateBinding.Toml

/-- Whether a run is decimal digits, at least one, with underscores between them. -/
def isDigitRun (cs : List Char) : Bool :=
  cs != [] && (ungroup Char.isDigit cs).any fun digits => digits.all Char.isDigit

/-- Whether a run is the exponent of a float, after its letter. -/
def isExponent (cs : List Char) : Bool :=
  isDigitRun (splitSign cs).2

/-- Whether a run is what follows the whole part of a float: places, an exponent, or both. -/
def isFloatTail : List Char → Bool
  | '.' :: rest =>
    let places := rest.takeWhile fun c => c != 'e' && c != 'E'
    isDigitRun places &&
      match rest.drop places.length with
      | [] => true
      | _ :: exponent => isExponent exponent
  | 'e' :: rest | 'E' :: rest => isExponent rest
  | _ => false

def isFloat (cs : List Char) : Bool :=
  let rest := (splitSign cs).2
  let whole := rest.takeWhile fun c => c.isDigit || c = '_'
  rest = "inf".toList || rest = "nan".toList ||
    (isDigitRun whole && !hasLeadingZero whole && isFloatTail (rest.drop whole.length))

/-! ## Dates and times -/

/-- Reads a number of exactly so many digits. -/
def fixedDigits? (count : Nat) (cs : List Char) : Option (Nat × List Char) :=
  let digits := cs.take count
  if digits.length = count ∧ digits.all Char.isDigit then some (ofDigits 10 digits, cs.drop count)
  else none

def daysOfMonth (year month : Nat) : Nat :=
  if month = 2 then
    if (year % 4 = 0 ∧ year % 100 ≠ 0) ∨ year % 400 = 0 then 29 else 28
  else if month = 4 ∨ month = 6 ∨ month = 9 ∨ month = 11 then 30 else 31

/-- Reads a date and gives the rest of the run. -/
def afterDate? (cs : List Char) : Option (List Char) := do
  let (year, cs) ← fixedDigits? 4 cs
  let '-' :: cs := cs | none
  let (month, cs) ← fixedDigits? 2 cs
  let '-' :: cs := cs | none
  let (day, cs) ← fixedDigits? 2 cs
  if 1 ≤ month ∧ month ≤ 12 ∧ 1 ≤ day ∧ day ≤ daysOfMonth year month then some cs else none

def afterMinutes? (cs : List Char) : Option (List Char) := do
  let (hour, cs) ← fixedDigits? 2 cs
  let ':' :: cs := cs | none
  let (minute, cs) ← fixedDigits? 2 cs
  if hour ≤ 23 ∧ minute ≤ 59 then some cs else none

/-- Reads a time, whose seconds may be left out. -/
def afterTime? (cs : List Char) : Option (List Char) := do
  let cs ← afterMinutes? cs
  match cs with
  | ':' :: cs =>
    let (second, cs) ← fixedDigits? 2 cs
    if 60 < second then none
    else
      match cs with
      | '.' :: cs =>
        if (cs.takeWhile Char.isDigit).isEmpty then none else some (cs.dropWhile Char.isDigit)
      | cs => some cs
  | cs => some cs

/-- Whether a run is the offset of a time, or nothing. -/
def isOffset : List Char → Bool
  | [] | ['Z'] | ['z'] => true
  | '+' :: cs | '-' :: cs => afterMinutes? cs = some []
  | _ => false

def isDatetime (cs : List Char) : Bool :=
  afterTime? cs = some [] ||
    match afterDate? cs with
    | some [] => true
    | some (separator :: time) =>
      (separator = 'T' || separator = 't' || separator = ' ') && (afterTime? time).any isOffset
    | none => false

def scalar? (cs : List Char) : Option Value :=
  if cs = "true".toList then some (.bool true)
  else if cs = "false".toList then some (.bool false)
  else
    match Numeral.ofRun? cs with
    | some n => some (.integer n)
    | none =>
      if isFloat cs then some (.float (String.ofList cs))
      else if isDatetime cs then some (.datetime (String.ofList cs))
      else none

end LateBinding.Toml

import LateBinding.Number.Shortest

/-!
# Layout of decimals

How the shortest decimal of a number is written.  A `FloatStyle` holds the decisions of one form of
text; `Binary.text` writes a number in it.
-/

namespace LateBinding

/-- The decisions of one form of number text, taken on the power of ten of the leading digit. -/
structure FloatStyle where
  /-- Whether the number is written without a power of ten. -/
  positional : Int → Bool
  /-- Whether an integral number written positionally ends in a point and a zero. -/
  pointZero : Int → Bool
  /-- Text that ends every number. -/
  suffix : String

namespace FloatStyle

/-- Values of the 64-bit format as people read them: never a power of ten, and integral values below
`10 ^ 15` end in `.0`. -/
def display64 : FloatStyle := ⟨fun _ => true, fun e => e < 15, ""⟩

/-- Values of the 32-bit format as people read them: never a power of ten, and marked by `f0`. -/
def display32 : FloatStyle := ⟨fun _ => true, fun _ => false, "f0"⟩

/-- Values of both formats in inspection texts: positional from `10 ^ -4` up to `10 ^ 16`. -/
def inspection : FloatStyle := ⟨fun e => -4 ≤ e && e < 16, fun _ => true, ""⟩

end FloatStyle

namespace Decimal

def zeros (n : Nat) : String :=
  String.ofList (List.replicate n '0')

/-- The decimal without a power of ten. -/
def positionalText (d : Decimal) (pointZero : Bool) : String :=
  let digits := d.digitText
  if 0 ≤ d.exponent then
    digits ++ zeros d.exponent.toNat ++ (if pointZero then ".0" else "")
  else
    let places := (-d.exponent).toNat
    let padded := zeros (places + 1 - digits.length) ++ digits
    let whole := padded.toList.take (padded.length - places)
    let fraction := padded.toList.drop (padded.length - places)
    String.ofList whole ++ "." ++ String.ofList fraction

/-- The decimal with one digit before the point and a power of ten. -/
def scientificText (d : Decimal) : String :=
  let exponent := "e" ++ toString d.leadingExponent
  match d.digitText.toList with
  | [] => exponent
  | [digit] => String.singleton digit ++ exponent
  | digit :: rest => String.singleton digit ++ "." ++ String.ofList rest ++ exponent

end Decimal

namespace Binary

variable {f : FloatFormat}

def text (style : FloatStyle) (x : Binary f) : String :=
  let sign := if x.negative then "-" else ""
  if x.isNaN then "NaN" ++ style.suffix
  else if x.isInfinite then sign ++ "inf" ++ style.suffix
  else
    let d := x.shortestDecimal
    let e := d.leadingExponent
    let body :=
      if style.positional e then d.positionalText (style.pointZero e) else d.scientificText
    sign ++ body ++ style.suffix

end Binary

end LateBinding

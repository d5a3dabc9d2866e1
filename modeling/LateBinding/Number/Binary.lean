/-!
# Binary floating-point numbers

A number of an interchange format is kept as its three fields, so that every bit pattern, the
payload of a NaN included, is one value.  Each conversion into a format goes through
`Binary.ofScaled`, which rounds an exact `significand * 2 ^ scale` to the nearest member, a tie
going to the even neighbour.
-/

namespace LateBinding

/-- Widths of the exponent field and of the fraction field. -/
structure FloatFormat where
  exponentBits : Nat
  fractionBits : Nat
deriving DecidableEq

namespace FloatFormat

def single : FloatFormat := ⟨8, 23⟩

def double : FloatFormat := ⟨11, 52⟩

/-- The exponent field of infinities and NaNs: all ones. -/
def topExponent (f : FloatFormat) : Nat := 1 <<< f.exponentBits - 1

/-- The scale of the smallest positive number, which is `2 ^ f.minScale`. -/
def minScale (f : FloatFormat) : Int :=
  2 - (1 <<< (f.exponentBits - 1) : Nat) - f.fractionBits

end FloatFormat

/-- A number of the format `f`, as its sign, exponent field and fraction field. -/
structure Binary (f : FloatFormat) where
  negative : Bool
  exponent : BitVec f.exponentBits
  fraction : BitVec f.fractionBits
deriving DecidableEq

abbrev Single := Binary .single

abbrev Double := Binary .double

namespace Binary

variable {f : FloatFormat}

/-! ## Bit patterns -/

/-- The number whose fields below the sign hold `magnitude`, exponent above fraction. -/
def ofMagnitude (negative : Bool) (magnitude : Nat) : Binary f where
  negative := negative
  exponent := .ofNat _ (magnitude >>> f.fractionBits)
  fraction := .ofNat _ magnitude

/-- The exponent and fraction fields as one number. -/
def magnitude (x : Binary f) : Nat :=
  x.exponent.toNat <<< f.fractionBits + x.fraction.toNat

/-- The number with the given bit pattern; bits above the sign are ignored. -/
def ofBits (bits : Nat) : Binary f :=
  ofMagnitude (bits.testBit (f.exponentBits + f.fractionBits)) bits

/-- The bit pattern: sign, exponent, fraction. -/
def toBits (x : Binary f) : Nat :=
  x.negative.toNat <<< (f.exponentBits + f.fractionBits) + x.magnitude

/-! ## Classes -/

def isNaN (x : Binary f) : Bool :=
  x.exponent.toNat == f.topExponent && x.fraction.toNat != 0

def isInfinite (x : Binary f) : Bool :=
  x.exponent.toNat == f.topExponent && x.fraction.toNat == 0

def isZero (x : Binary f) : Bool :=
  x.exponent.toNat == 0 && x.fraction.toNat == 0

/-- Numeric equality: a NaN differs from everything, and the two zeros are equal. -/
def equal (x y : Binary f) : Bool :=
  !x.isNaN && !y.isNaN && (x == y || x.isZero && y.isZero)

/-! ## Exact values -/

/-- A finite number is `significand * 2 ^ scale` up to its sign.  Below the normal range there is no
leading one and the scale stays at its minimum. -/
def significand (x : Binary f) : Nat :=
  if x.exponent.toNat = 0 then x.fraction.toNat else 1 <<< f.fractionBits + x.fraction.toNat

/-- The power of two that the significand is multiplied by. -/
def scale (x : Binary f) : Int :=
  f.minScale + (x.exponent.toNat - 1 : Nat)

/-- The quotient by `2 ^ places` to the nearest integer, a tie to the even one. -/
def roundedShift (n places : Nat) : Nat :=
  let floor := n >>> places
  let unit := 1 <<< places
  let twice := 2 * (n % unit)
  if twice < unit then floor
  else if unit < twice then floor + 1
  else floor + floor % 2

def infinity (negative : Bool) : Binary f :=
  ofMagnitude negative (f.topExponent <<< f.fractionBits)

/-- The member of the format nearest to `significand * 2 ^ scale`, a tie going to the even
neighbour.  The significand is brought to the step of the binade it lies in; a carry out of the
fraction then moves on to the next binade by itself, because the fields are adjacent. -/
def ofScaled (negative : Bool) (significand : Nat) (scale : Int) : Binary f :=
  if significand = 0 then ofMagnitude negative 0
  else
    let step := max (scale + significand.log2 - f.fractionBits) f.minScale
    let rounded :=
      if step ≤ scale then significand <<< (scale - step).toNat
      else roundedShift significand (step - scale).toNat
    let magnitude := (step - f.minScale).toNat <<< f.fractionBits + rounded
    if magnitude < f.topExponent <<< f.fractionBits then ofMagnitude negative magnitude
    else infinity negative

def ofInt (n : Int) : Binary f :=
  ofScaled (n < 0) n.natAbs 0

/-- The same number in the wider format.  Every finite number is kept exactly; a NaN keeps its sign
and its payload and becomes quiet. -/
def toDouble (x : Single) : Double :=
  if x.isNaN then
    { negative := x.negative
      exponent := .allOnes _
      fraction := .ofNat _ (x.fraction.toNat <<< 29 ||| 1 <<< 51) }
  else if x.isInfinite then infinity x.negative
  else ofScaled x.negative x.significand x.scale

end Binary

end LateBinding

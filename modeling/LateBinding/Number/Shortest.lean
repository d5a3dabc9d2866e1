import LateBinding.Number.Binary

/-!
# Shortest decimals

The shortest decimal of a finite number is the one with the fewest digits among the decimals that
round back to it, and among those the nearest.  The search goes over the decimal grids
`10 ^ k` from coarse to fine and stops at the first grid with a point in the rounding interval; if
any point of a grid lies in the interval, one of the two grid neighbours of the number does.
-/

namespace LateBinding

/-- The number `digits * 10 ^ exponent`. -/
structure Decimal where
  digits : Nat
  exponent : Int
deriving DecidableEq

namespace Decimal

def tenTo (n : Nat) : Nat :=
  Nat.pow 10 n

def digitText (d : Decimal) : String :=
  Nat.repr d.digits

/-- The power of ten of the leading digit. -/
def leadingExponent (d : Decimal) : Int :=
  d.exponent + (d.digitText.length - 1 : Nat)

end Decimal

namespace Binary

variable {f : FloatFormat}

/-- The reals that round to a positive number, in quarters of the unit of its last place: the ends
are halfway to its neighbours, and the lower neighbour is nearer at a power of two. -/
structure RoundingInterval where
  low : Nat
  middle : Nat
  high : Nat
  /-- A tie goes to the even neighbour, so the ends belong to an even significand. -/
  closed : Bool

def roundingInterval (x : Binary f) : RoundingInterval :=
  let middle := 4 * x.significand
  let atPowerOfTwo := x.fraction.toNat = 0 && 1 < x.exponent.toNat
  { low := if atPowerOfTwo then middle - 1 else middle - 2
    middle := middle
    high := middle + 2
    closed := x.significand % 2 = 0 }

/-- A candidate `candidate / unit` lies in the interval `i / quarters`, both being given over the
common denominator. -/
def RoundingInterval.admits (i : RoundingInterval) (quarter candidate : Nat) : Bool :=
  if i.closed then i.low * quarter ≤ candidate && candidate ≤ i.high * quarter
  else i.low * quarter < candidate && candidate < i.high * quarter

/-- The point of the grid `10 ^ k` that stands for the number, if the grid has one in the rounding
interval.  Of two points the nearer is taken, and the upper one on a tie. -/
def onGrid? (x : Binary f) (k : Int) : Option Decimal :=
  let i := x.roundingInterval
  let quarterScale := x.scale - 2
  -- one quarter of the last place and one grid step, over a common denominator
  let quarter := Decimal.tenTo (-k).toNat <<< quarterScale.toNat
  let unit := Decimal.tenTo k.toNat <<< (-quarterScale).toNat
  let lower := i.middle * quarter / unit
  let upper := lower + 1
  let nearerLower := 2 * (i.middle * quarter) < (lower + upper) * unit
  match i.admits quarter (lower * unit), i.admits quarter (upper * unit) with
  | true, true => some ⟨if nearerLower then lower else upper, k⟩
  | true, false => some ⟨lower, k⟩
  | false, true => some ⟨upper, k⟩
  | false, false => none

/-- A grid that is too coarse for the number: its step exceeds ten times the number. -/
def coarsestExponent (x : Binary f) : Int :=
  (x.scale + x.significand.log2 + 1) * 30103 / 100000 + 2

/-- The shortest decimal that rounds back to the absolute value of a finite number. -/
def shortestDecimal (x : Binary f) : Decimal :=
  if x.significand = 0 then ⟨0, 0⟩
  else
    -- seventeen digits always suffice, and the first grid lies at most four places too high
    ((List.range 24).findSome? fun (i : Nat) => x.onGrid? (x.coarsestExponent - i)).getD ⟨0, 0⟩

end Binary

end LateBinding

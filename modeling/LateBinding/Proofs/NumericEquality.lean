import LateBinding.Number.Binary
import Mathlib.Data.Rat.Cast.Order
import Mathlib.Algebra.Order.Field.Power
import Mathlib.Tactic.Linarith
import Mathlib.Tactic.Positivity
import Mathlib.Tactic.Ring

/-!
# Equality of floating-point numbers

Comparing the fields of two numbers decides whether they stand for the same number.  Every finite
number is a whole multiple of the smallest positive one of its format, and each multiple has only
one significand and exponent.
-/

namespace LateBinding.Binary

variable {f : FloatFormat}

def IsFinite (x : Binary f) : Prop :=
  x.exponent.toNat ≠ f.topExponent

/-- The exact value of a finite number. -/
def value (x : Binary f) : ℚ :=
  (if x.negative then -1 else 1) * x.significand * 2 ^ x.scale

/-- Equality as IEEE 754 has it: finite numbers compare by their values and infinities by their
signs, and a NaN equals nothing. -/
inductive SameNumber (x y : Binary f) : Prop where
  | finite (hx : x.IsFinite) (hy : y.IsFinite) (hvalue : x.value = y.value)
  | infinite (hx : x.isInfinite = true) (hy : y.isInfinite = true)
      (hsign : x.negative = y.negative)

/-! ## Significands -/

/-- How many doublings lie between the smallest step of the format and the step of a number. -/
def doublings (x : Binary f) : Nat :=
  x.exponent.toNat - 1

theorem significand_of_zero {x : Binary f} (hzero : x.exponent.toNat = 0) :
    x.significand = x.fraction.toNat := by
  unfold significand
  rw [if_pos hzero]

theorem significand_of_ne_zero {x : Binary f} (hne : x.exponent.toNat ≠ 0) :
    x.significand = 2 ^ f.fractionBits + x.fraction.toNat := by
  unfold significand
  rw [if_neg hne, Nat.one_shiftLeft]

theorem significand_lt (x : Binary f) : x.significand < 2 ^ (f.fractionBits + 1) := by
  have hfraction := x.fraction.isLt
  by_cases hzero : x.exponent.toNat = 0
  · rw [significand_of_zero hzero, Nat.pow_succ]
    omega
  · rw [significand_of_ne_zero hzero, Nat.pow_succ]
    omega

/-- Only below the normal range is there no leading one. -/
theorem significand_lt_iff (x : Binary f) :
    x.significand < 2 ^ f.fractionBits ↔ x.exponent.toNat = 0 := by
  have hfraction := x.fraction.isLt
  by_cases hzero : x.exponent.toNat = 0
  · rw [significand_of_zero hzero]
    exact iff_of_true hfraction hzero
  · rw [significand_of_ne_zero hzero]
    exact iff_of_false (by omega) hzero

theorem doublings_le_of_mul_eq {x y : Binary f}
    (heq : x.significand * 2 ^ x.doublings = y.significand * 2 ^ y.doublings) :
    y.doublings ≤ x.doublings := by
  by_contra hlt
  have hnormal : y.exponent.toNat ≠ 0 := by
    unfold doublings at hlt
    omega
  have hlarge : 2 ^ f.fractionBits ≤ y.significand := by
    rw [← not_lt, significand_lt_iff]
    exact hnormal
  have hdoublings : 2 ^ (x.doublings + 1) ≤ 2 ^ y.doublings :=
    Nat.pow_le_pow_right (by decide) (by omega)
  have hsmaller : x.significand * 2 ^ x.doublings < y.significand * 2 ^ y.doublings :=
    calc
      x.significand * 2 ^ x.doublings
          < 2 ^ (f.fractionBits + 1) * 2 ^ x.doublings :=
        Nat.mul_lt_mul_of_pos_right x.significand_lt (by positivity)
      _ = 2 ^ f.fractionBits * 2 ^ (x.doublings + 1) := by
        ring
      _ ≤ y.significand * 2 ^ y.doublings := Nat.mul_le_mul hlarge hdoublings
  omega

theorem fields_eq_of_mul_eq {x y : Binary f}
    (heq : x.significand * 2 ^ x.doublings = y.significand * 2 ^ y.doublings) :
    x.exponent = y.exponent ∧ x.fraction = y.fraction := by
  have hdoublings : x.doublings = y.doublings :=
    Nat.le_antisymm (doublings_le_of_mul_eq heq.symm) (doublings_le_of_mul_eq heq)
  have hsignificand : x.significand = y.significand := by
    rw [hdoublings] at heq
    exact Nat.eq_of_mul_eq_mul_right (by positivity) heq
  have hzero : x.exponent.toNat = 0 ↔ y.exponent.toNat = 0 := by
    rw [← significand_lt_iff, ← significand_lt_iff, hsignificand]
  unfold doublings at hdoublings
  have hexponent : x.exponent.toNat = y.exponent.toNat := by
    omega
  have hfraction : x.fraction.toNat = y.fraction.toNat := by
    by_cases hx : x.exponent.toNat = 0
    · rw [significand_of_zero hx, significand_of_zero (hzero.1 hx)] at hsignificand
      exact hsignificand
    · rw [significand_of_ne_zero hx, significand_of_ne_zero (hzero.not.1 hx)] at hsignificand
      exact Nat.add_left_cancel hsignificand
  exact ⟨BitVec.eq_of_toNat_eq hexponent, BitVec.eq_of_toNat_eq hfraction⟩

/-! ## Values -/

theorem abs_sign_mul (negative : Bool) (x : ℚ) : |(if negative then -1 else 1) * x| = |x| := by
  cases negative <;> simp

theorem abs_value_eq (x : Binary f) : |x.value| = x.significand * 2 ^ x.scale := by
  rw [value, mul_assoc, abs_sign_mul, abs_of_nonneg (by positivity)]

theorem two_zpow_scale (x : Binary f) : (2 : ℚ) ^ x.scale = 2 ^ x.doublings * 2 ^ f.minScale := by
  rw [scale, zpow_add₀ two_ne_zero, zpow_natCast, mul_comm]
  rfl

theorem abs_value (x : Binary f) :
    |x.value| = (x.significand * 2 ^ x.doublings : Nat) * 2 ^ f.minScale := by
  rw [abs_value_eq, two_zpow_scale]
  push_cast
  ring

theorem fields_eq_of_value_eq {x y : Binary f} (hvalue : x.value = y.value) :
    x.exponent = y.exponent ∧ x.fraction = y.fraction := by
  have habs : |x.value| = |y.value| := congrArg abs hvalue
  rw [abs_value, abs_value] at habs
  have hunits := mul_right_cancel₀ (zpow_ne_zero _ two_ne_zero) habs
  exact fields_eq_of_mul_eq (by exact_mod_cast hunits)

theorem value_eq_zero_iff (x : Binary f) : x.value = 0 ↔ x.isZero = true := by
  rw [← abs_eq_zero, abs_value]
  have hscale : (2 : ℚ) ^ f.minScale ≠ 0 := zpow_ne_zero _ two_ne_zero
  simp only [mul_eq_zero, hscale, or_false, Nat.cast_eq_zero, isZero, Bool.and_eq_true, beq_iff_eq]
  by_cases hzero : x.exponent.toNat = 0
  · simp [significand_of_zero hzero, hzero]
  · simp [significand_of_ne_zero hzero, hzero]

theorem negative_eq_of_value_eq {x y : Binary f} (hvalue : x.value = y.value)
    (hne : x.value ≠ 0) : x.negative = y.negative := by
  by_contra hsign
  obtain ⟨hexponent, hfraction⟩ := fields_eq_of_value_eq hvalue
  have hopposite : x.value = -y.value := by
    have hsignificand : x.significand = y.significand := by
      simp only [significand, hexponent, hfraction]
    have hscale : x.scale = y.scale := by
      simp only [scale, hexponent]
    unfold value
    rw [hsignificand, hscale]
    cases hx : x.negative <;> cases hy : y.negative <;> simp_all
  apply hne
  linarith

/-! ## The comparison -/

theorem isNaN_of_isFinite {x : Binary f} (hfinite : x.IsFinite) : x.isNaN = false := by
  simp [isNaN, show x.exponent.toNat ≠ f.topExponent from hfinite]

theorem isNaN_of_isInfinite {x : Binary f} (hinfinite : x.isInfinite = true) :
    x.isNaN = false := by
  simp only [isInfinite, Bool.and_eq_true, beq_iff_eq] at hinfinite
  simp [isNaN, hinfinite.2]

theorem eq_of_fields {x y : Binary f} (hsign : x.negative = y.negative)
    (hfields : x.exponent = y.exponent ∧ x.fraction = y.fraction) : x = y := by
  cases x
  cases y
  simp_all

theorem SameNumber.equal {x y : Binary f} (hsame : x.SameNumber y) : x.equal y = true := by
  cases hsame with
  | finite hx hy hvalue =>
      simp only [Binary.equal, isNaN_of_isFinite hx, isNaN_of_isFinite hy, Bool.not_false,
        Bool.true_and]
      by_cases hzero : x.value = 0
      · have hx0 := (value_eq_zero_iff x).1 hzero
        have hy0 := (value_eq_zero_iff y).1 (hvalue ▸ hzero)
        simp [hx0, hy0]
      · have heq := eq_of_fields (negative_eq_of_value_eq hvalue hzero)
          (fields_eq_of_value_eq hvalue)
        simp [heq]
  | infinite hx hy hsign =>
      simp only [Binary.equal, isNaN_of_isInfinite hx, isNaN_of_isInfinite hy, Bool.not_false,
        Bool.true_and]
      simp only [isInfinite, Bool.and_eq_true, beq_iff_eq] at hx hy
      have hexponent := BitVec.eq_of_toNat_eq (hx.1.trans hy.1.symm)
      have hfraction := BitVec.eq_of_toNat_eq (hx.2.trans hy.2.symm)
      have heq := eq_of_fields hsign ⟨hexponent, hfraction⟩
      simp [heq]

theorem sameNumber_self {x : Binary f} (hnumber : x.isNaN = false) : x.SameNumber x := by
  by_cases hfinite : x.exponent.toNat = f.topExponent
  · have hinfinite : x.isInfinite = true := by
      simpa [isNaN, isInfinite, hfinite] using hnumber
    exact .infinite hinfinite hinfinite rfl
  · exact .finite hfinite hfinite rfl

theorem sameNumber_of_isZero (htop : f.topExponent ≠ 0) {x y : Binary f} (hx : x.isZero = true)
    (hy : y.isZero = true) : x.SameNumber y := by
  have hvalue : x.value = y.value := by
    rw [(value_eq_zero_iff x).2 hx, (value_eq_zero_iff y).2 hy]
  simp only [isZero, Bool.and_eq_true, beq_iff_eq] at hx hy
  refine .finite ?_ ?_ hvalue
  · unfold IsFinite
    omega
  · unfold IsFinite
    omega

theorem equal_eq_true_iff (htop : f.topExponent ≠ 0) {x y : Binary f} :
    x.equal y = true ↔ x.SameNumber y := by
  constructor
  · intro hequal
    simp only [Binary.equal, Bool.and_eq_true, Bool.not_eq_true', Bool.or_eq_true,
      beq_iff_eq] at hequal
    obtain ⟨⟨hx, _⟩, heq | ⟨hxzero, hyzero⟩⟩ := hequal
    · rw [← heq]
      exact sameNumber_self hx
    · exact sameNumber_of_isZero htop hxzero hyzero
  · exact SameNumber.equal

end LateBinding.Binary

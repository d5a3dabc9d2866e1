import LateBinding.Proofs.NumericEquality
import Mathlib.Algebra.Order.Group.Int
import Mathlib.Algebra.Ring.Parity
import Mathlib.Tactic.Linarith

/-!
# Rounding to nearest

The conversion into a format gives the number of the format that is nearest to an exact value, and
of two that are equally near the even one; these demands leave no choice of the value.  A rounding
counts steps of one size, and the numbers of the format that are no multiple of the step are further
away than the multiples are.
-/

namespace LateBinding.Binary

variable {f : FloatFormat}

/-- `y` is a number of its format nearest to `x`, and its significand is even if another one is as
near. -/
structure IsNearest (y : Binary f) (x : ℚ) : Prop where
  finite : y.IsFinite
  near : ∀ z : Binary f, z.IsFinite → |x - y.value| ≤ |x - z.value|
  even : ∀ z : Binary f, z.IsFinite → |x - z.value| = |x - y.value| → z.value ≠ y.value →
    Even y.significand

theorem IsNearest.of_value_eq {x : ℚ} {y z : Binary f} (hy : y.IsNearest x) (hz : z.IsFinite)
    (hvalue : z.value = y.value) : z.IsNearest x := by
  have hfields := fields_eq_of_value_eq hvalue
  have hsignificand : z.significand = y.significand := by
    simp only [significand, hfields.1, hfields.2]
  refine ⟨hz, ?_, ?_⟩
  · rw [hvalue]
    exact hy.near
  · rw [hvalue, hsignificand]
    exact hy.even

/-! ## Powers of two -/

theorem two_zpow_of_le {i j : ℤ} (hij : i ≤ j) : (2 : ℚ) ^ j = 2 ^ (j - i).toNat * 2 ^ i := by
  rw [← zpow_natCast, ← zpow_add₀ two_ne_zero]
  congr 1
  omega

theorem eq_mul_two_pow {m n : ℕ} {i j : ℤ} (hij : i ≤ j)
    (heq : (m : ℚ) * 2 ^ i = n * 2 ^ j) : m = n * 2 ^ (j - i).toNat := by
  rw [two_zpow_of_le hij, ← mul_assoc] at heq
  exact_mod_cast mul_right_cancel₀ (zpow_ne_zero _ two_ne_zero) heq

/-! ## Multiples of a step -/

section Multiples

variable {x unit : ℚ} {q k : ℤ}

theorem mul_abs_sub_le (hunit : 0 < unit) :
    |(k - q : ℤ)| * unit ≤ |x - k * unit| + |x - q * unit| := by
  have hdifference : ((k - q : ℤ) : ℚ) * unit = (x - q * unit) - (x - k * unit) := by
    push_cast
    ring
  calc
    (|(k - q : ℤ)| : ℤ) * unit = |((k - q : ℤ) : ℚ) * unit| := by
      rw [abs_mul, abs_of_pos hunit, Int.cast_abs]
    _ = |(x - q * unit) - (x - k * unit)| := by rw [hdifference]
    _ ≤ |x - q * unit| + |x - k * unit| := abs_sub _ _
    _ = |x - k * unit| + |x - q * unit| := add_comm _ _

theorem abs_sub_le_of_multiple (hunit : 0 < unit) (hnear : 2 * |x - q * unit| ≤ unit) (k : ℤ) :
    |x - q * unit| ≤ |x - k * unit| := by
  by_cases heq : k = q
  · rw [heq]
  · have hapart : (1 : ℚ) ≤ |(k - q : ℤ)| := by
      exact_mod_cast Int.one_le_abs (sub_ne_zero.mpr heq)
    have hsum := mul_abs_sub_le (x := x) (k := k) (q := q) hunit
    nlinarith

theorem parities_of_tie (hunit : 0 < unit) (hnear : 2 * |x - q * unit| ≤ unit)
    (heven : 2 * |x - q * unit| = unit → Even q) (htie : |x - k * unit| = |x - q * unit|)
    (hne : k ≠ q) : Even q ∧ Odd k := by
  have hsum := mul_abs_sub_le (x := x) (k := k) (q := q) hunit
  have hone : |k - q| = 1 := by
    have hpositive := Int.one_le_abs (sub_ne_zero.mpr hne)
    have hless : (|(k - q : ℤ)| : ℤ) * unit ≤ 1 * unit := by linarith
    have hcast : ((|k - q| : ℤ) : ℚ) ≤ (1 : ℤ) := by
      exact_mod_cast le_of_mul_le_mul_right hless hunit
    have hle := Int.cast_le.mp hcast
    omega
  rw [hone] at hsum
  have hq : Even q := heven (by push_cast at hsum; linarith)
  have hodd : Odd (k - q) := by
    rcases (abs_eq zero_le_one).mp hone with h | h <;> rw [h] <;> decide
  exact ⟨hq, by simpa using hodd.add_even hq⟩

end Multiples

/-! ## Numbers as multiples -/

theorem minScale_le_scale (z : Binary f) : f.minScale ≤ z.scale := by
  unfold scale
  omega

/-- A number whose own step is no shorter is a multiple of the step, an odd one only if its
significand is odd. -/
theorem exists_multiple {z : Binary f} {step : ℤ} (hstep : step ≤ z.scale) :
    ∃ k : ℤ, z.value = k * 2 ^ step ∧ (Odd k → Odd z.significand) := by
  refine ⟨(if z.negative then -1 else 1) * z.significand * 2 ^ (z.scale - step).toNat, ?_, ?_⟩
  · rw [value, two_zpow_of_le hstep]
    push_cast
    split <;> ring
  · intro hodd
    exact_mod_cast (Int.odd_mul.mp (Int.odd_mul.mp hodd).1).2

theorem abs_value_lt_of_scale_lt {z : Binary f} {step : ℤ} (hscale : z.scale < step) :
    |z.value| < 2 ^ f.fractionBits * 2 ^ step := by
  have hsignificand : (z.significand : ℚ) < 2 ^ (f.fractionBits + 1) := by
    exact_mod_cast z.significand_lt
  have hpow : (2 : ℚ) ^ z.scale ≤ 2 ^ (step - 1) :=
    zpow_le_zpow_right₀ one_le_two (by omega)
  have hstep : (2 : ℚ) ^ step = 2 * 2 ^ (step - 1) := by
    rw [← zpow_one_add₀ two_ne_zero, add_sub_cancel]
  calc
    |z.value| = z.significand * 2 ^ z.scale := abs_value_eq z
    _ < 2 ^ (f.fractionBits + 1) * 2 ^ z.scale :=
      mul_lt_mul_of_pos_right hsignificand (by positivity)
    _ ≤ 2 ^ (f.fractionBits + 1) * 2 ^ (step - 1) :=
      mul_le_mul_of_nonneg_left hpow (by positivity)
    _ = 2 ^ f.fractionBits * 2 ^ step := by
      rw [hstep]
      ring

/-! ## Roundings -/

/-- `q` steps of the size `2 ^ step` are a rounding of `x`: the nearest count of steps, an even one
at a tie, where the step is the one of the binade that `x` lies in or the smallest of the
format. -/
structure RoundsTo (f : FloatFormat) (x : ℚ) (step q : ℤ) : Prop where
  near : 2 * |x - q * 2 ^ step| ≤ 2 ^ step
  even : 2 * |x - q * 2 ^ step| = 2 ^ step → Even q
  fits : |q| ≤ 2 ^ (f.fractionBits + 1)
  minScale_le : f.minScale ≤ step
  normal : f.minScale < step → 2 ^ f.fractionBits * 2 ^ step ≤ |x|

namespace RoundsTo

variable {x : ℚ} {step q : ℤ} {y z : Binary f}

/-- What is no multiple of the step lies below the binade of `x`, on the far side of the least
number of that binade, which is a multiple. -/
theorem multiple_or_further (h : RoundsTo f x step q) (z : Binary f) :
    (∃ k : ℤ, z.value = k * 2 ^ step ∧ (Odd k → Odd z.significand)) ∨
      |x - q * 2 ^ step| < |x - z.value| := by
  by_cases hscale : step ≤ z.scale
  · exact .inl (exists_multiple hscale)
  · have hsmall := abs_value_lt_of_scale_lt (not_le.mp hscale)
    have hlarge := h.normal (lt_of_le_of_lt z.minScale_le_scale (not_le.mp hscale))
    have hdistance : |x| - |z.value| ≤ |x - z.value| := abs_sub_abs_le_abs_sub x z.value
    have hleast : |x - q * 2 ^ step| ≤ |x| - 2 ^ f.fractionBits * 2 ^ step := by
      rcases abs_cases x with ⟨hx, -⟩ | ⟨hx, -⟩
      · have hmultiple := abs_sub_le_of_multiple (by positivity) h.near (2 ^ f.fractionBits)
        have hsame : x - 2 ^ f.fractionBits * 2 ^ step =
            |x| - 2 ^ f.fractionBits * 2 ^ step := by
          rw [hx]
        push_cast at hmultiple
        rwa [hsame, abs_of_nonneg (sub_nonneg.mpr hlarge)] at hmultiple
      · have hmultiple := abs_sub_le_of_multiple (by positivity) h.near (-2 ^ f.fractionBits)
        have hopposite : x - -2 ^ f.fractionBits * 2 ^ step =
            -(|x| - 2 ^ f.fractionBits * 2 ^ step) := by
          rw [hx]
          ring
        push_cast at hmultiple
        rwa [hopposite, abs_neg, abs_of_nonneg (sub_nonneg.mpr hlarge)] at hmultiple
    right
    linarith

/-- A rounding that carried into the next binade is the least number of that binade. -/
theorem significand_of_carry (h : RoundsTo f x step q) (hscale : step < y.scale)
    (habs : (q.natAbs : ℚ) * 2 ^ step = y.significand * 2 ^ y.scale) :
    y.significand = 2 ^ f.fractionBits := by
  have hcount := eq_mul_two_pow hscale.le habs
  have hfits : q.natAbs ≤ 2 ^ (f.fractionBits + 1) := by
    have hfits := h.fits
    rw [Int.abs_eq_natAbs] at hfits
    exact_mod_cast hfits
  have hnormal : 2 ^ f.fractionBits ≤ y.significand := by
    have hleast := h.minScale_le
    rw [← not_lt, significand_lt_iff]
    intro hzero
    simp only [scale, hzero, Nat.zero_sub, Nat.cast_zero, add_zero] at hscale
    omega
  have hdouble : y.significand * 2 ≤ q.natAbs := by
    rw [hcount]
    exact Nat.mul_le_mul_left _ (Nat.le_self_pow (by omega) 2)
  rw [Nat.pow_succ] at hfits
  omega

theorem even_significand (hfraction : 0 < f.fractionBits) (h : RoundsTo f x step q)
    (hvalue : y.value = q * 2 ^ step) (hq : Even q) : Even y.significand := by
  have habs : (y.significand : ℚ) * 2 ^ y.scale = q.natAbs * 2 ^ step := by
    rw [← abs_value_eq, hvalue, abs_mul, abs_of_pos (a := (2 : ℚ) ^ step) (by positivity),
      Nat.cast_natAbs, Int.cast_abs]
  rcases le_or_gt y.scale step with hscale | hscale
  · rw [eq_mul_two_pow hscale habs]
    exact (Int.natAbs_even.mpr hq).mul_right _
  · rw [h.significand_of_carry hscale habs.symm]
    exact Nat.even_pow.mpr ⟨even_two, hfraction.ne'⟩

theorem isNearest (hfraction : 0 < f.fractionBits) (h : RoundsTo f x step q) (hy : y.IsFinite)
    (hvalue : y.value = q * 2 ^ step) : y.IsNearest x := by
  refine ⟨hy, fun z _ => ?_, fun z _ htie hne => ?_⟩
  · rw [hvalue]
    rcases h.multiple_or_further z with ⟨k, hk, -⟩ | hfurther
    · rw [hk]
      exact abs_sub_le_of_multiple (by positivity) h.near k
    · exact hfurther.le
  · rw [hvalue] at htie hne
    rcases h.multiple_or_further z with ⟨k, hk, -⟩ | hfurther
    · rw [hk] at htie hne
      have hkq : k ≠ q := fun heq => hne (by rw [heq])
      exact h.even_significand hfraction hvalue
        (parities_of_tie (by positivity) h.near h.even htie hkq).1
    · exact absurd htie hfurther.ne'

/-- A nearest number has the value of the rounding: another one would have to be even as well, but
the neighbours of an even count of steps are odd. -/
theorem value_eq (h : RoundsTo f x step q) (hy : y.IsFinite) (hvalue : y.value = q * 2 ^ step)
    (hz : z.IsNearest x) : z.value = y.value := by
  by_contra hne
  have hnear : |x - z.value| ≤ |x - q * 2 ^ step| := hvalue ▸ hz.near y hy
  rcases h.multiple_or_further z with ⟨k, hk, hodd⟩ | hfurther
  · rw [hk] at hnear
    have htie := le_antisymm hnear (abs_sub_le_of_multiple (by positivity) h.near k)
    have hkq : k ≠ q := fun heq => hne (by rw [hk, hvalue, heq])
    have hkodd := (parities_of_tie (by positivity) h.near h.even htie hkq).2
    have heven : Even z.significand := hz.even y hy (by rw [hvalue, hk, htie]) (Ne.symm hne)
    exact Nat.not_even_iff_odd.mpr (hodd hkodd) heven
  · exact absurd hfurther (not_lt.mpr hnear)

/-- What is a multiple of the step already is kept. -/
theorem eq_of_multiple (h : RoundsTo f x step q) {k : ℤ} (hx : x = k * 2 ^ step) :
    q * 2 ^ step = x := by
  have hnear := abs_sub_le_of_multiple (by positivity) h.near k
  rw [← hx, sub_self, abs_zero] at hnear
  exact (sub_eq_zero.mp (abs_eq_zero.mp (le_antisymm hnear (abs_nonneg _)))).symm

end RoundsTo

/-! ## Rounded significands -/

/-- The floor or the next integer is taken, whichever is nearer. -/
theorem roundedShift_cases (n places : ℕ) :
    (roundedShift n places = n / 2 ^ places ∧ 2 * (n % 2 ^ places) ≤ 2 ^ places ∨
      roundedShift n places = n / 2 ^ places + 1 ∧ 2 ^ places ≤ 2 * (n % 2 ^ places)) ∧
    (2 * (n % 2 ^ places) = 2 ^ places → Even (roundedShift n places)) := by
  simp only [roundedShift, Nat.shiftRight_eq_div_pow, Nat.one_shiftLeft, Nat.even_iff]
  generalize n / 2 ^ places = floor
  generalize n % 2 ^ places = rest
  generalize 2 ^ places = unit
  split_ifs <;> omega

theorem roundedShift_near (n places : ℕ) :
    2 * |(n : ℤ) - roundedShift n places * 2 ^ places| ≤ 2 ^ places ∧
      (2 * |(n : ℤ) - roundedShift n places * 2 ^ places| = 2 ^ places →
        Even (roundedShift n places)) := by
  have hsplit : n = n / 2 ^ places * 2 ^ places + n % 2 ^ places :=
    (Nat.div_add_mod' n (2 ^ places)).symm
  have hrest : n % 2 ^ places < 2 ^ places := Nat.mod_lt n (Nat.two_pow_pos places)
  have hcases := roundedShift_cases n places
  generalize roundedShift n places = count at *
  generalize n / 2 ^ places = floor at *
  generalize n % 2 ^ places = rest at *
  obtain ⟨⟨hcount, hside⟩ | ⟨hcount, hside⟩, heven⟩ := hcases
  · have hdistance : (n : ℤ) - count * 2 ^ places = rest := by
      rw [hcount, hsplit]
      push_cast
      ring
    rw [hdistance, Nat.abs_cast]
    exact ⟨by exact_mod_cast hside, fun htie => heven (by exact_mod_cast htie)⟩
  · have hdistance : (n : ℤ) - count * 2 ^ places = -((2 ^ places - rest : ℕ) : ℤ) := by
      rw [hcount, hsplit, Nat.cast_sub hrest.le]
      push_cast
      ring
    rw [hdistance, abs_neg, Nat.abs_cast]
    constructor
    · exact_mod_cast (by omega : 2 * (2 ^ places - rest) ≤ 2 ^ places)
    · intro htie
      have htie : 2 * (2 ^ places - rest) = 2 ^ places := by exact_mod_cast htie
      exact heven (by omega)

theorem roundedShift_le {n places width : ℕ} (hn : n < 2 ^ (width + places)) :
    roundedShift n places ≤ 2 ^ width := by
  have hfloor : n / 2 ^ places < 2 ^ width :=
    Nat.div_lt_of_lt_mul (by rwa [mul_comm, ← pow_add])
  obtain ⟨⟨hcount, -⟩ | ⟨hcount, -⟩, -⟩ := roundedShift_cases n places
  · omega
  · omega

theorem le_roundedShift {n places width : ℕ} (hn : 2 ^ (width + places) ≤ n) :
    2 ^ width ≤ roundedShift n places := by
  have hfloor : 2 ^ width ≤ n / 2 ^ places :=
    (Nat.le_div_iff_mul_le (Nat.two_pow_pos places)).mpr (by rwa [← pow_add])
  obtain ⟨⟨hcount, -⟩ | ⟨hcount, -⟩, -⟩ := roundedShift_cases n places
  · omega
  · omega

/-! ## Fields of a rounded number -/

theorem topExponent_eq (f : FloatFormat) : f.topExponent = 2 ^ f.exponentBits - 1 := by
  rw [FloatFormat.topExponent, Nat.one_shiftLeft]

theorem fields_ofMagnitude (negative : Bool) {n : ℕ}
    (hlt : n < f.topExponent <<< f.fractionBits) :
    (ofMagnitude negative n : Binary f).exponent.toNat = n / 2 ^ f.fractionBits ∧
      (ofMagnitude negative n : Binary f).fraction.toNat = n % 2 ^ f.fractionBits ∧
      n / 2 ^ f.fractionBits < f.topExponent := by
  rw [Nat.shiftLeft_eq, mul_comm] at hlt
  have hquotient := Nat.div_lt_of_lt_mul hlt
  have htop := Nat.two_pow_pos f.exponentBits
  refine ⟨?_, by simp only [ofMagnitude, BitVec.toNat_ofNat], hquotient⟩
  rw [topExponent_eq] at hquotient
  simp only [ofMagnitude, BitVec.toNat_ofNat, Nat.shiftRight_eq_div_pow]
  exact Nat.mod_eq_of_lt (by omega)

/-- A count of steps that fills the fraction field carries into the exponent field, where the next
binade begins. -/
theorem significand_mul_two_pow {y : Binary f} {k count : ℕ}
    (hexponent : y.exponent.toNat = k + count / 2 ^ f.fractionBits)
    (hfraction : y.fraction.toNat = count % 2 ^ f.fractionBits)
    (hfits : count ≤ 2 ^ (f.fractionBits + 1)) (hnormal : k = 0 ∨ 2 ^ f.fractionBits ≤ count) :
    y.significand * 2 ^ y.doublings = count * 2 ^ k := by
  have hhidden := Nat.two_pow_pos f.fractionBits
  rw [doublings, hexponent]
  rcases lt_or_ge count (2 ^ f.fractionBits) with hsmall | hlarge
  · obtain rfl : k = 0 := by omega
    have hquotient := Nat.div_eq_of_lt hsmall
    rw [significand_of_zero (by omega), hfraction, Nat.mod_eq_of_lt hsmall, hquotient]
  · rcases Nat.lt_or_eq_of_le hfits with hbinade | hcarry
    · have hquotient : count / 2 ^ f.fractionBits = 1 :=
        Nat.div_eq_of_lt_le (by omega) (by rw [Nat.pow_succ] at hbinade; omega)
      have hsplit := Nat.div_add_mod count (2 ^ f.fractionBits)
      rw [hquotient, mul_one] at hsplit
      rw [significand_of_ne_zero (by omega), hfraction, hsplit, hquotient, Nat.add_sub_cancel]
    · have hquotient : count / 2 ^ f.fractionBits = 2 := by
        rw [hcarry, Nat.pow_succ, Nat.mul_div_cancel_left _ hhidden]
      have hrest : count % 2 ^ f.fractionBits = 0 := by
        rw [hcarry, Nat.pow_succ, Nat.mul_mod_right]
      have hdoublings : k + 2 - 1 = k + 1 := rfl
      rw [significand_of_ne_zero (by omega), hfraction, hrest, hquotient, hcarry, hdoublings]
      ring

theorem value_ofMagnitude (negative : Bool) {k count : ℕ}
    (hfits : count ≤ 2 ^ (f.fractionBits + 1)) (hnormal : k = 0 ∨ 2 ^ f.fractionBits ≤ count)
    (hlt : k <<< f.fractionBits + count < f.topExponent <<< f.fractionBits) :
    let y : Binary f := ofMagnitude negative (k <<< f.fractionBits + count)
    y.IsFinite ∧ y.value = (if negative then -1 else 1) * count * 2 ^ (f.minScale + k) := by
  intro y
  have hhidden := Nat.two_pow_pos f.fractionBits
  have hquotient : (k <<< f.fractionBits + count) / 2 ^ f.fractionBits =
      k + count / 2 ^ f.fractionBits := by
    rw [Nat.shiftLeft_eq, mul_comm, Nat.mul_add_div hhidden]
  have hrest : (k <<< f.fractionBits + count) % 2 ^ f.fractionBits =
      count % 2 ^ f.fractionBits := by
    rw [Nat.shiftLeft_eq, Nat.mul_add_mod']
  obtain ⟨hexponent, hfraction, hfinite⟩ := fields_ofMagnitude negative hlt
  have hsteps : y.significand * 2 ^ y.doublings = count * 2 ^ k :=
    significand_mul_two_pow (hexponent.trans hquotient) (hfraction.trans hrest) hfits hnormal
  have hnegative : y.negative = negative := rfl
  refine ⟨hexponent.trans_lt hfinite |>.ne, ?_⟩
  calc
    y.value = (if negative then -1 else 1) * (y.significand * 2 ^ y.doublings : ℕ) *
        2 ^ f.minScale := by
      rw [value, hnegative, two_zpow_scale]
      push_cast
      ring
    _ = (if negative then -1 else 1) * count * 2 ^ (f.minScale + k) := by
      rw [hsteps, zpow_add₀ two_ne_zero, zpow_natCast]
      push_cast
      ring

/-! ## The conversion -/

/-- The step that a number is rounded to, and how many steps it comes to. -/
def roundingStep (f : FloatFormat) (significand : ℕ) (scale : ℤ) : ℤ :=
  max (scale + significand.log2 - f.fractionBits) f.minScale

def stepCount (significand : ℕ) (scale step : ℤ) : ℕ :=
  if step ≤ scale then significand <<< (scale - step).toNat
  else roundedShift significand (step - scale).toNat

section Conversion

variable {significand : ℕ} {scale step : ℤ}

theorem roundingStep_of_normal (hnormal : f.minScale < roundingStep f significand scale) :
    roundingStep f significand scale = scale + significand.log2 - f.fractionBits :=
  max_eq_left (le_of_lt ((lt_max_iff.mp hnormal).resolve_right (lt_irrefl _)))

theorem stepCount_mul_of_le (hstep : step ≤ scale) :
    (stepCount significand scale step : ℚ) * 2 ^ step = significand * 2 ^ scale := by
  rw [stepCount, if_pos hstep, Nat.shiftLeft_eq, two_zpow_of_le hstep]
  push_cast
  ring

theorem stepCount_near (significand : ℕ) (scale step : ℤ) :
    2 * |(significand : ℚ) * 2 ^ scale - stepCount significand scale step * 2 ^ step| ≤
        2 ^ step ∧
      (2 * |(significand : ℚ) * 2 ^ scale - stepCount significand scale step * 2 ^ step| =
        2 ^ step → Even (stepCount significand scale step)) := by
  have hunit : (0 : ℚ) < 2 ^ step := by positivity
  rcases le_or_gt step scale with hstep | hstep
  · rw [stepCount_mul_of_le hstep, sub_self, abs_zero, mul_zero]
    exact ⟨hunit.le, fun htie => absurd htie hunit.ne⟩
  · set places := (step - scale).toNat
    have hcount : stepCount significand scale step = roundedShift significand places := by
      rw [stepCount, if_neg (not_le.mpr hstep)]
    have hsize : (2 : ℚ) ^ step = 2 ^ places * 2 ^ scale := two_zpow_of_le hstep.le
    have hpositive : (0 : ℚ) < 2 ^ scale := by positivity
    have hdistance : |(significand : ℚ) * 2 ^ scale - roundedShift significand places * 2 ^ step| =
        (|(significand : ℤ) - roundedShift significand places * 2 ^ places| : ℤ) * 2 ^ scale := by
      rw [hsize, ← mul_assoc, ← sub_mul, abs_mul, abs_of_pos hpositive]
      push_cast
      rfl
    obtain ⟨hnear, heven⟩ := roundedShift_near significand places
    rw [hcount, hdistance, hsize, ← mul_assoc]
    constructor
    · exact mul_le_mul_of_nonneg_right (by exact_mod_cast hnear) hpositive.le
    · intro htie
      exact heven (by exact_mod_cast mul_right_cancel₀ hpositive.ne' htie)

theorem stepCount_le (hstep : roundingStep f significand scale ≤ step) :
    stepCount significand scale step ≤ 2 ^ (f.fractionBits + 1) := by
  have hlog : significand < 2 ^ (significand.log2 + 1) := Nat.lt_log2_self
  have hleast : scale + significand.log2 - f.fractionBits ≤ step := (le_max_left _ _).trans hstep
  unfold stepCount
  split_ifs with hle
  · rw [Nat.shiftLeft_eq]
    calc
      significand * 2 ^ (scale - step).toNat
          ≤ 2 ^ (significand.log2 + 1) * 2 ^ (scale - step).toNat :=
        Nat.mul_le_mul_right _ hlog.le
      _ = 2 ^ (significand.log2 + 1 + (scale - step).toNat) := (pow_add _ _ _).symm
      _ ≤ 2 ^ (f.fractionBits + 1) := Nat.pow_le_pow_right two_pos (by omega)
  · exact roundedShift_le (hlog.trans_le (Nat.pow_le_pow_right two_pos (by omega)))

theorem le_stepCount (hpositive : significand ≠ 0)
    (hnormal : f.minScale < roundingStep f significand scale) :
    2 ^ f.fractionBits ≤ stepCount significand scale (roundingStep f significand scale) := by
  have hlog : 2 ^ significand.log2 ≤ significand := Nat.log2_self_le hpositive
  rw [roundingStep_of_normal hnormal]
  unfold stepCount
  split_ifs with hle
  · rw [Nat.shiftLeft_eq]
    calc
      2 ^ f.fractionBits = 2 ^ significand.log2 *
          2 ^ (scale - (scale + significand.log2 - f.fractionBits)).toNat := by
        rw [← pow_add]
        congr 1
        omega
      _ ≤ _ := Nat.mul_le_mul_right _ hlog
  · exact le_roundedShift ((Nat.pow_le_pow_right two_pos (by omega)).trans hlog)

/-- The exact value of which `ofScaled` gives the nearest number. -/
def scaled (negative : Bool) (significand : ℕ) (scale : ℤ) : ℚ :=
  (if negative then -1 else 1) * significand * 2 ^ scale

theorem roundsTo_scaled (negative : Bool) (hpositive : significand ≠ 0) :
    RoundsTo f (scaled negative significand scale) (roundingStep f significand scale)
      ((if negative then -1 else 1) *
        stepCount significand scale (roundingStep f significand scale)) := by
  set step := roundingStep f significand scale
  set count := stepCount significand scale step
  have hdistance : |scaled negative significand scale -
      (((if negative then -1 else 1) * count : ℤ) : ℚ) * 2 ^ step| =
      |(significand : ℚ) * 2 ^ scale - count * 2 ^ step| := by
    rw [← abs_sign_mul negative (significand * 2 ^ scale - count * 2 ^ step), scaled]
    push_cast
    ring_nf
  have hparity : Even ((if negative then -1 else 1) * (count : ℤ)) ↔ Even count := by
    cases negative <;> simp [Int.even_coe_nat]
  obtain ⟨hnear, heven⟩ := stepCount_near significand scale step
  constructor
  case near => rwa [hdistance]
  case even => rwa [hdistance, hparity]
  case fits =>
    have hcount : (count : ℤ) ≤ 2 ^ (f.fractionBits + 1) := by
      exact_mod_cast stepCount_le (f := f) le_rfl
    cases negative <;> simpa using hcount
  case minScale_le => exact le_max_right _ _
  case normal =>
    intro hnormal
    have hexact : step = scale + significand.log2 - f.fractionBits :=
      roundingStep_of_normal hnormal
    have hlog : (2 : ℚ) ^ significand.log2 ≤ significand := by
      exact_mod_cast Nat.log2_self_le hpositive
    have hpow : (2 : ℚ) ^ f.fractionBits * 2 ^ step = 2 ^ significand.log2 * 2 ^ scale := by
      rw [← zpow_natCast, ← zpow_natCast, ← zpow_add₀ two_ne_zero, ← zpow_add₀ two_ne_zero, hexact]
      congr 1
      omega
    rw [scaled, mul_assoc, abs_sign_mul, abs_of_nonneg (by positivity), hpow]
    exact mul_le_mul_of_nonneg_right hlog (by positivity)

theorem roundsTo_zero (f : FloatFormat) : RoundsTo f 0 f.minScale 0 := by
  constructor <;> simp [zpow_nonneg]

variable {negative : Bool}

theorem not_isFinite_infinity (negative : Bool) : ¬ (infinity negative : Binary f).IsFinite := by
  have htop := Nat.two_pow_pos f.exponentBits
  simp only [IsFinite, infinity, ofMagnitude, BitVec.toNat_ofNat, Nat.shiftLeft_shiftRight,
    topExponent_eq, not_not]
  exact Nat.mod_eq_of_lt (by omega)

/-- The exponent and fraction fields that a rounding fills, as one number. -/
def roundedMagnitude (f : FloatFormat) (significand : ℕ) (scale : ℤ) : ℕ :=
  (roundingStep f significand scale - f.minScale).toNat <<< f.fractionBits +
    stepCount significand scale (roundingStep f significand scale)

theorem ofScaled_of_ne_zero (hpositive : significand ≠ 0) :
    (ofScaled negative significand scale : Binary f) =
      if roundedMagnitude f significand scale < f.topExponent <<< f.fractionBits then
        ofMagnitude negative (roundedMagnitude f significand scale)
      else infinity negative := by
  unfold ofScaled
  rw [if_neg hpositive]
  rfl

theorem value_ofMagnitude_rounded (hpositive : significand ≠ 0)
    (hlt : roundedMagnitude f significand scale < f.topExponent <<< f.fractionBits) :
    (ofMagnitude negative (roundedMagnitude f significand scale) : Binary f).IsFinite ∧
      (ofMagnitude negative (roundedMagnitude f significand scale) : Binary f).value =
        (if negative then -1 else 1) *
          stepCount significand scale (roundingStep f significand scale) *
          2 ^ roundingStep f significand scale := by
  have hleast : f.minScale ≤ roundingStep f significand scale := le_max_right _ _
  have hstep : f.minScale + (roundingStep f significand scale - f.minScale).toNat =
      roundingStep f significand scale := by
    omega
  have hnormal : (roundingStep f significand scale - f.minScale).toNat = 0 ∨
      2 ^ f.fractionBits ≤ stepCount significand scale (roundingStep f significand scale) := by
    rcases hleast.eq_or_lt with heq | hnormal
    · exact .inl (by omega)
    · exact .inr (le_stepCount hpositive hnormal)
  have hresult := value_ofMagnitude negative (stepCount_le le_rfl) hnormal hlt
  rwa [hstep] at hresult

theorem value_ofScaled_zero : (ofScaled negative 0 scale : Binary f).value = 0 := by
  simp [ofScaled, value, significand, ofMagnitude]

theorem value_ofScaled (hpositive : significand ≠ 0)
    (hfinite : (ofScaled negative significand scale : Binary f).IsFinite) :
    (ofScaled negative significand scale : Binary f).value =
      ((if negative then -1 else 1) *
        stepCount significand scale (roundingStep f significand scale) : ℤ) *
        2 ^ roundingStep f significand scale := by
  rw [ofScaled_of_ne_zero hpositive] at hfinite ⊢
  by_cases hlt : roundedMagnitude f significand scale < f.topExponent <<< f.fractionBits
  · rw [if_pos hlt, (value_ofMagnitude_rounded hpositive hlt).2]
    push_cast
    rfl
  · rw [if_neg hlt] at hfinite
    exact absurd hfinite (not_isFinite_infinity negative)

/-- A step well below the top of the format leaves room for the number. -/
theorem isFinite_ofScaled
    (hrange : roundingStep f significand scale + 2 < f.minScale + f.topExponent) :
    (ofScaled negative significand scale : Binary f).IsFinite := by
  have hleast : f.minScale ≤ roundingStep f significand scale := le_max_right _ _
  by_cases hpositive : significand = 0
  · simp only [ofScaled, if_pos hpositive, IsFinite, ofMagnitude, Nat.zero_shiftRight,
      BitVec.toNat_ofNat, Nat.zero_mod]
    omega
  · have hcount : stepCount significand scale (roundingStep f significand scale) ≤
        2 * 2 ^ f.fractionBits := by
      rw [← Nat.pow_succ']
      exact stepCount_le le_rfl
    have hlt : roundedMagnitude f significand scale < f.topExponent <<< f.fractionBits := by
      rw [roundedMagnitude, Nat.shiftLeft_eq, Nat.shiftLeft_eq]
      calc
        (roundingStep f significand scale - f.minScale).toNat * 2 ^ f.fractionBits +
            stepCount significand scale (roundingStep f significand scale)
            ≤ ((roundingStep f significand scale - f.minScale).toNat + 2) *
              2 ^ f.fractionBits := by
          rw [add_mul]
          omega
        _ < f.topExponent * 2 ^ f.fractionBits :=
          Nat.mul_lt_mul_of_pos_right (by omega) (Nat.two_pow_pos _)
    rw [ofScaled_of_ne_zero hpositive, if_pos hlt]
    exact (value_ofMagnitude_rounded hpositive hlt).1

theorem exists_roundsTo_of_isFinite
    (hfinite : (ofScaled negative significand scale : Binary f).IsFinite) :
    ∃ step q : ℤ, RoundsTo f (scaled negative significand scale) step q ∧
      (ofScaled negative significand scale : Binary f).value = q * 2 ^ step := by
  by_cases hpositive : significand = 0
  · subst hpositive
    refine ⟨f.minScale, 0, ?_, by rw [value_ofScaled_zero, Int.cast_zero, zero_mul]⟩
    simpa [scaled] using roundsTo_zero f
  · exact ⟨_, _, roundsTo_scaled negative hpositive, value_ofScaled hpositive hfinite⟩

/-- Unless it overflows, the conversion into a format rounds to nearest, ties to even. -/
theorem isNearest_ofScaled (hfraction : 0 < f.fractionBits)
    (hfinite : (ofScaled negative significand scale : Binary f).IsFinite) :
    (ofScaled negative significand scale : Binary f).IsNearest
      (scaled negative significand scale) := by
  obtain ⟨step, q, hrounds, hvalue⟩ := exists_roundsTo_of_isFinite hfinite
  exact hrounds.isNearest hfraction hfinite hvalue

/-- There is no other way to round to nearest, ties to even. -/
theorem IsNearest.value_eq_ofScaled {z : Binary f}
    (hz : z.IsNearest (scaled negative significand scale))
    (hfinite : (ofScaled negative significand scale : Binary f).IsFinite) :
    z.value = (ofScaled negative significand scale : Binary f).value := by
  obtain ⟨step, q, hrounds, hvalue⟩ := exists_roundsTo_of_isFinite hfinite
  exact hrounds.value_eq hfinite hvalue hz

theorem exists_multiple_of_le (negative : Bool)
    (hstep : roundingStep f significand scale ≤ scale) :
    ∃ k : ℤ, scaled negative significand scale = k * 2 ^ roundingStep f significand scale := by
  refine ⟨(if negative then -1 else 1) *
    stepCount significand scale (roundingStep f significand scale), ?_⟩
  rw [scaled, mul_assoc, ← stepCount_mul_of_le hstep]
  push_cast
  ring

theorem value_ofScaled_of_multiple
    (hfinite : (ofScaled negative significand scale : Binary f).IsFinite) {k : ℤ}
    (hmultiple : scaled negative significand scale = k * 2 ^ roundingStep f significand scale) :
    (ofScaled negative significand scale : Binary f).value =
      scaled negative significand scale := by
  by_cases hpositive : significand = 0
  · subst hpositive
    rw [value_ofScaled_zero]
    simp [scaled]
  · rw [value_ofScaled hpositive hfinite]
    exact (roundsTo_scaled negative hpositive).eq_of_multiple hmultiple

end Conversion

end LateBinding.Binary

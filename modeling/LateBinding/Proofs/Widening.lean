import LateBinding.Proofs.EqualityLaws
import LateBinding.Proofs.NearestNumber
import LateBinding.Proofs.ReturnKinds
import LateBinding.Proofs.WritePaths

/-!
# What widening keeps

A widened value stands for the value it came from, with one exception: long integers become the
64-bit floats nearest to them, and from `2 ^ 53` on several integers share one.
-/

namespace LateBinding

namespace Binary

/-! ## Integers as 64-bit floats -/

theorem scaled_ofInt (n : ℤ) : scaled (decide (n < 0)) n.natAbs 0 = n := by
  rw [scaled, zpow_zero, mul_one]
  rcases lt_or_ge n 0 with hn | hn
  · rw [if_pos (decide_eq_true hn), neg_one_mul, Nat.cast_natAbs, abs_of_neg hn]
    push_cast
    ring
  · rw [if_neg (by simpa using hn), one_mul, Nat.cast_natAbs, abs_of_nonneg hn]

theorem log2_lt_of_lt {n k : ℕ} (hk : 0 < k) (hn : n < 2 ^ k) : n.log2 < k := by
  by_cases hzero : n = 0
  · rw [hzero]
    exact hk
  · exact (Nat.log2_lt hzero).mpr hn

theorem roundingStep_double (n : ℕ) :
    roundingStep .double n 0 = max ((n.log2 : ℤ) - 52) (-1074) := by
  rw [roundingStep, zero_add]
  rfl

theorem isFinite_ofInt {n : ℤ} (hn : n.natAbs < 2 ^ 64) : (ofInt n : Double).IsFinite := by
  apply isFinite_ofScaled
  have hlog := log2_lt_of_lt (by decide) hn
  have htop : (FloatFormat.double.topExponent : ℤ) = 2047 := rfl
  have hleast : FloatFormat.double.minScale = -1074 := rfl
  rw [roundingStep_double, htop, hleast]
  omega

theorem isNearest_ofInt {n : ℤ} (hn : n.natAbs < 2 ^ 64) : (ofInt n : Double).IsNearest n := by
  have hnearest := isNearest_ofScaled (f := .double) (by decide) (isFinite_ofInt hn)
  rwa [scaled_ofInt] at hnearest

/-- An integer of at most 53 bits, or the next power of two, is a 64-bit float. -/
theorem value_ofInt_of_le {n : ℤ} (hn : n.natAbs ≤ 2 ^ 53) : (ofInt n : Double).value = n := by
  have hfinite : (ofInt n : Double).IsFinite := isFinite_ofInt (by omega)
  obtain ⟨k, hk⟩ : ∃ k : ℤ, scaled (decide (n < 0)) n.natAbs 0 =
      k * 2 ^ roundingStep .double n.natAbs 0 := by
    rcases hn.lt_or_eq with hlt | heq
    · apply exists_multiple_of_le
      have hlog := log2_lt_of_lt (by decide) hlt
      rw [roundingStep_double]
      omega
    · have hstep : roundingStep .double n.natAbs 0 = 1 := by
        rw [roundingStep_double, heq, Nat.log2_two_pow]
        rfl
      rw [hstep, scaled_ofInt]
      rcases Int.natAbs_eq n with hsign | hsign
      · exact ⟨2 ^ 52, by rw [hsign, heq]; norm_num⟩
      · exact ⟨-2 ^ 52, by rw [hsign, heq]; norm_num⟩
  have hvalue := value_ofScaled_of_multiple hfinite hk
  rwa [scaled_ofInt] at hvalue

/-- One 64-bit float is nearest to both integers. -/
def ShareNearest (n m : ℤ) : Prop :=
  ∃ y : Double, y.IsNearest n ∧ y.IsNearest m

theorem IsNearest.value_eq_ofInt {y : Double} {n : ℤ} (hy : y.IsNearest n)
    (hn : n.natAbs < 2 ^ 64) : y.value = (ofInt n : Double).value := by
  rw [← scaled_ofInt n] at hy
  exact hy.value_eq_ofScaled (isFinite_ofInt hn)

theorem sameNumber_ofInt_iff {n m : ℤ} (hn : n.natAbs < 2 ^ 64) (hm : m.natAbs < 2 ^ 64) :
    (ofInt n : Double).SameNumber (ofInt m) ↔ ShareNearest n m := by
  rw [sameNumber_iff_value_eq (isFinite_ofInt hn) (isFinite_ofInt hm)]
  constructor
  · intro hvalue
    exact ⟨ofInt n, isNearest_ofInt hn, (isNearest_ofInt hm).of_value_eq (isFinite_ofInt hn) hvalue⟩
  · rintro ⟨y, hyn, hym⟩
    rw [← hyn.value_eq_ofInt hn, ← hym.value_eq_ofInt hm]

/-- Past `2 ^ 53` that power of two is nearer than what lies below it. -/
theorem ShareNearest.natAbs_le {n m : ℤ} (hshare : ShareNearest n m) (hn : n.natAbs < 2 ^ 53) :
    m.natAbs ≤ 2 ^ 53 := by
  obtain ⟨y, hyn, hym⟩ := hshare
  by_contra hlarge
  have hvalue : y.value = n := (hyn.value_eq_ofInt (by omega)).trans (value_ofInt_of_le hn.le)
  have hbound : (m.sign * 2 ^ 53).natAbs ≤ 2 ^ 53 := by
    rw [Int.natAbs_mul, Int.natAbs_sign_of_ne_zero (by omega)]
    norm_num
  have hnear := hym.near (ofInt (m.sign * 2 ^ 53)) (isFinite_ofInt (by omega))
  rw [hvalue, value_ofInt_of_le hbound] at hnear
  have hnear : |m - n| ≤ |m - m.sign * 2 ^ 53| := by exact_mod_cast hnear
  rw [Int.abs_eq_natAbs, Int.abs_eq_natAbs] at hnear
  rcases lt_or_gt_of_ne (show m ≠ 0 by omega) with hm | hm
  · rw [Int.sign_eq_neg_one_of_neg hm] at hnear
    omega
  · rw [Int.sign_eq_one_of_pos hm] at hnear
    omega

/-- An integer of at most 53 bits is told apart from every other one. -/
theorem ShareNearest.eq_of_lt {n m : ℤ} (hshare : ShareNearest n m) (hn : n.natAbs < 2 ^ 53) :
    n = m := by
  have hm := hshare.natAbs_le hn
  obtain ⟨y, hyn, hym⟩ := hshare
  have hvalue := (hyn.value_eq_ofInt (by omega)).symm.trans (hym.value_eq_ofInt (by omega))
  rw [value_ofInt_of_le hn.le, value_ofInt_of_le hm] at hvalue
  exact_mod_cast hvalue

/-! ## 32-bit floats as 64-bit floats -/

theorem scale_single_le {x : Single} (hfinite : x.IsFinite) :
    -149 ≤ x.scale ∧ x.scale ≤ 104 := by
  have hexponent := x.exponent.isLt
  have htop : FloatFormat.single.topExponent = 255 := rfl
  have hbits : 2 ^ FloatFormat.single.exponentBits = 256 := rfl
  have hleast : FloatFormat.single.minScale = -149 := rfl
  rw [IsFinite, htop] at hfinite
  rw [hbits] at hexponent
  rw [scale, hleast]
  omega

/-- A 64-bit float has room for the significand and the scale of every 32-bit one. -/
theorem roundingStep_single_le {x : Single} (hfinite : x.IsFinite) :
    roundingStep .double x.significand x.scale ≤ x.scale := by
  have hlog : x.significand.log2 < 24 := log2_lt_of_lt (by decide) x.significand_lt
  have hscale := scale_single_le hfinite
  have hwidth : (FloatFormat.double.fractionBits : ℤ) = 52 := rfl
  have hleast : FloatFormat.double.minScale = -1074 := rfl
  rw [roundingStep, hwidth, hleast]
  omega

theorem toDouble_of_isFinite {x : Single} (hfinite : x.IsFinite) :
    x.toDouble.IsFinite ∧ x.toDouble.value = x.value := by
  have hnumber := isNaN_of_isFinite hfinite
  have hbounded : x.isInfinite = false := by
    rw [← Bool.not_eq_true]
    exact fun hinfinite => not_isFinite_of_isInfinite hinfinite hfinite
  have hconvert : x.toDouble = ofScaled x.negative x.significand x.scale := by
    simp only [toDouble, hnumber, hbounded, Bool.false_eq_true, if_false]
  have hstep := roundingStep_single_le hfinite
  have hroom : (ofScaled x.negative x.significand x.scale : Double).IsFinite := by
    apply isFinite_ofScaled
    have hscale := scale_single_le hfinite
    have htop : (FloatFormat.double.topExponent : ℤ) = 2047 := rfl
    have hleast : FloatFormat.double.minScale = -1074 := rfl
    rw [htop, hleast]
    omega
  obtain ⟨k, hk⟩ := exists_multiple_of_le x.negative hstep
  rw [hconvert]
  exact ⟨hroom, value_ofScaled_of_multiple hroom hk⟩

theorem toDouble_of_isInfinite {x : Single} (hinfinite : x.isInfinite = true) :
    x.toDouble = infinity x.negative := by
  simp only [toDouble, isNaN_of_isInfinite hinfinite, hinfinite, Bool.false_eq_true, if_false,
    if_true]

theorem isInfinite_infinity (negative : Bool) : (infinity negative : Double).isInfinite = true := by
  cases negative <;> rfl

theorem isNaN_toDouble {x : Single} (hnan : x.isNaN = true) : x.toDouble.isNaN = true := by
  have hquiet : (x.fraction.toNat <<< 29 ||| 1 <<< 51) % 2 ^ 52 ≠ 0 := by
    intro hzero
    have hbit : ((x.fraction.toNat <<< 29 ||| 1 <<< 51) % 2 ^ 52).testBit 51 = true := by
      rw [Nat.testBit_mod_two_pow, Nat.testBit_or, Nat.one_shiftLeft, Nat.testBit_two_pow_self]
      simp
    rw [hzero, Nat.zero_testBit] at hbit
    contradiction
  have hexponent : (BitVec.allOnes FloatFormat.double.exponentBits).toNat =
      FloatFormat.double.topExponent := rfl
  rw [toDouble, if_pos hnan]
  simp only [isNaN, hexponent, BitVec.toNat_ofNat, beq_self_eq_true, Bool.true_and, bne_iff_ne]
  exact hquiet

theorem isFinite_toDouble_iff (x : Single) : x.toDouble.IsFinite ↔ x.IsFinite := by
  rcases x.isFinite_or_isInfinite_or_isNaN with hfinite | hinfinite | hnan
  · exact iff_of_true (toDouble_of_isFinite hfinite).1 hfinite
  · rw [toDouble_of_isInfinite hinfinite]
    exact iff_of_false (not_isFinite_infinity _) (not_isFinite_of_isInfinite hinfinite)
  · exact iff_of_false (not_isFinite_of_isNaN (isNaN_toDouble hnan)) (not_isFinite_of_isNaN hnan)

theorem isInfinite_toDouble_iff (x : Single) :
    x.toDouble.isInfinite = true ↔ x.isInfinite = true := by
  rcases x.isFinite_or_isInfinite_or_isNaN with hfinite | hinfinite | hnan
  · have hdouble := (toDouble_of_isFinite hfinite).1
    exact iff_of_false (fun h => not_isFinite_of_isInfinite h hdouble)
      fun h => not_isFinite_of_isInfinite h hfinite
  · rw [toDouble_of_isInfinite hinfinite]
    exact iff_of_true (isInfinite_infinity _) hinfinite
  · exact iff_of_false (not_isInfinite_of_isNaN (isNaN_toDouble hnan))
      (not_isInfinite_of_isNaN hnan)

theorem sameNumber_toDouble_iff (x y : Single) :
    x.toDouble.SameNumber y.toDouble ↔ x.SameNumber y := by
  constructor
  · rintro (⟨hx, hy, hvalue⟩ | ⟨hx, hy, hsign⟩)
    · rw [isFinite_toDouble_iff] at hx hy
      rw [(toDouble_of_isFinite hx).2, (toDouble_of_isFinite hy).2] at hvalue
      exact .finite hx hy hvalue
    · rw [isInfinite_toDouble_iff] at hx hy
      rw [toDouble_of_isInfinite hx, toDouble_of_isInfinite hy] at hsign
      exact .infinite hx hy hsign
  · rintro (⟨hx, hy, hvalue⟩ | ⟨hx, hy, hsign⟩)
    · obtain ⟨hxfinite, hxvalue⟩ := toDouble_of_isFinite hx
      obtain ⟨hyfinite, hyvalue⟩ := toDouble_of_isFinite hy
      exact .finite hxfinite hyfinite (by rw [hxvalue, hyvalue, hvalue])
    · rw [toDouble_of_isInfinite hx, toDouble_of_isInfinite hy, hsign]
      exact .infinite (isInfinite_infinity _) (isInfinite_infinity _) rfl

end Binary

/-! ## Widened values -/

namespace Value

/-- What a value of each kind widens to. -/
inductive Widening : Value → Kind → Value → Prop where
  | shortToLong (n : Int32) : Widening (.int32 n) .int64 (.int64 n.toInt64)
  | shortToFloat (n : Int32) : Widening (.int32 n) .float64 (.float64 (.ofInt n.toInt))
  | longToFloat (n : Int64) : Widening (.int64 n) .float64 (.float64 (.ofInt n.toInt))
  | singleToFloat (x : Single) : Widening (.float32 x) .float64 (.float64 x.toDouble)
  | charToShort (c : Char) : Widening (.char c) .int32 (.int32 (.ofNat c.toNat))
  | charToLong (c : Char) : Widening (.char c) .int64 (.int64 (.ofNat c.toNat))

variable {a b v w wa wb : Value} {wanted : Kind}

theorem widening_of_widened? (hwidened : v.widened? wanted = some w) : Widening v wanted w := by
  cases v <;> cases wanted <;> cases hwidened <;> constructor

/-- Two long integers that become the same 64-bit float. -/
def RoundsAlike (wanted : Kind) (a b : Value) : Prop :=
  ∃ n m : Int64, wanted = .float64 ∧ a = .int64 n ∧ b = .int64 m ∧
    Binary.ShareNearest n.toInt m.toInt

theorem not_roundsAlike (ha : a.kind ≠ .int64) : ¬RoundsAlike wanted a b := by
  rintro ⟨n, m, -, rfl, -⟩
  exact ha rfl

/-- Code points are far below the sign bit. -/
theorem code_lt (c : Char) : c.toNat < 2 ^ 31 := by
  have hvalid := c.valid
  simp only [UInt32.isValidChar, Nat.isValidChar] at hvalid
  change c.val.toNat < 2 ^ 31
  omega

theorem long_of_short_inj {n m : Int32} : n.toInt64 = m.toInt64 ↔ n = m := by
  rw [← Int64.toInt_inj, Int32.toInt_toInt64, Int32.toInt_toInt64, Int32.toInt_inj]

theorem short_of_code_inj {c d : Char} :
    Int32.ofNat c.toNat = Int32.ofNat d.toNat ↔ c = d := by
  rw [← Int32.toInt_inj, Int32.toInt_ofNat_of_lt (code_lt c), Int32.toInt_ofNat_of_lt (code_lt d),
    Int.natCast_inj, Char.toNat_inj]

theorem long_of_code_inj {c d : Char} :
    Int64.ofNat c.toNat = Int64.ofNat d.toNat ↔ c = d := by
  have hc := code_lt c
  have hd := code_lt d
  rw [← Int64.toInt_inj, Int64.toInt_ofNat_of_lt (by omega), Int64.toInt_ofNat_of_lt (by omega),
    Int.natCast_inj, Char.toNat_inj]

theorem natAbs_long_lt (n : Int64) : n.toInt.natAbs < 2 ^ 64 := by
  have hlow := n.le_toInt
  have hhigh := n.toInt_lt
  omega

theorem natAbs_short_le (n : Int32) : n.toInt.natAbs ≤ 2 ^ 53 := by
  have hlow := n.le_toInt
  have hhigh := n.toInt_lt
  omega

theorem sameNumber_of_short_iff {n m : Int32} :
    (Binary.ofInt n.toInt : Double).SameNumber (.ofInt m.toInt) ↔ n = m := by
  have hn := natAbs_short_le n
  have hm := natAbs_short_le m
  rw [Binary.sameNumber_iff_value_eq (Binary.isFinite_ofInt (by omega))
    (Binary.isFinite_ofInt (by omega)), Binary.value_ofInt_of_le hn, Binary.value_ofInt_of_le hm,
    Int.cast_inj, Int32.toInt_inj]

theorem long_floats_alike_iff (n m : Int64) :
    (Value.float64 (.ofInt n.toInt)).Alike (.float64 (.ofInt m.toInt)) ↔
      (Value.int64 n).Alike (.int64 m) ∨ RoundsAlike .float64 (.int64 n) (.int64 m) := by
  have hshare : (Value.float64 (.ofInt n.toInt)).Alike (.float64 (.ofInt m.toInt)) ↔
      Binary.ShareNearest n.toInt m.toInt :=
    Binary.sameNumber_ofInt_iff (natAbs_long_lt n) (natAbs_long_lt m)
  rw [hshare]
  constructor
  · exact fun h => .inr ⟨n, m, rfl, rfl, rfl, h⟩
  · rintro (hsame | ⟨n', m', -, ⟨⟩, ⟨⟩, h⟩)
    · obtain rfl : n = m := Value.int64.inj hsame
      have hnearest := Binary.isNearest_ofInt (natAbs_long_lt n)
      exact ⟨_, hnearest, hnearest⟩
    · exact h

/-- Widened values agree as the values do, but for long integers that share their nearest float. -/
theorem Widening.alike_iff (ha : Widening a wanted wa) (hb : Widening b wanted wb)
    (hkind : a.kind = b.kind) : wa.Alike wb ↔ a.Alike b ∨ RoundsAlike wanted a b := by
  by_cases hlong : a.kind = .int64
  · cases ha with
    | longToFloat n =>
        cases hb with
        | shortToFloat | singleToFloat => contradiction
        | longToFloat m => exact long_floats_alike_iff n m
    | shortToLong | shortToFloat | singleToFloat | charToShort | charToLong => contradiction
  · rw [or_iff_left (not_roundsAlike hlong)]
    cases ha with
    | longToFloat => exact absurd rfl hlong
    | shortToLong n =>
        cases hb with
        | charToLong => contradiction
        | shortToLong m => simpa [Alike] using long_of_short_inj
    | shortToFloat n =>
        cases hb with
        | longToFloat | singleToFloat => contradiction
        | shortToFloat m => simpa [Alike] using sameNumber_of_short_iff
    | singleToFloat x =>
        cases hb with
        | longToFloat | shortToFloat => contradiction
        | singleToFloat y => exact Binary.sameNumber_toDouble_iff x y
    | charToShort c =>
        cases hb with
        | charToShort d => simpa [Alike] using short_of_code_inj
    | charToLong c =>
        cases hb with
        | shortToLong => contradiction
        | charToLong d => simpa [Alike] using long_of_code_inj

theorem Widening.storage?_eq_none (h : Widening v wanted w) :
    v.storage? = none ∧ w.storage? = none := by
  cases h <;> exact ⟨rfl, rfl⟩

theorem admits_of_widensTo {elem : ElementType}
    (hwidens : v.kind.widensTo (.ofElement elem) = true) : elem.admits v = false := by
  cases v <;> cases elem <;> first | rfl | contradiction

theorem stored?_of_widensTo {elem : ElementType}
    (hwidens : v.kind.widensTo (.ofElement elem) = true) :
    v.stored? elem = v.widened? (.ofElement elem) :=
  stored?_of_not_admits (admits_of_widensTo hwidens)

end Value

namespace Heap

variable {h : Heap} {a b v w wa wb : Value} {wanted : Kind}

theorem equal_of_scalars (ha : a.storage? = none) (hb : b.storage? = none) :
    h.equal a b = a.sameScalar b := by
  rw [equal, compare, compareAll_of_scalars [] ha hb]
  cases a.sameScalar b with
  | false => rfl
  | true => simp [compareAll]

theorem widen_of_widened? (hwidened : v.widened? wanted = some w) : h.widen v wanted = .ok w := by
  simp only [widen, hwidened]

theorem exists_widening (h : Heap) (hwidens : v.kind.widensTo wanted = true) :
    ∃ w, v.widened? wanted = some w ∧ Value.Widening v wanted w ∧ h.widen v wanted = .ok w := by
  rw [← v.isSome_widened?] at hwidens
  obtain ⟨w, hw⟩ := Option.isSome_iff_exists.mp hwidens
  exact ⟨w, hw, Value.widening_of_widened? hw, widen_of_widened? hw⟩

theorem equal_widened_iff (hkind : a.kind = b.kind) (hwidens : a.kind.widensTo wanted = true)
    (ha : h.widen a wanted = .ok wa) (hb : h.widen b wanted = .ok wb) :
    h.equal wa wb = true ↔ h.equal a b = true ∨ Value.RoundsAlike wanted a b := by
  obtain ⟨wa', -, hwa, ha'⟩ := h.exists_widening hwidens
  obtain ⟨wb', -, hwb, hb'⟩ := h.exists_widening (hkind ▸ hwidens)
  cases ha'.symm.trans ha
  cases hb'.symm.trans hb
  obtain ⟨hascalar, hwascalar⟩ := hwa.storage?_eq_none
  obtain ⟨hbscalar, hwbscalar⟩ := hwb.storage?_eq_none
  rw [equal_of_scalars hascalar hbscalar, equal_of_scalars hwascalar hwbscalar,
    Value.sameScalar_eq_true_iff, Value.sameScalar_eq_true_iff]
  exact hwa.alike_iff hwb hkind

end Heap

namespace InlineCache

variable {site : CallSite} {h : Heap} {s : StorageId} {index v : Value} {i : Int64}

/-- A value of a narrower kind that a call wrote into an array is read back widened. -/
theorem Sourced.read_of_widened_write {cache : InlineCache} (hsourced : cache.Sourced)
    (hname : cache.site.name = "set") (hindex : index.index? = some i)
    (hwidens : v.kind.widensTo (.ofElement (h.storage s).elem) = true) {answer : Value}
    (hanswer : (cache.call [.array s, index, v] h).answer = .ok answer) :
    ∃ w, h.widen v (.ofElement (h.storage s).elem) = .ok w ∧
      ∀ read, ElementRead (h.storage s).elem s i read →
        read (cache.call [.array s, index, v] h).heap = .ok w := by
  obtain ⟨index', given, i', w, hrest, hindex', hstored, hwrite⟩ :=
    hsourced.writesSlot_of_set hname hanswer
  cases hrest
  cases hindex'.symm.trans hindex
  rw [Value.stored?_of_widensTo hwidens] at hstored
  refine ⟨w, Heap.widen_of_widened? hstored, fun read hread => ?_⟩
  rw [hread.eq_listElement hwrite.elem_eq, hwrite.listElement_eq, if_pos rfl]

theorem widened_write_succeeds_iff (hname : site.name = "set")
    (hsignature : site.signature = .dynamic 3) (limit : RelinkLimit) (objects : Option Resolver)
    (history : List Call) (hindex : index.index? = some i)
    (hwidens : v.kind.widensTo (.ofElement (h.storage s).elem) = true) :
    (∃ answer, (((fresh site limit objects).after history).call [.array s, index, v] h).answer =
      .ok answer) ↔ 0 ≤ i.toInt ∧ i.toInt < (h.items s).length := by
  have hsite : site.CallsDynamically .set :=
    ⟨by simp [hname, ArrayOperation.names], hsignature, by simp [ArrayOperation.owner?]⟩
  have hcount : [index, v].length = ArrayOperation.set.arity := rfl
  have houtcome := outcome_after_of_dynamic hsite limit objects history s hcount h
  have hsucceeds := ArrayOperation.callDynamic_set_succeeds_iff (h := h) (s := s) (v := v) hindex
  rw [Value.stored?_of_widensTo hwidens, v.isSome_widened?, hwidens] at hsucceeds
  constructor
  · rintro ⟨answer, hanswer⟩
    have hreturned := (congrArg Prod.fst houtcome).symm.trans hanswer
    exact (hsucceeds.mp ⟨answer, _, Prod.ext hreturned rfl⟩).2
  · intro hrange
    obtain ⟨r, after, hcall⟩ := hsucceeds.mpr ⟨rfl, hrange⟩
    exact ⟨r, congrArg Prod.fst (houtcome.trans hcall)⟩

/-- Every value of a kind that widens does widen.  The results of two values are equal exactly when
the values are, or when they are long integers to which one 64-bit float is nearest, and integers up
to `2 ^ 53` have no other such integer among them.  What a call writes into an array of the wider
elements is read back as what it widens to, in whatever way. -/
theorem widening_merges_rounded_integers_only (h : Heap) {source wanted : Kind}
    (hwidens : source.widensTo wanted = true) :
    (∀ v : Value, v.kind = source → ∃ w, h.widen v wanted = .ok w ∧ w.kind = wanted) ∧
    (∀ a b wa wb : Value, a.kind = source → b.kind = source → h.widen a wanted = .ok wa →
      h.widen b wanted = .ok wb →
      (h.equal wa wb = true ↔ h.equal a b = true ∨ Value.RoundsAlike wanted a b)) ∧
    (∀ n m : Int64, n.toInt.natAbs < 2 ^ 53 →
      Value.RoundsAlike wanted (.int64 n) (.int64 m) → n = m) ∧
    ∀ (site : CallSite) (limit : RelinkLimit) (objects : Option Resolver) (history : List Call)
      (s : StorageId) (index v : Value) (i : Int64), site.name = "set" →
      index.index? = some i → v.kind = source → .ofElement (h.storage s).elem = wanted →
      let reply := ((fresh site limit objects).after history).call [.array s, index, v] h
      (site.signature = .dynamic 3 → ((∃ answer, reply.answer = .ok answer) ↔
        0 ≤ i.toInt ∧ i.toInt < (h.items s).length)) ∧
      ∀ answer, reply.answer = .ok answer → ∃ w, h.widen v wanted = .ok w ∧
        ∀ read, ElementRead (h.storage s).elem s i read → read reply.heap = .ok w := by
  refine ⟨?_, ?_, ?_, ?_⟩
  · rintro v rfl
    obtain ⟨w, -, -, hwiden⟩ := h.exists_widening hwidens
    exact ⟨w, hwiden, Heap.kind_of_widen hwiden⟩
  · rintro a b wa wb rfl hb hwa hwb
    exact Heap.equal_widened_iff hb.symm hwidens hwa hwb
  · rintro n m hn ⟨n', m', -, ⟨⟩, ⟨⟩, hshare⟩
    exact Int64.toInt_inj.mp (hshare.eq_of_lt hn)
  · rintro site limit objects history s index v i hname hindex rfl rfl reply
    have hsourced := sourced_after_fresh site limit objects history
    have hsite := ((fresh site limit objects).sameSettings_after history).site_eq
    constructor
    · intro hsignature
      exact widened_write_succeeds_iff hname hsignature limit objects history hindex hwidens
    · intro answer hanswer
      exact hsourced.read_of_widened_write ((congrArg CallSite.name hsite).trans hname) hindex
        hwidens hanswer

/-- A long integer is written into an array of 64-bit floats through a cache that wrote a short one
before; the float that is read back is not the one of the next integer. -/
theorem widening_keeps_seven :
    let h := Heap.empty.allocate ⟨.float64, [.float64 (.ofInt 0)], by decide⟩
    let history : List Call := [⟨[.array ⟨0⟩, .int64 0, .int32 5], h⟩]
    let reply := ((fresh (.dynamic "set" 2) ⟨some 0⟩ none).after history).call
      [.array ⟨0⟩, .char (.ofNat 0), .int64 7] h
    Kind.int64.widensTo .float64 = true ∧ reply.answer = .ok .nothing ∧
      reply.heap.listElement ⟨0⟩ 0 = .ok (.float64 (.ofInt 7)) ∧
      h.equal (.float64 (.ofInt 7)) (.float64 (.ofInt 8)) = false := by
  intro h history reply
  have hwidens : Kind.int64.widensTo .float64 = true := rfl
  obtain ⟨-, hequal, hsmall, hwrite⟩ := widening_merges_rounded_integers_only h hwidens
  obtain ⟨hsucceeds, hread⟩ := hwrite (.dynamic "set" 2) ⟨some 0⟩ none history ⟨0⟩
    (.char (.ofNat 0)) (.int64 7) 0 rfl rfl rfl rfl
  have hanswer : reply.answer = .ok .nothing := by rfl
  obtain ⟨w, hwiden, hreads⟩ := hread _ hanswer
  cases hwiden
  have hseven := hequal (.int64 7) (.int64 8) _ _ rfl rfl rfl rfl
  have hdiffer : h.equal (.float64 (.ofInt 7)) (.float64 (.ofInt 8)) = false := by
    rw [← Bool.not_eq_true]
    intro hsame
    rcases hseven.mp hsame with hequal | hshare
    · rw [Heap.equal_of_scalars rfl rfl] at hequal
      contradiction
    · exact absurd (hsmall 7 8 (by decide) hshare) (by decide)
  exact ⟨hwidens, hanswer, hreads _ .listView, hdiffer⟩

/-- From `2 ^ 53` on a widening is not lossless: two integers that differ become one float, and what
was written with either is read back as it. -/
theorem widening_merges_two_long_integers :
    let n : Value := .int64 9007199254740992
    let m : Value := .int64 9007199254740993
    let w : Value := .float64 (.ofInt 9007199254740992)
    let h := Heap.empty.allocate ⟨.float64, [.float64 (.ofInt 0)], by decide⟩
    let write := fun v =>
      (fresh (.dynamic "set" 2) .unbounded none).call [.array ⟨0⟩, .int64 0, v] h
    n.kind.widensTo w.kind = true ∧ m.kind = n.kind ∧ n.isNaN = false ∧ m.isNaN = false ∧
      h.widen n w.kind = .ok w ∧ h.widen m w.kind = .ok w ∧ h.equal w w = true ∧
      h.equal n m = false ∧ (write n).answer = .ok .nothing ∧ (write m).answer = .ok .nothing ∧
      (write n).heap.listElement ⟨0⟩ 0 = .ok w ∧ (write m).heap.listElement ⟨0⟩ 0 = .ok w := by
  intro n m w h write
  have hround : Value.float64 (.ofInt (9007199254740993 : Int64).toInt) = w := by decide
  have hwiden : h.widen m w.kind = .ok w := by
    rw [← hround]
    rfl
  have hread : (write m).heap.listElement ⟨0⟩ 0 = .ok w := by
    rw [← hround]
    rfl
  have hself : h.equal w w = true := by
    rw [Heap.equal_of_scalars rfl rfl]
    decide
  have hdiffer : h.equal n m = false := by
    rw [Heap.equal_of_scalars rfl rfl]
    decide
  exact ⟨rfl, rfl, rfl, rfl, rfl, hwiden, hself, hdiffer, rfl, rfl, rfl, hread⟩

end InlineCache

end LateBinding

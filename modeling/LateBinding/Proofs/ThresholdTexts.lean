import LateBinding.Dispatch.Settings
import Mathlib.Data.List.Induction
import Mathlib.Data.List.TakeWhile
import Mathlib.Data.Nat.Digits.Defs

/-!
# Threshold texts

Which values of the environment variable give a threshold, and which one.  Blank surroundings and
decimal numerals are described without the functions that read them: by what stands around a text,
and by the digits that it is written with.
-/

namespace LateBinding

/-! ## Blank surroundings -/

namespace Text

/-- `w` is what is left of `cs` when blanks are taken away from both ends. -/
structure TrimsTo (cs w : List Char) : Prop where
  split : ∃ before after : List Char, cs = before ++ w ++ after ∧
    (∀ c ∈ before, isBlank c = true) ∧ ∀ c ∈ after, isBlank c = true
  head : ∀ c ∈ w.head?, isBlank c = false
  last : ∀ c ∈ w.getLast?, isBlank c = false

theorem dropWhile_isBlank_of_head {cs : List Char} (h : ∀ c ∈ cs.head?, isBlank c = false) :
    cs.dropWhile isBlank = cs := by
  cases cs with
  | nil => rfl
  | cons c cs => simp [h c rfl]

theorem isBlank_of_mem_head?_dropWhile {cs : List Char} {c : Char}
    (hc : c ∈ (cs.dropWhile isBlank).head?) : isBlank c = false := by
  have hhead := List.head?_dropWhile_not isBlank cs
  rw [Option.mem_def.mp hc] at hhead
  exact hhead

theorem TrimsTo.trimBlanks_eq {cs w : List Char} (h : TrimsTo cs w) : trimBlanks cs = w := by
  obtain ⟨before, after, rfl, hbefore, hafter⟩ := h.split
  have hfront : (before ++ w ++ after).dropWhile isBlank = (w ++ after).dropWhile isBlank := by
    rw [List.append_assoc, List.dropWhile_append_of_pos hbefore]
  have hreverse : ∀ c ∈ after.reverse, isBlank c = true := fun c hc =>
    hafter c (List.mem_reverse.mp hc)
  have hback : w.reverse.dropWhile isBlank = w.reverse :=
    dropWhile_isBlank_of_head (by simpa using h.last)
  unfold trimBlanks
  rw [hfront]
  cases w with
  | nil => simp [List.dropWhile_eq_nil_iff.mpr hafter]
  | cons c w =>
      have hkept : (c :: w ++ after).dropWhile isBlank = c :: w ++ after :=
        dropWhile_isBlank_of_head (by simpa using h.head)
      rw [hkept, List.reverse_append, List.dropWhile_append_of_pos hreverse, hback,
        List.reverse_reverse]

theorem trimsTo_trimBlanks (cs : List Char) : TrimsTo cs (trimBlanks cs) := by
  have hrest : cs.dropWhile isBlank = trimBlanks cs ++
      ((cs.dropWhile isBlank).reverse.takeWhile isBlank).reverse := by
    rw [trimBlanks, ← List.reverse_append, List.takeWhile_append_dropWhile,
      List.reverse_reverse]
  constructor
  · refine ⟨cs.takeWhile isBlank, ((cs.dropWhile isBlank).reverse.takeWhile isBlank).reverse, ?_,
      fun c => List.mem_takeWhile_imp, fun c hc => ?_⟩
    · rw [List.append_assoc, ← hrest, List.takeWhile_append_dropWhile]
    · exact List.mem_takeWhile_imp (List.mem_reverse.mp hc)
  · intro c hc
    have hfirst : c ∈ (cs.dropWhile isBlank).head? := by
      rw [hrest, List.head?_append, Option.mem_def.mp hc]
      rfl
    exact isBlank_of_mem_head?_dropWhile hfirst
  · intro c hc
    rw [trimBlanks, List.getLast?_reverse] at hc
    exact isBlank_of_mem_head?_dropWhile hc

theorem trimsTo_iff {cs w : List Char} : TrimsTo cs w ↔ w = trimBlanks cs := by
  constructor
  · exact fun h => h.trimBlanks_eq.symm
  · rintro rfl
    exact trimsTo_trimBlanks cs

end Text

/-! ## Decimal numerals -/

/-- The text of decimal digits. -/
def digitText (digits : List (Fin 10)) : List Char :=
  digits.map fun d => Nat.digitChar d.val

/-- The number that decimal digits say, the most significant of them first. -/
def digitValue (digits : List (Fin 10)) : Nat :=
  Nat.ofDigits 10 (digits.reverse.map Fin.val)

/-- `w` is a decimal numeral of `n`: digits, at least one, after an optional plus sign. -/
def Numeral (w : List Char) (n : Nat) : Prop :=
  ∃ digits : List (Fin 10), digits ≠ [] ∧
    (w = digitText digits ∨ w = '+' :: digitText digits) ∧ n = digitValue digits

theorem isDigit_of_mem_digitText {digits : List (Fin 10)} {c : Char}
    (hc : c ∈ digitText digits) : c.isDigit = true := by
  obtain ⟨d, -, rfl⟩ := List.mem_map.mp hc
  simp [Nat.isDigit_digitChar, d.isLt]

theorem exists_digitChar {c : Char} (hc : c.isDigit = true) :
    ∃ d : Fin 10, Nat.digitChar d = c := by
  obtain ⟨hlow, hhigh⟩ : 48 ≤ c.toNat ∧ c.toNat ≤ 57 := by
    simpa [Char.isDigit, UInt32.le_iff_toNat_le] using hc
  refine ⟨⟨c.toNat - 48, by omega⟩, Char.toNat_inj.mp ?_⟩
  rw [Nat.toNat_digitChar_of_lt_ten (by simp only; omega)]
  simp only
  omega

theorem exists_digitText {cs : List Char} (h : ∀ c ∈ cs, c.isDigit = true) :
    ∃ digits, cs = digitText digits := by
  induction cs with
  | nil => exact ⟨[], rfl⟩
  | cons c cs ih =>
      obtain ⟨d, hd⟩ := exists_digitChar (h c List.mem_cons_self)
      obtain ⟨digits, rfl⟩ := ih fun c hc => h c (List.mem_cons_of_mem _ hc)
      exact ⟨d :: digits, by rw [← hd]; rfl⟩

namespace DispatchSettings

/-- The reader takes the digits from the left, their value is defined from the right: the induction
takes off the last digit. -/
theorem decimalValue_digitText (digits : List (Fin 10)) :
    decimalValue (digitText digits) = digitValue digits := by
  induction digits using List.reverseRecOn with
  | nil => rfl
  | append_singleton digits d ih =>
      have hread : decimalValue (digitText (digits ++ [d])) =
          10 * decimalValue (digitText digits) + ((Nat.digitChar d).toNat - '0'.toNat) := by
        simp only [decimalValue, digitText, List.map_append, List.map_cons, List.map_nil,
          List.foldl_append, List.foldl_cons, List.foldl_nil]
      have hdigit : (Nat.digitChar d).toNat = 48 + d := Nat.toNat_digitChar_of_lt_ten d.isLt
      have hvalue : digitValue (digits ++ [d]) = d + 10 * digitValue digits := by
        rw [digitValue, List.reverse_concat, List.map_cons, Nat.ofDigits_cons]
        rfl
      have hzero : '0'.toNat = 48 := rfl
      rw [hread, hdigit, ih, hvalue, hzero]
      omega

/-- The reader of words: the range of the result stands for the bound of the test. -/
theorem word?_eq_some_iff {w : List Char} {n : UInt64} :
    word? w = some n ↔ ∃ cs, (w = cs ∨ w = '+' :: cs) ∧ cs ≠ [] ∧
      cs.all Char.isDigit = true ∧ decimalValue cs = n.toNat := by
  have hread (cs : List Char) :
      (if cs ≠ [] ∧ cs.all Char.isDigit ∧ decimalValue cs < UInt64.size then
        some (UInt64.ofNat (decimalValue cs)) else none) = some n ↔
      cs ≠ [] ∧ cs.all Char.isDigit = true ∧ decimalValue cs = n.toNat := by
    constructor
    · intro h
      obtain ⟨⟨hne, hdigits, hlt⟩, hn⟩ := Option.ite_none_right_eq_some.mp h
      refine ⟨hne, hdigits, ?_⟩
      rw [← Option.some.inj hn, UInt64.toNat_ofNat_of_lt' hlt]
    · rintro ⟨hne, hdigits, hvalue⟩
      rw [if_pos ⟨hne, hdigits, hvalue ▸ n.toNat_lt⟩, hvalue, UInt64.ofNat_toNat]
  unfold word?
  split
  · rename_i rest
    simp only [hread]
    constructor
    · exact fun h => ⟨rest, .inr rfl, h⟩
    · rintro ⟨cs, rfl | hcs, hne, hdigits, hvalue⟩
      · simp at hdigits
      · obtain rfl := List.tail_eq_of_cons_eq hcs
        exact ⟨hne, hdigits, hvalue⟩
  · rename_i hplus
    simp only [hread]
    constructor
    · exact fun h => ⟨w, .inl rfl, h⟩
    · rintro ⟨cs, rfl | rfl, h⟩
      · exact h
      · exact absurd rfl (hplus cs)

theorem word?_eq_some_iff_numeral {w : List Char} {n : UInt64} :
    word? w = some n ↔ Numeral w n.toNat := by
  rw [word?_eq_some_iff]
  constructor
  · rintro ⟨cs, hw, hne, hdigits, hvalue⟩
    obtain ⟨digits, rfl⟩ := exists_digitText (List.all_eq_true.mp hdigits)
    refine ⟨digits, ?_, hw, ?_⟩
    · rintro rfl
      exact hne rfl
    · rw [← hvalue, decimalValue_digitText]
  · rintro ⟨digits, hne, hw, hvalue⟩
    refine ⟨digitText digits, hw, ?_, ?_, ?_⟩
    · simpa [digitText] using hne
    · exact List.all_eq_true.mpr fun c => isDigit_of_mem_digitText
    · rw [decimalValue_digitText, hvalue]

theorem word?_eq_none_iff {w : List Char} :
    word? w = none ↔ ∀ n, Numeral w n → UInt64.size ≤ n := by
  constructor
  · intro h n hn
    by_contra hlt
    have hread : word? w = some (.ofNat n) := word?_eq_some_iff_numeral.mpr (by
      rwa [UInt64.toNat_ofNat_of_lt' (Nat.lt_of_not_le hlt)])
    rw [h] at hread
    cases hread
  · intro h
    cases hread : word? w with
    | none => rfl
    | some n => exact absurd (h n.toNat (word?_eq_some_iff_numeral.mp hread)) (by
        have := n.toNat_lt_size
        omega)

end DispatchSettings

/-! ## The decimal text of a number -/

theorem numeral_toString (n : Nat) : Numeral (toString n).toList n := by
  have hdigits : ∀ c ∈ Nat.toDigits 10 n, c.isDigit = true := fun c =>
    Nat.isDigit_of_mem_toDigits (by decide) (by decide)
  obtain ⟨digits, htext⟩ := exists_digitText hdigits
  rw [Nat.toString_eq_ofList_toDigits, String.toList_ofList]
  refine ⟨digits, ?_, .inl htext, ?_⟩
  · rintro rfl
    exact Nat.toDigits_ne_nil htext
  · rw [← DispatchSettings.decimalValue_digitText, ← htext]
    exact Nat.ofDigitChars_ten_toDigits.symm

theorem isBlank_of_isDigit {c : Char} (hc : c.isDigit = true) : Text.isBlank c = false := by
  obtain ⟨d, rfl⟩ := exists_digitChar hc
  revert d
  decide

/-- The decimal text of a number has no blanks at its ends, so only what surrounds it is taken
away. -/
theorem trimsTo_toString (n : Nat) {before after : List Char}
    (hbefore : ∀ c ∈ before, Text.isBlank c = true) (hafter : ∀ c ∈ after, Text.isBlank c = true) :
    Text.TrimsTo (before ++ (toString n).toList ++ after) (toString n).toList := by
  have hdigit : ∀ c ∈ (toString n).toList, Text.isBlank c = false := by
    intro c hc
    rw [Nat.toString_eq_ofList_toDigits, String.toList_ofList] at hc
    exact isBlank_of_isDigit (Nat.isDigit_of_mem_toDigits (by decide) (by decide) hc)
  refine ⟨⟨before, after, rfl, hbefore, hafter⟩, fun c hc => ?_, fun c hc => ?_⟩
  · exact hdigit c (List.mem_of_mem_head? hc)
  · exact hdigit c (List.mem_of_mem_getLast? hc)

/-! ## The value of the variable -/

namespace DispatchSettings

section Trimmed

variable {text : String} {w : List Char}

/-- A value is blank, or its trimmed text is a word, or that text is refused. -/
theorem ofEnvironment_cases (h : Text.TrimsTo text.toList w) :
    (w = [] ∧ ofEnvironment (some text) = .ok standard) ∨
    (∃ n, word? w = some n ∧ ofEnvironment (some text) = .ok ⟨some n⟩) ∨
    (w ≠ [] ∧ word? w = none ∧
      ofEnvironment (some text) = .error (.invalidThreshold (String.ofList w))) := by
  by_cases hw : w = []
  · exact .inl ⟨hw, by simp only [ofEnvironment, h.trimBlanks_eq, if_pos hw]⟩
  · cases hread : word? w with
    | some n =>
        exact .inr (.inl ⟨n, rfl, by simp only [ofEnvironment, h.trimBlanks_eq, if_neg hw, hread]⟩)
    | none =>
        exact .inr (.inr ⟨hw, rfl, by
          simp only [ofEnvironment, h.trimBlanks_eq, if_neg hw, hread]⟩)

theorem word?_nil : word? [] = none :=
  rfl

theorem ofEnvironment_eq_ok_none_iff (h : Text.TrimsTo text.toList w) :
    ofEnvironment (some text) = .ok ⟨none⟩ ↔ w = [] := by
  rcases ofEnvironment_cases h with ⟨hw, hresult⟩ | ⟨n, hread, hresult⟩ | ⟨hw, -, hresult⟩
  · simp [hresult, hw, standard]
  · have hw : w ≠ [] := by
      rintro rfl
      simp [word?_nil] at hread
    simp [hresult, hw]
  · simp [hresult, hw]

theorem ofEnvironment_eq_ok_some_iff (h : Text.TrimsTo text.toList w) (n : UInt64) :
    ofEnvironment (some text) = .ok ⟨some n⟩ ↔ Numeral w n.toNat := by
  rw [← word?_eq_some_iff_numeral]
  rcases ofEnvironment_cases h with ⟨rfl, hresult⟩ | ⟨m, hread, hresult⟩ | ⟨-, hread, hresult⟩
  · simp [hresult, word?_nil, standard]
  · simp [hresult, hread]
  · simp [hresult, hread]

theorem ofEnvironment_eq_error_iff (h : Text.TrimsTo text.toList w) (fault : SettingsFault) :
    ofEnvironment (some text) = .error fault ↔
      fault = .invalidThreshold (String.ofList w) ∧ w ≠ [] ∧
        ∀ n, Numeral w n → UInt64.size ≤ n := by
  rw [← word?_eq_none_iff]
  rcases ofEnvironment_cases h with ⟨hw, hresult⟩ | ⟨n, hread, hresult⟩ | ⟨hw, hread, hresult⟩
  · simp [hresult, hw]
  · simp [hresult, hread]
  · simp [hresult, hw, hread, eq_comm]

end Trimmed

/-- The variable holds a threshold exactly when, without the blanks around it, it is a decimal
numeral below `2 ^ 64`; a blank value gives none, and any other is refused with the trimmed text.
The decimal text of a number, blanks around it, gives that number to the caches. -/
theorem ofEnvironment_reads_numerals :
    (∀ text : String, ∃ w, (∀ v, Text.TrimsTo text.toList v ↔ v = w) ∧
      (ofEnvironment (some text) = .ok ⟨none⟩ ↔ w = []) ∧
      (∀ n : UInt64, ofEnvironment (some text) = .ok ⟨some n⟩ ↔ Numeral w n.toNat) ∧
      ∀ fault, ofEnvironment (some text) = .error fault ↔
        fault = .invalidThreshold (String.ofList w) ∧ w ≠ [] ∧
          ∀ n, Numeral w n → 2 ^ 64 ≤ n) ∧
    ∀ (n : UInt64) (before after : String), (∀ c ∈ before.toList, Text.isBlank c = true) →
      (∀ c ∈ after.toList, Text.isBlank c = true) →
      ∃ settings, ofEnvironment (some (before ++ toString n.toNat ++ after)) = .ok settings ∧
        settings.threshold = some n ∧ ∀ site objects,
          (InlineCache.fresh site settings.relinkLimit objects).limit.threshold = some n := by
  constructor
  · intro text
    have htrims := Text.trimsTo_trimBlanks text.toList
    exact ⟨Text.trimBlanks text.toList, fun v => Text.trimsTo_iff,
      ofEnvironment_eq_ok_none_iff htrims, ofEnvironment_eq_ok_some_iff htrims,
      ofEnvironment_eq_error_iff htrims⟩
  · intro n before after hbefore hafter
    have htrims : Text.TrimsTo (before ++ toString n.toNat ++ after).toList
        (toString n.toNat).toList := by
      rw [String.toList_append, String.toList_append]
      exact trimsTo_toString n.toNat hbefore hafter
    exact ⟨⟨some n⟩, (ofEnvironment_eq_ok_some_iff htrims n).mpr (numeral_toString n.toNat), rfl,
      fun _ _ => rfl⟩

/-- The greatest threshold between a no-break space and an ideographic one, and a signed numeral
with leading zeros. -/
theorem ofEnvironment_reads_greatest :
    ofEnvironment (some "\u00A018446744073709551615\u3000") = .ok ⟨some (-1)⟩ ∧
      ofEnvironment (some "\n+007 ") = .ok ⟨some 7⟩ := by
  constructor
  · obtain ⟨settings, hsettings, hthreshold, -⟩ := ofEnvironment_reads_numerals.2 (-1) "\u00A0"
      "\u3000" (by simp [Text.isBlank]) (by simp [Text.isBlank])
    obtain ⟨threshold⟩ := settings
    simp only at hthreshold
    rw [← hthreshold]
    exact hsettings
  · obtain ⟨w, htrims, -, hnumeral, -⟩ := ofEnvironment_reads_numerals.1 "\n+007 "
    have htrimmed : Text.TrimsTo "\n+007 ".toList "+007".toList := by
      constructor
      case split => exact ⟨['\n'], [' '], by decide, by simp [Text.isBlank], by simp [Text.isBlank]⟩
      case head => simp [Text.isBlank]
      case last => simp [Text.isBlank]
    rw [hnumeral, ← (htrims _).mp htrimmed]
    exact ⟨[0, 0, 7], by decide, .inr (by decide), by decide⟩

end DispatchSettings

end LateBinding

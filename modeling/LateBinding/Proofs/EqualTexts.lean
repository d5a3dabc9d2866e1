import LateBinding.Proofs.BackReferences
import LateBinding.Proofs.EqualityLaws

/-!
# Texts of equal values

Equality looks past the element types of arrays and past the difference between an array and a list
view, and so does rendering.  Two equal values therefore have the same texts, unless one of two
things tells them apart: the two floating-point zeros are equal and are written differently, and a
cycle is cut where it was entered, which equality does not see.

The induction follows the plain text of one value.  Along it the other value has to be bisimilar,
and without zeros bisimilar leaves are the same leaf.
-/

namespace LateBinding

theorem Binary.SameNumber.eq_of_not_zero {f : FloatFormat} {x y : Binary f}
    (hsame : x.SameNumber y) (hzero : x.isZero = false) : x = y := by
  have hequal := hsame.equal
  simp only [Binary.equal, hzero, Bool.false_and, Bool.or_false, Bool.and_eq_true,
    beq_iff_eq] at hequal
  exact hequal.2

/-- A floating-point zero, of either sign. -/
def Value.isFloatZero : Value → Bool
  | .float64 x => x.isZero
  | .float32 x => x.isZero
  | _ => false

theorem Value.Alike.eq_of_not_zero {a b : Value} (halike : a.Alike b)
    (hzero : a.isFloatZero = false) : a = b := by
  rcases halike.cases with ⟨x, y, rfl, rfl, hsame⟩ | ⟨x, y, rfl, rfl, hsame⟩ | heq
  · exact congrArg Value.float64 (hsame.eq_of_not_zero hzero)
  · exact congrArg Value.float32 (hsame.eq_of_not_zero hzero)
  · exact heq

namespace Heap

/-- A value contains itself and every element of the storages that it leads to. -/
def Contains (h : Heap) (v w : Value) : Prop :=
  w = v ∨ ∃ s, h.Reaches v s ∧ w ∈ h.items s

def ZeroFree (h : Heap) (v : Value) : Prop :=
  ∀ w, h.Contains v w → w.isFloatZero = false

variable {h : Heap} {quoted : Bool} {a b v w : Value} {s : StorageId}

/-! ## What a value contains -/

theorem ZeroFree.of_item (hzero : h.ZeroFree v) (hv : v.storage? = some s) (hw : w ∈ h.items s) :
    h.ZeroFree w := by
  intro u hu
  apply hzero u
  right
  rcases hu with rfl | ⟨t, ht, hmem⟩
  · exact ⟨s, reaches_own hv, hw⟩
  · exact ⟨t, ht.of_item hv hw, hmem⟩

theorem zeroFree_of_scalar (hv : v.storage? = none) (hzero : v.isFloatZero = false) :
    h.ZeroFree v := by
  rintro w (rfl | ⟨s, ⟨t, ht, _⟩, _⟩)
  · exact hzero
  · cases hv.symm.trans ht

theorem zeroFree_of_storage (hv : v.storage? = some s)
    (hitems : ∀ w ∈ h.items s, h.ZeroFree w) : h.ZeroFree v := by
  rintro w (rfl | ⟨t, ht, hmem⟩)
  · cases w with
    | array | list => rfl
    | _ => cases hv
  · rcases ht.own_or_item hv with rfl | ⟨u, hu, hreaches⟩
    · exact hitems w hmem w (.inl rfl)
    · exact hitems u hu w (.inr ⟨t, hreaches, hmem⟩)

/-! ## The same text -/

theorem plainText_of_forall₂ {texts : List String} (hv : v.storage? = some s)
    (htexts : List.Forall₂ (h.PlainText quoted) (h.items s) texts) :
    h.PlainText quoted v ("[" ++ ", ".intercalate texts ++ "]") := by
  have hboth : List.Forall₂
      (fun w text => h.PlainText quoted w (h.textOf quoted w) ∧ h.textOf quoted w = text)
      (h.items s) texts := by
    apply htexts.imp
    intro w text htext
    have hwritten := ((plainText_iff w text).1 htext).2
    exact ⟨hwritten ▸ htext, hwritten.symm⟩
  have hsplit := (List.forall₂_and_left _ _).1 hboth
  have htexts_eq : (h.items s).map (h.textOf quoted) = texts := by
    rw [← List.forall₂_eq_eq_eq, List.forall₂_map_left_iff]
    exact hsplit.2
  rw [← htexts_eq]
  exact .elements hv hsplit.1

/-- The plain text of a value is also that of every value bisimilar to it. -/
theorem PlainText.of_bisimilar {text : String} (htext : h.PlainText quoted a text)
    (hzero : h.ZeroFree a) (hab : h.Bisimilar a b) : h.PlainText quoted b text := by
  induction htext generalizing b with
  | @scalar a ha =>
    have hmatches := (h.bisimilar_iff_matches a b).1 hab
    rcases hmatches.storages_or_scalars with ⟨s, t, ha', _⟩ | ⟨_, hb⟩
    · cases ha.symm.trans ha'
    · have halike := (Value.equalUpTo_iff_of_scalars ha hb).1 hmatches
      have hsame : a = b := halike.eq_of_not_zero (hzero a (.inl rfl))
      rw [← hsame]
      exact .scalar ha
  | @elements a s text ha hitems ih =>
    have hmatches := (h.bisimilar_iff_matches a b).1 hab
    rcases hmatches.storages_or_scalars with ⟨s', t, ha', hb⟩ | ⟨ha', _⟩
    · cases ha.symm.trans ha'
      rcases (Value.equalUpTo_iff_of_storages ha hb).1 hmatches with rfl | hpairs
      · exact .elements hb hitems
      · apply plainText_of_forall₂ hb
        rw [List.forall₂_map_right_iff]
        apply List.Forall₂.flip
        rw [List.forall₂_iff_zip] at hpairs ⊢
        refine ⟨hpairs.1, ?_⟩
        intro u w hmem
        have hu : u ∈ h.items s := (List.of_mem_zip hmem).1
        exact ih u hu (hzero.of_item ha hu) (hpairs.2 hmem)
    · cases ha.symm.trans ha'

theorem Bisimilar.textOf_eq (hab : h.Bisimilar a b) (hacyclic : h.Acyclic a)
    (hzero : h.ZeroFree a) (quoted : Bool) : h.textOf quoted a = h.textOf quoted b := by
  have htext : h.PlainText quoted a (h.textOf quoted a) :=
    (plainText_iff a _).2 ⟨hacyclic, rfl⟩
  exact ((plainText_iff b _).1 (htext.of_bisimilar hzero hab)).2

/-- Two equal values have the same texts if nothing that the first leads to contains itself and it
contains no floating-point zero; of the second nothing is asked. -/
theorem equal_values_look_equal (h : Heap) {a b : Value} (hacyclic : h.Acyclic a)
    (hzero : h.ZeroFree a) (hequal : h.equal a b = true) :
    h.render a = h.render b ∧ h.display a = h.display b := by
  have hab := equal_eq_true_iff_bisimilar.1 hequal
  exact ⟨hab.textOf_eq hacyclic hzero false, hab.textOf_eq hacyclic hzero true⟩

/-- An array of a shared array of a NaN, of integers and of a string, and a list view on an array
of list views of the same: other element types and other storages give the same texts. -/
theorem mixed_views_look_equal :
    let nan : Double := ⟨false, -1, 1⟩
    let h : Heap := ⟨#[⟨.float64, [.float64 nan], by decide⟩,
      ⟨.int64, [.int64 1, .int64 2], by decide⟩, ⟨.any, [.int64 1, .int64 2], by decide⟩,
      ⟨.any, [.array ⟨0⟩, .list ⟨1⟩, .string "x"], by decide⟩,
      ⟨.any, [.list ⟨0⟩, .array ⟨2⟩, .string "x"], by decide⟩], #[]⟩
    let a := Value.array ⟨3⟩
    let b := Value.list ⟨4⟩
    h.Acyclic a ∧ h.ZeroFree a ∧ h.equal a b = true ∧ h.render a = "[[NaN], [1, 2], x]" ∧
      h.render a = h.render b ∧ h.display a = h.display b := by
  intro nan h a b
  have hleaves : ∀ s ∈ [(⟨0⟩ : StorageId), ⟨1⟩], ∀ w ∈ h.items s,
      w.storage? = none ∧ w.isFloatZero = false := by decide
  have hinner : ∀ s ∈ [(⟨0⟩ : StorageId), ⟨1⟩], ∀ v, v.storage? = some s →
      h.Acyclic v ∧ h.ZeroFree v := by
    intro s hs v hv
    constructor
    · exact (acyclic_iff_of_storage hv).2 fun w hw => acyclic_of_scalar (hleaves s hs w hw).1
    · exact zeroFree_of_storage hv fun w hw =>
        zeroFree_of_scalar (hleaves s hs w hw).1 (hleaves s hs w hw).2
  have houter : ∀ w ∈ [Value.array ⟨0⟩, .list ⟨1⟩, .string "x"], h.Acyclic w ∧ h.ZeroFree w := by
    intro w hw
    simp only [List.mem_cons, List.not_mem_nil, or_false] at hw
    rcases hw with rfl | rfl | rfl
    · exact hinner ⟨0⟩ (by decide) _ rfl
    · exact hinner ⟨1⟩ (by decide) _ rfl
    · exact ⟨acyclic_of_scalar rfl, zeroFree_of_scalar rfl rfl⟩
  have ha : a.storage? = some ⟨3⟩ := rfl
  have hacyclic : h.Acyclic a := (acyclic_iff_of_storage ha).2 fun w hw => (houter w hw).1
  have hzero : h.ZeroFree a := zeroFree_of_storage ha fun w hw => (houter w hw).2
  have hequal : h.equal a b = true := by cbv
  have htext : h.textInside false [] a = "[[NaN], [1, 2], x]" := by cbv
  have hrender : h.render a = "[[NaN], [1, 2], x]" := (h.textOf_eq false a).trans htext
  exact ⟨hacyclic, hzero, hequal, hrender, equal_values_look_equal h hacyclic hzero hequal⟩

/-- The two zeros are equal, and their texts differ. -/
example :
    let zero := Value.float64 ⟨false, 0, 0⟩
    let negativeZero := Value.float64 ⟨true, 0, 0⟩
    Heap.empty.equal zero negativeZero = true ∧ Heap.empty.textInside false [] zero = "0.0" ∧
      Heap.empty.textInside false [] negativeZero = "-0.0" := by
  refine ⟨?_, ?_, ?_⟩ <;> cbv

/-- Two rings of one and of two arrays are equal, and are cut at different depths. -/
example :
    let h : Heap := ⟨#[⟨.any, [.array ⟨0⟩], by decide⟩, ⟨.any, [.array ⟨2⟩], by decide⟩,
      ⟨.any, [.array ⟨1⟩], by decide⟩], #[]⟩
    h.equal (.array ⟨0⟩) (.array ⟨1⟩) = true ∧ h.textInside false [] (.array ⟨0⟩) = "[[...]]" ∧
      h.textInside false [] (.array ⟨1⟩) = "[[[...]]]" := by
  refine ⟨?_, ?_, ?_⟩ <;> cbv

end Heap

end LateBinding

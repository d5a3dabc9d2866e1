import LateBinding.Heap.Basic
import LateBinding.Heap.Unseen

/-!
# Content equality

Two arrays or list views are equal when they share a storage or their elements are pairwise equal;
element types do not matter, nor does the difference between an array and a list view.  Storages may
contain themselves, so a pair of storages that was opened before is taken as equal: each pair is
opened once, which bounds the comparison.
-/

namespace LateBinding

/-- Equality of two values that have no elements.  Floats compare numerically and iterators by their
cursor. -/
def Value.sameScalar : Value → Value → Bool
  | .float64 x, .float64 y => x.equal y
  | .float32 x, .float32 y => x.equal y
  | v, w => v == w

structure Comparison where
  same : Bool
  /-- The pairs of storages that were opened, the latest first. -/
  opened : List (StorageId × StorageId)
deriving DecidableEq

namespace Heap

def pairs (h : Heap) : List (StorageId × StorageId) :=
  h.names.flatMap fun s => h.names.map fun t => (s, t)

theorem mem_pairs {h : Heap} {s t : StorageId} :
    (s, t) ∈ h.pairs ↔ s ∈ h.names ∧ t ∈ h.names := by
  simp [pairs]

/-- A pair outside the heap has no elements on one side, so it opens no further comparison. -/
theorem zip_items_of_not_mem {h : Heap} {s t : StorageId} (hp : (s, t) ∉ h.pairs) :
    (h.items s).zip (h.items t) = [] := by
  by_cases hs : s ∈ h.names
  · have ht : t ∉ h.names := fun ht => hp (mem_pairs.2 ⟨hs, ht⟩)
    rw [items_of_size_le (Nat.le_of_not_lt fun hlt => ht (mem_names.2 hlt)), List.zip_nil_right]
  · rw [items_of_size_le (Nat.le_of_not_lt fun hlt => hs (mem_names.2 hlt)), List.zip_nil_left]

/-- Compares the pairs of a work list in order and stops at the first that differs.  The pairs of
storages in `opened` are taken as equal. -/
def compareAll (h : Heap) (opened : List (StorageId × StorageId)) :
    List (Value × Value) → Comparison
  | [] => ⟨true, opened⟩
  | (a, b) :: rest =>
    match a.storage?, b.storage? with
    | some s, some t =>
      if _ : s = t ∨ (s, t) ∈ opened then h.compareAll opened rest
      else if (h.items s).length = (h.items t).length then
        h.compareAll ((s, t) :: opened) ((h.items s).zip (h.items t) ++ rest)
      else ⟨false, (s, t) :: opened⟩
    | none, none => if a.sameScalar b then h.compareAll opened rest else ⟨false, opened⟩
    | _, _ => ⟨false, opened⟩
termination_by work => (unseen h.pairs opened, work.length)
decreasing_by
  · exact Prod.Lex.right _ (by simp)
  · by_cases hp : (s, t) ∈ h.pairs
    · exact Prod.Lex.left _ _
        (unseen_cons_lt hp fun hmem => ‹¬(s = t ∨ (s, t) ∈ opened)› (Or.inr hmem))
    · rw [unseen_cons_of_not_mem hp, zip_items_of_not_mem hp]
      exact Prod.Lex.right _ (by simp)
  · exact Prod.Lex.right _ (by simp)

section Steps

variable {h : Heap} {opened : List (StorageId × StorageId)} {a b : Value} {s t : StorageId}

theorem compareAll_of_known (rest : List (Value × Value)) (ha : a.storage? = some s)
    (hb : b.storage? = some t) (hknown : s = t ∨ (s, t) ∈ opened) :
    h.compareAll opened ((a, b) :: rest) = h.compareAll opened rest := by
  rw [compareAll, ha, hb]
  simp only [hknown, dite_true]

theorem compareAll_of_items (rest : List (Value × Value)) (ha : a.storage? = some s)
    (hb : b.storage? = some t) (hfresh : ¬(s = t ∨ (s, t) ∈ opened))
    (hlength : (h.items s).length = (h.items t).length) :
    h.compareAll opened ((a, b) :: rest) =
      h.compareAll ((s, t) :: opened) ((h.items s).zip (h.items t) ++ rest) := by
  rw [compareAll, ha, hb]
  simp only [hfresh, dite_false, hlength, if_true]

theorem compareAll_of_lengths (rest : List (Value × Value)) (ha : a.storage? = some s)
    (hb : b.storage? = some t) (hfresh : ¬(s = t ∨ (s, t) ∈ opened))
    (hlength : (h.items s).length ≠ (h.items t).length) :
    h.compareAll opened ((a, b) :: rest) = ⟨false, (s, t) :: opened⟩ := by
  rw [compareAll, ha, hb]
  simp only [hfresh, dite_false, hlength, if_false]

theorem compareAll_of_scalars (rest : List (Value × Value)) (ha : a.storage? = none)
    (hb : b.storage? = none) :
    h.compareAll opened ((a, b) :: rest) =
      if a.sameScalar b then h.compareAll opened rest else ⟨false, opened⟩ := by
  rw [compareAll, ha, hb]

/-- An array or a list view is no scalar. -/
theorem compareAll_of_unlike (rest : List (Value × Value))
    (hunlike : a.storage?.isSome ≠ b.storage?.isSome) :
    h.compareAll opened ((a, b) :: rest) = ⟨false, opened⟩ := by
  rw [compareAll]
  split
  next ha hb => simp [ha, hb] at hunlike
  next ha hb => simp [ha, hb] at hunlike
  next => rfl

end Steps

def compare (h : Heap) (a b : Value) : Comparison :=
  h.compareAll [] [(a, b)]

def equal (h : Heap) (a b : Value) : Bool :=
  (h.compare a b).same

/-- Equality of two storages as contents: the same element type and pairwise equal elements.
Sharing the storage does not settle it, so a NaN makes a storage differ from itself. -/
def sameContent (h : Heap) (s t : StorageId) : Bool :=
  (h.storage s).elem == (h.storage t).elem &&
    (h.items s).length == (h.items t).length &&
    ((h.items s).zip (h.items t)).all fun p => h.equal p.1 p.2

end Heap

end LateBinding

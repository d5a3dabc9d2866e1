import LateBinding.Heap.Access

/-!
# Access to elements

What the element primitives of one type do to a storage of that type and to one of another.
-/

namespace LateBinding

theorem positionOf_eq_ok {index : Int64} {length : Nat} {position : Fin length}
    (hposition : positionOf index length = .ok position) :
    (0 ≤ index.toInt ∧ index.toInt < length) ∧ position.val = index.toInt.toNat := by
  unfold positionOf at hposition
  split at hposition
  · next hin =>
    cases hposition
    exact ⟨by omega, rfl⟩
  · contradiction

theorem positionOf_eq_error_iff {index : Int64} {length : Nat} {fault : CallFault} :
    positionOf index length = .error fault ↔
      fault = .bounds index length ∧ ¬(0 ≤ index.toInt ∧ index.toInt < length) := by
  have hrange : 0 ≤ index.toInt ∧ index.toInt.toNat < length ↔
      0 ≤ index.toInt ∧ index.toInt < length := by omega
  unfold positionOf
  split
  · next hin => simp [hrange.1 hin]
  · next hout =>
    rw [hrange] at hout
    simp [hout, eq_comm]

theorem map_get_positionOf {α β : Type} (f : α → β) (xs : List α) (index : Int64) :
    (positionOf index (xs.map f).length).map (xs.map f).get =
      (positionOf index xs.length).map fun position => f xs[position] := by
  unfold positionOf
  simp only [List.length_map]
  split
  · exact congrArg Except.ok (List.getElem_map f)
  · rfl

namespace Heap

variable {h : Heap} {elem : ElementType} {s : StorageId}

theorem elementAt_of_elem_eq (helem : (h.storage s).elem = elem) (index : Int64) :
    h.elementAt elem s index =
      (positionOf index (h.storage s).items.length).map (h.storage s).items.get := by
  simp only [elementAt, helem, ne_eq, not_true_eq_false, if_false]
  cases positionOf index (h.storage s).items.length <;> rfl

theorem elementAt_of_elem_ne (helem : (h.storage s).elem ≠ elem) (index : Int64) :
    h.elementAt elem s index = .error (.type (.wrongElementAccess elem (h.storage s).elem)) := by
  simp only [elementAt, ne_eq, helem, not_false_eq_true, if_true]
  rfl

theorem setElement_of_admits (helem : (h.storage s).elem = elem) (index : Int64) {v : Value}
    (hadmits : (h.storage s).elem.admits v = true) :
    h.setElement elem s index v = (positionOf index (h.storage s).items.length).map
      fun position => h.write s ((h.storage s).set position v hadmits) := by
  simp only [setElement, helem, ne_eq, not_true_eq_false, if_false, helem ▸ hadmits, dif_pos]
  cases positionOf index (h.storage s).items.length <;> rfl

theorem setElement_of_not_admits (helem : (h.storage s).elem = elem) (index : Int64) {v : Value}
    (hadmits : (h.storage s).elem.admits v ≠ true) :
    h.setElement elem s index v = .error (h.storeFault elem v) := by
  simp only [setElement, helem, ne_eq, not_true_eq_false, if_false, helem ▸ hadmits]
  rfl

theorem setElement_of_elem_ne (helem : (h.storage s).elem ≠ elem) (index : Int64) (v : Value) :
    h.setElement elem s index v = .error (.type (.wrongElementAccess elem (h.storage s).elem)) := by
  simp only [setElement, ne_eq, helem, not_false_eq_true, if_true]
  rfl

/-- Whatever is written, it is the content of this storage that a write replaces. -/
theorem exists_write_of_setElement {index : Int64} {v : Value} {after : Heap}
    (hwrite : h.setElement elem s index v = .ok after) : ∃ content, after = h.write s content := by
  by_cases helem : (h.storage s).elem = elem
  · by_cases hadmits : (h.storage s).elem.admits v = true
    · rw [setElement_of_admits helem index hadmits] at hwrite
      cases hposition : positionOf index (h.storage s).items.length with
      | error fault =>
          rw [hposition] at hwrite
          contradiction
      | ok position =>
          rw [hposition] at hwrite
          exact ⟨_, (Except.ok.inj hwrite).symm⟩
    · rw [setElement_of_not_admits helem index hadmits] at hwrite
      contradiction
  · rw [setElement_of_elem_ne helem] at hwrite
    contradiction

theorem admits_of_setElement (helem : (h.storage s).elem = elem) {index : Int64} {v : Value}
    {after : Heap} (hwrite : h.setElement elem s index v = .ok after) : elem.admits v = true := by
  by_cases hadmits : elem.admits v = true
  · exact hadmits
  · rw [setElement_of_not_admits helem index (helem ▸ hadmits)] at hwrite
    contradiction

theorem admits_of_elementAt {index : Int64} {v : Value}
    (hread : h.elementAt elem s index = .ok v) : elem.admits v = true := by
  by_cases helem : (h.storage s).elem = elem
  · rw [elementAt_of_elem_eq helem] at hread
    cases hposition : positionOf index (h.storage s).items.length with
    | error fault =>
        rw [hposition] at hread
        contradiction
    | ok position =>
        rw [hposition] at hread
        cases hread
        rw [← helem]
        exact (h.storage s).admitted _ (List.get_mem _ _)
  · rw [elementAt_of_elem_ne helem] at hread
    contradiction

/-- On a storage of its own element type a read fails by its index alone. -/
theorem elementAt_eq_error_iff (helem : (h.storage s).elem = elem) {index : Int64}
    {fault : CallFault} :
    h.elementAt elem s index = .error fault ↔ fault = .bounds index (h.items s).length ∧
      ¬(0 ≤ index.toInt ∧ index.toInt < (h.items s).length) := by
  rw [elementAt_of_elem_eq helem, ← positionOf_eq_error_iff, items]
  cases positionOf index (h.storage s).items.length <;> simp [Except.map]

/-- On a storage of its own element type a write of an admitted value fails by its index alone. -/
theorem setElement_eq_error_iff (helem : (h.storage s).elem = elem) {index : Int64} {v : Value}
    {fault : CallFault} (hadmits : (h.storage s).elem.admits v = true) :
    h.setElement elem s index v = .error fault ↔ fault = .bounds index (h.items s).length ∧
      ¬(0 ≤ index.toInt ∧ index.toInt < (h.items s).length) := by
  rw [setElement_of_admits helem index hadmits, ← positionOf_eq_error_iff, items]
  cases positionOf index (h.storage s).items.length <;> simp [Except.map, Functor.map]

/-- A write that succeeds has an index within the storage. -/
theorem index_lt_of_setElement {index : Int64} {v : Value} {after : Heap}
    (hwrite : h.setElement elem s index v = .ok after) :
    0 ≤ index.toInt ∧ index.toInt.toNat < (h.items s).length := by
  by_cases helem : (h.storage s).elem = elem
  · have hadmits : (h.storage s).elem.admits v = true := helem ▸ admits_of_setElement helem hwrite
    have hrange : ¬¬(0 ≤ index.toInt ∧ index.toInt < (h.items s).length) := by
      intro hout
      cases hwrite.symm.trans ((setElement_eq_error_iff helem hadmits).2 ⟨rfl, hout⟩)
    omega
  · rw [setElement_of_elem_ne helem] at hwrite
    cases hwrite

/-- A write that succeeds is to a storage that was allocated. -/
theorem lt_size_of_setElement {index : Int64} {v : Value} {after : Heap}
    (hwrite : h.setElement elem s index v = .ok after) : s.index < h.storages.size := by
  apply Nat.lt_of_not_le
  intro hs
  have hindex := (index_lt_of_setElement hwrite).2
  rw [items_of_size_le hs] at hindex
  contradiction

theorem fault_of_setElement (helem : (h.storage s).elem = elem) {index : Int64} {v : Value}
    {fault : CallFault} (hwrite : h.setElement elem s index v = .error fault) :
    fault = .bounds index (h.items s).length ∨ fault = h.storeFault elem v := by
  by_cases hadmits : (h.storage s).elem.admits v = true
  · exact .inl ((setElement_eq_error_iff helem hadmits).1 hwrite).1
  · rw [setElement_of_not_admits helem index hadmits] at hwrite
    exact .inr (Except.error.inj hwrite).symm

/-! ## List views -/

theorem listElement_eq_error_iff {index : Int64} {fault : CallFault} :
    h.listElement s index = .error fault ↔ fault = .bounds index (h.items s).length ∧
      ¬(0 ≤ index.toInt ∧ index.toInt < (h.items s).length) :=
  elementAt_eq_error_iff rfl

/-- A write through a list view reads the old element first and then writes. -/
theorem setListElement_eq (h : Heap) (s : StorageId) (index : Int64) (v : Value) :
    h.setListElement s index v = (h.listElement s index).bind fun previous =>
      (h.setElement (h.storage s).elem s index v).map fun after => (previous, after) := by
  simp only [setListElement, listElement]
  cases h.elementAt (h.storage s).elem s index with
  | error fault => rfl
  | ok previous => cases h.setElement (h.storage s).elem s index v <;> rfl

theorem exists_write_of_setListElement {index : Int64} {v previous : Value} {after : Heap}
    (hwrite : h.setListElement s index v = .ok (previous, after)) :
    ∃ content, after = h.write s content := by
  rw [setListElement_eq] at hwrite
  cases hread : h.listElement s index with
  | error fault =>
      rw [hread] at hwrite
      cases hwrite
  | ok old =>
      rw [hread] at hwrite
      cases hset : h.setElement (h.storage s).elem s index v with
      | error fault =>
          rw [hset] at hwrite
          cases hwrite
      | ok written =>
          rw [hset] at hwrite
          cases hwrite
          exact exists_write_of_setElement hset

theorem listElement_of_getElem? {index : Int64} {v : Value} (hpositive : 0 ≤ index.toInt)
    (hfound : (h.items s)[index.toInt.toNat]? = some v) : h.listElement s index = .ok v := by
  obtain ⟨hin, hv⟩ := List.getElem?_eq_some_iff.1 hfound
  have hposition : positionOf index (h.storage s).items.length = .ok ⟨index.toInt.toNat, hin⟩ :=
    dif_pos ⟨hpositive, hin⟩
  rw [listElement, elementAt_of_elem_eq rfl, hposition]
  exact congrArg Except.ok hv

end Heap

end LateBinding

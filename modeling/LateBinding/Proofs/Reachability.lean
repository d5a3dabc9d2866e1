import LateBinding.Heap.Basic
import Mathlib.Data.Set.Card
import Mathlib.Logic.Relation

/-!
# Reachable storages

Which storages a value leads to, through the elements of arrays and list views.  There are finitely
many of them on every heap, cyclic or not.
-/

namespace LateBinding.Heap

/-- Storage `t` is among the elements of `s`, behind an array or a list view. -/
def Nests (h : Heap) (s t : StorageId) : Prop :=
  ∃ v ∈ h.items s, v.storage? = some t

/-- A value leads to a storage: its own, or one that is nested in it at any depth. -/
def Reaches (h : Heap) (v : Value) (t : StorageId) : Prop :=
  ∃ s, v.storage? = some s ∧ Relation.ReflTransGen h.Nests s t

def reachable (h : Heap) (v : Value) : Set StorageId :=
  {s | h.Reaches v s}

/-- No storage that the value leads to contains itself, directly or indirectly. -/
def Acyclic (h : Heap) (v : Value) : Prop :=
  ∀ s, h.Reaches v s → ¬Relation.TransGen h.Nests s s

variable {h : Heap} {v w : Value} {s t : StorageId}

theorem reaches_own (hv : v.storage? = some s) : h.Reaches v s :=
  ⟨s, hv, .refl⟩

theorem Reaches.of_item (hv : v.storage? = some s) (hw : w ∈ h.items s)
    (hreaches : h.Reaches w t) : h.Reaches v t := by
  obtain ⟨u, hu, hpath⟩ := hreaches
  exact ⟨s, hv, .head ⟨w, hw, hu⟩ hpath⟩

theorem reachable_subset_of_item (hv : v.storage? = some s) (hw : w ∈ h.items s) :
    h.reachable w ⊆ h.reachable v :=
  fun _ hreaches => hreaches.of_item hv hw

/-- Beyond its own storage, a value leads only where one of its elements does. -/
theorem Reaches.own_or_item (hv : v.storage? = some s) (hreaches : h.Reaches v t) :
    t = s ∨ ∃ w ∈ h.items s, h.Reaches w t := by
  obtain ⟨s', hs', hpath⟩ := hreaches
  cases hv.symm.trans hs'
  rcases hpath.cases_head with rfl | ⟨u, ⟨w, hw, hu⟩, hrest⟩
  · exact .inl rfl
  · exact .inr ⟨w, hw, u, hu, hrest⟩

theorem contains_itself_iff (h : Heap) (s : StorageId) :
    Relation.TransGen h.Nests s s ↔ ∃ w ∈ h.items s, h.Reaches w s := by
  rw [Relation.TransGen.head'_iff]
  constructor
  · rintro ⟨t, ⟨w, hw, ht⟩, hpath⟩
    exact ⟨w, hw, t, ht, hpath⟩
  · rintro ⟨w, hw, t, ht, hpath⟩
    exact ⟨t, ⟨w, hw, ht⟩, hpath⟩

theorem acyclic_of_scalar (hv : v.storage? = none) : h.Acyclic v := by
  rintro s ⟨t, ht, _⟩
  rw [hv] at ht
  cases ht

theorem Acyclic.not_reaches_own (hacyclic : h.Acyclic v) (hv : v.storage? = some s)
    (hw : w ∈ h.items s) : ¬h.Reaches w s := by
  intro hreaches
  exact hacyclic s (reaches_own hv) ((h.contains_itself_iff s).2 ⟨w, hw, hreaches⟩)

theorem acyclic_iff_of_storage (hv : v.storage? = some s) :
    h.Acyclic v ↔ ∀ w ∈ h.items s, h.Acyclic w := by
  constructor
  · intro hacyclic w hw t ht
    exact hacyclic t (ht.of_item hv hw)
  · intro hitems t ht
    rcases ht.own_or_item hv with rfl | ⟨w, hw, hreaches⟩
    · -- a cycle through the array itself is one that its elements lead to
      intro hcycle
      obtain ⟨w, hw, hreaches⟩ := (h.contains_itself_iff t).1 hcycle
      exact hitems w hw t hreaches hcycle
    · exact hitems w hw t hreaches

theorem finite_reachable (h : Heap) (v : Value) : (h.reachable v).Finite := by
  -- a storage that is reached is named by the value itself or by an element of some storage
  let named := v.storage?.toList ++ (h.names.flatMap h.items).filterMap Value.storage?
  refine named.finite_toSet.subset ?_
  rintro t ⟨s, hs, hpath⟩
  rcases hpath.cases_tail with rfl | ⟨u, _, w, hw, ht⟩
  · exact List.mem_append_left _ (Option.mem_toList.2 hs)
  · apply List.mem_append_right
    rw [List.mem_filterMap]
    exact ⟨w, List.mem_flatMap.2 ⟨u, mem_names_of_mem_items hw, hw⟩, ht⟩

end LateBinding.Heap

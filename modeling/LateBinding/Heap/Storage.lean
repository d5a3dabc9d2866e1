import LateBinding.Value.Basic

/-!
# Array storages

A `Storage` is the content of one array: its element type and its elements, each of which the
element type admits.  Building one from values either keeps the values as they are or names the
first that does not fit.
-/

namespace LateBinding

structure Storage where
  elem : ElementType
  items : List Value
  /-- Every element is of the element type's own variant. -/
  admitted : ∀ v ∈ items, elem.admits v = true
deriving DecidableEq

namespace Storage

def empty (elem : ElementType) : Storage where
  elem := elem
  items := []
  admitted := by simp

/-- The storage of the given values, or the first value that the element type does not admit. -/
def ofValues (elem : ElementType) (values : List Value) : Except Value Storage :=
  match h : values.find? fun v => !elem.admits v with
  | some v => .error v
  | none => .ok { elem, items := values, admitted := by simpa using h }

def length (s : Storage) : Nat :=
  s.items.length

def isEmpty (s : Storage) : Bool :=
  s.items.isEmpty

def get? (s : Storage) (position : Nat) : Option Value :=
  s.items[position]?

/-- The storage with an admitted value in place of the element at a position. -/
def set (s : Storage) (position : Nat) (v : Value) (h : s.elem.admits v = true) : Storage where
  elem := s.elem
  items := s.items.set position v
  admitted := fun w hw => by
    rcases List.mem_or_eq_of_mem_set hw with hw | rfl
    · exact s.admitted w hw
    · exact h

def tail (s : Storage) : Storage where
  elem := s.elem
  items := s.items.tail
  admitted := fun w hw => s.admitted w (List.mem_of_mem_tail hw)

@[simp] theorem items_empty (elem : ElementType) : (empty elem).items = [] := rfl

@[simp] theorem elem_set {s : Storage} {position : Nat} {v : Value}
    (h : s.elem.admits v = true) : (s.set position v h).elem = s.elem := rfl

@[simp] theorem items_set {s : Storage} {position : Nat} {v : Value}
    (h : s.elem.admits v = true) : (s.set position v h).items = s.items.set position v := rfl

@[simp] theorem elem_tail (s : Storage) : s.tail.elem = s.elem := rfl

@[simp] theorem items_tail (s : Storage) : s.tail.items = s.items.tail := rfl

theorem ofValues_items (s : Storage) : ofValues s.elem s.items = .ok s := by
  have hfits : s.items.find? (fun v => !s.elem.admits v) = none := by
    simpa using s.admitted
  unfold ofValues
  split
  · next v hfind => rw [hfits] at hfind; contradiction
  · rfl

theorem ofValues_eq_ok_iff {elem : ElementType} {values : List Value} {s : Storage} :
    ofValues elem values = .ok s ↔ s.elem = elem ∧ s.items = values := by
  constructor
  · unfold ofValues
    split
    · intro hfilled
      contradiction
    · intro hfilled
      cases hfilled
      exact ⟨rfl, rfl⟩
  · rintro ⟨rfl, rfl⟩
    exact ofValues_items s

theorem ofValues_eq_error_iff {elem : ElementType} {values : List Value} {v : Value} :
    ofValues elem values = .error v ↔ (values.find? fun w => !elem.admits w) = some v := by
  unfold ofValues
  split
  · next first hfind => simp [hfind]
  · next hfind => simp [hfind]

end Storage

end LateBinding

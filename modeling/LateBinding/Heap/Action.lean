import LateBinding.Heap.Access

/-!
# Actions

An action runs on a heap and gives a result or a fault, and in both cases the heap it leaves.
Composing actions threads the heap and stops at the first fault, keeping what was done before it.
-/

namespace LateBinding

def Action (α : Type) : Type :=
  Heap → Except CallFault α × Heap

namespace Action

variable {α β : Type}

instance : Monad Action where
  pure a := fun h => (.ok a, h)
  bind first next := fun h =>
    match first h with
    | (.ok a, after) => next a after
    | (.error fault, after) => (.error fault, after)

/-- Fails without touching the heap. -/
def fail (fault : CallFault) : Action α :=
  fun h => (.error fault, h)

def query (read : Heap → Except CallFault α) : Action α :=
  fun h => (read h, h)

/-- Replaces the heap, or fails and leaves it as it was. -/
def update (change : Heap → Except CallFault Heap) : Action Unit := fun h =>
  match change h with
  | .ok after => (.ok (), after)
  | .error fault => (.error fault, h)

def allocate (content : Storage) : Action StorageId :=
  fun h => (.ok h.freshStorage, h.allocate content)

def openCursor (s : StorageId) : Action CursorId :=
  fun h => (.ok h.freshCursor, h.openCursor s)

theorem pure_apply (a : α) (h : Heap) : (pure a : Action α) h = (.ok a, h) := rfl

theorem bind_apply (first : Action α) (next : α → Action β) (h : Heap) :
    (first >>= next) h =
      match first h with
      | (.ok a, after) => next a after
      | (.error fault, after) => (.error fault, after) := rfl

end Action

end LateBinding

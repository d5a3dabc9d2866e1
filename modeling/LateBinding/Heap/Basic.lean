import LateBinding.Heap.Storage

/-!
# The heap

A `Heap` holds the array storages and the iterator cursors that values name.  Storages are never
freed and may contain themselves.  A name that was never allocated reads as an empty storage, and a
write to it is lost.
-/

namespace LateBinding

/-- Where an iterator stands: the storage it reads and how many elements it has passed. -/
structure Cursor where
  storage : StorageId
  position : Nat
deriving DecidableEq

structure Heap where
  storages : Array Storage
  cursors : Array Cursor
deriving DecidableEq

namespace Heap

def empty : Heap where
  storages := #[]
  cursors := #[]

def storage (h : Heap) (s : StorageId) : Storage :=
  h.storages[s.index]?.getD (.empty .any)

def items (h : Heap) (s : StorageId) : List Value :=
  (h.storage s).items

def names (h : Heap) : List StorageId :=
  (List.range h.storages.size).map StorageId.mk

/-- The name of the next storage. -/
def freshStorage (h : Heap) : StorageId :=
  ⟨h.storages.size⟩

/-- The heap with a new storage, which is named `h.freshStorage`. -/
def allocate (h : Heap) (content : Storage) : Heap :=
  { h with storages := h.storages.push content }

def write (h : Heap) (s : StorageId) (content : Storage) : Heap :=
  { h with storages := h.storages.setIfInBounds s.index content }

def freshCursor (h : Heap) : CursorId :=
  ⟨h.cursors.size⟩

/-- The heap with a new cursor before the first element of a storage. -/
def openCursor (h : Heap) (s : StorageId) : Heap :=
  { h with cursors := h.cursors.push ⟨s, 0⟩ }

/-- The concrete type of a value; that of an array follows its storage. -/
def typeOf (h : Heap) : Value → ValueType
  | .int64 _ => .int64
  | .int32 _ => .int32
  | .float64 _ => .float64
  | .float32 _ => .float32
  | .bool _ => .bool
  | .char _ => .char
  | .nothing => .nothing
  | .string _ => .string
  | .array s => .array (h.storage s).elem
  | .list _ => .list
  | .iterator _ => .iterator
  | .type _ => .type

/-- The elements of an array or a list view, copied out. -/
def elements? (h : Heap) (v : Value) : Option (List Value) :=
  v.storage?.map h.items

theorem storage_allocate_fresh (h : Heap) (content : Storage) :
    (h.allocate content).storage h.freshStorage = content := by
  simp [storage, allocate, freshStorage]

theorem storage_write_self {h : Heap} {s : StorageId} (content : Storage)
    (hs : s.index < h.storages.size) : (h.write s content).storage s = content := by
  simp [storage, write, hs]

theorem storage_write_of_ne {h : Heap} {s t : StorageId} (content : Storage) (hne : s ≠ t) :
    (h.write s content).storage t = h.storage t := by
  have hindex : s.index ≠ t.index := fun heq => hne (by cases s; cases t; simp_all)
  simp [storage, write, hindex]

theorem items_of_size_le {h : Heap} {s : StorageId} (hs : h.storages.size ≤ s.index) :
    h.items s = [] := by
  simp [items, storage, Array.getElem?_eq_none hs]

theorem mem_names {h : Heap} {s : StorageId} : s ∈ h.names ↔ s.index < h.storages.size := by
  constructor
  · intro hs
    obtain ⟨i, hi, rfl⟩ := List.mem_map.1 hs
    exact List.mem_range.1 hi
  · intro hs
    exact List.mem_map.2 ⟨s.index, List.mem_range.2 hs, rfl⟩

theorem mem_names_of_mem_items {h : Heap} {s : StorageId} {v : Value} (hv : v ∈ h.items s) :
    s ∈ h.names := by
  apply mem_names.2
  apply Nat.lt_of_not_le
  intro hs
  rw [items_of_size_le hs] at hv
  contradiction

end Heap

end LateBinding

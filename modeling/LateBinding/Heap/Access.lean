import LateBinding.Fault
import LateBinding.Heap.Basic

/-!
# Element access

Reading and writing single elements: through the primitives of one element type, through a list
view, and through an iterator cursor.  A failed access changes nothing, so failures carry no heap.
-/

namespace LateBinding

/-- The position that a zero-based index names in a sequence of the given length. -/
def positionOf (index : Int64) (length : Nat) : Except CallFault (Fin length) :=
  if h : 0 ≤ index.toInt ∧ index.toInt.toNat < length then .ok ⟨index.toInt.toNat, h.2⟩
  else .error (.bounds index length)

/-- The position that an index names when the length is a machine word.  Both are compared as signed
words, so a length beyond the signed range admits no index. -/
def wordPositionOf (index : Int64) (length : UInt64) : Except CallFault (Fin length.toNat) :=
  if length.toInt64 < 0 then .error (.bounds index length.toNat)
  else positionOf index length.toNat

namespace Heap

/-- The fault of a value that a storage of the element type does not admit. -/
def storeFault (h : Heap) (elem : ElementType) (v : Value) : CallFault :=
  .type (.cannotStore (h.typeOf v) elem)

/-- The storage of the given values, each of which must be of the element type's own variant. -/
def storageOf (h : Heap) (elem : ElementType) (values : List Value) : Except CallFault Storage :=
  (Storage.ofValues elem values).mapError (h.storeFault elem)

theorem storageOf_tail (h : Heap) (s : StorageId) :
    h.storageOf (h.storage s).elem (h.items s).tail = .ok (h.storage s).tail := by
  rw [storageOf, items, ← Storage.items_tail, ← Storage.elem_tail, Storage.ofValues_items]
  rfl

/-- The element at an index, read by the primitive of an element type. -/
def elementAt (h : Heap) (elem : ElementType) (s : StorageId) (index : Int64) :
    Except CallFault Value := do
  let content := h.storage s
  if content.elem ≠ elem then throw (.type (.wrongElementAccess elem content.elem))
  let position ← positionOf index content.items.length
  return content.items[position]

/-- The heap after writing an element by the primitive of an element type.  Of an unfit value and an
index out of range, the value is reported.

An unfit value may also be an array that names the storage written to.  It is refused here like any
other.  An implementation that keeps the storage locked while it asks that array for its type waits
for itself and never returns; of such a write, what is shown of `setElement` says nothing. -/
def setElement (h : Heap) (elem : ElementType) (s : StorageId) (index : Int64) (v : Value) :
    Except CallFault Heap :=
  let content := h.storage s
  if content.elem ≠ elem then throw (.type (.wrongElementAccess elem content.elem))
  else if hfits : content.elem.admits v = true then do
    let position ← positionOf index content.items.length
    return h.write s (content.set position v hfits)
  else throw (h.storeFault elem v)

/-! ## List views -/

def listElement (h : Heap) (s : StorageId) (index : Int64) : Except CallFault Value :=
  h.elementAt (h.storage s).elem s index

/-- Writes through a list view and gives the element that was there.  The old element is read first,
so an index out of range is reported before an unfit value.  An array written into its own storage
is refused as by `setElement`, unless the storage admits any value, and with the same
reservation. -/
def setListElement (h : Heap) (s : StorageId) (index : Int64) (v : Value) :
    Except CallFault (Value × Heap) := do
  let elem := (h.storage s).elem
  let previous ← h.elementAt elem s index
  let after ← h.setElement elem s index v
  return (previous, after)

/-! ## Iterators -/

/-- The element under a cursor, if the storage still reaches that far. -/
def current? (h : Heap) (c : CursorId) : Option Value := do
  let cursor ← h.cursors[c.index]?
  (h.storage cursor.storage).get? cursor.position

def hasNext (h : Heap) (c : CursorId) : Bool :=
  h.cursors[c.index]?.any fun cursor => cursor.position < (h.storage cursor.storage).length

def advance (h : Heap) (c : CursorId) : Heap :=
  { h with cursors := h.cursors.modify c.index fun cursor =>
      { cursor with position := cursor.position + 1 } }

/-- The element under a cursor and the heap with the cursor moved past it.  At the end there is
neither, and the cursor stays. -/
def next? (h : Heap) (c : CursorId) : Option (Value × Heap) :=
  (h.current? c).map fun v => (v, h.advance c)

/-- At most `count` elements from a cursor on. -/
def takeNext (h : Heap) (c : CursorId) : Nat → List Value × Heap
  | 0 => ([], h)
  | count + 1 =>
    match h.next? c with
    | none => ([], h)
    | some (v, moved) =>
      let (rest, after) := moved.takeNext c count
      (v :: rest, after)

def cursorLength (h : Heap) (c : CursorId) : Nat :=
  (h.cursors[c.index]?.map fun cursor => (h.storage cursor.storage).length).getD 0

/-- Every element from a cursor on. -/
def drain (h : Heap) (c : CursorId) : List Value × Heap :=
  h.takeNext c (h.cursorLength c)

end Heap

end LateBinding

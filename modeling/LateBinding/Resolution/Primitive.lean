import LateBinding.Calling.Operation
import LateBinding.Heap.Equality
import LateBinding.Heap.Rendering

/-!
# Primitives

The primitive operations on arrays: element access, which is specialised to an element type, and the
table of the primitives that belong to an owner.
-/

namespace LateBinding

/-- The groups of primitives that access is granted to. -/
inductive Owner where
  /-- Queries of the element count. -/
  | reflect
  /-- Rendering, list views and equality of whole arrays. -/
  | arrays
  /-- Making iterators. -/
  | arrayIterator
  /-- Head, tail and the test for no elements. -/
  | arrayHelper
deriving DecidableEq

namespace Owner

def all : List Owner :=
  [reflect, arrays, arrayIterator, arrayHelper]

def name : Owner → String
  | reflect => "Reflect"
  | arrays => "Arrays"
  | arrayIterator => "ArrayIterator"
  | arrayHelper => "ArrayHelper"

def ofName? (s : String) : Option Owner :=
  all.find? (·.name = s)

end Owner

namespace Primitive

def argument (args : List Value) (position : Nat) : Action Value :=
  match args[position]? with
  | some v => pure v
  | none => .fail (.argument (.missing position))

def arrayArgument (args : List Value) (position : Nat) : Action StorageId := do
  match ← argument args position with
  | .array s => pure s
  | v => .query fun h => .error (.type (.expectedArray (h.typeOf v)))

/-! ## Element access -/

def elementGet (elem : ElementType) : Operation where
  name := s!"get[{elem.name}]"
  signature := ⟨[.array, .int64], .ofElement elem⟩
  run := fun args => do
    let s ← arrayArgument args 0
    let index ← argument args 1
    .query fun h => do h.elementAt elem s (← h.asIndex index)

def elementSet (elem : ElementType) : Operation where
  name := s!"set[{elem.name}]"
  signature := ⟨[.array, .int64, .ofElement elem], .void⟩
  run := fun args => do
    let s ← arrayArgument args 0
    let index ← argument args 1
    let position ← .query fun h => h.asIndex index
    let v ← argument args 2
    .update fun h => h.setElement elem s position v
    return .nothing

/-! ## Owned primitives -/

/-- The element count as a 64-bit integer. -/
def length (args : List Value) : Action Value := do
  let s ← arrayArgument args 0
  .query fun h =>
    let count := (h.storage s).length
    if count ≤ Int64.maxValue.toInt then .ok (.int64 (.ofNat count))
    else .error (.overflow (.notInt64 count))

def render (args : List Value) : Action Value := do
  let s ← arrayArgument args 0
  .query fun h => .ok (.string (h.render (.array s)))

def asList (args : List Value) : Action Value := do
  let s ← arrayArgument args 0
  return .list s

def equals (args : List Value) : Action Value := do
  let s ← arrayArgument args 0
  let t ← arrayArgument args 1
  .query fun h => .ok (.bool (h.equal (.array s) (.array t)))

def iterator (args : List Value) : Action Value := do
  let s ← arrayArgument args 0
  return .iterator (← .openCursor s)

def head (args : List Value) : Action Value := do
  let s ← arrayArgument args 0
  .query fun h =>
    match h.items s with
    | v :: _ => .ok v
    | [] => .error (.argument .headOfEmpty)

/-- A new array of all elements but the first.  The tail of an empty array is empty. -/
def tail (args : List Value) : Action Value := do
  let s ← arrayArgument args 0
  let content ← .query fun h => h.storageOf (h.storage s).elem (h.items s).tail
  return .array (← .allocate content)

/-- What an array holds behind its first element fits its element type, so no tail is refused. -/
theorem tail_eq_allocate (args : List Value) :
    tail args = do
      let s ← arrayArgument args 0
      let content ← .query fun h => .ok (h.storage s).tail
      return .array (← .allocate content) := by
  simp only [tail, Heap.storageOf_tail]

/-- On an array, a tail never fails. -/
theorem tail_apply (s : StorageId) (rest : List Value) (h : Heap) :
    tail (.array s :: rest) h =
      (.ok (.array h.freshStorage), h.allocate (h.storage s).tail) := by
  rw [tail_eq_allocate]
  rfl

def isEmpty (args : List Value) : Action Value := do
  let s ← arrayArgument args 0
  .query fun h => .ok (.bool (h.storage s).isEmpty)

end Primitive

/-- A primitive that belongs to an owner. -/
structure Primitive where
  owner : Owner
  name : String
  signature : Signature
  run : List Value → Action Value

namespace Primitive

def constructorName : String :=
  "<init>"

def unary (ret : Kind) : Signature :=
  ⟨[.array], ret⟩

def table : List Primitive := [
  ⟨.reflect, "getLength", unary .int64, length⟩,
  ⟨.arrays, "toString", unary .string, render⟩,
  ⟨.arrays, "asList", unary .list, asList⟩,
  ⟨.arrays, "equals", ⟨[.array, .array], .bool⟩, equals⟩,
  ⟨.arrayIterator, constructorName, unary .iterator, iterator⟩,
  ⟨.arrayHelper, "head", unary .any, head⟩,
  ⟨.arrayHelper, "tail", unary .array, tail⟩,
  ⟨.arrayHelper, "isEmpty", unary .bool, isEmpty⟩]

/-- The primitive of an owner with exactly this name and signature. -/
def find? (owner : Owner) (name : String) (signature : Signature) : Option Primitive :=
  table.find? fun p => p.owner = owner && p.name = name && p.signature = signature

/-- The primitive as an operation, named with its owner. -/
def toOperation (p : Primitive) : Operation where
  name := s!"{p.owner.name}.{p.name}"
  signature := p.signature
  run := p.run

end Primitive

end LateBinding

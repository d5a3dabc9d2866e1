import LateBinding.Number.Binary
import LateBinding.Value.ValueType

/-!
# Values

A `Value` is what call sites pass and return.  Arrays and list views name a storage of the heap and
iterators name a cursor, so two values may alias one another; every other value stands for itself.
-/

namespace LateBinding

structure StorageId where
  index : Nat
deriving DecidableEq

structure CursorId where
  index : Nat
deriving DecidableEq

inductive Value where
  | int64 (n : Int64)
  | int32 (n : Int32)
  | float64 (x : Double)
  | float32 (x : Single)
  | bool (b : Bool)
  | char (c : Char)
  | nothing
  | string (s : String)
  | array (storage : StorageId)
  /-- A view of fixed size on a storage. -/
  | list (storage : StorageId)
  | iterator (cursor : CursorId)
  /-- A type as a value. -/
  | type (t : ValueType)
deriving DecidableEq

namespace Value

/-- The storage behind an array or a list view. -/
def storage? : Value → Option StorageId
  | array s | list s => some s
  | _ => none

def isNothing : Value → Bool
  | nothing => true
  | _ => false

def string? : Value → Option String
  | string s => some s
  | _ => none

end Value

/-- Whether a storage of this element type takes the value as it is. -/
def ElementType.admits : ElementType → Value → Bool
  | .int64, .int64 _ => true
  | .int32, .int32 _ => true
  | .float64, .float64 _ => true
  | .float32, .float32 _ => true
  | .bool, .bool _ => true
  | .char, .char _ => true
  | .string, .string _ => true
  | .any, _ => true
  | _, _ => false

@[simp] theorem ElementType.admits_any (v : Value) : ElementType.any.admits v = true := rfl

end LateBinding

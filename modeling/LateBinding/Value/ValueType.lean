/-!
# Types of values

`ElementType` says what one array storage holds; `ValueType` is the concrete type of a value, which
type guards compare and error texts name.
-/

namespace LateBinding

/-- What the elements of a storage are.  `any` admits every value. -/
inductive ElementType where
  | int64 | int32 | float64 | float32 | bool | char | string | any
deriving DecidableEq

namespace ElementType

def all : List ElementType :=
  [int64, int32, float64, float32, bool, char, string, any]

def name : ElementType → String
  | int64 => "Int64"
  | int32 => "Int32"
  | float64 => "Float64"
  | float32 => "Float32"
  | bool => "Bool"
  | char => "Char"
  | string => "String"
  | any => "Any"

def ofName? (s : String) : Option ElementType :=
  all.find? (·.name = s)

def arrayName (e : ElementType) : String :=
  "Array\x7b" ++ e.name ++ "\x7d"

end ElementType

/-- The concrete type of a value. -/
inductive ValueType where
  | int64 | int32 | float64 | float32 | bool | char | nothing | string
  | array (elem : ElementType)
  | list | iterator | type
deriving DecidableEq

/-- The category of a receiver, which decides who resolves its operations. -/
inductive Shape where
  | array | object
deriving DecidableEq

/-- The plural that resolution errors use. -/
def Shape.noun : Shape → String
  | array => "arrays"
  | object => "objects"

namespace ValueType

def all : List ValueType :=
  [int64, int32, float64, float32, bool, char, nothing, string, list, iterator, type] ++
    ElementType.all.map array

def name : ValueType → String
  | int64 => "Int64"
  | int32 => "Int32"
  | float64 => "Float64"
  | float32 => "Float32"
  | bool => "Bool"
  | char => "Char"
  | nothing => "Nothing"
  | string => "String"
  | array elem => elem.arrayName
  | list => "ListView"
  | iterator => "ArrayIterator"
  | type => "Type"

def ofName? (s : String) : Option ValueType :=
  all.find? (·.name = s)

def shape : ValueType → Shape
  | array _ => .array
  | _ => .object

def elementType? : ValueType → Option ElementType
  | array elem => some elem
  | _ => none

theorem shape_eq_array_iff {t : ValueType} : t.shape = .array ↔ ∃ elem, t = array elem := by
  cases t <;> simp [shape]

end ValueType

end LateBinding

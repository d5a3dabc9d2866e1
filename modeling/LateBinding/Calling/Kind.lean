import LateBinding.Value.Basic

/-!
# Kinds

The kinds that a calling signature is made of.  `any` accepts every value, and `void` stands for no
value in return position.
-/

namespace LateBinding

inductive Kind where
  | any | int64 | int32 | float64 | float32 | bool | char | string | void
  | array | list | iterator | type
deriving DecidableEq

namespace Kind

def all : List Kind :=
  [any, int64, int32, float64, float32, bool, char, string, void, array, list, iterator, type]

def name : Kind → String
  | any => "Any"
  | int64 => "Int64"
  | int32 => "Int32"
  | float64 => "Float64"
  | float32 => "Float32"
  | bool => "Bool"
  | char => "Char"
  | string => "String"
  | void => "Void"
  | array => "Array"
  | list => "ListView"
  | iterator => "ArrayIterator"
  | type => "Type"

def ofName? (s : String) : Option Kind :=
  all.find? (·.name = s)

def ofElement : ElementType → Kind
  | .int64 => int64
  | .int32 => int32
  | .float64 => float64
  | .float32 => float32
  | .bool => bool
  | .char => char
  | .string => string
  | .any => any

/-- The primitive widenings: to a longer integer, to a wider float, from a character to its code
point, and from an integer to the 64-bit float nearest to it. -/
def widensTo : Kind → Kind → Bool
  | int32, int64 | int32, float64 | int64, float64 | float32, float64
  | char, int32 | char, int64 => true
  | _, _ => false

end Kind

/-- The most specific kind that describes a value.  Nothing has no kind of its own. -/
def Value.kind : Value → Kind
  | int64 _ => .int64
  | int32 _ => .int32
  | float64 _ => .float64
  | float32 _ => .float32
  | bool _ => .bool
  | char _ => .char
  | nothing => .any
  | string _ => .string
  | array _ => .array
  | list _ => .list
  | iterator _ => .iterator
  | type _ => .type

end LateBinding

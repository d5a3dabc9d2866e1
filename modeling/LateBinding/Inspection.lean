import LateBinding.Calling.Operation
import LateBinding.Number.Layout
import LateBinding.Text.Quoted

/-!
# Inspection texts

Texts that show how a value, a signature or a binding is made up, for people who debug call sites.
Elements are left out, because an array may contain itself.
-/

namespace LateBinding.Inspection

/-- A record with named fields.  An `open` record has more fields than are shown. -/
def record (name : String) (fields : List (String × String)) (isOpen : Bool) : String :=
  let shown := fields.map fun (label, text) => label ++ ": " ++ text
  name ++ " \x7b " ++ ", ".intercalate (if isOpen then shown ++ [".."] else shown) ++ " \x7d"

def applied (name argument : String) : String :=
  name ++ "(" ++ argument ++ ")"

def list (texts : List String) : String :=
  "[" ++ ", ".intercalate texts ++ "]"

def elementType : ElementType → String
  | .int64 => "I64"
  | .int32 => "I32"
  | .float64 => "F64"
  | .float32 => "F32"
  | .bool => "Bool"
  | .char => "Char"
  | .string => "Str"
  | .any => "Any"

def valueType : ValueType → String
  | .int64 => "I64"
  | .int32 => "I32"
  | .float64 => "F64"
  | .float32 => "F32"
  | .bool => "Bool"
  | .char => "Char"
  | .nothing => "Nothing"
  | .string => "Str"
  | .array elem => applied "Array" (elementType elem)
  | .list => "List"
  | .iterator => "Iterator"
  | .type => "Type"

def kind : Kind → String
  | .any => "Any"
  | .int64 => "I64"
  | .int32 => "I32"
  | .float64 => "F64"
  | .float32 => "F32"
  | .bool => "Bool"
  | .char => "Char"
  | .string => "Str"
  | .void => "Void"
  | .array => "Array"
  | .list => "List"
  | .iterator => "Iterator"
  | .type => "Type"

def storage (h : Heap) (s : StorageId) : String :=
  let content := h.storage s
  record "ArrayRef"
    [("element_type", elementType content.elem), ("len", toString content.length)] false

def cursor (h : Heap) (c : CursorId) : String :=
  let position := (h.cursors[c.index]?.map Cursor.position).getD 0
  record "ArrayIterator"
    [("position", toString position), ("length", toString (h.cursorLength c))] false

def value (h : Heap) : Value → String
  | .int64 n => applied "I64" (toString n)
  | .int32 n => applied "I32" (toString n)
  | .float64 x => applied "F64" (x.text .inspection)
  | .float32 x => applied "F32" (x.text .inspection)
  | .bool b => applied "Bool" (toString b)
  | .char c => applied "Char" (Text.quoteChar c)
  | .nothing => "Nothing"
  | .string s => applied "Str" (Text.quoteString s)
  | .array s => applied "Array" (storage h s)
  | .list s => applied "List" (record "ListView" [("storage", storage h s)] false)
  | .iterator c => applied "Iterator" (cursor h c)
  | .type t => applied "Type" (valueType t)

def signature (s : Signature) : String :=
  record "Signature" [("params", list (s.params.map kind)), ("ret", kind s.ret)] false

def coercion : Coercion → String
  | .identity => "Identity"
  | .widen wanted => applied "Widen" (kind wanted)
  | .cast wanted => applied "Cast" (kind wanted)
  | .discard => "Discard"
  | .supplyNothing => "VoidToNothing"

def adapter (a : Adapter) : String :=
  record "Adapter" [("params", list (a.params.map coercion)), ("ret", coercion a.ret)] false

def operation (o : Operation) : String :=
  record "RawOperation"
    [("name", Text.quoteString o.name), ("signature", signature o.signature)] true

def target (t : Target) : String :=
  record "ResolutionTarget"
    [("name", Text.quoteString t.name), ("receiver_type", valueType t.receiver),
      ("signature", signature t.signature)] true

end LateBinding.Inspection

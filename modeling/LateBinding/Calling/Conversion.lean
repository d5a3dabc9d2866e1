import LateBinding.Calling.Kind
import LateBinding.Heap.Access

/-!
# Conversion of values

Widening to a kind, the checked cast to a kind, and reading a value as an index.  Conversions look
at the heap only to name the type of a value that does not convert.
-/

namespace LateBinding

/-- The value widened to another kind, if its kind widens to that kind. -/
def Value.widened? : Value → Kind → Option Value
  | .int32 n, .int64 => some (.int64 n.toInt64)
  | .int32 n, .float64 => some (.float64 (.ofInt n.toInt))
  | .int64 n, .float64 => some (.float64 (.ofInt n.toInt))
  | .float32 x, .float64 => some (.float64 x.toDouble)
  | .char c, .int32 => some (.int32 (.ofNat c.toNat))
  | .char c, .int64 => some (.int64 (.ofNat c.toNat))
  | _, _ => none

theorem Value.isSome_widened? (v : Value) (wanted : Kind) :
    (v.widened? wanted).isSome = v.kind.widensTo wanted := by
  cases v <;> cases wanted <;> rfl

namespace Heap

/-- Widens a value.  A value that is already of the kind is kept. -/
def widen (h : Heap) (v : Value) (wanted : Kind) : Except CallFault Value :=
  match v.widened? wanted with
  | some w => .ok w
  | none =>
    if v.kind = wanted then .ok v
    else .error (.type (.cannotConvert (h.typeOf v) wanted))

/-- Casts a value: it must be of the kind or widen to it. -/
def cast (h : Heap) (v : Value) (wanted : Kind) : Except CallFault Value :=
  if v.kind = wanted ∨ wanted = .any then .ok v
  else if v.kind.widensTo wanted then h.widen v wanted
  else .error (.type (.cannotCast (h.typeOf v) wanted))

/-- The index that an integer value stands for. -/
def asIndex (h : Heap) : Value → Except CallFault Int64
  | .int64 n => .ok n
  | .int32 n => .ok n.toInt64
  | v => .error (.type (.indexNotInteger (h.typeOf v)))

end Heap

end LateBinding

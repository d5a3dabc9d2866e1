import LateBinding.Calling.Kind

/-!
# Calling signatures
-/

namespace LateBinding

/-- The kinds of the parameters, receiver first, and of the result. -/
structure Signature where
  params : List Kind
  ret : Kind
deriving DecidableEq

namespace Signature

def dynamic (count : Nat) : Signature :=
  ⟨List.replicate count .any, .any⟩

/-- The signature with further parameters at a position. -/
def insert (s : Signature) (position : Nat) (kinds : List Kind) : Signature :=
  { s with params := s.params.take position ++ kinds ++ s.params.drop position }

/-- The signature as fault texts show it, such as `(Array, Int64)Any`. -/
def text (s : Signature) : String :=
  "(" ++ ", ".intercalate (s.params.map Kind.name) ++ ")" ++ s.ret.name

@[simp] theorem length_params_dynamic (count : Nat) : (dynamic count).params.length = count := by
  simp [dynamic]

end Signature

end LateBinding

import LateBinding.Resolution.Access

/-!
# Call sites
-/

namespace LateBinding

/-- An operation name, the signature of its calls, and the access rights of the code around it. -/
structure CallSite where
  name : String
  signature : Signature
  access : AccessContext
deriving DecidableEq

namespace CallSite

/-- A fully dynamic site with `arity` arguments after the receiver. -/
def dynamic (name : String) (arity : Nat) : CallSite :=
  ⟨name, .dynamic (arity + 1), .standard⟩

/-- The number of arguments after the receiver. -/
def arity (site : CallSite) : Nat :=
  site.signature.params.length - 1

end CallSite

end LateBinding

import LateBinding.Calling.Conversion

/-!
# Coercions

What happens to one value that crosses the boundary of a call site.  Which coercion takes a kind to
another is settled when the site is linked; only a cast is checked again on each call.
-/

namespace LateBinding

inductive Coercion where
  | identity
  | widen (wanted : Kind)
  /-- A cast from `any`, checked on each call. -/
  | cast (wanted : Kind)
  /-- The result of a call whose site wants none. -/
  | discard
  /-- No result, seen by a site that accepts any. -/
  | supplyNothing
deriving DecidableEq

namespace Coercion

def of? (source wanted : Kind) : Option Coercion :=
  if source = wanted then some identity
  else
    match source, wanted with
    | _, .void => some discard
    | .void, .any => some supplyNothing
    | .void, _ => none
    | _, .any => some identity
    | .any, wanted => some (cast wanted)
    | source, wanted => if source.widensTo wanted then some (widen wanted) else none

/-- The coercion of an argument.  No parameter is of kind `void`. -/
def forParameter? (source wanted : Kind) : Option Coercion :=
  if source = .void ∨ wanted = .void then none else of? source wanted

def apply (h : Heap) : Coercion → Value → Except CallFault Value
  | identity, v => .ok v
  | widen wanted, v => h.widen v wanted
  | cast wanted, v => h.cast v wanted
  | discard, _ | supplyNothing, _ => .ok .nothing

end Coercion

end LateBinding

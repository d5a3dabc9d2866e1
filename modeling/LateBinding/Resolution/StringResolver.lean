import LateBinding.Resolution.Resolver

/-!
# Operations of strings

A resolver for receivers that are not arrays: strings answer to `length`, which counts characters.
-/

namespace LateBinding

def stringLength : Operation where
  name := "String.length"
  signature := ⟨[.string], .int64⟩
  run := fun args => do
    match ← Primitive.argument args 0 with
    | .string s => return .int64 (.ofNat s.length)
    | _ => .fail (.type (.described "expected String"))

def Resolver.strings : Resolver := fun request =>
  let name := request.site.name
  if name = "length" then
    (stringLength.adapt request.site.signature request.receiver).mapError (.unlinkable name)
  else .error (.unsupported name "strings")

end LateBinding

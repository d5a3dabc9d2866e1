import LateBinding.Resolution.ArrayOperation
import LateBinding.Resolution.CallSite

/-!
# Resolution

Resolving a request binds the operation a call site names to the type of one receiver.  The array
resolver checks, in this order, the name, the number of arguments, the shape of the receiver, the
access rights and the signatures.
-/

namespace LateBinding

/-- What is known about one call that has to be resolved. -/
structure Request where
  site : CallSite
  receiver : ValueType
  /-- All arguments, receiver first. -/
  args : List Value

def Request.arity (request : Request) : Nat :=
  request.args.length - 1

/-- How the operations of one shape of receivers are resolved: by a function of the request alone.
A resolver keeps no state from one request to the next, and it sees no storage or cursor. -/
abbrev Resolver := Request → Except ResolutionFault Target

namespace Resolver

/-- Binds an operation for arrays of an element type.  Element access and the receiver's type belong
to no owner, so no access right guards them. -/
def bindOperation (access : AccessContext) (elem : ElementType) :
    ArrayOperation → Except LinkFault Operation
  | .get => .ok (Primitive.elementGet elem)
  | .set => .ok (Primitive.elementSet elem)
  | .length => access.bind .reflect "getLength" (Primitive.unary .int64)
  | .iterator => access.bindConstructor .arrayIterator (Primitive.unary .iterator)
  | .render => access.bind .arrays "toString" (Primitive.unary .string)
  | .listView => access.bind .arrays "asList" (Primitive.unary .list)
  | .equals => access.bind .arrays "equals" ⟨[.array, .array], .bool⟩
  | .receiverType =>
    .ok ((Operation.constant "getClass" .type (.type (.array elem))).ignoring 0 [.array])
  | .head => access.bind .arrayHelper "head" (Primitive.unary .any)
  | .tail => access.bind .arrayHelper "tail" (Primitive.unary .array)
  | .isEmpty => access.bind .arrayHelper "isEmpty" (Primitive.unary .bool)

/-- Binds an operation for a receiver type and adapts it to the site. -/
def link (site : CallSite) (receiver : ValueType) (operation : ArrayOperation) :
    Except LinkFault Target := do
  let some elem := receiver.elementType? | throw (.notArray receiver.name)
  let bound ← bindOperation site.access elem operation
  bound.adapt site.signature receiver

def arrays : Resolver := fun request =>
  let name := request.site.name
  match ArrayOperation.ofName? name with
  | none => .error (.unsupported name Shape.array.noun)
  | some operation =>
    if request.arity = operation.arity then
      (link request.site request.receiver operation).mapError (.unlinkable name)
    else .error (.wrongArity name Shape.array.noun operation.arity request.arity)

end Resolver

end LateBinding

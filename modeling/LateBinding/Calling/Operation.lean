import LateBinding.Calling.Adapter
import LateBinding.Heap.Action

/-!
# Operations and targets

An `Operation` runs on arguments in its own kinds.  Adapting it to a site's signature gives a
`Target`, bound to one receiver type, which runs on arguments in the site's kinds.
-/

namespace LateBinding

structure Operation where
  name : String
  signature : Signature
  run : List Value → Action Value

/-- An operation that is adapted to a call site and bound to a receiver type. -/
structure Target where
  name : String
  receiver : ValueType
  /-- The signature of the site. -/
  signature : Signature
  adapter : Adapter
  /-- The operation itself, on arguments in its own kinds. -/
  body : List Value → Action Value

/-- Calls a target with arguments in the site's kinds. -/
def Target.call (target : Target) (args : List Value) : Action Value := do
  let adapted ← Action.query fun h => target.adapter.passArgs h args
  let result ← target.body adapted
  Action.query fun h => target.adapter.passResult h result

namespace Operation

/-- The operation without parameters that always gives the same value. -/
def constant (name : String) (kind : Kind) (v : Value) : Operation where
  name := name
  signature := ⟨[], kind⟩
  run := fun _ => pure v

/-- The operation with further parameters at a position, which it ignores. -/
def ignoring (operation : Operation) (position : Nat) (kinds : List Kind) : Operation where
  name := operation.name
  signature := operation.signature.insert position kinds
  run := fun args => operation.run (args.take position ++ args.drop (position + kinds.length))

/-- Adapts an operation to a site's signature and binds it to a receiver type. -/
def adapt (operation : Operation) (site : Signature) (receiver : ValueType) :
    Except LinkFault Target := do
  let adapter ← Adapter.ofSignatures operation.signature site
  return { name := operation.name, receiver, signature := site, adapter, body := operation.run }

end Operation

end LateBinding

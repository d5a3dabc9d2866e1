import LateBinding.Calling.Coercion
import LateBinding.Calling.Signature

/-!
# Adapters

An adapter lets an operation of one signature be called through a site of another: one coercion per
parameter, from the site's kind to the operation's, and one for the result, the other way round.
-/

namespace LateBinding

structure Adapter where
  params : List Coercion
  ret : Coercion
deriving DecidableEq

namespace Adapter

/-- The adapter that lets `target` be called through `site`. -/
def ofSignatures (target site : Signature) : Except LinkFault Adapter :=
  let params? := (site.params.zip target.params).mapM fun (source, wanted) =>
    Coercion.forParameter? source wanted
  match params?, Coercion.of? target.ret site.ret with
  | some params, some ret =>
    if target.params.length = site.params.length then .ok { params, ret }
    else .error (.noAdapter target.text site.text)
  | _, _ => .error (.noAdapter target.text site.text)

/-- The arguments of a call in the operation's kinds. -/
def passArgs (h : Heap) (adapter : Adapter) (args : List Value) :
    Except CallFault (List Value) :=
  if args.length = adapter.params.length then
    (adapter.params.zip args).mapM fun (coercion, v) => coercion.apply h v
  else .error (.argument (.wrongCount adapter.params.length args.length))

def passResult (h : Heap) (adapter : Adapter) (v : Value) : Except CallFault Value :=
  adapter.ret.apply h v

/-- Whether no coercion changes anything. -/
def isIdentity (adapter : Adapter) : Bool :=
  adapter.ret == .identity && adapter.params.all (· == .identity)

end Adapter

end LateBinding

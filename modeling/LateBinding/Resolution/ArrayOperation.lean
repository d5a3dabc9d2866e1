/-!
# The operations of arrays

What array receivers can be asked for, and the closed list of the names that ask for it.
-/

namespace LateBinding

inductive ArrayOperation where
  | get | set | length | iterator | render | listView | equals
  /-- The type of the receiver, as a value. -/
  | receiverType
  | head | tail | isEmpty
deriving DecidableEq

namespace ArrayOperation

/-- The number of arguments after the receiver. -/
def arity : ArrayOperation → Nat
  | get => 1
  | set => 2
  | equals => 1
  | _ => 0

/-- The names of the operations.  The element count has two. -/
def names : List (String × ArrayOperation) := [
  ("get", get),
  ("set", set),
  ("size", length),
  ("length", length),
  ("iterator", iterator),
  ("toString", render),
  ("asList", listView),
  ("equals", equals),
  ("getClass", receiverType),
  ("head", head),
  ("tail", tail),
  ("isEmpty", isEmpty)]

/-- The operation of a name, which must match in case. -/
def ofName? (name : String) : Option ArrayOperation :=
  names.lookup name

/-- The operation under one of its names, as `name/arity`. -/
def text (name : String) (operation : ArrayOperation) : String :=
  s!"{name}/{operation.arity}"

end ArrayOperation

end LateBinding

import LateBinding.Calling.Kind

/-!
# Faults

Why a primitive could not be bound (`LinkFault`), why an operation could not be resolved
(`ResolutionFault`), and why a call failed (`CallFault`), each with its text.  A fault carries the
texts of the owners, signatures and types that it speaks of.
-/

namespace LateBinding

/-- Why a primitive could not be bound or adapted. -/
inductive LinkFault where
  | noPrimitive (owner name signature : String)
  /-- The caller may not bind primitives of this owner. -/
  | denied (caller owner : String)
  /-- The primitive's signature `source` does not convert to the call site's signature `site`. -/
  | noAdapter (source site : String)
  | notArray (type : String)
deriving DecidableEq

def LinkFault.message : LinkFault → String
  | noPrimitive owner name signature => s!"no primitive {owner}.{name}{signature}"
  | denied caller owner => s!"{caller} may not access {owner}"
  | noAdapter source site => s!"cannot adapt {source} to {site}"
  | notArray type => s!"receiver type {type} is not array-shaped"

/-- Why an operation could not be resolved at a call site. -/
inductive ResolutionFault where
  | unsupported (operation shape : String)
  | wrongArity (operation shape : String) (expected actual : Nat)
  | unlinkable (operation : String) (cause : LinkFault)
deriving DecidableEq

namespace ResolutionFault

def operation : ResolutionFault → String
  | unsupported operation _ => operation
  | wrongArity operation _ _ _ => operation
  | unlinkable operation _ => operation

def parameterCount : Nat → String
  | 0 => "no parameters"
  | 1 => "1 parameter"
  | n => s!"{n} parameters"

def message : ResolutionFault → String
  | unsupported operation shape => s!"{operation} is not supported on {shape}"
  | wrongArity operation shape expected _ =>
    s!"{operation} on {shape} takes {parameterCount expected}"
  | unlinkable operation cause => s!"cannot resolve {operation}: {cause.message}"

end ResolutionFault

/-- How the type of a value failed to fit. -/
inductive TypeFault where
  | cannotConvert (actual : ValueType) (wanted : Kind)
  | cannotCast (actual : ValueType) (wanted : Kind)
  | indexNotInteger (actual : ValueType)
  | cannotStore (actual : ValueType) (elem : ElementType)
  /-- Access for one element type met a storage of another. -/
  | wrongElementAccess (wanted actual : ElementType)
  | expectedArray (actual : ValueType)
  /-- A fault that an operation from outside the library describes itself. -/
  | described (text : String)
deriving DecidableEq

def TypeFault.message : TypeFault → String
  | cannotConvert actual wanted => s!"cannot convert {actual.name} to {wanted.name}"
  | cannotCast actual wanted => s!"cannot cast {actual.name} to {wanted.name}"
  | indexNotInteger actual => s!"index must be an integer, got {actual.name}"
  | cannotStore actual elem => s!"cannot store {actual.name} in {elem.arrayName}"
  | wrongElementAccess wanted actual =>
    s!"element access for {wanted.arrayName} applied to {actual.arrayName}"
  | expectedArray actual => s!"expected Array, got {actual.name}"
  | described text => text

inductive ArgumentFault where
  | noReceiver (operation : String)
  | wrongCount (expected actual : Nat)
  /-- An operation asked for an argument position that the list does not reach. -/
  | missing (position : Nat)
  | headOfEmpty
  /-- A fault that an operation from outside the library describes itself. -/
  | described (text : String)
deriving DecidableEq

def ArgumentFault.message : ArgumentFault → String
  | noReceiver operation => s!"{operation} called without a receiver"
  | wrongCount expected actual => s!"expected {expected} arguments, got {actual}"
  | missing position => s!"missing argument {position}"
  | headOfEmpty => "head of an empty array"
  | described text => text

inductive OverflowFault where
  | notInt64 (n : Nat)
  /-- A fault that an operation from outside the library describes itself. -/
  | described (text : String)
deriving DecidableEq

def OverflowFault.message : OverflowFault → String
  | notInt64 n => s!"{n} does not fit in Int64"
  | described text => text

inductive CallFault where
  | resolution (fault : ResolutionFault)
  | type (fault : TypeFault)
  | bounds (index : Int64) (length : Nat)
  | argument (fault : ArgumentFault)
  | overflow (fault : OverflowFault)
deriving DecidableEq

namespace CallFault

/-- The resolution fault behind a failed call, if the call was never bound. -/
def resolution? : CallFault → Option ResolutionFault
  | resolution fault => some fault
  | _ => none

def message : CallFault → String
  | resolution fault => fault.message
  | type fault => "TypeError: " ++ fault.message
  | bounds index length =>
    s!"BoundsError: attempt to access index {index} of array with length {length}"
  | argument fault => "ArgumentError: " ++ fault.message
  | overflow fault => "OverflowError: " ++ fault.message

end CallFault

end LateBinding

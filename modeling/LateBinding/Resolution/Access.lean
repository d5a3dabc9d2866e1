import LateBinding.Resolution.Primitive

/-!
# Access contexts

The access rights of the code that owns a call site.  Primitives are bound through a context, so the
context decides what a site may call.
-/

namespace LateBinding

structure AccessContext where
  /-- The name of the code in fault texts. -/
  caller : String
  /-- The owners that access is denied to, in the order of their first denial. -/
  denied : List Owner
deriving DecidableEq

namespace AccessContext

/-- The context of a caller who may bind everything. -/
def full (caller : String) : AccessContext :=
  ⟨caller, []⟩

/-- The context of sites that name none. -/
def standard : AccessContext :=
  full "<runtime>"

/-- Takes the access to every primitive of an owner away. -/
def deny (context : AccessContext) (owner : Owner) : AccessContext :=
  if owner ∈ context.denied then context
  else { context with denied := context.denied ++ [owner] }

def canAccess (context : AccessContext) (owner : Owner) : Bool :=
  owner ∉ context.denied

/-- Binds the primitive of an owner with exactly this name and signature.  A primitive that does not
exist is reported before a denied one. -/
def bind (context : AccessContext) (owner : Owner) (name : String) (signature : Signature) :
    Except LinkFault Operation :=
  match Primitive.find? owner name signature with
  | none => .error (.noPrimitive owner.name name signature.text)
  | some p =>
    if context.canAccess owner then .ok p.toOperation
    else .error (.denied context.caller owner.name)

/-- Binds the constructor of an owner with exactly this signature. -/
def bindConstructor (context : AccessContext) (owner : Owner) (signature : Signature) :
    Except LinkFault Operation :=
  context.bind owner Primitive.constructorName signature

theorem mem_denied_deny {context : AccessContext} {owner other : Owner} :
    other ∈ (context.deny owner).denied ↔ other = owner ∨ other ∈ context.denied := by
  unfold deny
  split
  · next hmem =>
    constructor
    · exact Or.inr
    · rintro (rfl | hother)
      · exact hmem
      · exact hother
  · simp [or_comm]

end AccessContext

end LateBinding

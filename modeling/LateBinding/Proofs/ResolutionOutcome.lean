import LateBinding.Proofs.ArrayResolution

/-!
# Outcomes of array resolution

What the resolver of arrays makes of any request.  `ArrayOutcome` lists the outcomes in order of
precedence: the name, the number of arguments, the shape of the receiver, the access right and the
signatures are looked at in turn, and the first that is wrong is reported.  The primitives that the
resolver asks for by owner, name and signature are all in the table, so none is ever missing.
-/

namespace LateBinding

namespace ArrayOperation

theorem ofName?_eq_some_iff {name : String} {operation : ArrayOperation} :
    ofName? name = some operation ↔ (name, operation) ∈ names := by
  constructor
  · intro hname
    obtain ⟨before, after, hnames, _⟩ := List.lookup_eq_some_iff.1 hname
    rw [hnames]
    exact List.mem_append_right _ List.mem_cons_self
  · -- no name stands twice in the list
    intro hmem
    simp only [names, List.mem_cons, List.not_mem_nil, or_false, Prod.mk.injEq] at hmem
    rcases hmem with ⟨rfl, rfl⟩ | ⟨rfl, rfl⟩ | ⟨rfl, rfl⟩ | ⟨rfl, rfl⟩ | ⟨rfl, rfl⟩ | ⟨rfl, rfl⟩ |
      ⟨rfl, rfl⟩ | ⟨rfl, rfl⟩ | ⟨rfl, rfl⟩ | ⟨rfl, rfl⟩ | ⟨rfl, rfl⟩ | ⟨rfl, rfl⟩ <;> rfl

theorem eq_of_mem_names {name : String} {operation other : ArrayOperation}
    (hoperation : (name, operation) ∈ names) (hother : (name, other) ∈ names) :
    operation = other := by
  have hname := ofName?_eq_some_iff.2 hoperation
  rw [ofName?_eq_some_iff.2 hother] at hname
  exact (Option.some.inj hname).symm

/-- The owner whose access right an operation needs. -/
def owner? : ArrayOperation → Option Owner
  | get | set | receiverType => none
  | length => some .reflect
  | render | listView | equals => some .arrays
  | iterator => some .arrayIterator
  | head | tail | isEmpty => some .arrayHelper

/-- What an operation is for arrays of one element type, before access rights and sites come in. -/
def primitive (elem : ElementType) : ArrayOperation → Operation
  | get => Primitive.elementGet elem
  | set => Primitive.elementSet elem
  | length => ⟨"Reflect.getLength", ⟨[.array], .int64⟩, Primitive.length⟩
  | iterator => ⟨"ArrayIterator.<init>", ⟨[.array], .iterator⟩, Primitive.iterator⟩
  | render => ⟨"Arrays.toString", ⟨[.array], .string⟩, Primitive.render⟩
  | listView => ⟨"Arrays.asList", ⟨[.array], .list⟩, Primitive.asList⟩
  | equals => ⟨"Arrays.equals", ⟨[.array, .array], .bool⟩, Primitive.equals⟩
  | receiverType => ⟨"getClass", ⟨[.array], .type⟩, fun _ => pure (.type (.array elem))⟩
  | head => ⟨"ArrayHelper.head", ⟨[.array], .any⟩, Primitive.head⟩
  | tail => ⟨"ArrayHelper.tail", ⟨[.array], .array⟩, Primitive.tail⟩
  | isEmpty => ⟨"ArrayHelper.isEmpty", ⟨[.array], .bool⟩, Primitive.isEmpty⟩

end ArrayOperation

/-! ## The table of primitives -/

theorem Primitive.find?_of_mem {p : Primitive} (hp : p ∈ Primitive.table) :
    Primitive.find? p.owner p.name p.signature = some p := by
  simp only [table, List.mem_cons, List.not_mem_nil, or_false] at hp
  rcases hp with rfl | rfl | rfl | rfl | rfl | rfl | rfl | rfl <;> rfl

theorem AccessContext.bind_of_granted {access : AccessContext} {p : Primitive}
    (hp : p ∈ Primitive.table) (hgranted : p.owner ∉ access.denied) :
    access.bind p.owner p.name p.signature = .ok p.toOperation := by
  simp [bind, Primitive.find?_of_mem hp, canAccess, hgranted]

theorem AccessContext.bind_of_denied {access : AccessContext} {p : Primitive}
    (hp : p ∈ Primitive.table) (hdenied : p.owner ∈ access.denied) :
    access.bind p.owner p.name p.signature = .error (.denied access.caller p.owner.name) := by
  simp [bind, Primitive.find?_of_mem hp, canAccess, hdenied]

namespace Resolver

/-- The resolver asks for an operation with an owner by the owner, name and signature of an entry of
the table, and this entry is what the operation stands for. -/
theorem bindOperation_of_owner {operation : ArrayOperation} {owner : Owner}
    (howner : operation.owner? = some owner) (access : AccessContext) (elem : ElementType) :
    ∃ p ∈ Primitive.table, p.owner = owner ∧ p.toOperation = operation.primitive elem ∧
      bindOperation access elem operation = access.bind p.owner p.name p.signature := by
  cases operation with
  | get | set | receiverType => contradiction
  | length =>
      cases howner
      exact ⟨⟨.reflect, "getLength", Primitive.unary .int64, Primitive.length⟩,
        by simp [Primitive.table], rfl, rfl, rfl⟩
  | iterator =>
      cases howner
      exact ⟨⟨.arrayIterator, Primitive.constructorName, Primitive.unary .iterator,
        Primitive.iterator⟩, by simp [Primitive.table], rfl, rfl, rfl⟩
  | render =>
      cases howner
      exact ⟨⟨.arrays, "toString", Primitive.unary .string, Primitive.render⟩,
        by simp [Primitive.table], rfl, rfl, rfl⟩
  | listView =>
      cases howner
      exact ⟨⟨.arrays, "asList", Primitive.unary .list, Primitive.asList⟩,
        by simp [Primitive.table], rfl, rfl, rfl⟩
  | equals =>
      cases howner
      exact ⟨⟨.arrays, "equals", ⟨[.array, .array], .bool⟩, Primitive.equals⟩,
        by simp [Primitive.table], rfl, rfl, rfl⟩
  | head =>
      cases howner
      exact ⟨⟨.arrayHelper, "head", Primitive.unary .any, Primitive.head⟩,
        by simp [Primitive.table], rfl, rfl, rfl⟩
  | tail =>
      cases howner
      exact ⟨⟨.arrayHelper, "tail", Primitive.unary .array, Primitive.tail⟩,
        by simp [Primitive.table], rfl, rfl, rfl⟩
  | isEmpty =>
      cases howner
      exact ⟨⟨.arrayHelper, "isEmpty", Primitive.unary .bool, Primitive.isEmpty⟩,
        by simp [Primitive.table], rfl, rfl, rfl⟩

theorem bindOperation_of_granted {access : AccessContext} {operation : ArrayOperation}
    (hgranted : ∀ owner ∈ operation.owner?, owner ∉ access.denied) (elem : ElementType) :
    bindOperation access elem operation = .ok (operation.primitive elem) := by
  cases howner : operation.owner? with
  | none => cases operation <;> first | rfl | contradiction
  | some owner =>
      obtain ⟨p, hp, rfl, hoperation, hbound⟩ := bindOperation_of_owner howner access elem
      rw [hbound, AccessContext.bind_of_granted hp (hgranted _ howner), hoperation]

theorem bindOperation_of_denied {access : AccessContext} {operation : ArrayOperation}
    {owner : Owner} (howner : operation.owner? = some owner) (hdenied : owner ∈ access.denied)
    (elem : ElementType) :
    bindOperation access elem operation = .error (.denied access.caller owner.name) := by
  obtain ⟨p, hp, rfl, _, hbound⟩ := bindOperation_of_owner howner access elem
  rw [hbound, AccessContext.bind_of_denied hp hdenied]

end Resolver

/-! ## Adapting -/

theorem Adapter.fault_of_ofSignatures {target site : Signature} {fault : LinkFault}
    (hadapter : Adapter.ofSignatures target site = .error fault) :
    fault = .noAdapter target.text site.text := by
  simp only [Adapter.ofSignatures] at hadapter
  split at hadapter
  · split at hadapter
    · contradiction
    · exact (Except.error.inj hadapter).symm
  · exact (Except.error.inj hadapter).symm

theorem Operation.adapt_of_no_adapter {operation : Operation} {site : Signature}
    (hadapter : ∀ adapter, Adapter.ofSignatures operation.signature site ≠ .ok adapter)
    (receiver : ValueType) :
    operation.adapt site receiver = .error (.noAdapter operation.signature.text site.text) := by
  cases hadapted : Adapter.ofSignatures operation.signature site with
  | ok adapter => exact absurd hadapted (hadapter adapter)
  | error fault =>
      rw [← Adapter.fault_of_ofSignatures hadapted]
      simp [Operation.adapt, hadapted, Bind.bind, Except.bind]

/-! ## Requests -/

/-- The request names an operation of arrays and passes as many arguments as it takes. -/
structure Request.Calls (request : Request) (operation : ArrayOperation) : Prop where
  name_mem : (request.site.name, operation) ∈ ArrayOperation.names
  arity_eq : request.args.length - 1 = operation.arity

/-- What the resolver of arrays makes of a request, in order of precedence: each outcome excludes
what the outcomes above it report. -/
inductive ArrayOutcome (request : Request) : Except ResolutionFault Target → Prop where
  | unsupported (hname : ∀ operation, (request.site.name, operation) ∉ ArrayOperation.names) :
      ArrayOutcome request (.error (.unsupported request.site.name "arrays"))
  | wrongArity {operation : ArrayOperation}
      (hname : (request.site.name, operation) ∈ ArrayOperation.names)
      (harity : request.args.length - 1 ≠ operation.arity) :
      ArrayOutcome request (.error
        (.wrongArity request.site.name "arrays" operation.arity (request.args.length - 1)))
  | notArray {operation : ArrayOperation} (hcalls : request.Calls operation)
      (hreceiver : ∀ elem, request.receiver ≠ .array elem) :
      ArrayOutcome request (.error
        (.unlinkable request.site.name (.notArray request.receiver.name)))
  | denied {operation : ArrayOperation} {elem : ElementType} {owner : Owner}
      (hcalls : request.Calls operation) (hreceiver : request.receiver = .array elem)
      (howner : operation.owner? = some owner) (hdenied : owner ∈ request.site.access.denied) :
      ArrayOutcome request (.error
        (.unlinkable request.site.name (.denied request.site.access.caller owner.name)))
  | noAdapter {operation : ArrayOperation} {elem : ElementType}
      (hcalls : request.Calls operation) (hreceiver : request.receiver = .array elem)
      (hgranted : ∀ owner ∈ operation.owner?, owner ∉ request.site.access.denied)
      (hadapter : ∀ adapter, Adapter.ofSignatures (operation.primitive elem).signature
        request.site.signature ≠ .ok adapter) :
      ArrayOutcome request (.error (.unlinkable request.site.name
        (.noAdapter (operation.primitive elem).signature.text request.site.signature.text)))
  | bound {operation : ArrayOperation} {elem : ElementType} {adapter : Adapter}
      (hcalls : request.Calls operation) (hreceiver : request.receiver = .array elem)
      (hgranted : ∀ owner ∈ operation.owner?, owner ∉ request.site.access.denied)
      (hadapter : Adapter.ofSignatures (operation.primitive elem).signature
        request.site.signature = .ok adapter) :
      ArrayOutcome request (.ok {
        name := (operation.primitive elem).name
        receiver := request.receiver
        signature := request.site.signature
        adapter := adapter
        body := (operation.primitive elem).run })

namespace Resolver

variable {request : Request}

theorem arrays_of_calls {operation : ArrayOperation} (hcalls : request.Calls operation) :
    arrays request =
      (link request.site request.receiver operation).mapError (.unlinkable request.site.name) := by
  have hname := ArrayOperation.ofName?_eq_some_iff.2 hcalls.name_mem
  have harity : request.arity = operation.arity := hcalls.arity_eq
  simp [arrays, hname, harity]

theorem link_array (site : CallSite) (elem : ElementType) (operation : ArrayOperation) :
    link site (.array elem) operation =
      (bindOperation site.access elem operation).bind (·.adapt site.signature (.array elem)) :=
  rfl

theorem arrays_eq_of_arrayOutcome {outcome : Except ResolutionFault Target}
    (houtcome : ArrayOutcome request outcome) : arrays request = outcome := by
  cases houtcome with
  | unsupported hname =>
      cases hfound : ArrayOperation.ofName? request.site.name with
      | none => simp [arrays, hfound, Shape.noun]
      | some operation =>
          exact absurd (ArrayOperation.ofName?_eq_some_iff.1 hfound) (hname operation)
  | wrongArity hname harity =>
      exact arrays_eq_wrongArity (ArrayOperation.ofName?_eq_some_iff.2 hname) harity
  | notArray hcalls hreceiver =>
      rw [arrays_of_calls hcalls]
      cases hshape : request.receiver with
      | array elem => exact absurd hshape (hreceiver elem)
      | _ => rfl
  | denied hcalls hreceiver howner hdenied =>
      rw [arrays_of_calls hcalls, hreceiver, link_array, bindOperation_of_denied howner hdenied]
      rfl
  | noAdapter hcalls hreceiver hgranted hadapter =>
      rw [arrays_of_calls hcalls, hreceiver, link_array, bindOperation_of_granted hgranted]
      simp only [Except.bind, Operation.adapt_of_no_adapter hadapter]
      rfl
  | bound hcalls hreceiver hgranted hadapter =>
      rw [arrays_of_calls hcalls, hreceiver, link_array, bindOperation_of_granted hgranted]
      simp only [Except.bind, Operation.adapt_eq_ok_iff.2 ⟨_, hadapter, rfl⟩]
      rfl

theorem exists_arrayOutcome (request : Request) : ∃ outcome, ArrayOutcome request outcome := by
  by_cases hnamed : ∃ operation, (request.site.name, operation) ∈ ArrayOperation.names
  · obtain ⟨operation, hname⟩ := hnamed
    by_cases harity : request.args.length - 1 = operation.arity
    · have hcalls : request.Calls operation := ⟨hname, harity⟩
      by_cases harray : ∃ elem, request.receiver = .array elem
      · obtain ⟨elem, hreceiver⟩ := harray
        by_cases hdenied : ∃ owner ∈ operation.owner?, owner ∈ request.site.access.denied
        · obtain ⟨owner, howner, hdenied⟩ := hdenied
          exact ⟨_, .denied hcalls hreceiver howner hdenied⟩
        · have hgranted : ∀ owner ∈ operation.owner?, owner ∉ request.site.access.denied :=
            fun owner howner hmem => hdenied ⟨owner, howner, hmem⟩
          by_cases hadapted : ∃ adapter, Adapter.ofSignatures (operation.primitive elem).signature
              request.site.signature = .ok adapter
          · obtain ⟨adapter, hadapter⟩ := hadapted
            exact ⟨_, .bound hcalls hreceiver hgranted hadapter⟩
          · exact ⟨_, .noAdapter hcalls hreceiver hgranted (not_exists.1 hadapted)⟩
      · exact ⟨_, .notArray hcalls (not_exists.1 harray)⟩
    · exact ⟨_, .wrongArity hname harity⟩
  · exact ⟨_, .unsupported (not_exists.1 hnamed)⟩

theorem arrayOutcome_arrays (request : Request) : ArrayOutcome request (arrays request) := by
  obtain ⟨outcome, houtcome⟩ := exists_arrayOutcome request
  rw [arrays_eq_of_arrayOutcome houtcome]
  exact houtcome

/-- The outcome of a request is the one that its name, its number of arguments, its receiver, its
access rights and its signatures call for, and no primitive is ever missing. -/
theorem arrays_outcome (request : Request) :
    (∀ outcome, arrays request = outcome ↔ ArrayOutcome request outcome) ∧
      ∀ operation owner name signature,
        arrays request ≠ .error (.unlinkable operation (.noPrimitive owner name signature)) := by
  have hiff : ∀ outcome, arrays request = outcome ↔ ArrayOutcome request outcome := by
    intro outcome
    refine ⟨?_, arrays_eq_of_arrayOutcome⟩
    rintro rfl
    obtain ⟨outcome, houtcome⟩ := exists_arrayOutcome request
    rw [arrays_eq_of_arrayOutcome houtcome]
    exact houtcome
  refine ⟨hiff, ?_⟩
  intro operation owner name signature hmissing
  cases (hiff _).1 hmissing

end Resolver

end LateBinding

import LateBinding.Proofs.PartialMaps
import LateBinding.Resolution.Resolver

/-!
# Array resolution

What a successful resolution of an array operation says about the site and about the target.  The
arguments of the request matter by their number alone, and that number is the one the site declares:
an operation of arity `n` has `n + 1` parameters, and an adapter pairs the parameters of operation
and site one by one.
-/

namespace LateBinding

/-! ## Adapted operations -/

theorem Adapter.ofSignatures_eq_ok_iff {target site : Signature} {adapter : Adapter} :
    Adapter.ofSignatures target site = .ok adapter ↔
      target.params.length = site.params.length ∧
      (site.params.zip target.params).mapM (fun pair => Coercion.forParameter? pair.1 pair.2) =
        some adapter.params ∧
      Coercion.of? target.ret site.ret = some adapter.ret := by
  rcases adapter with ⟨params, ret⟩
  simp only [Adapter.ofSignatures]
  cases (site.params.zip target.params).mapM fun pair => Coercion.forParameter? pair.1 pair.2 with
  | none => simp
  | some found =>
      cases Coercion.of? target.ret site.ret with
      | none => simp
      | some foundRet =>
          by_cases hlength : target.params.length = site.params.length <;> simp [hlength]

theorem Adapter.length_eq_of_ofSignatures {target site : Signature} {adapter : Adapter}
    (hadapter : Adapter.ofSignatures target site = .ok adapter) :
    target.params.length = site.params.length ∧
      adapter.params.length = site.params.length := by
  obtain ⟨hlength, hparams, _⟩ := Adapter.ofSignatures_eq_ok_iff.1 hadapter
  have hpaired := (forall₂_of_mapM_eq_some hparams).length_eq
  rw [List.length_zip, hlength, Nat.min_self] at hpaired
  exact ⟨hlength, hpaired.symm⟩

theorem Operation.adapt_eq_ok_iff {operation : Operation} {site : Signature}
    {receiver : ValueType} {target : Target} :
    operation.adapt site receiver = .ok target ↔
      ∃ adapter, Adapter.ofSignatures operation.signature site = .ok adapter ∧
        target = ⟨operation.name, receiver, site, adapter, operation.run⟩ := by
  unfold Operation.adapt
  cases Adapter.ofSignatures operation.signature site with
  | error fault => simp [bind, Except.bind]
  | ok adapter => simp [bind, Except.bind, pure, Except.pure, eq_comm]

/-! ## Bound operations -/

theorem AccessContext.signature_of_bind {context : AccessContext} {owner : Owner} {name : String}
    {signature : Signature} {operation : Operation}
    (hbind : context.bind owner name signature = .ok operation) :
    operation.signature = signature := by
  unfold AccessContext.bind at hbind
  split at hbind
  · contradiction
  · rename_i p hfind
    split at hbind
    · cases hbind
      have hmatches := List.find?_some hfind
      simp only [Bool.and_eq_true, decide_eq_true_eq] at hmatches
      exact hmatches.2
    · contradiction

namespace Resolver

/-- An operation has a parameter for the receiver and one for each further argument. -/
theorem length_params_of_bindOperation {access : AccessContext} {elem : ElementType}
    {operation : ArrayOperation} {bound : Operation}
    (hbound : bindOperation access elem operation = .ok bound) :
    bound.signature.params.length = operation.arity + 1 := by
  cases operation with
  | get =>
      cases hbound
      rfl
  | set =>
      cases hbound
      rfl
  | receiverType =>
      cases hbound
      rfl
  | length | iterator | render | listView | equals | head | tail | isEmpty =>
      simp only [bindOperation, AccessContext.bindConstructor] at hbound
      rw [AccessContext.signature_of_bind hbound]
      rfl

theorem link_eq_ok_iff {site : CallSite} {receiver : ValueType} {operation : ArrayOperation}
    {target : Target} :
    link site receiver operation = .ok target ↔
      ∃ elem bound, receiver = .array elem ∧
        bindOperation site.access elem operation = .ok bound ∧
        bound.adapt site.signature receiver = .ok target := by
  cases receiver with
  | array elem =>
      cases hbound : bindOperation site.access elem operation with
      | error fault => simp [link, ValueType.elementType?, hbound, bind, Except.bind]
      | ok bound => simp [link, ValueType.elementType?, hbound, bind, Except.bind]
  | _ => simp [link, ValueType.elementType?, throw, throwThe, MonadExceptOf.throw]

theorem arrays_eq_ok_iff {request : Request} {target : Target} :
    arrays request = .ok target ↔
      ∃ operation, ArrayOperation.ofName? request.site.name = some operation ∧
        request.arity = operation.arity ∧
        link request.site request.receiver operation = .ok target := by
  cases hname : ArrayOperation.ofName? request.site.name with
  | none => simp [arrays, hname]
  | some operation =>
      by_cases harity : request.arity = operation.arity
      · cases hlink : link request.site request.receiver operation <;>
          simp [arrays, hname, harity, hlink, Except.mapError]
      · simp [arrays, hname, harity]

/-- Operation, site and adapter of a linked target have equally many parameters. -/
theorem length_params_of_link {site : CallSite} {receiver : ValueType}
    {operation : ArrayOperation} {target : Target}
    (hlink : link site receiver operation = .ok target) :
    site.signature.params.length = operation.arity + 1 ∧
      target.adapter.params.length = operation.arity + 1 := by
  obtain ⟨elem, bound, _, hbound, hadapt⟩ := link_eq_ok_iff.1 hlink
  obtain ⟨adapter, hadapter, rfl⟩ := Operation.adapt_eq_ok_iff.1 hadapt
  have hparams := length_params_of_bindOperation hbound
  obtain ⟨hsite, hadapted⟩ := Adapter.length_eq_of_ofSignatures hadapter
  exact ⟨hsite.symm.trans hparams, hadapted.trans (hsite.symm.trans hparams)⟩

/-- Of the arguments, only the number settles a successful resolution, and every list as long as the
site's signature has that number. -/
theorem arrays_eq_ok_of_length {site : CallSite} {receiver : ValueType} {args others : List Value}
    {target : Target} (hresolve : arrays ⟨site, receiver, args⟩ = .ok target)
    (hlength : others.length = site.signature.params.length) :
    arrays ⟨site, receiver, others⟩ = .ok target := by
  obtain ⟨operation, hname, _, hlink⟩ := arrays_eq_ok_iff.1 hresolve
  have hsite : site.signature.params.length = operation.arity + 1 :=
    (length_params_of_link hlink).1
  refine arrays_eq_ok_iff.2 ⟨operation, hname, ?_, hlink⟩
  simp only [Request.arity]
  omega

theorem arrays_eq_wrongArity {request : Request} {operation : ArrayOperation}
    (hname : ArrayOperation.ofName? request.site.name = some operation)
    (harity : request.arity ≠ operation.arity) :
    arrays request = .error
      (.wrongArity request.site.name Shape.array.noun operation.arity request.arity) := by
  simp [arrays, hname, harity]

end Resolver

end LateBinding

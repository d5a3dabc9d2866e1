import LateBinding.Proofs.ArrayResolution
import LateBinding.Proofs.CallHistory

/-!
# Calls with the wrong number of arguments

The arity of an array operation is checked when the operation is resolved, and the adapter of a
target checks its argument list again.  A guard looks at the receiver's type alone, so which of the
two a wrong count meets first depends on whether the cache is linked to that type.
-/

namespace LateBinding

theorem Target.call_of_length_ne (target : Target) (args : List Value)
    (hlength : args.length ≠ target.adapter.params.length) (h : Heap) :
    target.call args h =
      (.error (.argument (.wrongCount target.adapter.params.length args.length)), h) := by
  simp [Target.call, Action.bind_apply, Action.query, Adapter.passArgs, hlength]

namespace InlineCache

/-- Every target remembered for arrays takes one argument more than the operation has. -/
theorem Sourced.length_params_of_lookup? {cache : InlineCache} (hsourced : cache.Sourced)
    {operation : ArrayOperation} (hname : ArrayOperation.ofName? cache.site.name = some operation)
    {elem : ElementType} {target : Target} (hlookup : cache.lookup? (.array elem) = some target) :
    target.adapter.params.length = operation.arity + 1 := by
  obtain ⟨args, hresolve⟩ := hsourced.resolve_of_lookup? hlookup
  simp only [resolve, ValueType.shape] at hresolve
  obtain ⟨resolved, hresolved, _, hlink⟩ := Resolver.arrays_eq_ok_iff.1 hresolve
  have hsame : resolved = operation := Option.some.inj (hresolved.symm.trans hname)
  subst resolved
  exact (Resolver.length_params_of_link hlink).2

theorem resolve_array_of_length_ne {cache : InlineCache} {operation : ArrayOperation}
    (hname : ArrayOperation.ofName? cache.site.name = some operation) (elem : ElementType)
    (first : Value) {rest : List Value} (hcount : rest.length ≠ operation.arity) :
    cache.resolve (.array elem) (first :: rest) =
      .error (.wrongArity cache.site.name Shape.array.noun operation.arity rest.length) := by
  simp only [resolve, ValueType.shape]
  exact Resolver.arrays_eq_wrongArity hname (by simpa [Request.arity] using hcount)

/-- A wrong number of arguments fails as a wrong arity exactly while the cache is not linked to the
receiver's type; while it is, the remembered target refuses the argument list.  Neither touches the
heap. -/
theorem answer_of_wrong_argument_count (site : CallSite) (limit : RelinkLimit)
    (objects : Option Resolver) (history : List Call) {operation : ArrayOperation}
    (hname : ArrayOperation.ofName? site.name = some operation) (s : StorageId)
    (rest : List Value) (hcount : rest.length ≠ operation.arity) (h : Heap) :
    let cache := (fresh site limit objects).after history
    let reply := cache.call (.array s :: rest) h
    (reply.answer =
        .error (.resolution (.wrongArity site.name "arrays" operation.arity rest.length)) ↔
      cache.status ≠ .linked (h.typeOf (.array s))) ∧
    (cache.status = .linked (h.typeOf (.array s)) → reply.answer =
      .error (.argument (.wrongCount (operation.arity + 1) (rest.length + 1)))) ∧
    reply.heap = h := by
  intro cache reply
  have hsite : cache.site = site := ((fresh site limit objects).sameSettings_after history).site_eq
  have hnamed : ArrayOperation.ofName? cache.site.name = some operation := by
    rw [hsite]
    exact hname
  have hsourced : cache.Sourced := sourced_after_fresh site limit objects history
  have hunresolved := resolve_array_of_length_ne hnamed (h.storage s).elem (.array s) hcount
  rcases cache.dispatch_cases (h.typeOf (.array s)) (.array s :: rest) with
    ⟨target, hlookup, hdispatch⟩ | ⟨target, _, hresolve, _⟩ | ⟨fault, hlookup, hresolve, hdispatch⟩
  · have hparams := hsourced.length_params_of_lookup? hnamed hlookup
    have hrefused := target.call_of_length_ne (.array s :: rest) (by simpa [hparams] using hcount) h
    have hreply : reply = ⟨.error (.argument (.wrongCount (operation.arity + 1)
        (rest.length + 1))), h, cache.countHit⟩ := by
      simp only [reply, call, hdispatch, hrefused, hparams, List.length_cons]
    have hlinked := status_eq_linked_iff.2 ⟨target, hlookup⟩
    simp [hreply, hlinked]
  · rw [Heap.typeOf, hunresolved] at hresolve
    contradiction
  · rw [Heap.typeOf, hunresolved] at hresolve
    cases hresolve
    have hreply : reply = ⟨.error (.resolution (.wrongArity site.name Shape.array.noun
        operation.arity rest.length)), h, cache.countMiss⟩ := by
      simp only [reply, call, hdispatch, hsite]
    have hunlinked : cache.status ≠ .linked (h.typeOf (.array s)) := by
      intro hlinked
      obtain ⟨target, hremembered⟩ := status_eq_linked_iff.1 hlinked
      rw [hlookup] at hremembered
      contradiction
    simp [hreply, hunlinked, Shape.noun]

theorem answer_of_wrong_argument_count_size :
    let h := Heap.empty.allocate (.empty .int64)
    let site := CallSite.dynamic "size" 0
    let reply := ((fresh site .unbounded none).after []).call [.array ⟨0⟩, .int64 7] h
    ArrayOperation.ofName? site.name = some .length ∧
      [Value.int64 7].length ≠ ArrayOperation.length.arity ∧
      reply.answer = .error (.resolution (.wrongArity "size" "arrays" 0 1)) ∧ reply.heap = h := by
  intro h site reply
  have hname : ArrayOperation.ofName? site.name = some .length := rfl
  have hcount : [Value.int64 7].length ≠ ArrayOperation.length.arity := by decide
  obtain ⟨harity, _, hheap⟩ := answer_of_wrong_argument_count site .unbounded none [] hname ⟨0⟩
    [.int64 7] hcount h
  exact ⟨hname, hcount, harity.2 (by decide), hheap⟩

/-- One call before it is enough to turn the wrong arity into a refused argument list. -/
theorem linked_size_refuses_an_argument :
    let h := Heap.empty.allocate (.empty .int64)
    let site := CallSite.dynamic "size" 0
    let cache := (fresh site .unbounded none).after [⟨[.array ⟨0⟩], h⟩]
    let reply := cache.call [.array ⟨0⟩, .int64 7] h
    ArrayOperation.ofName? site.name = some .length ∧
      [Value.int64 7].length ≠ ArrayOperation.length.arity ∧
      reply.answer = .error (.argument (.wrongCount 1 2)) ∧
      reply.answer ≠ .error (.resolution (.wrongArity "size" "arrays" 0 1)) := by
  refine ⟨rfl, by decide, rfl, ?_⟩
  intro hanswer
  injection hanswer with hfault
  cases hfault

end InlineCache

end LateBinding

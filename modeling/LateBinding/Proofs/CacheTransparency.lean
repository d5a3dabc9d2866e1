import LateBinding.Proofs.ArrayResolution
import LateBinding.Proofs.CallHistory
import LateBinding.Resolution.StringResolver

/-!
# Transparency of caching

A call that passes as many arguments as its site declares gets from a cache what it would get
without one: whatever the cache went through before, the answer and the heap are those of a
resolution on the spot and a run of its target.  A remembered target comes from some resolution for
the guard's type, and for calls of the declared length that resolution can be repeated.
-/

namespace LateBinding

/-- What is asked of a resolver of objects at a site: it never binds a receiver that is not an
array, or its outcome is settled by the receiver's type. -/
def Resolver.Steady (resolver : Resolver) (site : CallSite) : Prop :=
  (∀ receiver args target, receiver.shape = .object →
    resolver ⟨site, receiver, args⟩ ≠ .ok target) ∨
  ∀ receiver args others, receiver.shape = .object →
    resolver ⟨site, receiver, args⟩ = resolver ⟨site, receiver, others⟩

theorem Resolver.strings_steady (site : CallSite) : Resolver.strings.Steady site :=
  .inr fun _ _ _ _ => rfl

namespace InlineCache

def Reply.outcome (reply : Reply) : Except CallFault Value × Heap :=
  (reply.answer, reply.heap)

/-- A call at a site without a cache: a resolution, then a run of the target. -/
def uncached (site : CallSite) (objects : Option Resolver) (args : List Value) : Action Value :=
  fun h =>
    match args with
    | [] => (.error (.argument (.noReceiver site.name)), h)
    | receiver :: _ =>
      match (fresh site .unbounded objects).resolve (h.typeOf receiver) args with
      | .error fault => (.error (.resolution fault), h)
      | .ok target => target.call args h

/-! ## Repeating a resolution -/

theorem resolve_eq_ok_of_length {cache : InlineCache}
    (hsteady : ∀ resolver ∈ cache.objects, resolver.Steady cache.site)
    {receiver : ValueType} {args others : List Value} {target : Target}
    (hresolve : cache.resolve receiver args = .ok target)
    (hlength : others.length = cache.site.signature.params.length) :
    cache.resolve receiver others = .ok target := by
  cases hshape : receiver.shape with
  | array =>
      simp only [resolve, hshape] at hresolve ⊢
      exact Resolver.arrays_eq_ok_of_length hresolve hlength
  | object =>
      cases hobjects : cache.objects with
      | none =>
          simp only [resolve, hshape, hobjects] at hresolve
          contradiction
      | some resolver =>
          simp only [resolve, hshape, hobjects] at hresolve ⊢
          rcases hsteady resolver hobjects with hnever | hsettled
          · exact absurd hresolve (hnever receiver args target hshape)
          · rw [hsettled receiver others args hshape]
            exact hresolve

/-! ## One call -/

theorem outcome_of_dispatch {cache : InlineCache} {receiver : Value} {rest : List Value}
    {h : Heap} {bound : Except ResolutionFault Target} {next : InlineCache}
    (hdispatch : cache.dispatch (h.typeOf receiver) (receiver :: rest) = (bound, next)) :
    (cache.call (receiver :: rest) h).outcome =
      match bound with
      | .error fault => (.error (.resolution fault), h)
      | .ok target => target.call (receiver :: rest) h := by
  cases bound <;> simp [call, hdispatch, Reply.outcome]

/-- A cache whose remembered target could be resolved again answers as if it remembered none. -/
theorem Sourced.outcome_eq_uncached {cache : InlineCache} (hsourced : cache.Sourced)
    (hsteady : ∀ resolver ∈ cache.objects, resolver.Steady cache.site)
    {args : List Value} (hlength : args.length = cache.site.signature.params.length) (h : Heap) :
    (cache.call args h).outcome = uncached cache.site cache.objects args h := by
  cases args with
  | nil => rfl
  | cons receiver rest =>
      have hfresh : (fresh cache.site .unbounded cache.objects).resolve = cache.resolve := rfl
      simp only [uncached, hfresh]
      rcases cache.dispatch_cases (h.typeOf receiver) (receiver :: rest) with
        ⟨target, hlookup, hdispatch⟩ | ⟨target, _, hresolve, hdispatch⟩ |
        ⟨fault, _, hresolve, hdispatch⟩
      · -- a hit: the resolution behind the remembered target succeeds for these arguments too
        obtain ⟨earlier, hearlier⟩ := hsourced.resolve_of_lookup? hlookup
        have hresolve := resolve_eq_ok_of_length hsteady hearlier hlength
        rw [outcome_of_dispatch hdispatch, hresolve]
      · rw [outcome_of_dispatch hdispatch, hresolve]
      · rw [outcome_of_dispatch hdispatch, hresolve]

/-! ## After any history -/

/-- Caching is transparent: after any history a call of the declared length has the outcome that it
has on a cache that was never called, which is that of a resolution and a run of its target. -/
theorem call_after_history_eq_call_fresh (site : CallSite) (limit freshLimit : RelinkLimit)
    (objects : Option Resolver) (hsteady : ∀ resolver ∈ objects, resolver.Steady site)
    (history : List Call) (args : List Value)
    (hlength : args.length = site.signature.params.length) (h : Heap) :
    (((fresh site limit objects).after history).call args h).outcome =
        ((fresh site freshLimit objects).call args h).outcome ∧
      ((fresh site freshLimit objects).call args h).outcome = uncached site objects args h := by
  have hsame := (fresh site limit objects).sameSettings_after history
  have hsite : ((fresh site limit objects).after history).site = site := hsame.site_eq
  have hobjects : ((fresh site limit objects).after history).objects = objects := hsame.objects_eq
  have hcached := (sourced_after_fresh site limit objects history).outcome_eq_uncached
    (by rwa [hsite, hobjects]) (by rwa [hsite]) h
  rw [hsite, hobjects] at hcached
  have hfirst := (sourced_after_fresh site freshLimit objects []).outcome_eq_uncached
    hsteady hlength h
  exact ⟨hcached.trans hfirst.symm, hfirst⟩

/-- A cache of a `length` site that served strings, was called with one argument too many, with none
and on a number, and was relinked to arrays, answers for a string like a new one. -/
theorem call_after_strings_and_arrays :
    let site := CallSite.dynamic "length" 0
    let h := Heap.empty.allocate (.empty .int64)
    let history : List Call := [⟨[.string "a"], h⟩, ⟨[.string "a", .nothing], h⟩, ⟨[], h⟩,
      ⟨[.int64 7], h⟩, ⟨[.array ⟨0⟩], h⟩]
    let cache := (fresh site ⟨some 3⟩ (some .strings)).after history
    let first := fresh site .unbounded (some .strings)
    (∀ resolver ∈ some Resolver.strings, resolver.Steady site) ∧
      [Value.string "abc"].length = site.signature.params.length ∧
      (cache.call [.string "abc"] h).outcome = (first.call [.string "abc"] h).outcome ∧
      (first.call [.string "abc"] h).outcome = uncached site (some .strings) [.string "abc"] h ∧
      (uncached site (some .strings) [.string "abc"] h).1 = .ok (.int64 3) := by
  intro site h history cache first
  have hsteady : ∀ resolver ∈ some Resolver.strings, resolver.Steady site := by
    intro resolver hresolver
    cases hresolver
    exact Resolver.strings_steady site
  have houtcome := call_after_history_eq_call_fresh site ⟨some 3⟩ .unbounded (some .strings)
    hsteady history [.string "abc"] rfl h
  exact ⟨hsteady, rfl, houtcome.1, houtcome.2, rfl⟩

end InlineCache

end LateBinding

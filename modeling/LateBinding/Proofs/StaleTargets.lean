import LateBinding.Proofs.ArrayPrimitives
import LateBinding.Proofs.CacheTransparency
import LateBinding.Proofs.LinkTimeAdaptation

/-!
# Stale targets

Arrays are shared and may change their element type between two calls of a cache, which remembers a
target for one type.  In every run that interleaves calls with changes of the heap by other code, a
call still runs a target that is bound to the type which its receiver has at that moment, because
the guard of a linked cache expects the very type that its target is bound to.  So element access
never meets a storage of another type, and the class of an array is never out of date.
-/

namespace LateBinding

/-! ## Interleaved runs -/

/-- What happens in a run: a call through the cache, or a change that other code makes to the heap. -/
inductive Event where
  | call (args : List Value)
  | meanwhile (change : Heap → Heap)

/-- Other code replaces the content of a storage in place, element type and length included. -/
def Event.replace (s : StorageId) (content : Storage) : Event :=
  .meanwhile (·.write s content)

structure Scene where
  cache : InlineCache
  heap : Heap

namespace Scene

def step (scene : Scene) : Event → Scene
  | .call args =>
    let reply := scene.cache.call args scene.heap
    ⟨reply.cache, reply.heap⟩
  | .meanwhile change => ⟨scene.cache, change scene.heap⟩

def run (scene : Scene) (events : List Event) : Scene :=
  events.foldl step scene

/-- To the cache, a run is a history of calls, each with the heap of its moment. -/
theorem exists_history (scene : Scene) (events : List Event) :
    ∃ history, (scene.run events).cache = scene.cache.after history := by
  induction events generalizing scene with
  | nil => exact ⟨[], rfl⟩
  | cons event events ih =>
      obtain ⟨history, hhistory⟩ := ih (scene.step event)
      cases event with
      | call args => exact ⟨⟨args, scene.heap⟩ :: history, hhistory⟩
      | meanwhile change => exact ⟨history, hhistory⟩

theorem sameSettings_run (scene : Scene) (events : List Event) :
    scene.cache.SameSettings (scene.run events).cache := by
  obtain ⟨history, hhistory⟩ := exists_history scene events
  rw [hhistory]
  exact scene.cache.sameSettings_after history

end Scene

/-! ## What targets are bound to -/

/-- A resolver binds to the type of the receiver it is asked about, for the site that asks. -/
def Resolver.BindsRequests (resolver : Resolver) (site : CallSite) : Prop :=
  ∀ receiver args target, receiver.shape = .object →
    resolver ⟨site, receiver, args⟩ = .ok target →
      target.receiver = receiver ∧ target.signature = site.signature

theorem Resolver.strings_bindsRequests (site : CallSite) : Resolver.strings.BindsRequests site := by
  intro receiver args target _ hresolve
  simp only [strings] at hresolve
  split at hresolve
  · cases hadapt : stringLength.adapt site.signature receiver with
    | error fault =>
        rw [hadapt] at hresolve
        contradiction
    | ok adapted =>
        rw [hadapt] at hresolve
        cases hresolve
        obtain ⟨_, _, rfl⟩ := Operation.adapt_eq_ok_iff.1 hadapt
        exact ⟨rfl, rfl⟩
  · contradiction

/-- A target that the resolver of arrays gives is the primitive of the named operation for the
element type of the receiver, adapted to the site. -/
theorem Resolver.exists_primitive_of_arrays {site : CallSite} {elem : ElementType}
    {args : List Value} {target : Target}
    (hresolve : Resolver.arrays ⟨site, .array elem, args⟩ = .ok target) :
    ∃ operation adapter, (site.name, operation) ∈ ArrayOperation.names ∧
      Adapter.ofSignatures (operation.primitive elem).signature site.signature = .ok adapter ∧
      target = ⟨(operation.primitive elem).name, .array elem, site.signature, adapter,
        (operation.primitive elem).run⟩ := by
  have houtcome := arrayOutcome_arrays ⟨site, .array elem, args⟩
  rw [hresolve] at houtcome
  rcases houtcome with _ | _ | _ | _ | _ | ⟨hcalls, hreceiver, _, hadapter⟩
  cases hreceiver
  exact ⟨_, _, hcalls.name_mem, hadapter, rfl⟩

/-- The same where the operation that the site names is known. -/
theorem Resolver.adapt_of_arrays {site : CallSite} {operation : ArrayOperation}
    (hname : (site.name, operation) ∈ ArrayOperation.names) {elem : ElementType}
    {args : List Value} {target : Target}
    (hresolve : Resolver.arrays ⟨site, .array elem, args⟩ = .ok target) :
    (operation.primitive elem).adapt site.signature (.array elem) = .ok target := by
  obtain ⟨named, adapter, hnamed, hadapter, htarget⟩ := exists_primitive_of_arrays hresolve
  cases ArrayOperation.eq_of_mem_names hnamed hname
  exact Operation.adapt_eq_ok_iff.2 ⟨adapter, hadapter, htarget⟩

namespace InlineCache

theorem bound_of_resolve {cache : InlineCache}
    (hobjects : ∀ resolver ∈ cache.objects, resolver.BindsRequests cache.site)
    {receiver : ValueType} {args : List Value} {target : Target}
    (hresolve : cache.resolve receiver args = .ok target) :
    target.receiver = receiver ∧ target.signature = cache.site.signature := by
  cases hshape : receiver.shape with
  | array =>
      obtain ⟨elem, rfl⟩ := ValueType.shape_eq_array_iff.1 hshape
      simp only [resolve, hshape] at hresolve
      obtain ⟨_, _, _, _, rfl⟩ := Resolver.exists_primitive_of_arrays hresolve
      exact ⟨rfl, rfl⟩
  | object =>
      cases hresolver : cache.objects with
      | none =>
          simp only [resolve, hshape, hresolver] at hresolve
          contradiction
      | some resolver =>
          simp only [resolve, hshape, hresolver] at hresolve
          exact hobjects resolver hresolver receiver args target hshape hresolve

/-- Every target that a call runs came out of a resolution for the type of its receiver. -/
theorem Sourced.exists_resolve_of_dispatch {cache : InlineCache} (hsourced : cache.Sourced)
    {receiver : ValueType} {args : List Value} {target : Target}
    (hbound : (cache.dispatch receiver args).1 = .ok target) :
    ∃ earlier, cache.resolve receiver earlier = .ok target := by
  rcases cache.dispatch_cases receiver args with ⟨remembered, hlookup, hdispatch⟩ |
    ⟨resolved, _, hresolve, hdispatch⟩ | ⟨fault, _, _, hdispatch⟩
  · rw [hdispatch] at hbound
    cases hbound
    exact hsourced.resolve_of_lookup? hlookup
  · rw [hdispatch] at hbound
    cases hbound
    exact ⟨args, hresolve⟩
  · rw [hdispatch] at hbound
    cases hbound

end InlineCache

/-! ## Targets of arrays -/

theorem Coercion.apply_array {source : Kind} {coercion : Coercion}
    (hcoercion : forParameter? source .array = some coercion) (h : Heap) (s : StorageId) :
    coercion.apply h (.array s) = .ok (.array s) := by
  cases source <;> cases hcoercion <;> rfl

theorem ArrayOperation.exists_params_eq (operation : ArrayOperation) (elem : ElementType) :
    ∃ others, (operation.primitive elem).signature.params = .array :: others := by
  cases operation <;> exact ⟨_, rfl⟩

theorem ArrayOperation.passArgs_receiver {operation : ArrayOperation} {elem : ElementType}
    {site : Signature} {adapter : Adapter}
    (hadapter : Adapter.ofSignatures (operation.primitive elem).signature site = .ok adapter)
    {h : Heap} {s : StorageId} {rest passed : List Value}
    (hpass : adapter.passArgs h (.array s :: rest) = .ok passed) :
    ∃ others, passed = .array s :: others := by
  have hpassed := (Adapter.forall₂_passes hadapter hpass).2
  obtain ⟨others, hothers⟩ := operation.exists_params_eq elem
  rw [hothers, List.zip_cons_cons] at hpassed
  -- whatever the site calls its receiver, the coercion to an array keeps arrays as they are
  rcases hpassed with _ | ⟨⟨source, coercion, hcoercion, hreceiver⟩, _⟩
  cases (Coercion.apply_array hcoercion h s).symm.trans hreceiver
  exact ⟨_, rfl⟩

theorem ArrayOperation.call_failsOnlyWith {operation : ArrayOperation} {elem : ElementType}
    {site : Signature} {adapter : Adapter} {target : Target}
    (hadapter : Adapter.ofSignatures (operation.primitive elem).signature site = .ok adapter)
    (htarget : target.adapter = adapter) (hbody : target.body = (operation.primitive elem).run)
    {h : Heap} {s : StorageId} (helem : (h.storage s).elem = elem) (rest : List Value) :
    (target.call (.array s :: rest)).FailsOnlyWith h CallFault.NotWrongAccess := by
  subst htarget
  refine Action.failsOnlyWith_bind ?_ fun passed mid hpassed => ?_
  · exact Action.failsOnlyWith_query fun fault hpass => Adapter.notWrongAccess_of_passArgs hpass
  · obtain ⟨hpass, rfl⟩ := Prod.mk.inj hpassed
    obtain ⟨others, rfl⟩ := passArgs_receiver hadapter hpass
    rw [hbody]
    refine Action.failsOnlyWith_bind (operation.primitive_failsOnlyWith helem others) ?_
    intro v after _
    refine Action.failsOnlyWith_query fun fault hresult => ?_
    exact (Coercion.ofCoercion_of_apply hresult).notWrongAccess

theorem ArrayOperation.call_receiverType {elem : ElementType} {site : Signature}
    {adapter : Adapter} {target : Target}
    (hadapter : Adapter.ofSignatures (receiverType.primitive elem).signature site = .ok adapter)
    (htarget : target.adapter = adapter)
    (hbody : target.body = (receiverType.primitive elem).run)
    (hret : site.ret = .any ∨ site.ret = .type) (args : List Value) :
    (target.call args).Returns (· = .type (.array elem)) := by
  subst htarget
  refine Action.returns_bind fun passed => ?_
  rw [hbody]
  change (Action.query fun h => target.adapter.passResult h (.type (.array elem))).Returns _
  refine Action.returns_query fun h v hresult => ?_
  have hfits : (Value.type (.array elem)).Fits (receiverType.primitive elem).signature.ret :=
    .inr (.inr rfl)
  -- the class fits its kind, so the coercion of the result can be read as a cast
  rw [Adapter.passResult_eq_castResult hadapter hfits] at hresult
  rcases hret with hany | htype
  · rw [hany] at hresult
    cases hresult
    rfl
  · rw [htype] at hresult
    cases hresult
    rfl

/-! ## Calls on arrays -/

namespace InlineCache

variable {cache : InlineCache}

theorem outcome_of_bound {first : Value} {rest : List Value} {h : Heap} {target : Target}
    (hbound : (cache.dispatch (h.typeOf first) (first :: rest)).1 = .ok target) :
    (cache.call (first :: rest) h).outcome = target.call (first :: rest) h := by
  rcases hdispatch : cache.dispatch (h.typeOf first) (first :: rest) with ⟨bound, next⟩
  rw [hdispatch] at hbound
  subst hbound
  exact outcome_of_dispatch hdispatch

/-- A call on an array fails in its resolution and leaves the heap alone, or it runs the primitive of
the operation that the site names for the element type that the array has now. -/
theorem Sourced.call_array_cases (hsourced : cache.Sourced) (s : StorageId) (rest : List Value)
    (h : Heap) :
    (∃ fault, cache.resolve (h.typeOf (.array s)) (.array s :: rest) = .error fault ∧
      (cache.call (.array s :: rest) h).outcome = (.error (.resolution fault), h)) ∨
    ∃ (operation : ArrayOperation) (target : Target),
      (cache.site.name, operation) ∈ ArrayOperation.names ∧
      (operation.primitive (h.storage s).elem).adapt cache.site.signature (h.typeOf (.array s)) =
        .ok target ∧
      (cache.call (.array s :: rest) h).outcome = target.call (.array s :: rest) h := by
  rcases cache.dispatch_cases (h.typeOf (.array s)) (.array s :: rest) with
    ⟨target, _, hdispatch⟩ | ⟨target, _, _, hdispatch⟩ | ⟨fault, _, hresolve, hdispatch⟩
  case inr.inr => exact .inl ⟨fault, hresolve, outcome_of_dispatch hdispatch⟩
  -- remembered or just resolved, the target came out of a resolution for the type of this array
  all_goals
    have hbound := congrArg Prod.fst hdispatch
    obtain ⟨earlier, hsource⟩ := hsourced.exists_resolve_of_dispatch hbound
    simp only [resolve, Heap.typeOf, ValueType.shape] at hsource
    obtain ⟨operation, adapter, hname, hadapter, htarget⟩ :=
      Resolver.exists_primitive_of_arrays hsource
    have hadapt := Operation.adapt_eq_ok_iff.2 ⟨adapter, hadapter, htarget⟩
    exact .inr ⟨operation, target, hname, hadapt, outcome_of_bound hbound⟩

theorem Sourced.exists_target_of_answer (hsourced : cache.Sourced) {s : StorageId}
    {rest : List Value} {h : Heap} {v : Value}
    (hanswer : (cache.call (.array s :: rest) h).answer = .ok v) :
    ∃ (operation : ArrayOperation) (target : Target),
      (cache.site.name, operation) ∈ ArrayOperation.names ∧
      (operation.primitive (h.storage s).elem).adapt cache.site.signature (h.typeOf (.array s)) =
        .ok target ∧
      target.call (.array s :: rest) h = (.ok v, (cache.call (.array s :: rest) h).heap) := by
  rcases hsourced.call_array_cases s rest h with ⟨fault, _, houtcome⟩ |
    ⟨operation, target, hname, hadapt, houtcome⟩
  · cases hanswer.symm.trans (congrArg Prod.fst houtcome)
  · refine ⟨operation, target, hname, hadapt, ?_⟩
    rw [← houtcome, Reply.outcome, hanswer]

theorem Sourced.answer_ne_wrongElementAccess (hsourced : cache.Sourced) (s : StorageId)
    (rest : List Value) (h : Heap) (wanted actual : ElementType) :
    (cache.call (.array s :: rest) h).answer ≠
      .error (.type (.wrongElementAccess wanted actual)) := by
  intro hanswer
  rcases hsourced.call_array_cases s rest h with ⟨fault, _, houtcome⟩ |
    ⟨operation, target, _, hadapt, houtcome⟩
  · cases hanswer.symm.trans (congrArg Prod.fst houtcome)
  · obtain ⟨adapter, hadapter, htarget⟩ := Operation.adapt_eq_ok_iff.1 hadapt
    have hruns := ArrayOperation.call_failsOnlyWith hadapter (congrArg Target.adapter htarget)
      (congrArg Target.body htarget) rfl rest
    have hfailed : target.call (.array s :: rest) h =
        (.error (.type (.wrongElementAccess wanted actual)),
          (cache.call (.array s :: rest) h).heap) := by
      rw [← houtcome, Reply.outcome, hanswer]
    exact hruns _ _ hfailed wanted actual rfl

theorem Sourced.answer_getClass (hsourced : cache.Sourced) (hname : cache.site.name = "getClass")
    (hret : cache.site.signature.ret = .any ∨ cache.site.signature.ret = .type) (s : StorageId)
    (rest : List Value) (h : Heap) {v : Value}
    (hanswer : (cache.call (.array s :: rest) h).answer = .ok v) :
    v = .type (h.typeOf (.array s)) := by
  obtain ⟨operation, target, hoperation, hadapt, hreturned⟩ :=
    hsourced.exists_target_of_answer hanswer
  have hgetClass : ArrayOperation.ofName? "getClass" = some .receiverType := rfl
  rw [hname, ← ArrayOperation.ofName?_eq_some_iff, hgetClass] at hoperation
  cases hoperation
  obtain ⟨adapter, hadapter, htarget⟩ := Operation.adapt_eq_ok_iff.1 hadapt
  have hruns := ArrayOperation.call_receiverType hadapter (congrArg Target.adapter htarget)
    (congrArg Target.body htarget) hret (.array s :: rest)
  exact hruns h v _ hreturned

end InlineCache

/-! ## Every run -/

theorem Scene.sourced_run (site : CallSite) (limit : RelinkLimit) (objects : Option Resolver)
    (before : Heap) (events : List Event) :
    let scene := Scene.run ⟨.fresh site limit objects, before⟩ events
    scene.cache.Sourced ∧ scene.cache.site = site ∧ scene.cache.objects = objects := by
  intro scene
  have hsame := sameSettings_run ⟨.fresh site limit objects, before⟩ events
  obtain ⟨history, hhistory⟩ := exists_history ⟨.fresh site limit objects, before⟩ events
  have hsourced : scene.cache.Sourced := by
    rw [hhistory]
    exact InlineCache.sourced_after_fresh site limit objects history
  exact ⟨hsourced, hsame.site_eq, hsame.objects_eq⟩

/-- Whatever calls and changes of the heap a run is made of, a linked cache is guarded by the type
that its target is bound to, a call runs a target that is bound to the type of its receiver at that
moment, no call on an array accesses elements as of another type, and `getClass` on an array, where
any value or a type is wanted, answers with the type that the array has now. -/
theorem executed_target_fits_receiver (site : CallSite) (limit : RelinkLimit)
    (objects : Option Resolver) (hobjects : ∀ resolver ∈ objects, resolver.BindsRequests site)
    (before : Heap) (events : List Event) :
    let scene := Scene.run ⟨.fresh site limit objects, before⟩ events
    let cache := scene.cache
    let h := scene.heap
    (∀ guard target, cache.state = .linked guard target →
      guard.expected = target.receiver ∧ target.signature = site.signature) ∧
    (∀ first rest target, (cache.dispatch (h.typeOf first) (first :: rest)).1 = .ok target →
      (cache.call (first :: rest) h).outcome = target.call (first :: rest) h ∧
      target.receiver = h.typeOf first) ∧
    ∀ s rest,
      (∀ wanted actual, (cache.call (.array s :: rest) h).answer ≠
        .error (.type (.wrongElementAccess wanted actual))) ∧
      (site.name = "getClass" → site.signature.ret = .any ∨ site.signature.ret = .type →
        ∀ v, (cache.call (.array s :: rest) h).answer = .ok v →
          v = .type (h.typeOf (.array s))) := by
  intro scene cache h
  obtain ⟨hsourced, hsite, hresolvers⟩ := Scene.sourced_run site limit objects before events
  have hbinds : ∀ resolver ∈ cache.objects, resolver.BindsRequests cache.site := by
    rw [hresolvers, hsite]
    exact hobjects
  refine ⟨?_, ?_, fun s rest => ⟨?_, ?_⟩⟩
  · intro guard target hlinked
    obtain ⟨args, hresolve⟩ := hsourced guard target hlinked
    obtain ⟨hreceiver, hsignature⟩ := InlineCache.bound_of_resolve hbinds hresolve
    exact ⟨hreceiver.symm, hsite ▸ hsignature⟩
  · intro first rest target hbound
    obtain ⟨args, hresolve⟩ := hsourced.exists_resolve_of_dispatch hbound
    exact ⟨InlineCache.outcome_of_bound hbound, (InlineCache.bound_of_resolve hbinds hresolve).1⟩
  · exact hsourced.answer_ne_wrongElementAccess s rest h
  · intro hname hret v hanswer
    have hcacheName : cache.site.name = "getClass" := (congrArg CallSite.name hsite).trans hname
    exact hsourced.answer_getClass hcacheName (hsite.symm ▸ hret) s rest h hanswer

/-- An array of integers is called and then filled with strings: the cache is still linked to the
target for integers, and the next call runs one for strings and answers with the new type. -/
theorem executed_target_after_replacement :
    let site := CallSite.dynamic "getClass" 0
    let events := [.call [.array ⟨0⟩], .call [.string "abc"],
      .replace ⟨0⟩ ⟨.string, [.string "a"], by decide⟩]
    let scene := Scene.run
      ⟨.fresh site ⟨some 3⟩ (some .strings), Heap.empty.allocate (.empty .int64)⟩ events
    let cache := scene.cache
    let h := scene.heap
    (∀ resolver ∈ some Resolver.strings, resolver.BindsRequests site) ∧
      (∃ remembered, cache.state = .linked ⟨.array .int64⟩ remembered ∧
        remembered.receiver = .array .int64 ∧ remembered.signature = site.signature) ∧
      (∃ target, (cache.dispatch (h.typeOf (.array ⟨0⟩)) [.array ⟨0⟩]).1 = .ok target ∧
        (cache.call [.array ⟨0⟩] h).outcome = target.call [.array ⟨0⟩] h ∧
        target.receiver = .array .string) ∧
      (cache.call [.array ⟨0⟩] h).answer ≠ .error (.type (.wrongElementAccess .int64 .string)) ∧
      ∃ v, (cache.call [.array ⟨0⟩] h).answer = .ok v ∧ v = .type (.array .string) := by
  intro site events scene cache h
  have hobjects : ∀ resolver ∈ some Resolver.strings, resolver.BindsRequests site := by
    intro resolver hresolver
    cases hresolver
    exact Resolver.strings_bindsRequests site
  obtain ⟨hlinked, hruns, harrays⟩ := executed_target_fits_receiver site ⟨some 3⟩ (some .strings)
    hobjects (Heap.empty.allocate (.empty .int64)) events
  obtain ⟨hguard, hsignature⟩ := hlinked ⟨.array .int64⟩ _ (by rfl)
  obtain ⟨houtcome, hreceiver⟩ := hruns (.array ⟨0⟩) [] _ (by rfl)
  obtain ⟨haccess, hclass⟩ := harrays ⟨0⟩ []
  have hanswer : (cache.call [.array ⟨0⟩] h).answer = .ok (.type (.array .string)) := by rfl
  refine ⟨hobjects, ?_, ?_, haccess .int64 .string, _, hanswer, hclass rfl (.inl rfl) _ hanswer⟩
  · exact ⟨_, by rfl, hguard.symm, hsignature⟩
  · exact ⟨_, by rfl, houtcome, hreceiver⟩

end LateBinding

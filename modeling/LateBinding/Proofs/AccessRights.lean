import LateBinding.Proofs.StaleTargets

/-!
# Access rights

Runs of two caches whose sites differ in their access rights alone are the same, call by call, if
the rights agree on the owner that the named operation needs.  Element access and the class of an
array need none.  Without the right to that owner, a cache that is called on arrays stays unlinked
and runs nothing.
-/

namespace LateBinding

/-! ## Contexts -/

namespace AccessContext

def denyAll (context : AccessContext) (owners : List Owner) : AccessContext :=
  owners.foldl deny context

variable {context : AccessContext} {owner : Owner} {owners : List Owner}

theorem caller_deny : (context.deny owner).caller = context.caller := by
  unfold deny
  split <;> rfl

theorem caller_denyAll : (context.denyAll owners).caller = context.caller := by
  induction owners generalizing context with
  | nil => rfl
  | cons first rest ih => exact ih.trans caller_deny

theorem mem_denied_denyAll :
    owner ∈ (context.denyAll owners).denied ↔ owner ∈ owners ∨ owner ∈ context.denied := by
  induction owners generalizing context with
  | nil => simp [denyAll]
  | cons first rest ih =>
      have hrest : owner ∈ (context.denyAll (first :: rest)).denied ↔
          owner ∈ rest ∨ owner ∈ (context.deny first).denied := ih
      rw [hrest, mem_denied_deny, List.mem_cons, or_assoc, or_left_comm]

/-- Two contexts have one caller and agree on the right that an operation needs, if it needs any. -/
def AgreeOn (one other : AccessContext) (operation : ArrayOperation) : Prop :=
  ∀ owner ∈ operation.owner?,
    one.caller = other.caller ∧ (owner ∈ one.denied ↔ owner ∈ other.denied)

theorem agreeOn_denyAll {operation : ArrayOperation} {others : List Owner} (caller : String)
    (hagree : ∀ owner ∈ operation.owner?, owner ∈ owners ↔ owner ∈ others) :
    ((full caller).denyAll owners).AgreeOn ((full caller).denyAll others) operation := by
  intro owner howner
  constructor
  · rw [caller_denyAll, caller_denyAll]
  · simp only [mem_denied_denyAll, hagree owner howner]

theorem agreeOn_of_no_owner {operation : ArrayOperation} (howner : operation.owner? = none)
    (one other : AccessContext) : one.AgreeOn other operation := by
  intro owner hmem
  rw [howner] at hmem
  contradiction

end AccessContext

theorem ArrayOperation.owner?_of_name_mem {name : String}
    (hname : name ∈ ["get", "set", "getClass"]) (operation : ArrayOperation)
    (hoperation : (name, operation) ∈ names) : operation.owner? = none := by
  rw [← ofName?_eq_some_iff] at hoperation
  simp only [List.mem_cons, List.not_mem_nil, or_false] at hname
  rcases hname with rfl | rfl | rfl <;> cases hoperation <;> rfl

/-! ## Resolution -/

namespace Resolver

theorem bindOperation_congr {one other : AccessContext} {operation : ArrayOperation}
    (hagree : one.AgreeOn other operation) (elem : ElementType) :
    bindOperation one elem operation = bindOperation other elem operation := by
  by_cases hdenied : ∃ owner ∈ operation.owner?, owner ∈ one.denied
  · obtain ⟨owner, howner, hone⟩ := hdenied
    obtain ⟨hcaller, hright⟩ := hagree owner howner
    rw [bindOperation_of_denied howner hone, bindOperation_of_denied howner (hright.1 hone),
      hcaller]
  · have hone : ∀ owner ∈ operation.owner?, owner ∉ one.denied :=
      fun owner howner hmem => hdenied ⟨owner, howner, hmem⟩
    have hother : ∀ owner ∈ operation.owner?, owner ∉ other.denied :=
      fun owner howner hmem => hone owner howner ((hagree owner howner).2.2 hmem)
    rw [bindOperation_of_granted hone, bindOperation_of_granted hother]

end Resolver

def CallSite.withAccess (site : CallSite) (access : AccessContext) : CallSite :=
  { site with access }

/-- Other access rights change nothing about the operations of the site's name. -/
def CallSite.AgreesWith (site : CallSite) (access : AccessContext) : Prop :=
  ∀ operation, (site.name, operation) ∈ ArrayOperation.names →
    site.access.AgreeOn access operation

theorem Resolver.arrays_withAccess {site : CallSite} {access : AccessContext}
    (hagree : site.AgreesWith access) (receiver : ValueType) (args : List Value) :
    arrays ⟨site.withAccess access, receiver, args⟩ = arrays ⟨site, receiver, args⟩ := by
  have hsame : (site.withAccess access).name = site.name := rfl
  cases hname : ArrayOperation.ofName? site.name with
  | none => simp only [arrays, hsame, hname]
  | some operation =>
      have hoperation := hagree operation (ArrayOperation.ofName?_eq_some_iff.1 hname)
      have hlink : link (site.withAccess access) receiver operation =
          link site receiver operation := by
        cases helem : receiver.elementType? with
        | none => simp [link, helem]
        | some elem =>
            have hbind := bindOperation_congr hoperation elem
            simp [link, helem, CallSite.withAccess, hbind]
      simp only [arrays, hsame, hname, hlink]
      rfl

/-! ## Caches -/

namespace InlineCache

def withAccess (cache : InlineCache) (access : AccessContext) : InlineCache :=
  { cache with site := cache.site.withAccess access }

theorem install_withAccess (cache : InlineCache) (receiver : ValueType) (target : Target)
    (access : AccessContext) :
    (cache.withAccess access).install receiver target =
      (cache.install receiver target).withAccess access := by
  cases hstate : cache.state with
  | unlinked => simp [install, withAccess, hstate]
  | megamorphic => simp [install, withAccess, hstate]
  | linked guard previous =>
      simp only [install, withAccess, hstate]
      split <;> rfl

section Agreement

variable {cache : InlineCache} {access : AccessContext} (hobjects : cache.objects = none)
  (hagree : cache.site.AgreesWith access)

include hobjects hagree

theorem resolve_withAccess (receiver : ValueType) (args : List Value) :
    (cache.withAccess access).resolve receiver args = cache.resolve receiver args := by
  cases hshape : receiver.shape with
  | array =>
      simp only [resolve, hshape]
      exact Resolver.arrays_withAccess hagree receiver args
  | object => simp [resolve, hshape, withAccess, CallSite.withAccess, hobjects]

theorem dispatch_withAccess (receiver : ValueType) (args : List Value) :
    (cache.withAccess access).dispatch receiver args =
      ((cache.dispatch receiver args).1, (cache.dispatch receiver args).2.withAccess access) := by
  have hlookup : (cache.withAccess access).lookup? receiver = cache.lookup? receiver := rfl
  have hresolve := resolve_withAccess hobjects hagree receiver args
  rcases cache.dispatch_cases receiver args with ⟨target, hfound, hdispatch⟩ |
    ⟨target, hmissed, hresolved, hdispatch⟩ | ⟨fault, hmissed, hfailed, hdispatch⟩
  · rw [hdispatch, dispatch, hlookup, hfound]
    rfl
  · rw [hdispatch, dispatch, hlookup, hmissed]
    simp only [hresolve, hresolved]
    exact congrArg (Except.ok target, ·) (cache.countMiss.install_withAccess receiver target access)
  · rw [hdispatch, dispatch, hlookup, hmissed]
    simp only [hresolve, hfailed]
    rfl

theorem call_withAccess (args : List Value) (h : Heap) :
    (cache.withAccess access).call args h =
      { cache.call args h with cache := (cache.call args h).cache.withAccess access } := by
  cases args with
  | nil => rfl
  | cons first rest =>
      simp only [call, dispatch_withAccess hobjects hagree]
      rcases cache.dispatch (h.typeOf first) (first :: rest) with ⟨fault | target, next⟩ <;> rfl

end Agreement

end InlineCache

/-! ## Two runs -/

namespace Scene

/-- Two scenes that nothing tells apart but the access rights of their sites: the heap, what the
cache remembers and has counted, and the answers to all calls. -/
structure Alike (one other : Scene) : Prop where
  heap_eq : one.heap = other.heap
  state_eq : one.cache.state = other.cache.state
  counts_eq : one.cache.counts = other.cache.counts
  answer_eq : ∀ args,
    (one.cache.call args one.heap).answer = (other.cache.call args other.heap).answer

def withAccess (scene : Scene) (access : AccessContext) : Scene :=
  { scene with cache := scene.cache.withAccess access }

section Agreement

variable {scene : Scene} {access : AccessContext} (hobjects : scene.cache.objects = none)
  (hagree : scene.cache.site.AgreesWith access)

include hobjects hagree

theorem step_withAccess (event : Event) :
    (scene.withAccess access).step event = (scene.step event).withAccess access := by
  cases event with
  | call args =>
      simp only [step, withAccess, InlineCache.call_withAccess hobjects hagree]
  | meanwhile change => rfl

theorem run_withAccess (events : List Event) :
    (scene.withAccess access).run events = (scene.run events).withAccess access := by
  induction events generalizing scene with
  | nil => rfl
  | cons event events ih =>
      have hsame : scene.cache.SameSettings (scene.step event).cache :=
        scene.sameSettings_run [event]
      have hstep := step_withAccess hobjects hagree event
      have hrun : (scene.withAccess access).run (event :: events) =
          ((scene.step event).withAccess access).run events :=
        congrArg (run · events) hstep
      rw [hrun]
      exact ih (hsame.objects_eq.trans hobjects) (hsame.site_eq ▸ hagree)

theorem alike_withAccess : Alike scene (scene.withAccess access) where
  heap_eq := rfl
  state_eq := rfl
  counts_eq := rfl
  answer_eq := by
    intro args
    simp only [withAccess, InlineCache.call_withAccess hobjects hagree]

end Agreement

theorem alike_run_of_agreesWith {site : CallSite} {access : AccessContext}
    (hagree : site.AgreesWith access) (limit : RelinkLimit) (before : Heap)
    (events : List Event) :
    Alike (run ⟨.fresh site limit none, before⟩ events)
      (run ⟨.fresh (site.withAccess access) limit none, before⟩ events) := by
  have hsame := sameSettings_run ⟨.fresh site limit none, before⟩ events
  have hrun : run ⟨.fresh (site.withAccess access) limit none, before⟩ events =
      (run ⟨.fresh site limit none, before⟩ events).withAccess access :=
    @run_withAccess ⟨.fresh site limit none, before⟩ access rfl hagree events
  rw [hrun]
  exact alike_withAccess hsame.objects_eq (hsame.site_eq ▸ hagree)

end Scene

/-! ## Denied owners -/

/-- What a call on an array fails with where the right to the owner of its operation is denied. -/
def CallSite.refusal (site : CallSite) (operation : ArrayOperation) (owner : Owner) (count : Nat) :
    ResolutionFault :=
  if count = operation.arity then .unlinkable site.name (.denied site.access.caller owner.name)
  else .wrongArity site.name "arrays" operation.arity count

/-- A site that calls an operation without the right to its owner. -/
structure CallSite.Denied (site : CallSite) (operation : ArrayOperation) (owner : Owner) :
    Prop where
  name_mem : (site.name, operation) ∈ ArrayOperation.names
  owner_eq : operation.owner? = some owner
  denied : owner ∈ site.access.denied

namespace InlineCache

variable {cache : InlineCache} {operation : ArrayOperation} {owner : Owner}
  (hdenied : cache.site.Denied operation owner) (hstate : cache.state = .unlinked)

include hdenied in
theorem resolve_of_denied (elem : ElementType) (first : Value) (rest : List Value) :
    cache.resolve (.array elem) (first :: rest) =
      .error (cache.site.refusal operation owner rest.length) := by
  simp only [resolve, ValueType.shape, CallSite.refusal]
  apply Resolver.arrays_eq_of_arrayOutcome
  split
  · next hcount =>
    exact .denied ⟨hdenied.name_mem, by simpa using hcount⟩ rfl hdenied.owner_eq hdenied.denied
  · next hcount => exact .wrongArity hdenied.name_mem (by simpa using hcount)

include hdenied hstate

theorem dispatch_of_denied (s : StorageId) (rest : List Value) (h : Heap) :
    cache.dispatch (h.typeOf (.array s)) (.array s :: rest) =
      (.error (cache.site.refusal operation owner rest.length), cache.countMiss) := by
  have hlookup : cache.lookup? (h.typeOf (.array s)) = none := by simp only [lookup?, hstate]
  have hresolve := resolve_of_denied hdenied (h.storage s).elem (.array s) rest
  simp only [dispatch, hlookup]
  simp only [Heap.typeOf, hresolve]

theorem call_of_denied (s : StorageId) (rest : List Value) (h : Heap) :
    cache.call (.array s :: rest) h =
      ⟨.error (.resolution (cache.site.refusal operation owner rest.length)), h,
        cache.countMiss⟩ := by
  simp only [call, dispatch_of_denied hdenied hstate]

end InlineCache

def Event.CallsArrays : Event → Prop
  | .call args => ∃ s rest, args = .array s :: rest
  | .meanwhile _ => True

theorem Scene.unlinked_run_of_denied {scene : Scene} {operation : ArrayOperation} {owner : Owner}
    (hdenied : scene.cache.site.Denied operation owner) (hstate : scene.cache.state = .unlinked)
    {events : List Event} (hevents : ∀ event ∈ events, event.CallsArrays) :
    (scene.run events).cache.state = .unlinked := by
  induction events generalizing scene with
  | nil => exact hstate
  | cons event events ih =>
      have hsame : scene.cache.SameSettings (scene.step event).cache :=
        scene.sameSettings_run [event]
      have hrest : ∀ later ∈ events, later.CallsArrays :=
        fun later hlater => hevents later (List.mem_cons_of_mem _ hlater)
      have hstep : (scene.step event).cache.state = .unlinked := by
        cases event with
        | meanwhile change => exact hstate
        | call args =>
            obtain ⟨s, rest, rfl⟩ := hevents _ List.mem_cons_self
            simp only [step, InlineCache.call_of_denied hdenied hstate]
            exact hstate
      exact ih (hsame.site_eq ▸ hdenied) hstep hrest

/-! ## Every run -/

/-- Runs of fresh caches without a resolver of objects, whose sites differ in what was denied to one
caller, are alike if the denials agree on the owner of the named operation.  For element access, the
class of an array and names of no operation they are alike under any two contexts.  If the owner is
denied, a run of calls on arrays leaves the cache unlinked and the next call on an array, whatever
its arguments, is refused before anything is run. -/
theorem access_rights_affect_their_owner_only (name : String) (signature : Signature)
    (limit : RelinkLimit) (before : Heap) :
    let start := fun access objects =>
      Scene.mk (.fresh ⟨name, signature, access⟩ limit objects) before
    (∀ caller denials others,
      (∀ operation owner, (name, operation) ∈ ArrayOperation.names →
        operation.owner? = some owner → (owner ∈ denials ↔ owner ∈ others)) →
      ∀ events,
        Scene.Alike ((start ((AccessContext.full caller).denyAll denials) none).run events)
          ((start ((AccessContext.full caller).denyAll others) none).run events)) ∧
    (name ∈ ["get", "set", "getClass"] ∨
        (∀ operation, (name, operation) ∉ ArrayOperation.names) →
      ∀ one other events,
        Scene.Alike ((start one none).run events) ((start other none).run events)) ∧
    ∀ caller denials operation owner, (name, operation) ∈ ArrayOperation.names →
      operation.owner? = some owner → owner ∈ denials →
      ∀ objects events, (∀ event ∈ events, Event.CallsArrays event) →
        let access := (AccessContext.full caller).denyAll denials
        let scene := (start access objects).run events
        scene.cache.state = .unlinked ∧ ∀ s rest,
          let fault := CallSite.refusal ⟨name, signature, access⟩ operation owner rest.length
          (scene.cache.dispatch (scene.heap.typeOf (.array s)) (.array s :: rest)).1 =
            .error fault ∧
          (scene.cache.call (.array s :: rest) scene.heap).outcome =
            (.error (.resolution fault), scene.heap) := by
  intro start
  refine ⟨?_, ?_, ?_⟩
  · intro caller denials others hagree events
    have hsite : CallSite.AgreesWith ⟨name, signature, (AccessContext.full caller).denyAll denials⟩
        ((AccessContext.full caller).denyAll others) := by
      intro operation hname
      exact AccessContext.agreeOn_denyAll caller fun owner howner =>
        hagree operation owner hname howner
    exact Scene.alike_run_of_agreesWith hsite limit before events
  · intro hname one other events
    have hsite : CallSite.AgreesWith ⟨name, signature, one⟩ other := by
      intro operation hoperation
      rcases hname with hunowned | hunregistered
      · apply AccessContext.agreeOn_of_no_owner
        exact ArrayOperation.owner?_of_name_mem hunowned operation hoperation
      · exact absurd hoperation (hunregistered operation)
    exact Scene.alike_run_of_agreesWith hsite limit before events
  · intro caller denials operation owner hname howner hmem objects events hevents access scene
    have hdenied : CallSite.Denied ⟨name, signature, access⟩ operation owner :=
      ⟨hname, howner, AccessContext.mem_denied_denyAll.2 (.inl hmem)⟩
    have hsite : scene.cache.site = ⟨name, signature, access⟩ :=
      ((start access objects).sameSettings_run events).site_eq
    have hstate : scene.cache.state = .unlinked := Scene.unlinked_run_of_denied hdenied rfl hevents
    refine ⟨hstate, fun s rest => ⟨?_, ?_⟩⟩
    · rw [InlineCache.dispatch_of_denied (hsite ▸ hdenied) hstate, hsite]
    · rw [InlineCache.Reply.outcome, InlineCache.call_of_denied (hsite ▸ hdenied) hstate, hsite]

/-- `head` on full, empty and replaced arrays: denials of other owners make no difference, whatever
their order and number, while one that names its owner keeps the cache unlinked.  `set` takes no
notice of who asks and of what is denied to them. -/
theorem access_rights_of_head_and_set :
    let h := (Heap.empty.allocate ⟨.int64, [.int64 7], by decide⟩).allocate (.empty .any)
    let events := [.call [.array ⟨0⟩], .call [.array ⟨1⟩], .call [.int64 7],
      .replace ⟨0⟩ ⟨.string, [.string "a"], by decide⟩]
    let writes := [.call [.array ⟨0⟩, .int32 0, .char 'x'], .call [.array ⟨1⟩, .int32 0, .nothing]]
    let start := fun name count access => Scene.mk
      (.fresh ⟨name, .dynamic count, access⟩ ⟨some 1⟩ none) h
    let denied := fun owners => (AccessContext.full "script").denyAll owners
    let one := (start "head" 1 (denied [.arrays, .reflect, .arrays])).run events
    let other := (start "head" 1 (denied [.arrayIterator])).run events
    let refused := (start "head" 1 (denied [.arrays, .arrayHelper])).run (events.take 2)
    Scene.Alike one other ∧ one.cache.status = .linked (.array .any) ∧
      (one.cache.call [.array ⟨1⟩] one.heap).answer = .error (.argument .headOfEmpty) ∧
      refused.cache.state = .unlinked ∧
      (refused.cache.call [.array ⟨1⟩] refused.heap).outcome =
        (.error (.resolution (.unlinkable "head" (.denied "script" "ArrayHelper"))),
          refused.heap) ∧
      Scene.Alike ((start "set" 3 (denied [.arrays])).run writes)
        ((start "set" 3 (AccessContext.standard.denyAll Owner.all)).run writes) := by
  intro h events writes start denied one other refused
  have hnamed : ("head", ArrayOperation.head) ∈ ArrayOperation.names := by decide
  have hhead : ∀ operation owner, ("head", operation) ∈ ArrayOperation.names →
      operation.owner? = some owner →
        (owner ∈ [Owner.arrays, .reflect, .arrays] ↔ owner ∈ [Owner.arrayIterator]) := by
    intro operation owner hname howner
    cases ArrayOperation.eq_of_mem_names hname hnamed
    cases howner
    decide
  obtain ⟨halike, _, hdenied⟩ :=
    access_rights_affect_their_owner_only "head" (.dynamic 1) ⟨some 1⟩ h
  obtain ⟨_, hset, _⟩ := access_rights_affect_their_owner_only "set" (.dynamic 3) ⟨some 1⟩ h
  have hcalls : ∀ event ∈ events.take 2, Event.CallsArrays event := by
    intro event hevent
    rcases hevent with _ | ⟨_, _ | ⟨_, ⟨⟩⟩⟩
    · exact ⟨⟨0⟩, [], rfl⟩
    · exact ⟨⟨1⟩, [], rfl⟩
  obtain ⟨hstate, hrefused⟩ := hdenied "script" [.arrays, .arrayHelper] .head .arrayHelper
    hnamed rfl (by decide) none (events.take 2) hcalls
  have hstatus : one.cache.status = .linked (.array .any) := by rfl
  have hanswer : (one.cache.call [.array ⟨1⟩] one.heap).answer =
      .error (.argument .headOfEmpty) := by decide +kernel
  exact ⟨halike "script" _ _ hhead events, hstatus, hanswer, hstate, (hrefused ⟨1⟩ []).2,
    hset (.inl (by decide)) _ _ writes⟩

end LateBinding

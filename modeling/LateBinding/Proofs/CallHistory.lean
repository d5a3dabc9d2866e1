import LateBinding.Dispatch.InlineCache

/-!
# Histories of calls

What a cache has become after a sequence of calls.  Each call brings its own heap, so a history also
covers everything that other code does to storages between two calls.  One inversion lemma says what
a dispatch can do; the invariants of caches are proved from it and carried through a history by
induction.
-/

namespace LateBinding

/-- A call as a cache meets it: the arguments, receiver first, and the heap at that moment. -/
structure Call where
  args : List Value
  heap : Heap

namespace InlineCache

def afterCall (cache : InlineCache) (call : Call) : InlineCache :=
  (cache.call call.args call.heap).cache

def after (cache : InlineCache) (history : List Call) : InlineCache :=
  history.foldl afterCall cache

@[simp] theorem after_nil (cache : InlineCache) : cache.after [] = cache := rfl

@[simp] theorem after_cons (cache : InlineCache) (call : Call) (history : List Call) :
    cache.after (call :: history) = (cache.afterCall call).after history := rfl

theorem after_append (cache : InlineCache) (earlier later : List Call) :
    cache.after (earlier ++ later) = (cache.after earlier).after later := by
  simp [after]

theorem call_nil (cache : InlineCache) (h : Heap) :
    cache.call [] h = ⟨.error (.argument (.noReceiver cache.site.name)), h, cache⟩ := rfl

theorem afterCall_of_args_eq_nil {cache : InlineCache} {call : Call} (hargs : call.args = []) :
    cache.afterCall call = cache := by
  unfold afterCall
  rw [hargs, call_nil]

theorem afterCall_of_args_eq_cons (cache : InlineCache) {call : Call} {first : Value}
    {rest : List Value} (hargs : call.args = first :: rest) :
    cache.afterCall call = (cache.dispatch (call.heap.typeOf first) (first :: rest)).2 := by
  unfold afterCall InlineCache.call
  rw [hargs]
  rcases hdispatch : cache.dispatch (call.heap.typeOf first) (first :: rest) with
    ⟨_ | target, next⟩ <;> simp [hdispatch]

/-! ## What a dispatch can do -/

/-- A dispatch hits, or resolves and installs, or fails to resolve. -/
theorem dispatch_cases (cache : InlineCache) (receiver : ValueType) (args : List Value) :
    (∃ target, cache.lookup? receiver = some target ∧
      cache.dispatch receiver args = (.ok target, cache.countHit)) ∨
    (∃ target, cache.lookup? receiver = none ∧ cache.resolve receiver args = .ok target ∧
      cache.dispatch receiver args = (.ok target, cache.countMiss.install receiver target)) ∨
    ∃ fault, cache.lookup? receiver = none ∧ cache.resolve receiver args = .error fault ∧
      cache.dispatch receiver args = (.error fault, cache.countMiss) := by
  cases hlookup : cache.lookup? receiver with
  | some target =>
      exact .inl ⟨target, rfl, by simp [dispatch, hlookup]⟩
  | none =>
      cases hresolve : cache.resolve receiver args with
      | ok target =>
          exact .inr (.inl ⟨target, rfl, rfl, by simp [dispatch, hlookup, hresolve]⟩)
      | error fault =>
          exact .inr (.inr ⟨fault, rfl, rfl, by simp [dispatch, hlookup, hresolve]⟩)

section Install

variable {cache : InlineCache} {guard : Guard} {previous : Target}

theorem install_of_unlinked (hstate : cache.state = .unlinked) (receiver : ValueType)
    (target : Target) :
    cache.install receiver target =
      { cache with
        state := .linked ⟨receiver⟩ target
        counts := { cache.counts with resolutions := cache.counts.resolutions + 1 } } := by
  simp only [install, hstate]

theorem install_of_megamorphic (hstate : cache.state = .megamorphic) (receiver : ValueType)
    (target : Target) :
    cache.install receiver target =
      { cache with
        counts := { cache.counts with resolutions := cache.counts.resolutions + 1 } } := by
  simp only [install, hstate]

theorem install_of_linked (hstate : cache.state = .linked guard previous)
    (hborne : cache.limit.exceeded (cache.counts.relinks + 1) = false) (receiver : ValueType)
    (target : Target) :
    cache.install receiver target =
      { cache with
        state := .linked ⟨receiver⟩ target
        counts := { cache.counts with
          resolutions := cache.counts.resolutions + 1
          relinks := cache.counts.relinks + 1 } } := by
  simp [install, hstate, hborne]

theorem install_of_linked_exceeded (hstate : cache.state = .linked guard previous)
    (hexceeded : cache.limit.exceeded (cache.counts.relinks + 1) = true) (receiver : ValueType)
    (target : Target) :
    cache.install receiver target =
      { cache with
        state := .megamorphic
        counts := { cache.counts with
          resolutions := cache.counts.resolutions + 1
          relinks := cache.counts.relinks + 1 } } := by
  simp [install, hstate, hexceeded]

end Install

/-- An installation counts one resolution and remembers the new target, unless the cache is or
becomes megamorphic. -/
theorem install_cases (cache : InlineCache) (receiver : ValueType) (target : Target) :
    ∃ state relinks, (state = .linked ⟨receiver⟩ target ∨ state = .megamorphic) ∧
      cache.install receiver target =
        { cache with
          state := state
          counts := { cache.counts with
            resolutions := cache.counts.resolutions + 1
            relinks := relinks } } := by
  cases hstate : cache.state with
  | unlinked =>
      refine ⟨.linked ⟨receiver⟩ target, cache.counts.relinks, .inl rfl, ?_⟩
      rw [install_of_unlinked hstate]
  | megamorphic =>
      refine ⟨.megamorphic, cache.counts.relinks, .inr rfl, ?_⟩
      rw [install_of_megamorphic hstate, ← hstate]
  | linked guard previous =>
      cases hlimit : cache.limit.exceeded (cache.counts.relinks + 1) with
      | false => exact ⟨_, _, .inl rfl, install_of_linked hstate hlimit receiver target⟩
      | true => exact ⟨_, _, .inr rfl, install_of_linked_exceeded hstate hlimit receiver target⟩

theorem hits_misses_install (cache : InlineCache) (receiver : ValueType) (target : Target) :
    (cache.install receiver target).counts.hits = cache.counts.hits ∧
      (cache.install receiver target).counts.misses = cache.counts.misses := by
  obtain ⟨state, relinks, _, hinstall⟩ := cache.install_cases receiver target
  rw [hinstall]
  exact ⟨rfl, rfl⟩

/-! ## What a call can do -/

/-- The type of the receiver, if the call is bound: the remembered target answers it, or its
resolution succeeds. -/
def boundType? (cache : InlineCache) (call : Call) : Option ValueType :=
  match call.args with
  | [] => none
  | first :: _ =>
    let receiver := call.heap.typeOf first
    if (cache.lookup? receiver).isSome || (cache.resolve receiver call.args).isOk then some receiver
    else none

theorem afterCall_cases (cache : InlineCache) (call : Call) :
    (call.args = [] ∧ cache.boundType? call = none ∧ cache.afterCall call = cache) ∨
    (call.args ≠ [] ∧
      ((∃ receiver target, cache.lookup? receiver = some target ∧
        cache.boundType? call = some receiver ∧ cache.afterCall call = cache.countHit) ∨
      (∃ receiver target, cache.lookup? receiver = none ∧
        cache.resolve receiver call.args = .ok target ∧ cache.boundType? call = some receiver ∧
        cache.afterCall call = cache.countMiss.install receiver target) ∨
      (cache.boundType? call = none ∧ cache.afterCall call = cache.countMiss))) := by
  cases hargs : call.args with
  | nil =>
      exact .inl ⟨rfl, by simp [boundType?, hargs], afterCall_of_args_eq_nil hargs⟩
  | cons first rest =>
      refine .inr ⟨by simp, ?_⟩
      have hnext := cache.afterCall_of_args_eq_cons hargs
      rcases cache.dispatch_cases (call.heap.typeOf first) (first :: rest) with
        ⟨target, hlookup, hdispatch⟩ | ⟨target, hlookup, hresolve, hdispatch⟩ |
        ⟨fault, hlookup, hresolve, hdispatch⟩
      · rw [hdispatch] at hnext
        exact .inl ⟨_, target, hlookup, by simp [boundType?, hargs, hlookup], hnext⟩
      · rw [hdispatch] at hnext
        have hbound : cache.boundType? call = some (call.heap.typeOf first) := by
          simp [boundType?, hargs, hresolve, Except.isOk, Except.toBool]
        exact .inr (.inl ⟨_, target, hlookup, hresolve, hbound, hnext⟩)
      · rw [hdispatch] at hnext
        refine .inr (.inr ⟨?_, hnext⟩)
        simp [boundType?, hargs, hlookup, hresolve, Except.isOk, Except.toBool]

/-- A property that hits, installations and plain misses keep is kept by every call. -/
theorem afterCall_preserves {motive : InlineCache → Prop} {cache : InlineCache} {call : Call}
    (hcache : motive cache) (hhit : motive cache.countHit)
    (hinstall : ∀ receiver args target, cache.resolve receiver args = .ok target →
      motive (cache.countMiss.install receiver target))
    (hmiss : motive cache.countMiss) : motive (cache.afterCall call) := by
  rcases cache.afterCall_cases call with ⟨_, _, hnext⟩ | ⟨_, ⟨_, _, _, _, hnext⟩ |
    ⟨receiver, target, _, hresolve, _, hnext⟩ | ⟨_, hnext⟩⟩
  · rw [hnext]
    exact hcache
  · rw [hnext]
    exact hhit
  · rw [hnext]
    exact hinstall receiver _ target hresolve
  · rw [hnext]
    exact hmiss

theorem after_preserves {motive : InlineCache → Prop} {cache : InlineCache}
    (hstep : ∀ cache call, motive cache → motive (afterCall cache call))
    (hcache : motive cache) (history : List Call) : motive (cache.after history) := by
  induction history generalizing cache with
  | nil => exact hcache
  | cons call history ih => exact ih (hstep cache call hcache)

/-! ## What a cache was made with -/

/-- Two caches of one site, with one limit and one resolver of objects. -/
structure SameSettings (cache next : InlineCache) : Prop where
  site_eq : next.site = cache.site
  limit_eq : next.limit = cache.limit
  objects_eq : next.objects = cache.objects

theorem sameSettings_install (cache : InlineCache) (receiver : ValueType) (target : Target) :
    cache.SameSettings (cache.install receiver target) := by
  obtain ⟨state, relinks, _, hinstall⟩ := cache.install_cases receiver target
  rw [hinstall]
  exact ⟨rfl, rfl, rfl⟩

theorem sameSettings_after (cache : InlineCache) (history : List Call) :
    cache.SameSettings (cache.after history) := by
  apply after_preserves (motive := cache.SameSettings)
  · intro next call hnext
    apply afterCall_preserves hnext
    · exact ⟨hnext.site_eq, hnext.limit_eq, hnext.objects_eq⟩
    · intro receiver args target _
      have hinstall := next.countMiss.sameSettings_install receiver target
      exact ⟨hinstall.site_eq.trans hnext.site_eq, hinstall.limit_eq.trans hnext.limit_eq,
        hinstall.objects_eq.trans hnext.objects_eq⟩
    · exact ⟨hnext.site_eq, hnext.limit_eq, hnext.objects_eq⟩
  · exact ⟨rfl, rfl, rfl⟩

theorem SameSettings.resolve_eq {cache next : InlineCache} (hsame : cache.SameSettings next) :
    next.resolve = cache.resolve := by
  unfold resolve
  rw [hsame.site_eq, hsame.objects_eq]

/-! ## Where a remembered target comes from -/

/-- The remembered target came out of a resolution for the type that its guard expects. -/
def Sourced (cache : InlineCache) : Prop :=
  ∀ guard target, cache.state = .linked guard target →
    ∃ args, cache.resolve guard.expected args = .ok target

theorem lookup?_eq_some_iff {cache : InlineCache} {receiver : ValueType} {target : Target} :
    cache.lookup? receiver = some target ↔ cache.state = .linked ⟨receiver⟩ target := by
  unfold lookup?
  cases cache.state with
  | unlinked => simp
  | megamorphic => simp
  | linked guard remembered =>
      rcases guard with ⟨expected⟩
      simp [Guard.accepts]

theorem status_eq_linked_iff {cache : InlineCache} {receiver : ValueType} :
    cache.status = .linked receiver ↔ ∃ target, cache.lookup? receiver = some target := by
  simp only [lookup?_eq_some_iff]
  unfold status
  cases cache.state with
  | unlinked => simp [LinkState.status]
  | megamorphic => simp [LinkState.status]
  | linked guard target =>
      rcases guard with ⟨expected⟩
      simp [LinkState.status]

theorem status_eq_megamorphic_iff {cache : InlineCache} :
    cache.status = .megamorphic ↔ cache.state = .megamorphic := by
  unfold status
  cases cache.state <;> simp [LinkState.status]

theorem sourced_install (cache : InlineCache) {receiver : ValueType} {args : List Value}
    {target : Target} (hresolve : cache.resolve receiver args = .ok target) :
    (cache.install receiver target).Sourced := by
  intro guard remembered hremembered
  rw [(cache.sameSettings_install receiver target).resolve_eq]
  obtain ⟨state, relinks, hstate, hinstall⟩ := cache.install_cases receiver target
  rw [hinstall] at hremembered
  rcases hstate with hlinked | hmegamorphic
  · cases hlinked.symm.trans hremembered
    exact ⟨args, hresolve⟩
  · cases hmegamorphic.symm.trans hremembered

theorem sourced_after_fresh (site : CallSite) (limit : RelinkLimit) (objects : Option Resolver)
    (history : List Call) : ((fresh site limit objects).after history).Sourced := by
  apply after_preserves (motive := Sourced)
  · intro cache call hsourced
    apply afterCall_preserves hsourced
    · exact hsourced
    · intro receiver args target hresolve
      exact cache.countMiss.sourced_install hresolve
    · exact hsourced
  · intro guard target hstate
    simp [fresh] at hstate

theorem Sourced.resolve_of_lookup? {cache : InlineCache} (hsourced : cache.Sourced)
    {receiver : ValueType} {target : Target} (hlookup : cache.lookup? receiver = some target) :
    ∃ args, cache.resolve receiver args = .ok target :=
  hsourced ⟨receiver⟩ target (lookup?_eq_some_iff.1 hlookup)

end InlineCache

end LateBinding

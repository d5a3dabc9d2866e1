import LateBinding.Proofs.CallHistory

/-!
# Failed calls

A call can fail for want of a receiver, in its resolution, or in the run of its target.  The first
changes nothing at all, the second counts as a miss and changes nothing else, and the third leaves
the cache as a run that succeeds would have left it.  So a call that was never bound can be struck
from a history: apart from the misses, the cache after the rest of it is the same.
-/

namespace LateBinding

namespace InlineCache

variable {cache : InlineCache} {first : Value} {rest : List Value} {h : Heap}

/-- A call through the cache with `run` in the place of what running the bound target does. -/
def callRunning (cache : InlineCache) (run : Target → List Value → Action Value)
    (args : List Value) (h : Heap) : Reply :=
  match args with
  | [] => ⟨.error (.argument (.noReceiver cache.site.name)), h, cache⟩
  | receiver :: _ =>
    match cache.dispatch (h.typeOf receiver) args with
    | (.error fault, after) => ⟨.error (.resolution fault), h, after⟩
    | (.ok target, after) =>
      let (answer, heap) := run target args h
      ⟨answer, heap, after⟩

theorem call_eq_callRunning (cache : InlineCache) : cache.call = cache.callRunning Target.call :=
  rfl

theorem callRunning_of_bound {target : Target}
    (hbound : (cache.dispatch (h.typeOf first) (first :: rest)).1 = .ok target)
    (run : Target → List Value → Action Value) :
    cache.callRunning run (first :: rest) h =
      ⟨(run target (first :: rest) h).1, (run target (first :: rest) h).2,
        (cache.dispatch (h.typeOf first) (first :: rest)).2⟩ := by
  rcases hdispatch : cache.dispatch (h.typeOf first) (first :: rest) with ⟨fault | bound, after⟩
  · rw [hdispatch] at hbound
    cases hbound
  · rw [hdispatch] at hbound
    cases hbound
    simp only [callRunning, hdispatch]

theorem call_of_unresolved {fault : ResolutionFault}
    (hlookup : cache.lookup? (h.typeOf first) = none)
    (hresolve : cache.resolve (h.typeOf first) (first :: rest) = .error fault) :
    cache.call (first :: rest) h = ⟨.error (.resolution fault), h, cache.countMiss⟩ := by
  have hdispatch : cache.dispatch (h.typeOf first) (first :: rest) =
      (.error fault, cache.countMiss) := by
    simp only [dispatch, hlookup, hresolve]
  simp only [call, hdispatch]

/-- What a failed call does to a cache, whatever the cache went through before.  Without a receiver
nothing changes.  After a failed resolution only the misses do.  Where a target was bound but its
run fails, the cache is the one that any successful run in its place would leave. -/
theorem failed_call_keeps_links (cache : InlineCache) (h : Heap) :
    cache.call [] h = ⟨.error (.argument (.noReceiver cache.site.name)), h, cache⟩ ∧
    ∀ first rest,
      let reply := cache.call (first :: rest) h
      (∀ fault, cache.lookup? (h.typeOf first) = none →
        cache.resolve (h.typeOf first) (first :: rest) = .error fault →
          reply.answer = .error (.resolution fault) ∧ reply.heap = h ∧
          reply.cache.state = cache.state ∧ reply.cache.generation? = cache.generation? ∧
          reply.cache.counts = { cache.counts with misses := cache.counts.misses + 1 }) ∧
      ∀ target fault, (cache.dispatch (h.typeOf first) (first :: rest)).1 = .ok target →
        (target.call (first :: rest) h).1 = .error fault →
          reply.answer = .error fault ∧
          ∀ run v, (run target (first :: rest) h).1 = .ok v →
            (cache.callRunning run (first :: rest) h).answer = .ok v ∧
            (cache.callRunning run (first :: rest) h).cache = reply.cache := by
  refine ⟨rfl, fun first rest => ⟨?_, ?_⟩⟩
  · intro fault hlookup hresolve
    rw [call_of_unresolved hlookup hresolve]
    exact ⟨rfl, rfl, rfl, rfl, rfl⟩
  · intro target fault hbound hfailed
    have hreply := callRunning_of_bound hbound Target.call
    rw [← call_eq_callRunning, hfailed] at hreply
    rw [hreply]
    refine ⟨rfl, fun run v hsucceeded => ?_⟩
    rw [callRunning_of_bound hbound run, hsucceeded]
    exact ⟨rfl, rfl⟩

/-- A cache without an allowance of relinks, linked by a read that failed: a number as receiver
leaves it linked, and a read that fails on another array makes it megamorphic as one that succeeds
would. -/
theorem failed_reads_keep_links :
    let h := (Heap.empty.allocate (.empty .int64)).allocate (.empty .string)
    let cache := (fresh (.dynamic "get" 1) ⟨some 0⟩ none).after [⟨[.array ⟨0⟩, .int64 0], h⟩]
    let unresolved := cache.call [.int64 5, .int64 0] h
    let failed := cache.call [.array ⟨1⟩, .int64 0] h
    let succeeded := cache.callRunning (fun _ _ => pure (.string "a")) [.array ⟨1⟩, .int64 0] h
    (cache.call [] h).cache = cache ∧
      cache.status = .linked (.array .int64) ∧ cache.lookup? .int64 = none ∧
      cache.resolve .int64 [.int64 5, .int64 0] = .error (.unsupported "get" "Int64") ∧
      unresolved.answer = .error (.resolution (.unsupported "get" "Int64")) ∧
      unresolved.cache.state = cache.state ∧ unresolved.cache.counts = ⟨1, 0, 2, 0⟩ ∧
      failed.answer = .error (.bounds 0 0) ∧ succeeded.answer = .ok (.string "a") ∧
      succeeded.cache = failed.cache ∧ failed.cache.status = .megamorphic := by
  intro h cache unresolved failed succeeded
  obtain ⟨hempty, hcalls⟩ := failed_call_keeps_links cache h
  obtain ⟨hanswer, _, hstate, _, hcounts⟩ :=
    (hcalls (.int64 5) [.int64 0]).1 (.unsupported "get" "Int64") rfl rfl
  obtain ⟨hbounds, hrun⟩ :=
    (hcalls (.array ⟨1⟩) [.int64 0]).2 _ (.bounds 0 0) rfl rfl
  obtain ⟨hvalue, hsame⟩ := hrun (fun _ _ => pure (.string "a")) (.string "a") rfl
  exact ⟨by rw [hempty], rfl, rfl, rfl, hanswer, hstate, hcounts, hbounds, hvalue, hsame, rfl⟩

/-! ## Striking a call from a history -/

def withMisses (cache : InlineCache) (misses : Nat) : InlineCache :=
  { cache with counts := { cache.counts with misses := misses } }

theorem install_withMisses (cache : InlineCache) (misses : Nat) (receiver : ValueType)
    (target : Target) :
    (cache.withMisses misses).install receiver target =
      (cache.install receiver target).withMisses misses := by
  cases hstate : cache.state with
  | unlinked => simp [install, withMisses, hstate]
  | megamorphic => simp [install, withMisses, hstate]
  | linked guard previous =>
      cases hlimit : cache.limit.exceeded (cache.counts.relinks + 1) with
      | false => simp [install, withMisses, hstate, hlimit]
      | true => simp [install, withMisses, hstate, hlimit]

/-- How many calls a cache has missed has no part in what it does next. -/
theorem afterCall_withMisses (cache : InlineCache) (misses : Nat) (call : Call) :
    ∃ later, (cache.withMisses misses).afterCall call =
      (cache.afterCall call).withMisses later := by
  cases hargs : call.args with
  | nil =>
      refine ⟨misses, ?_⟩
      rw [afterCall_of_args_eq_nil hargs, afterCall_of_args_eq_nil hargs]
  | cons first rest =>
      rw [afterCall_of_args_eq_cons _ hargs, afterCall_of_args_eq_cons _ hargs]
      -- neither a lookup nor a resolution reads a counter
      have hlookup : (cache.withMisses misses).lookup? = cache.lookup? := rfl
      have hresolve : (cache.withMisses misses).resolve = cache.resolve := rfl
      have hmiss : (cache.withMisses misses).countMiss =
          cache.countMiss.withMisses (misses + 1) := rfl
      rcases cache.dispatch_cases (call.heap.typeOf first) (first :: rest) with
        ⟨target, hfound, hdispatch⟩ | ⟨target, hfound, hresolved, hdispatch⟩ |
        ⟨fault, hfound, hresolved, hdispatch⟩
      · refine ⟨misses, ?_⟩
        rw [hdispatch]
        simp only [dispatch, hlookup, hfound]
        rfl
      · refine ⟨misses + 1, ?_⟩
        rw [hdispatch]
        simp only [dispatch, hlookup, hfound, hresolve, hresolved, hmiss, install_withMisses]
      · refine ⟨misses + 1, ?_⟩
        rw [hdispatch]
        simp only [dispatch, hlookup, hfound, hresolve, hresolved, hmiss]

theorem after_withMisses (cache : InlineCache) (misses : Nat) (history : List Call) :
    ∃ later, (cache.withMisses misses).after history = (cache.after history).withMisses later := by
  induction history generalizing cache misses with
  | nil => exact ⟨misses, rfl⟩
  | cons call history ih =>
      obtain ⟨next, hnext⟩ := cache.afterCall_withMisses misses call
      rw [after_cons, after_cons, hnext]
      exact ih (cache.afterCall call) next

theorem afterCall_of_boundType?_eq_none {call : Call} (hunbound : cache.boundType? call = none) :
    ∃ misses, cache.afterCall call = cache.withMisses misses := by
  rcases cache.afterCall_cases call with ⟨_, _, hnext⟩ | ⟨_, ⟨_, _, _, hbound, _⟩ |
    ⟨_, _, _, _, hbound, _⟩ | ⟨_, hnext⟩⟩
  · exact ⟨cache.counts.misses, hnext⟩
  · rw [hbound] at hunbound
    contradiction
  · rw [hbound] at hunbound
    contradiction
  · exact ⟨cache.counts.misses + 1, hnext⟩

/-- A call that was never bound can be struck from a history: what follows it ends in the same cache
but for the misses. -/
theorem after_strike (cache : InlineCache) (earlier later : List Call) {call : Call}
    (hunbound : (cache.after earlier).boundType? call = none) :
    ∃ misses, cache.after (earlier ++ call :: later) =
      (cache.after (earlier ++ later)).withMisses misses := by
  obtain ⟨misses, hcall⟩ := afterCall_of_boundType?_eq_none hunbound
  rw [after_append, after_append, after_cons, hcall]
  exact after_withMisses _ misses later

end InlineCache

end LateBinding

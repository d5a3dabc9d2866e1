import LateBinding.Resolution.Resolver

/-!
# Inline caches

An inline cache belongs to one call site and remembers the target of its last resolution together
with a guard on the receiver's type.  A call whose receiver passes the guard runs the target at
once; any other call resolves and relinks the cache.  A cache with a limit gives up caching when its
relinks exceed it: it is then megamorphic and resolves every call.
-/

namespace LateBinding

structure Guard where
  expected : ValueType
deriving DecidableEq

def Guard.accepts (guard : Guard) (receiver : ValueType) : Bool :=
  guard.expected == receiver

/-- How many relinks a cache bears before it stops caching; without a threshold it never stops. -/
structure RelinkLimit where
  threshold : Option UInt64
deriving DecidableEq

namespace RelinkLimit

def unbounded : RelinkLimit :=
  ⟨none⟩

def exceeded (limit : RelinkLimit) (relinks : Nat) : Bool :=
  limit.threshold.any fun bound => bound.toNat < relinks

end RelinkLimit

inductive LinkState where
  | unlinked
  | linked (guard : Guard) (target : Target)
  | megamorphic

/-- The state of a cache as it shows from outside: of a remembered target, only the type that its
guard expects. -/
inductive CacheStatus where
  | unlinked
  | linked (receiver : ValueType)
  | megamorphic
deriving DecidableEq

def LinkState.status : LinkState → CacheStatus
  | unlinked => .unlinked
  | linked guard _ => .linked guard.expected
  | megamorphic => .megamorphic

/-- What a cache has counted since it was made.  The counts are unbounded; where they are kept in
words of 64 bits, only histories in which each stays below `2 ^ 64` are meant. -/
structure CallCounts where
  /-- Resolutions that gave a target. -/
  resolutions : Nat
  hits : Nat
  misses : Nat
  /-- Replacements of a remembered target. -/
  relinks : Nat
deriving DecidableEq

structure InlineCache where
  site : CallSite
  limit : RelinkLimit
  /-- Resolves the operations of receivers that are not arrays, if anything does. -/
  objects : Option Resolver
  state : LinkState
  counts : CallCounts

namespace InlineCache

/-- The cache of a site before its first call. -/
def fresh (site : CallSite) (limit : RelinkLimit) (objects : Option Resolver) : InlineCache where
  site := site
  limit := limit
  objects := objects
  state := .unlinked
  counts := ⟨0, 0, 0, 0⟩

def status (cache : InlineCache) : CacheStatus :=
  cache.state.status

def target? (cache : InlineCache) : Option Target :=
  match cache.state with
  | .linked _ target => some target
  | _ => none

/-- Which of the successive targets of the cache is remembered: the first has number zero, and each
relink takes the next. -/
def generation? (cache : InlineCache) : Option Nat :=
  cache.target?.map fun _ => cache.counts.relinks

/-- The remembered target, if its guard accepts a receiver of this type. -/
def lookup? (cache : InlineCache) (receiver : ValueType) : Option Target :=
  match cache.state with
  | .linked guard target => if guard.accepts receiver then some target else none
  | _ => none

def resolve (cache : InlineCache) (receiver : ValueType) (args : List Value) :
    Except ResolutionFault Target :=
  let request : Request := { site := cache.site, receiver, args }
  match receiver.shape with
  | .array => Resolver.arrays request
  | .object =>
    match cache.objects with
    | some resolver => resolver request
    | none => .error (.unsupported cache.site.name receiver.name)

def countHit (cache : InlineCache) : InlineCache :=
  { cache with counts := { cache.counts with hits := cache.counts.hits + 1 } }

def countMiss (cache : InlineCache) : InlineCache :=
  { cache with counts := { cache.counts with misses := cache.counts.misses + 1 } }

/-- The cache after a successful resolution for a receiver of this type. -/
def install (cache : InlineCache) (receiver : ValueType) (target : Target) : InlineCache :=
  let resolved := { cache.counts with resolutions := cache.counts.resolutions + 1 }
  match cache.state with
  | .megamorphic => { cache with counts := resolved }
  | .unlinked => { cache with state := .linked ⟨receiver⟩ target, counts := resolved }
  | .linked _ _ =>
    let relinked := { resolved with relinks := resolved.relinks + 1 }
    if cache.limit.exceeded relinked.relinks then
      { cache with state := .megamorphic, counts := relinked }
    else { cache with state := .linked ⟨receiver⟩ target, counts := relinked }

/-- Settles which target a call runs and what the cache remembers after it.  Nothing is run yet, so
the outcome of the target's own execution has no part in it. -/
def dispatch (cache : InlineCache) (receiver : ValueType) (args : List Value) :
    Except ResolutionFault Target × InlineCache :=
  match cache.lookup? receiver with
  | some target => (.ok target, cache.countHit)
  | none =>
    match cache.resolve receiver args with
    | .ok target => (.ok target, cache.countMiss.install receiver target)
    | .error fault => (.error fault, cache.countMiss)

structure Reply where
  answer : Except CallFault Value
  heap : Heap
  cache : InlineCache

/-- Calls through the cache; the receiver is the first argument. -/
def call (cache : InlineCache) (args : List Value) (h : Heap) : Reply :=
  match args with
  | [] => ⟨.error (.argument (.noReceiver cache.site.name)), h, cache⟩
  | receiver :: _ =>
    match cache.dispatch (h.typeOf receiver) args with
    | (.error fault, after) => ⟨.error (.resolution fault), h, after⟩
    | (.ok target, after) =>
      let (answer, heap) := target.call args h
      ⟨answer, heap, after⟩

end InlineCache

end LateBinding

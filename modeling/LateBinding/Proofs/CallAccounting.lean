import LateBinding.Proofs.CallHistory
import Mathlib.Data.List.Basic

/-!
# Accounting of calls

State and counters of a cache as a closed form of its history.  The bound calls are those that the
remembered target answers or whose resolution succeeds; what counts is the sequence of their
receiver types, and how often neighbours in it differ.  As long as the limit bears these changes
each of them is one relink; the first change beyond the limit makes the cache megamorphic for good.
-/

namespace LateBinding

/-- How often neighbours in a sequence of types differ. -/
def typeChanges (types : List ValueType) : Nat :=
  (types.zip types.tail).countP fun pair => pair.1 ≠ pair.2

theorem typeChanges_cons_cons (first second : ValueType) (rest : List ValueType) :
    typeChanges (first :: second :: rest) =
      typeChanges (second :: rest) + if first = second then 0 else 1 := by
  by_cases hsame : first = second
  · simp [typeChanges, hsame]
  · simp [typeChanges, hsame]

theorem typeChanges_append_singleton {types : List ValueType} {last : ValueType}
    (hlast : types.getLast? = some last) (next : ValueType) :
    typeChanges (types ++ [next]) = typeChanges types + if last = next then 0 else 1 := by
  induction types with
  | nil => simp at hlast
  | cons first rest ih =>
      cases rest with
      | nil =>
          have hfirst : first = last := by simpa using hlast
          subst last
          exact typeChanges_cons_cons first next []
      | cons second rest =>
          rw [List.getLast?_cons_cons] at hlast
          have hrest := ih hlast
          simp only [List.cons_append] at hrest ⊢
          rw [typeChanges_cons_cons, typeChanges_cons_cons, hrest]
          omega

theorem typeChanges_le_append_singleton (types : List ValueType) (next : ValueType) :
    typeChanges types ≤ typeChanges (types ++ [next]) ∧
      typeChanges (types ++ [next]) ≤ typeChanges types + 1 := by
  cases hlast : types.getLast? with
  | none =>
      rw [List.getLast?_eq_none_iff] at hlast
      subst types
      simp [typeChanges]
  | some last =>
      rw [typeChanges_append_singleton hlast]
      split <;> omega

def Call.hasReceiver (call : Call) : Bool :=
  !call.args.isEmpty

namespace InlineCache

/-- The receiver types of the bound calls of a history, in order. -/
def boundTypes (cache : InlineCache) : List Call → List ValueType
  | [] => []
  | call :: history =>
      (cache.boundType? call).toList ++ (cache.afterCall call).boundTypes history

theorem boundTypes_append (cache : InlineCache) (earlier later : List Call) :
    cache.boundTypes (earlier ++ later) =
      cache.boundTypes earlier ++ (cache.after earlier).boundTypes later := by
  induction earlier generalizing cache with
  | nil => rfl
  | cons call earlier ih => simp [boundTypes, ih]

/-! ## The two regimes -/

/-- What a cache shows after bound calls on receivers of these types, while its limit bears their
changes of type. -/
structure WithinLimit (cache : InlineCache) (types : List ValueType) : Prop where
  status_eq : cache.status = types.getLast?.elim .unlinked .linked
  relinks_eq : cache.counts.relinks = typeChanges types
  resolutions_eq : cache.counts.resolutions = if types = [] then 0 else typeChanges types + 1
  hits_add_resolutions : cache.counts.hits + cache.counts.resolutions = types.length

/-- What a cache shows after bound calls on receivers of these types, once they changed type more
often than `bound` times: its hits all came before the call that made the first change too many. -/
structure PastLimit (cache : InlineCache) (bound : Nat) (types : List ValueType) : Prop where
  status_eq : cache.status = .megamorphic
  target?_eq : cache.target? = none
  relinks_eq : cache.counts.relinks = bound + 1
  hits_eq : ∃ before last after, types = before ++ last :: after ∧
    typeChanges before = bound ∧ typeChanges (before ++ [last]) = bound + 1 ∧
    cache.counts.hits + (bound + 1) = before.length
  hits_add_resolutions : cache.counts.hits + cache.counts.resolutions = types.length

/-- The regime that the number of changes calls for. -/
def Accounted (cache : InlineCache) (types : List ValueType) : Prop :=
  (cache.limit.exceeded (typeChanges types) = false ∧ cache.WithinLimit types) ∨
  ∃ bound, cache.limit.threshold = some bound ∧ bound.toNat < typeChanges types ∧
    cache.PastLimit bound.toNat types

theorem exceeded_eq_false_iff {limit : RelinkLimit} {relinks : Nat} :
    limit.exceeded relinks = false ↔
      ∀ bound, limit.threshold = some bound → relinks ≤ bound.toNat := by
  unfold RelinkLimit.exceeded
  cases limit.threshold <;> simp

theorem exceeded_eq_true_iff {limit : RelinkLimit} {relinks : Nat} :
    limit.exceeded relinks = true ↔
      ∃ bound, limit.threshold = some bound ∧ bound.toNat < relinks := by
  unfold RelinkLimit.exceeded
  cases limit.threshold <;> simp

theorem accounted_fresh (site : CallSite) (limit : RelinkLimit) (objects : Option Resolver) :
    (fresh site limit objects).Accounted [] := by
  refine .inl ⟨exceeded_eq_false_iff.2 ?_, ?_⟩
  · intro bound _
    exact Nat.zero_le _
  · constructor <;> rfl

theorem WithinLimit.getLast?_eq {cache : InlineCache} {types : List ValueType}
    (hwithin : cache.WithinLimit types) {receiver : ValueType}
    (hstatus : cache.status = .linked receiver) : types.getLast? = some receiver := by
  have hlast := hwithin.status_eq
  rw [hstatus] at hlast
  cases hcases : types.getLast? with
  | none =>
      rw [hcases] at hlast
      cases hlast
  | some last =>
      rw [hcases] at hlast
      cases hlast
      rfl

theorem WithinLimit.eq_nil {cache : InlineCache} {types : List ValueType}
    (hwithin : cache.WithinLimit types) (hstatus : cache.status = .unlinked) : types = [] := by
  have hlast := hwithin.status_eq
  rw [hstatus] at hlast
  cases hcases : types.getLast? with
  | none => exact List.getLast?_eq_none_iff.1 hcases
  | some last =>
      rw [hcases] at hlast
      cases hlast

theorem WithinLimit.status_ne_megamorphic {cache : InlineCache} {types : List ValueType}
    (hwithin : cache.WithinLimit types) : cache.status ≠ .megamorphic := by
  rw [hwithin.status_eq]
  cases types.getLast? <;> simp

theorem Accounted.withinLimit {cache : InlineCache} {types : List ValueType}
    (haccounted : cache.Accounted types)
    (hborne : ∀ bound, cache.limit.threshold = some bound → typeChanges types ≤ bound.toNat) :
    cache.WithinLimit types := by
  rcases haccounted with ⟨_, hwithin⟩ | ⟨bound, hbound, hlt, _⟩
  · exact hwithin
  · have hle := hborne bound hbound
    omega

theorem Accounted.pastLimit {cache : InlineCache} {types : List ValueType}
    (haccounted : cache.Accounted types) {bound : UInt64}
    (hbound : cache.limit.threshold = some bound) (hlt : bound.toNat < typeChanges types) :
    cache.PastLimit bound.toNat types := by
  rcases haccounted with ⟨hbears, _⟩ | ⟨other, hother, _, hpast⟩
  · have hle := exceeded_eq_false_iff.1 hbears bound hbound
    omega
  · rw [hother] at hbound
    cases hbound
    exact hpast

theorem Accounted.status_eq_megamorphic_iff {cache : InlineCache} {types : List ValueType}
    (haccounted : cache.Accounted types) :
    cache.status = .megamorphic ↔
      ∃ bound, cache.limit.threshold = some bound ∧ bound.toNat < typeChanges types := by
  constructor
  · intro hmegamorphic
    rcases haccounted with ⟨_, hwithin⟩ | ⟨bound, hbound, hlt, _⟩
    · exact absurd hmegamorphic hwithin.status_ne_megamorphic
    · exact ⟨bound, hbound, hlt⟩
  · rintro ⟨bound, hbound, hlt⟩
    exact (haccounted.pastLimit hbound hlt).status_eq

/-! ## One call -/

theorem Accounted.afterHit {cache : InlineCache} {types : List ValueType}
    (haccounted : cache.Accounted types) {receiver : ValueType}
    (hstatus : cache.status = .linked receiver) :
    cache.countHit.Accounted (types ++ [receiver]) := by
  rcases haccounted with ⟨hbears, hwithin⟩ | ⟨bound, _, _, hpast⟩
  · -- a hit repeats the last type
    have hlast := hwithin.getLast?_eq hstatus
    have hchanges : typeChanges (types ++ [receiver]) = typeChanges types := by
      rw [typeChanges_append_singleton hlast, if_pos rfl, Nat.add_zero]
    have hnonempty : types ≠ [] := by
      rintro rfl
      cases hlast
    have hresolutions := hwithin.resolutions_eq
    rw [if_neg hnonempty] at hresolutions
    refine .inl ⟨by rw [hchanges]; exact hbears, ?_⟩
    constructor
    · simpa [countHit, status] using hstatus
    · rw [hchanges]
      exact hwithin.relinks_eq
    · rw [hchanges, if_neg (by simp)]
      exact hresolutions
    · have hcount := hwithin.hits_add_resolutions
      simp only [countHit, List.length_append, List.length_singleton]
      omega
  · rw [hpast.status_eq] at hstatus
    cases hstatus

theorem Accounted.afterMiss {cache : InlineCache} {types : List ValueType}
    (haccounted : cache.Accounted types) : cache.countMiss.Accounted types := by
  rcases haccounted with ⟨hbears, hwithin⟩ | ⟨bound, hbound, hlt, hpast⟩
  · refine .inl ⟨hbears, ?_⟩
    constructor
    · exact hwithin.status_eq
    · exact hwithin.relinks_eq
    · exact hwithin.resolutions_eq
    · exact hwithin.hits_add_resolutions
  · refine .inr ⟨bound, hbound, hlt, ?_⟩
    constructor
    · exact hpast.status_eq
    · exact hpast.target?_eq
    · exact hpast.relinks_eq
    · exact hpast.hits_eq
    · exact hpast.hits_add_resolutions

theorem Accounted.afterLink {cache : InlineCache} {types : List ValueType}
    (haccounted : cache.Accounted types) (hstate : cache.state = .unlinked)
    (receiver : ValueType) (target : Target) :
    (cache.install receiver target).Accounted (types ++ [receiver]) := by
  have hstatus : cache.status = .unlinked := congrArg LinkState.status hstate
  rcases haccounted with ⟨_, hwithin⟩ | ⟨bound, _, _, hpast⟩
  · have hnil := hwithin.eq_nil hstatus
    subst types
    have hrelinks : cache.counts.relinks = 0 := hwithin.relinks_eq
    have hresolutions : cache.counts.resolutions = 0 := hwithin.resolutions_eq
    have hhits := hwithin.hits_add_resolutions
    refine .inl ⟨?_, ?_⟩
    · rw [exceeded_eq_false_iff]
      intro bound _
      exact Nat.zero_le _
    · rw [install_of_unlinked hstate]
      constructor
      · rfl
      · exact hrelinks
      · simp [hresolutions, typeChanges]
      · simp only [List.nil_append, List.length_nil, List.length_singleton] at hhits ⊢
        omega
  · rw [hpast.status_eq] at hstatus
    cases hstatus

/-- A change of type is one relink, or the end of caching if the limit does not bear it. -/
theorem Accounted.afterRelink {cache : InlineCache} {types : List ValueType}
    (haccounted : cache.Accounted types) {guard : Guard} {previous : Target}
    (hstate : cache.state = .linked guard previous) {receiver : ValueType}
    (hchange : guard.expected ≠ receiver) (target : Target) :
    (cache.install receiver target).Accounted (types ++ [receiver]) := by
  have hstatus : cache.status = .linked guard.expected := congrArg LinkState.status hstate
  rcases haccounted with ⟨hbears, hwithin⟩ | ⟨bound, _, _, hpast⟩
  · have hlast := hwithin.getLast?_eq hstatus
    have hchanges : typeChanges (types ++ [receiver]) = typeChanges types + 1 := by
      rw [typeChanges_append_singleton hlast, if_neg hchange]
    have hnonempty : types ≠ [] := by
      rintro rfl
      cases hlast
    have hrelinks := hwithin.relinks_eq
    have hresolutions := hwithin.resolutions_eq
    rw [if_neg hnonempty] at hresolutions
    have hhits := hwithin.hits_add_resolutions
    cases hexceeded : cache.limit.exceeded (cache.counts.relinks + 1) with
    | false =>
        rw [install_of_linked hstate hexceeded]
        refine .inl ⟨?_, ?_⟩
        · rw [hchanges, ← hrelinks]
          exact hexceeded
        · constructor
          · simp [status, LinkState.status]
          · simp only [hchanges, hrelinks]
          · simp [hchanges, hresolutions]
          · simp only [List.length_append, List.length_singleton]
            omega
    | true =>
        obtain ⟨bound, hbound, hlt⟩ := exceeded_eq_true_iff.1 hexceeded
        have hle := exceeded_eq_false_iff.1 hbears bound hbound
        rw [install_of_linked_exceeded hstate hexceeded]
        refine .inr ⟨bound, hbound, by omega, ?_⟩
        constructor
        · rfl
        · rfl
        · simp only
          omega
        · exact ⟨types, receiver, [], rfl, by omega, by omega, by simp only; omega⟩
        · simp only [List.length_append, List.length_singleton]
          omega
  · rw [hpast.status_eq] at hstatus
    cases hstatus

theorem Accounted.afterMegamorphic {cache : InlineCache} {types : List ValueType}
    (haccounted : cache.Accounted types) (hstate : cache.state = .megamorphic)
    (receiver : ValueType) (target : Target) :
    (cache.install receiver target).Accounted (types ++ [receiver]) := by
  have hstatus : cache.status = .megamorphic := congrArg LinkState.status hstate
  rcases haccounted with ⟨_, hwithin⟩ | ⟨bound, hbound, hlt, hpast⟩
  · exact absurd hstatus hwithin.status_ne_megamorphic
  · have hmore := (typeChanges_le_append_singleton types receiver).1
    have hcount := hpast.hits_add_resolutions
    obtain ⟨before, last, after, rfl, hbefore, hchange, hhits⟩ := hpast.hits_eq
    rw [install_of_megamorphic hstate]
    refine .inr ⟨bound, hbound, by omega, ?_⟩
    constructor
    · exact hstatus
    · exact hpast.target?_eq
    · exact hpast.relinks_eq
    · exact ⟨before, last, after ++ [receiver], by simp, hbefore, hchange, hhits⟩
    · rw [List.length_append, List.length_singleton, ← hcount]
      simp only
      omega

theorem Accounted.install {cache : InlineCache} {types : List ValueType}
    (haccounted : cache.Accounted types) {receiver : ValueType}
    (hlookup : cache.lookup? receiver = none) (target : Target) :
    (cache.install receiver target).Accounted (types ++ [receiver]) := by
  cases hstate : cache.state with
  | unlinked => exact haccounted.afterLink hstate receiver target
  | megamorphic => exact haccounted.afterMegamorphic hstate receiver target
  | linked guard previous =>
      refine haccounted.afterRelink hstate ?_ target
      rintro rfl
      rw [lookup?_eq_some_iff.2 hstate] at hlookup
      cases hlookup

theorem Accounted.afterCall {cache : InlineCache} {types : List ValueType}
    (haccounted : cache.Accounted types) (call : Call) :
    (cache.afterCall call).Accounted (types ++ (cache.boundType? call).toList) := by
  rcases cache.afterCall_cases call with ⟨_, hbound, hnext⟩ | ⟨_, ⟨receiver, target, hlookup,
    hbound, hnext⟩ | ⟨receiver, target, hlookup, _, hbound, hnext⟩ | ⟨hbound, hnext⟩⟩
  · rw [hbound, hnext]
    simpa using haccounted
  · rw [hbound, hnext]
    exact haccounted.afterHit (status_eq_linked_iff.2 ⟨target, hlookup⟩)
  · rw [hbound, hnext]
    exact haccounted.afterMiss.install hlookup target
  · rw [hbound, hnext]
    simpa using haccounted.afterMiss

/-- Whatever came before, each call with a receiver counts once, as a hit or as a miss. -/
theorem hits_add_misses_afterCall (cache : InlineCache) (call : Call) :
    (cache.afterCall call).counts.hits + (cache.afterCall call).counts.misses =
      cache.counts.hits + cache.counts.misses + if call.hasReceiver then 1 else 0 := by
  rcases cache.afterCall_cases call with ⟨hargs, _, hnext⟩ | ⟨hargs, hcases⟩
  · simp [hnext, Call.hasReceiver, hargs]
  · have hreceiver : call.hasReceiver = true := by simpa [Call.hasReceiver] using hargs
    rw [if_pos hreceiver]
    rcases hcases with ⟨_, _, _, _, hnext⟩ | ⟨receiver, target, _, _, _, hnext⟩ | ⟨_, hnext⟩
    · rw [hnext]
      simp only [countHit]
      omega
    · obtain ⟨hhits, hmisses⟩ := cache.countMiss.hits_misses_install receiver target
      rw [hnext, hhits, hmisses]
      simp only [countMiss]
      omega
    · rw [hnext]
      simp only [countMiss]
      omega

theorem status_afterCall_of_megamorphic {cache : InlineCache}
    (hmegamorphic : cache.status = .megamorphic) (call : Call) :
    (cache.afterCall call).status = .megamorphic := by
  apply afterCall_preserves (motive := fun next => next.status = .megamorphic) hmegamorphic
  · exact hmegamorphic
  · intro receiver _ target _
    have hstate : cache.countMiss.state = .megamorphic := status_eq_megamorphic_iff.1 hmegamorphic
    rw [install_of_megamorphic hstate]
    exact hmegamorphic
  · exact hmegamorphic

/-! ## Histories -/

theorem Accounted.after {cache : InlineCache} {types : List ValueType}
    (haccounted : cache.Accounted types) (history : List Call) :
    (cache.after history).Accounted (types ++ cache.boundTypes history) := by
  induction history generalizing cache types with
  | nil => simpa [boundTypes] using haccounted
  | cons call history ih =>
      have hrest := ih (haccounted.afterCall call)
      rwa [List.append_assoc] at hrest

theorem accounted_after_fresh (site : CallSite) (limit : RelinkLimit) (objects : Option Resolver)
    (history : List Call) :
    ((fresh site limit objects).after history).Accounted
      ((fresh site limit objects).boundTypes history) :=
  (accounted_fresh site limit objects).after history

theorem hits_add_misses_after (cache : InlineCache) (history : List Call) :
    (cache.after history).counts.hits + (cache.after history).counts.misses =
      cache.counts.hits + cache.counts.misses + history.countP Call.hasReceiver := by
  induction history generalizing cache with
  | nil => rfl
  | cons call history ih =>
      rw [after_cons, ih, hits_add_misses_afterCall, List.countP_cons]
      omega

theorem status_after_of_megamorphic {cache : InlineCache}
    (hmegamorphic : cache.status = .megamorphic) (later : List Call) :
    (cache.after later).status = .megamorphic := by
  apply after_preserves (motive := fun next => next.status = .megamorphic)
  · intro next call hnext
    exact status_afterCall_of_megamorphic hnext call
  · exact hmegamorphic

/-- The next call ends the caching exactly if it is a bound call that makes the first change of type
beyond the limit. -/
theorem status_afterCall_eq_megamorphic_iff {cache : InlineCache} {types : List ValueType}
    (haccounted : cache.Accounted types) (hcaching : cache.status ≠ .megamorphic) (call : Call) :
    (cache.afterCall call).status = .megamorphic ↔
      ∃ bound, cache.limit.threshold = some bound ∧ typeChanges types = bound.toNat ∧
        typeChanges (types ++ (cache.boundType? call).toList) = bound.toNat + 1 := by
  have hlimit : (cache.afterCall call).limit = cache.limit :=
    (cache.sameSettings_after [call]).limit_eq
  rw [(haccounted.afterCall call).status_eq_megamorphic_iff, hlimit]
  constructor
  · rintro ⟨bound, hbound, hlt⟩
    have hborne : typeChanges types ≤ bound.toNat := by
      by_contra hover
      exact hcaching (haccounted.status_eq_megamorphic_iff.2 ⟨bound, hbound, by omega⟩)
    cases hreceiver : cache.boundType? call with
    | none =>
        rw [hreceiver, Option.toList_none, List.append_nil] at hlt
        omega
    | some receiver =>
        rw [hreceiver, Option.toList_some] at hlt
        have hstep := (typeChanges_le_append_singleton types receiver).2
        refine ⟨bound, hbound, by omega, ?_⟩
        rw [Option.toList_some]
        omega
  · rintro ⟨bound, hbound, _, hchanges⟩
    exact ⟨bound, hbound, by omega⟩

/-- State and counters of a cache in terms of the receiver types of its bound calls. -/
theorem after_fresh_accounts (site : CallSite) (limit : RelinkLimit) (objects : Option Resolver)
    (history : List Call) :
    let first := fresh site limit objects
    let cache := first.after history
    let types := first.boundTypes history
    ((∀ bound, limit.threshold = some bound → typeChanges types ≤ bound.toNat) →
      cache.WithinLimit types) ∧
    (∀ bound, limit.threshold = some bound → bound.toNat < typeChanges types →
      cache.PastLimit bound.toNat types) ∧
    cache.counts.hits + cache.counts.misses = history.countP Call.hasReceiver ∧
    (cache.status = .megamorphic →
      ∀ later, (first.after (history ++ later)).status = .megamorphic) ∧
    (limit.threshold = none → cache.status ≠ .megamorphic) ∧
    ∀ call, cache.status ≠ .megamorphic →
      ((first.after (history ++ [call])).status = .megamorphic ↔
        ∃ bound, limit.threshold = some bound ∧ typeChanges types = bound.toNat ∧
          typeChanges (first.boundTypes (history ++ [call])) = bound.toNat + 1) := by
  intro first cache types
  have haccounted : cache.Accounted types := accounted_after_fresh site limit objects history
  have hlimit : cache.limit = limit := (first.sameSettings_after history).limit_eq
  refine ⟨?_, ?_, ?_, ?_, ?_, ?_⟩
  · intro hborne
    apply haccounted.withinLimit
    rwa [hlimit]
  · intro bound hbound hlt
    apply haccounted.pastLimit _ hlt
    rwa [hlimit]
  · rw [first.hits_add_misses_after history]
    simp [first, fresh]
  · intro hmegamorphic later
    rw [after_append]
    exact status_after_of_megamorphic hmegamorphic later
  · intro hnone hmegamorphic
    obtain ⟨bound, hbound, _⟩ := haccounted.status_eq_megamorphic_iff.1 hmegamorphic
    rw [hlimit, hnone] at hbound
    cases hbound
  · intro call hcaching
    have htypes : first.boundTypes (history ++ [call]) =
        types ++ (cache.boundType? call).toList := by
      rw [boundTypes_append]
      simp [boundTypes, types, cache]
    rw [after_append, htypes, ← hlimit]
    exact status_afterCall_eq_megamorphic_iff haccounted hcaching call

end InlineCache

end LateBinding

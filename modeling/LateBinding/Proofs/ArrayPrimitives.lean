import LateBinding.Proofs.ActionOutcomes
import LateBinding.Proofs.ElementAccess
import LateBinding.Proofs.ResolutionOutcome

/-!
# Faults of array primitives

The primitive of an array operation, run on an array of the element type that it was chosen for,
fails in many ways but never because the storage is of another element type.  Neither do the
coercions around it.
-/

namespace LateBinding

/-- The fault is none of element access for one type on a storage of another. -/
def CallFault.NotWrongAccess (fault : CallFault) : Prop :=
  ∀ wanted actual, fault ≠ .type (.wrongElementAccess wanted actual)

/-! ## Coercions -/

/-- The fault of a value that does not fit where a coercion takes it. -/
inductive CallFault.OfCoercion : CallFault → Prop where
  | cannotConvert (actual : ValueType) (wanted : Kind) :
      OfCoercion (.type (.cannotConvert actual wanted))
  | cannotCast (actual : ValueType) (wanted : Kind) : OfCoercion (.type (.cannotCast actual wanted))

theorem CallFault.OfCoercion.notWrongAccess {fault : CallFault} (hfault : fault.OfCoercion) :
    fault.NotWrongAccess := by
  cases hfault <;> simp [CallFault.NotWrongAccess]

theorem Heap.ofCoercion_of_widen {h : Heap} {v : Value} {wanted : Kind} {fault : CallFault}
    (hwiden : h.widen v wanted = .error fault) : fault.OfCoercion := by
  unfold widen at hwiden
  split at hwiden
  · contradiction
  · split at hwiden
    · contradiction
    · cases hwiden
      exact .cannotConvert _ _

theorem Heap.ofCoercion_of_cast {h : Heap} {v : Value} {wanted : Kind} {fault : CallFault}
    (hcast : h.cast v wanted = .error fault) : fault.OfCoercion := by
  unfold cast at hcast
  split at hcast
  · contradiction
  · split at hcast
    · exact Heap.ofCoercion_of_widen hcast
    · cases hcast
      exact .cannotCast _ _

theorem Coercion.ofCoercion_of_apply {h : Heap} {coercion : Coercion} {v : Value}
    {fault : CallFault} (happly : coercion.apply h v = .error fault) : fault.OfCoercion := by
  cases coercion with
  | widen wanted => exact Heap.ofCoercion_of_widen happly
  | cast wanted => exact Heap.ofCoercion_of_cast happly
  | identity | discard | supplyNothing => cases happly

theorem Adapter.passArgs_eq_error_cases {h : Heap} {adapter : Adapter} {args : List Value}
    {fault : CallFault} (hpass : adapter.passArgs h args = .error fault) :
    fault = .argument (.wrongCount adapter.params.length args.length) ∨ fault.OfCoercion := by
  unfold passArgs at hpass
  split at hpass
  · obtain ⟨⟨coercion, v⟩, _, happly⟩ := exists_of_mapM_eq_error hpass
    exact .inr (Coercion.ofCoercion_of_apply happly)
  · cases hpass
    exact .inl rfl

theorem Adapter.notWrongAccess_of_passArgs {h : Heap} {adapter : Adapter} {args : List Value}
    {fault : CallFault} (hpass : adapter.passArgs h args = .error fault) :
    fault.NotWrongAccess := by
  rcases passArgs_eq_error_cases hpass with rfl | hcoercion
  · simp [CallFault.NotWrongAccess]
  · exact hcoercion.notWrongAccess

/-! ## Primitives -/

namespace Primitive

variable {args : List Value} {position : Nat} {h : Heap}

theorem argument_failsOnlyWith :
    (argument args position).FailsOnlyWith h CallFault.NotWrongAccess := by
  unfold argument
  split
  · exact Action.failsOnlyWith_pure
  · exact Action.failsOnlyWith_fail (by simp [CallFault.NotWrongAccess])

theorem heap_of_argument {v : Value} {after : Heap}
    (hrun : argument args position h = (.ok v, after)) : after = h := by
  cases hfound : args[position]? with
  | none =>
      simp only [argument, hfound] at hrun
      cases hrun
  | some w =>
      simp only [argument, hfound] at hrun
      cases hrun
      rfl

theorem arrayArgument_failsOnlyWith :
    (arrayArgument args position).FailsOnlyWith h CallFault.NotWrongAccess := by
  refine Action.failsOnlyWith_bind argument_failsOnlyWith fun v mid _ => ?_
  cases v with
  | array s => exact Action.failsOnlyWith_pure
  | _ =>
      refine Action.failsOnlyWith_query fun fault hread => ?_
      cases hread
      simp [CallFault.NotWrongAccess]

/-- A tail fails by its argument alone. -/
theorem tail_failsOnlyWith {tolerated : CallFault → Prop}
    (hreceiver : (arrayArgument args 0).FailsOnlyWith h tolerated) :
    (tail args).FailsOnlyWith h tolerated := by
  rw [tail_eq_allocate]
  refine Action.failsOnlyWith_bind hreceiver fun s mid _ => ?_
  refine Action.failsOnlyWith_bind (Action.failsOnlyWith_query fun fault hread => ?_) ?_
  · cases hread
  · intro content mid _
    refine Action.failsOnlyWith_bind Action.failsOnlyWith_allocate fun t mid _ => ?_
    exact Action.failsOnlyWith_pure

theorem notWrongAccess_of_asIndex {v : Value} {fault : CallFault}
    (hindex : h.asIndex v = .error fault) : fault.NotWrongAccess := by
  cases v <;> cases hindex <;> simp [CallFault.NotWrongAccess]

theorem elementSet_run (elem : ElementType) (s : StorageId) (index v : Value) (h : Heap) :
    (elementSet elem).run [.array s, index, v] h =
      match (h.asIndex index).bind fun i => h.setElement elem s i v with
      | .ok after => (.ok .nothing, after)
      | .error fault => (.error fault, h) := by
  have hrun : (elementSet elem).run [.array s, index, v] h =
      (Action.query (fun h' => h'.asIndex index) >>= fun i =>
        Action.update (fun h' => h'.setElement elem s i v) >>= fun _ => pure Value.nothing) h := rfl
  rw [hrun, Action.bind_apply, Action.query]
  cases h.asIndex index with
  | error fault => rfl
  | ok i =>
      simp only [Action.bind_apply, Action.update, Except.bind]
      cases h.setElement elem s i v <;> rfl

theorem exists_setElement_of_elementSet {elem : ElementType} {s : StorageId} {index v result : Value}
    {h after : Heap} (hrun : (elementSet elem).run [.array s, index, v] h = (.ok result, after)) :
    ∃ i, h.asIndex index = .ok i ∧ h.setElement elem s i v = .ok after := by
  rw [elementSet_run] at hrun
  cases hindex : h.asIndex index with
  | error fault =>
      rw [hindex] at hrun
      cases hrun
  | ok i =>
      rw [hindex, Except.bind] at hrun
      cases hwrite : h.setElement elem s i v with
      | error fault =>
          rw [hwrite] at hrun
          cases hrun
      | ok written =>
          rw [hwrite] at hrun
          cases hrun
          exact ⟨i, rfl, hwrite⟩

section OwnType

variable {elem : ElementType} {s : StorageId} (helem : (h.storage s).elem = elem)

include helem

theorem elementGet_failsOnlyWith (rest : List Value) :
    ((elementGet elem).run (.array s :: rest)).FailsOnlyWith h CallFault.NotWrongAccess := by
  refine Action.failsOnlyWith_bind arrayArgument_failsOnlyWith fun t mid hs => ?_
  cases hs
  refine Action.failsOnlyWith_bind argument_failsOnlyWith fun index mid hargument => ?_
  cases heap_of_argument hargument
  refine Action.failsOnlyWith_query fun fault hread => ?_
  cases hindex : h.asIndex index with
  | error failed =>
      rw [hindex] at hread
      cases hread
      exact notWrongAccess_of_asIndex hindex
  | ok i =>
      rw [hindex] at hread
      rw [((Heap.elementAt_eq_error_iff helem).1 hread).1]
      simp [CallFault.NotWrongAccess]

theorem elementSet_failsOnlyWith (rest : List Value) :
    ((elementSet elem).run (.array s :: rest)).FailsOnlyWith h CallFault.NotWrongAccess := by
  -- nothing before the write changes the heap, so the storage is still of its type by then
  refine Action.failsOnlyWith_bind arrayArgument_failsOnlyWith fun t mid hs => ?_
  cases hs
  refine Action.failsOnlyWith_bind argument_failsOnlyWith fun index mid hargument => ?_
  cases heap_of_argument hargument
  refine Action.failsOnlyWith_bind (Action.failsOnlyWith_query fun fault hindex => ?_) ?_
  · exact notWrongAccess_of_asIndex hindex
  · intro i mid hquery
    cases (Prod.mk.inj hquery).2
    refine Action.failsOnlyWith_bind argument_failsOnlyWith fun v mid hargument => ?_
    cases heap_of_argument hargument
    refine Action.failsOnlyWith_bind (Action.failsOnlyWith_update fun fault hwrite => ?_) ?_
    · rcases Heap.fault_of_setElement helem hwrite with rfl | rfl
      · simp [CallFault.NotWrongAccess]
      · simp [CallFault.NotWrongAccess, Heap.storeFault]
    · exact fun _ _ _ => Action.failsOnlyWith_pure

end OwnType

end Primitive

/-- On an array of its element type, an operation never accesses elements as of another type. -/
theorem ArrayOperation.primitive_failsOnlyWith (operation : ArrayOperation) {elem : ElementType}
    {s : StorageId} {h : Heap} (helem : (h.storage s).elem = elem) (rest : List Value) :
    ((operation.primitive elem).run (.array s :: rest)).FailsOnlyWith h
      CallFault.NotWrongAccess := by
  have hreceiver : (Primitive.arrayArgument (.array s :: rest) 0).FailsOnlyWith h
      CallFault.NotWrongAccess := Primitive.arrayArgument_failsOnlyWith
  cases operation with
  | get => exact Primitive.elementGet_failsOnlyWith helem rest
  | set => exact Primitive.elementSet_failsOnlyWith helem rest
  | length =>
      refine Action.failsOnlyWith_bind hreceiver fun t mid _ => ?_
      refine Action.failsOnlyWith_query fun fault hread => ?_
      simp only at hread
      split at hread
      · contradiction
      · cases hread
        simp [CallFault.NotWrongAccess]
  | iterator =>
      refine Action.failsOnlyWith_bind hreceiver fun t mid _ => ?_
      refine Action.failsOnlyWith_bind Action.failsOnlyWith_openCursor fun c mid _ => ?_
      exact Action.failsOnlyWith_pure
  | render =>
      refine Action.failsOnlyWith_bind hreceiver fun t mid _ => ?_
      exact Action.failsOnlyWith_query fun fault hread => by cases hread
  | listView =>
      exact Action.failsOnlyWith_bind hreceiver fun t mid _ => Action.failsOnlyWith_pure
  | equals =>
      refine Action.failsOnlyWith_bind hreceiver fun t mid _ => ?_
      refine Action.failsOnlyWith_bind Primitive.arrayArgument_failsOnlyWith fun u mid _ => ?_
      exact Action.failsOnlyWith_query fun fault hread => by cases hread
  | receiverType => exact Action.failsOnlyWith_pure
  | head =>
      refine Action.failsOnlyWith_bind hreceiver fun t mid _ => ?_
      refine Action.failsOnlyWith_query fun fault hread => ?_
      cases hitems : mid.items t with
      | nil =>
          rw [hitems] at hread
          cases hread
          simp [CallFault.NotWrongAccess]
      | cons v items =>
          rw [hitems] at hread
          cases hread
  | tail => exact Primitive.tail_failsOnlyWith hreceiver
  | isEmpty =>
      refine Action.failsOnlyWith_bind hreceiver fun t mid _ => ?_
      exact Action.failsOnlyWith_query fun fault hread => by cases hread

end LateBinding

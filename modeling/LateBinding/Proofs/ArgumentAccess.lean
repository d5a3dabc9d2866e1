import LateBinding.Proofs.ArgumentCounts
import LateBinding.Proofs.DynamicCalls
import LateBinding.Proofs.IgnoredArguments

/-!
# Access to arguments

The primitives of arrays look their arguments up by position and leave it to others that there is
one at each.  A target is only made for a site with as many parameters as its operation has, and
its adapter lets no other number of arguments through, so whatever list a call is given, no lookup
misses.  Elements are looked up behind a check of the index, which lets no position through that the
storage does not have; of an array that is written into its own storage this is meant only where the
write returns, as `Heap.setElement` says.
-/

namespace LateBinding

/-- The fault is a missing argument only where the list does not reach one of these positions. -/
def CallFault.MissesOnly (fault : CallFault) (args : List Value) (positions : List Nat) : Prop :=
  ∀ i, fault = .argument (.missing i) → args.length ≤ i ∧ i ∈ positions

theorem CallFault.OfCoercion.ne_missing {fault : CallFault} (hfault : fault.OfCoercion) (i : Nat) :
    fault ≠ .argument (.missing i) := by
  rintro rfl
  cases hfault

/-! ## Lookups of primitives -/

namespace Primitive

variable {args other : List Value} {position : Nat} {positions : List Nat} {h : Heap}

theorem argument_congr (hsame : args[position]? = other[position]?) :
    argument args position = argument other position := by
  simp only [argument, hsame]

theorem arrayArgument_congr (hsame : args[position]? = other[position]?) :
    arrayArgument args position = arrayArgument other position := by
  simp only [arrayArgument, argument_congr hsame]

theorem argument_missesOnly (hposition : position ∈ positions) :
    (argument args position).FailsOnlyWith h (·.MissesOnly args positions) := by
  unfold argument
  cases hfound : args[position]? with
  | some v => exact Action.failsOnlyWith_pure
  | none =>
      refine Action.failsOnlyWith_fail ?_
      rintro i ⟨⟩
      exact ⟨List.getElem?_eq_none_iff.1 hfound, hposition⟩

theorem arrayArgument_missesOnly (hposition : position ∈ positions) :
    (arrayArgument args position).FailsOnlyWith h (·.MissesOnly args positions) := by
  refine Action.failsOnlyWith_bind (argument_missesOnly hposition) fun v mid _ => ?_
  cases v with
  | array s => exact Action.failsOnlyWith_pure
  | _ =>
      refine Action.failsOnlyWith_query fun fault hread => ?_
      cases hread
      rintro i ⟨⟩

theorem missesOnly_of_asIndex {v : Value} {fault : CallFault}
    (hindex : h.asIndex v = .error fault) : fault.MissesOnly args positions := by
  rintro i rfl
  cases v <;> cases hindex

end Primitive

namespace Heap

variable {h after : Heap} {elem : ElementType} {s : StorageId} {index : Int64} {v : Value}
  {fault : CallFault}

/-- A read that succeeds gives the element at its index. -/
theorem getElem?_of_elementAt (hread : h.elementAt elem s index = .ok v) :
    0 ≤ index.toInt ∧ (h.items s)[index.toInt.toNat]? = some v := by
  by_cases helem : (h.storage s).elem = elem
  · rw [elementAt_of_elem_eq helem] at hread
    cases hposition : positionOf index (h.storage s).items.length with
    | error fault =>
        rw [hposition] at hread
        cases hread
    | ok position =>
        rw [hposition] at hread
        cases hread
        obtain ⟨hrange, hvalue⟩ := positionOf_eq_ok hposition
        refine ⟨hrange.1, ?_⟩
        rw [← hvalue]
        exact List.getElem?_eq_getElem position.isLt
  · rw [elementAt_of_elem_ne helem] at hread
    cases hread

theorem ne_missing_of_elementAt (hread : h.elementAt elem s index = .error fault) (i : Nat) :
    fault ≠ .argument (.missing i) := by
  rintro rfl
  by_cases helem : (h.storage s).elem = elem
  · cases ((elementAt_eq_error_iff helem).1 hread).1
  · rw [elementAt_of_elem_ne helem] at hread
    cases hread

theorem ne_missing_of_setElement (hwrite : h.setElement elem s index v = .error fault) (i : Nat) :
    fault ≠ .argument (.missing i) := by
  rintro rfl
  by_cases helem : (h.storage s).elem = elem
  · rcases fault_of_setElement helem hwrite with hfault | hfault <;> cases hfault
  · rw [setElement_of_elem_ne helem] at hwrite
    cases hwrite

end Heap

namespace ArrayOperation

/-- The positions of the arguments that an operation reads. -/
def reads : ArrayOperation → List Nat
  | get | equals => [0, 1]
  | set => [0, 1, 2]
  | receiverType => []
  | length | iterator | render | listView | head | tail | isEmpty => [0]

theorem lt_of_mem_reads {operation : ArrayOperation} {i : Nat} (hi : i ∈ operation.reads) :
    i < operation.arity + 1 := by
  have hall : ∀ i ∈ operation.reads, i < operation.arity + 1 := by
    cases operation <;> decide
  exact hall i hi

/-- The arguments at other positions make no difference. -/
theorem run_congr_of_reads (operation : ArrayOperation) (elem : ElementType)
    {given other : List Value} (hsame : ∀ i ∈ operation.reads, given[i]? = other[i]?) :
    (operation.primitive elem).run given = (operation.primitive elem).run other := by
  cases operation with
  | get =>
      have hreceiver := Primitive.arrayArgument_congr (hsame 0 (by decide))
      have hindex := Primitive.argument_congr (hsame 1 (by decide))
      simp only [primitive, Primitive.elementGet, hreceiver, hindex]
  | set =>
      have hreceiver := Primitive.arrayArgument_congr (hsame 0 (by decide))
      have hindex := Primitive.argument_congr (hsame 1 (by decide))
      have hvalue := Primitive.argument_congr (hsame 2 (by decide))
      simp only [primitive, Primitive.elementSet, hreceiver, hindex, hvalue]
  | equals =>
      have hreceiver := Primitive.arrayArgument_congr (hsame 0 (by decide))
      have hother := Primitive.arrayArgument_congr (hsame 1 (by decide))
      simp only [primitive, Primitive.equals, hreceiver, hother]
  | receiverType => rfl
  | length | iterator | render | listView | head | tail | isEmpty =>
      have hreceiver := Primitive.arrayArgument_congr (hsame 0 (by decide))
      simp only [primitive, Primitive.length, Primitive.iterator, Primitive.render,
        Primitive.asList, Primitive.head, Primitive.tail, Primitive.isEmpty, hreceiver]

theorem primitive_missesOnly (operation : ArrayOperation) (elem : ElementType) (args : List Value)
    (h : Heap) :
    ((operation.primitive elem).run args).FailsOnlyWith h
      (·.MissesOnly args operation.reads) := by
  cases operation with
  | get =>
      refine Action.failsOnlyWith_bind (Primitive.arrayArgument_missesOnly (by decide)) ?_
      intro s mid _
      refine Action.failsOnlyWith_bind (Primitive.argument_missesOnly (by decide)) ?_
      intro index mid _
      refine Action.failsOnlyWith_query fun fault hread => ?_
      cases hindex : mid.asIndex index with
      | error failed =>
          rw [hindex] at hread
          cases hread
          exact Primitive.missesOnly_of_asIndex hindex
      | ok i =>
          rw [hindex] at hread
          exact fun i hmissing => absurd hmissing (Heap.ne_missing_of_elementAt hread i)
  | set =>
      refine Action.failsOnlyWith_bind (Primitive.arrayArgument_missesOnly (by decide)) ?_
      intro s mid _
      refine Action.failsOnlyWith_bind (Primitive.argument_missesOnly (by decide)) ?_
      intro index mid _
      refine Action.failsOnlyWith_bind (Action.failsOnlyWith_query fun fault hindex => ?_) ?_
      · exact Primitive.missesOnly_of_asIndex hindex
      · intro position mid _
        refine Action.failsOnlyWith_bind (Primitive.argument_missesOnly (by decide)) ?_
        intro v mid _
        refine Action.failsOnlyWith_bind (Action.failsOnlyWith_update fun fault hwrite => ?_) ?_
        · exact fun i hmissing => absurd hmissing (Heap.ne_missing_of_setElement hwrite i)
        · exact fun _ _ _ => Action.failsOnlyWith_pure
  | equals =>
      refine Action.failsOnlyWith_bind (Primitive.arrayArgument_missesOnly (by decide)) ?_
      intro s mid _
      refine Action.failsOnlyWith_bind (Primitive.arrayArgument_missesOnly (by decide)) ?_
      exact fun t mid _ => Action.failsOnlyWith_query fun fault hread => by cases hread
  | receiverType => exact Action.failsOnlyWith_pure
  | length =>
      refine Action.failsOnlyWith_bind (Primitive.arrayArgument_missesOnly (by decide)) ?_
      intro s mid _
      refine Action.failsOnlyWith_query fun fault hread => ?_
      simp only at hread
      split at hread
      · contradiction
      · cases hread
        rintro i ⟨⟩
  | head =>
      refine Action.failsOnlyWith_bind (Primitive.arrayArgument_missesOnly (by decide)) ?_
      intro s mid _
      refine Action.failsOnlyWith_query fun fault hread => ?_
      cases hitems : mid.items s with
      | nil =>
          rw [hitems] at hread
          cases hread
          rintro i ⟨⟩
      | cons v items =>
          rw [hitems] at hread
          cases hread
  | iterator =>
      refine Action.failsOnlyWith_bind (Primitive.arrayArgument_missesOnly (by decide)) ?_
      intro s mid _
      refine Action.failsOnlyWith_bind Action.failsOnlyWith_openCursor ?_
      exact fun c mid _ => Action.failsOnlyWith_pure
  | tail => exact Primitive.tail_failsOnlyWith (Primitive.arrayArgument_missesOnly (by decide))
  | listView =>
      refine Action.failsOnlyWith_bind (Primitive.arrayArgument_missesOnly (by decide)) ?_
      exact fun s mid _ => Action.failsOnlyWith_pure
  | render | isEmpty =>
      refine Action.failsOnlyWith_bind (Primitive.arrayArgument_missesOnly (by decide)) ?_
      exact fun s mid _ => Action.failsOnlyWith_query fun fault hread => by cases hread

/-! ## Targets -/

section Adapted

variable {operation : ArrayOperation} {elem : ElementType} {site : Signature}
  {receiver : ValueType} {target : Target}
  (hadapt : (operation.primitive elem).adapt site receiver = .ok target)

include hadapt

/-- What an operation is run on reaches every position that it reads. -/
theorem lt_length_of_passArgs {h : Heap} {args passed : List Value}
    (hpass : target.adapter.passArgs h args = .ok passed) {i : Nat} (hi : i ∈ operation.reads) :
    i < passed.length := by
  obtain ⟨adapter, hadapter, rfl⟩ := Operation.adapt_eq_ok_iff.1 hadapt
  obtain ⟨hcount, hpasses⟩ := Adapter.forall₂_passes hadapter hpass
  have hlength := hpasses.length_eq
  rw [List.length_zip, hcount, Nat.min_self, operation.length_params elem] at hlength
  rw [← hlength]
  exact lt_of_mem_reads hi

theorem call_ne_missing (args : List Value) (h : Heap) (i : Nat) (after : Heap) :
    target.call args h ≠ (.error (.argument (.missing i)), after) := by
  intro hcall
  rcases Action.bind_eq_error_cases hcall with hpass | ⟨passed, mid, hpassed, hrest⟩
  · rcases Adapter.passArgs_eq_error_cases (Prod.mk.inj hpass).1 with hcount | hcoercion
    · cases hcount
    · exact hcoercion.ne_missing i rfl
  · rcases Action.bind_eq_error_cases hrest with hrun | ⟨result, written, _, hresult⟩
    · -- the operation got as many arguments as it reads
      obtain ⟨adapter, _, htarget⟩ := Operation.adapt_eq_ok_iff.1 hadapt
      have hbody : target.body = (operation.primitive elem).run := congrArg Target.body htarget
      rw [hbody] at hrun
      obtain ⟨hshort, hi⟩ := operation.primitive_missesOnly elem passed mid _ _ hrun i rfl
      have hlt := lt_length_of_passArgs hadapt (Prod.mk.inj hpassed).1 hi
      omega
    · exact (Coercion.ofCoercion_of_apply (Prod.mk.inj hresult).1).ne_missing i rfl

end Adapted

end ArrayOperation

/-- Whatever list a target of an array operation is given, and whatever the heap, no lookup of the
call misses: another number of arguments is refused before the operation runs; what the operation
runs on has an argument at each position that it reads, and no other position matters; what it
ignores can be cut out of any list.  An element that is read is the one at the index, and one that is
written has an index within the storage. -/
theorem Resolver.arrays_access_in_range {request : Request} {target : Target}
    (hresolve : Resolver.arrays request = .ok target) (args : List Value) (h : Heap) :
    ∃ operation elem, (request.site.name, operation) ∈ ArrayOperation.names ∧
      request.receiver = .array elem ∧ target.body = (operation.primitive elem).run ∧
      (args.length ≠ operation.arity + 1 → target.call args h =
        (.error (.argument (.wrongCount (operation.arity + 1) args.length)), h)) ∧
      (∀ passed, target.adapter.passArgs h args = .ok passed →
        ∀ i ∈ operation.reads, i < passed.length) ∧
      (∀ given other, (∀ i ∈ operation.reads, given[i]? = other[i]?) →
        target.body given = target.body other) ∧
      (∀ i after, target.call args h ≠ (.error (.argument (.missing i)), after)) ∧
      (operation = .receiverType → ∀ given, ∃ kept, sides? given 0 [Kind.array].length = some kept ∧
        target.body given =
          (Operation.constant "getClass" .type (.type (.array elem))).run kept) ∧
      (∀ s index v, h.elementAt elem s index = .ok v →
        0 ≤ index.toInt ∧ (h.items s)[index.toInt.toNat]? = some v) ∧
      ∀ s index v after, h.setElement elem s index v = .ok after →
        0 ≤ index.toInt ∧ index.toInt.toNat < (h.items s).length := by
  obtain ⟨site, receiver, requested⟩ := request
  obtain ⟨operation, _, _, hlink⟩ := Resolver.arrays_eq_ok_iff.1 hresolve
  obtain ⟨elem, _, hreceiver, _, _⟩ := Resolver.link_eq_ok_iff.1 hlink
  cases hreceiver
  obtain ⟨named, adapter, hname, hadapter, htarget⟩ := Resolver.exists_primitive_of_arrays hresolve
  have hadapt := Operation.adapt_eq_ok_iff.2 ⟨adapter, hadapter, htarget⟩
  have hbody : target.body = (named.primitive elem).run := congrArg Target.body htarget
  refine ⟨named, elem, hname, rfl, hbody, ?_, ?_, ?_, ?_, ?_, ?_, ?_⟩
  · intro hcount
    have hparams : target.adapter.params.length = named.arity + 1 := by
      obtain ⟨hlength, hadapted⟩ := Adapter.length_eq_of_ofSignatures hadapter
      rw [htarget, hadapted, ← hlength, named.length_params elem]
    rw [← hparams] at hcount ⊢
    exact target.call_of_length_ne args hcount h
  · exact fun passed hpass i hi => ArrayOperation.lt_length_of_passArgs hadapt hpass hi
  · intro given other hsame
    rw [hbody]
    exact named.run_congr_of_reads elem hsame
  · exact ArrayOperation.call_ne_missing hadapt args h
  · rintro rfl given
    exact ⟨_, sides?_eq_cut given 0 1, by rw [hbody]; rfl⟩
  · exact fun s index v hread => Heap.getElem?_of_elementAt hread
  · exact fun s index v after hwrite => Heap.index_lt_of_setElement hwrite

/-- A target that writes integers is given a list that is too short and then an array of strings. -/
theorem Resolver.arrays_access_in_range_of_set :
    let request : Request :=
      ⟨.dynamic "set" 2, .array .int64, [.array ⟨0⟩, .int64 0, .int64 7]⟩
    let h := Heap.empty.allocate ⟨.string, [.string "a"], by decide⟩
    let strings := [Value.array ⟨0⟩, .int32 0, .int64 7]
    ∃ target, Resolver.arrays request = .ok target ∧
      target.call [.array ⟨0⟩] h = (.error (.argument (.wrongCount 3 1)), h) ∧
      (∃ passed, target.adapter.passArgs h strings = .ok passed ∧
        ∀ i ∈ ArrayOperation.set.reads, i < passed.length) ∧
      (∀ i after, target.call strings h ≠ (.error (.argument (.missing i)), after)) ∧
      target.call strings h = (.error (.type (.wrongElementAccess .int64 .string)), h) := by
  intro request h strings
  have hset : (request.site.name, ArrayOperation.set) ∈ ArrayOperation.names := by decide
  obtain ⟨target, hresolve⟩ : ∃ target, Resolver.arrays request = .ok target := ⟨_, by rfl⟩
  obtain ⟨operation, _, hname, _, _, hshort, _⟩ := arrays_access_in_range hresolve [.array ⟨0⟩] h
  cases ArrayOperation.eq_of_mem_names hname hset
  obtain ⟨operation, _, hname, _, _, _, hreaches, _, hmissing, _⟩ :=
    arrays_access_in_range hresolve strings h
  cases ArrayOperation.eq_of_mem_names hname hset
  cases hresolve
  exact ⟨_, by rfl, hshort (by decide), ⟨_, by rfl, hreaches _ (by rfl)⟩, hmissing, by rfl⟩

end LateBinding

import LateBinding.Proofs.CommutingWrites

/-!
# Tails

A tail is a new storage with a copy of what follows the first element.  Tails of tails take one
element off each time, down to an empty array, and none of them fails.  An array and its tails are
written apart from one another; only an array that both hold is still one array, and shows what is
written to it through either.
-/

namespace LateBinding

/-! ## Operations of an array alone -/

namespace ArrayOperation

variable {operation : ArrayOperation} {owner : Owner}

/-- Only operations without an owner differ between element types. -/
theorem primitive_eq_of_owner? (howner : operation.owner? = some owner)
    (elem other : ElementType) : operation.primitive elem = operation.primitive other := by
  cases operation with
  | get | set | receiverType => contradiction
  | _ => rfl

theorem params_eq_of_arity (harity : operation.arity = 0) (elem : ElementType) :
    (operation.primitive elem).signature.params = [.array] := by
  cases operation with
  | get | set | equals => contradiction
  | _ => rfl

end ArrayOperation

theorem ArrayOperation.callsDynamically_of_mem_names {name : String} {operation : ArrayOperation}
    (hname : (name, operation) ∈ names) :
    (CallSite.dynamic name operation.arity).CallsDynamically operation where
  name_mem := hname
  signature_eq := rfl
  granted := by
    intro owner _ hdenied
    cases hdenied

/-- The ways of calling an operation that takes nothing but the array: by its primitive, through a
cache of a dynamic site in any state, and by a target of such a site. -/
inductive ReceiverCall (operation : ArrayOperation) : (Value → Action Value) → Prop where
  | primitive (elem : ElementType) :
      ReceiverCall operation fun v => (operation.primitive elem).run [v]
  | cache {site : CallSite} (hsite : site.CallsDynamically operation) (limit : RelinkLimit)
      (objects : Option Resolver) (history : List Call) :
      ReceiverCall operation fun v h =>
        (((InlineCache.fresh site limit objects).after history).call [v] h).outcome
  | target {site : CallSite} (hsite : site.CallsDynamically operation) {elem : ElementType}
      {args : List Value} {target : Target}
      (htarget : Resolver.arrays ⟨site, .array elem, args⟩ = .ok target) :
      ReceiverCall operation fun v => target.call [v]

namespace ReceiverCall

variable {operation : ArrayOperation} {call : Value → Action Value}

theorem eq_primitive (hcall : ReceiverCall operation call) {owner : Owner}
    (howner : operation.owner? = some owner) (harity : operation.arity = 0) (elem : ElementType)
    (s : StorageId) (h : Heap) :
    call (.array s) h = (operation.primitive elem).run [.array s] h := by
  have hdynamic : operation.callDynamic s [] h = (operation.primitive elem).run [.array s] h := by
    rw [operation.primitive_eq_of_owner? howner elem (h.storage s).elem]
    exact ArrayOperation.callDynamic_of_unary (operation.params_eq_of_arity harity _)
  cases hcall with
  | primitive other => rw [operation.primitive_eq_of_owner? howner other elem]
  | cache hsite limit objects history =>
      have hcount : ([] : List Value).length = operation.arity := harity.symm
      exact (InlineCache.outcome_after_of_dynamic hsite limit objects history s hcount h).trans
        hdynamic
  | @target site hsite other args target htarget =>
      -- the target may be of another element type than the array
      have hadapt := Resolver.adapt_of_arrays hsite.name_mem htarget
      rw [hsite.signature_eq,
        operation.primitive_eq_of_owner? howner other (h.storage s).elem] at hadapt
      exact (ArrayOperation.call_eq_callDynamic hadapt []).trans hdynamic

theorem tail_eq (hcall : ReceiverCall .tail call) (s : StorageId) (h : Heap) :
    call (.array s) h = (.ok (.array h.freshStorage), h.allocate (h.storage s).tail) := by
  have hrun := hcall.eq_primitive rfl rfl .any s h
  rw [hrun]
  exact Primitive.tail_apply s [] h

theorem head_eq (hcall : ReceiverCall .head call) (s : StorageId) (h : Heap) :
    call (.array s) h =
      (match h.items s with
        | v :: _ => .ok v
        | [] => .error (.argument .headOfEmpty), h) :=
  hcall.eq_primitive rfl rfl .any s h

theorem head_of_cons (hcall : ReceiverCall .head call) {s : StorageId} {h : Heap} {v : Value}
    {rest : List Value} (hitems : h.items s = v :: rest) : call (.array s) h = (.ok v, h) := by
  rw [hcall.head_eq, hitems]

end ReceiverCall

namespace Action

/-- Applies each to what the one before it gave. -/
def inTurn : List (Value → Action Value) → Value → Action Value
  | [], v => pure v
  | call :: calls, v => call v >>= inTurn calls

theorem inTurn_concat (calls : List (Value → Action Value)) (last : Value → Action Value)
    (v : Value) (h : Heap) :
    inTurn (calls ++ [last]) v h = (inTurn calls v >>= last) h := by
  induction calls generalizing v h with
  | nil =>
      simp only [List.nil_append, inTurn, bind_apply, pure_apply]
      rcases last v h with ⟨fault | w, after⟩ <;> rfl
  | cons call calls ih =>
      simp only [List.cons_append, inTurn, bind_apply]
      rcases call v h with ⟨fault | w, mid⟩
      · rfl
      · exact ih w mid

end Action

/-! ## Copies of the rest -/

namespace Heap

variable {h mid after : Heap} {s t r : StorageId} {count : Nat}

theorem Extends.mem_names (hextends : h.Extends after) (hs : s ∈ h.names) : s ∈ after.names := by
  have hfound := Array.getElem?_eq_getElem (Heap.mem_names.1 hs)
  exact Heap.mem_names.2 (Array.getElem?_eq_some_iff.1 (hextends.storages s.index _ hfound)).1

theorem freshStorage_not_mem_names (h : Heap) : h.freshStorage ∉ h.names := by
  intro hs
  exact Nat.lt_irrefl _ (mem_names.1 hs)

/-- A name is not given twice. -/
theorem Extends.freshStorage_ne (hextends : h.Extends mid) (hs : s ∈ h.names) :
    mid.freshStorage ≠ s := by
  intro heq
  exact mid.freshStorage_not_mem_names (heq ▸ hextends.mem_names hs)

theorem freshStorage_mem_names_allocate (h : Heap) (content : Storage) :
    h.freshStorage ∈ (h.allocate content).names := by
  simp [mem_names, freshStorage, allocate]

/-- Storage `t` of a later heap has all but the first `count` elements of `s`. -/
structure HoldsRest (h after : Heap) (s t : StorageId) (count : Nat) : Prop where
  grown : h.Extends after
  mem_names : t ∈ after.names
  elem_eq : (after.storage t).elem = (h.storage s).elem
  items_eq : after.items t = (h.items s).drop count

theorem HoldsRest.self (hs : s ∈ h.names) : h.HoldsRest h s s 0 :=
  ⟨.refl h, hs, rfl, rfl⟩

theorem HoldsRest.ofValues_eq (hrest : h.HoldsRest after s t count) :
    Storage.ofValues (h.storage s).elem ((h.items s).drop count) = .ok (after.storage t) := by
  rw [← hrest.elem_eq, ← hrest.items_eq]
  exact Storage.ofValues_items _

theorem HoldsRest.allocate_tail (hrest : h.HoldsRest mid s r count) :
    h.HoldsRest (mid.allocate (mid.storage r).tail) s mid.freshStorage (count + 1) where
  grown := hrest.grown.trans (mid.extends_allocate _)
  mem_names := mid.freshStorage_mem_names_allocate _
  elem_eq := by rw [storage_allocate_fresh, Storage.elem_tail, hrest.elem_eq]
  items_eq := by
    rw [items, storage_allocate_fresh, Storage.items_tail, ← List.tail_drop, ← hrest.items_eq,
      items]

theorem HoldsRest.tail {call : Value → Action Value} (hcall : ReceiverCall .tail call)
    (hrest : h.HoldsRest mid s r count) :
    ∃ after, call (.array r) mid = (.ok (.array mid.freshStorage), after) ∧ mid.Extends after ∧
      h.HoldsRest after s mid.freshStorage (count + 1) :=
  ⟨_, hcall.tail_eq r mid, mid.extends_allocate _, hrest.allocate_tail⟩

theorem HoldsRest.tails_in_turn {calls : List (Value → Action Value)}
    (hcalls : ∀ call ∈ calls, ReceiverCall .tail call) (hrest : h.HoldsRest mid s r count) :
    ∃ t after, Action.inTurn calls (.array r) mid = (.ok (.array t), after) ∧
      h.HoldsRest after s t (count + calls.length) := by
  -- the copy is compared with the first array all along, so the count is that of the whole run
  induction calls generalizing mid r count with
  | nil => exact ⟨r, mid, rfl, hrest⟩
  | cons call calls ih =>
      obtain ⟨hcall, hcalls⟩ := List.forall_mem_cons.1 hcalls
      obtain ⟨next, hran, _, hnext⟩ := hrest.tail hcall
      obtain ⟨t, after, hturn, hafter⟩ := ih hcalls hnext
      refine ⟨t, after, ?_, ?_⟩
      · simp only [Action.inTurn, Action.bind_apply, hran]
        exact hturn
      · rw [List.length_cons, Nat.add_comm calls.length, ← Nat.add_assoc]
        exact hafter

end Heap

/-! ## Writes to arrays that others hold -/

namespace Heap

variable {h after : Heap} {s u : StorageId} {held w : Value} {i : Int64} {j : Nat}

/-- The element of an array or list view that a storage holds in a slot. -/
def innerElement? (h : Heap) (s : StorageId) (slot inner : Nat) : Option Value := do
  let held ← (h.items s)[slot]?
  let elements ← h.elements? held
  elements[inner]?

/-- A holder shows what is written to the array that it holds, unless that write has replaced the
array in this very slot. -/
theorem WritesSlot.innerElement?_eq (hwrite : h.WritesSlot after u i w)
    (hheld : (h.items s)[j]? = some held) (hstorage : held.storage? = some u)
    (hkept : s = u → i.toInt.toNat ≠ j) :
    after.innerElement? s j i.toInt.toNat = some w := by
  have hstays : (after.items s)[j]? = some held := by
    rw [hwrite.items_eq_ite, ← hheld]
    split
    · next hs => exact List.getElem?_set_ne (hkept hs)
    · rfl
  have hin : i.toInt.toNat < (h.items u).length := by
    have hrange := hwrite.range
    omega
  have hnew : (after.items u)[i.toInt.toNat]? = some w := by
    rw [hwrite.items_eq, List.getElem?_set_self hin]
  simp only [innerElement?, hstays, elements?, hstorage, Option.bind_eq_bind, Option.bind_some,
    Option.map_some, hnew]

end Heap

namespace ElementWrite

variable {s t : StorageId} {slot : Option Int64} {α : Type} {write : Action α} {h after : Heap}
  {a : α} (hwrite : ElementWrite s slot write) (hran : write h = (.ok a, after))

include hwrite hran

theorem exists_writesSlot : ∃ i ∈ slot, ∃ w, h.WritesSlot after s i w := by
  rcases hwrite.writesAt h h (.refl h s slot) with ⟨fault, hfailed, _⟩ |
    ⟨b, later, _, hsucceeded, _, i, hi, w, hslot, _⟩
  · cases hfailed.symm.trans hran
  · cases hsucceeded.symm.trans hran
    exact ⟨i, hi, w, hslot⟩

theorem items_eq_of_ne (hne : t ≠ s) : after.items t = h.items t := by
  obtain ⟨i, _, w, hslot⟩ := exists_writesSlot hwrite hran
  rw [hslot.items_eq_ite, if_neg hne]

end ElementWrite

/-- Tails taken one after the other, by whatever calls, do not fail.  With the `count`-th comes a
storage that was not there before, of the same element type, which holds all but the first `count`
elements; storages that were there are as they were.  A write that succeeds, at any later time, to
the array or to this tail does not show in the slots of the other, and one to an array that both
hold shows through both. -/
theorem tails_copy_the_rest {h : Heap} {s : StorageId} (hs : s ∈ h.names)
    {earlier : List (Value → Action Value)} (hearlier : ∀ call ∈ earlier, ReceiverCall .tail call)
    {last : Value → Action Value} (hlast : ReceiverCall .tail last) :
    let count := earlier.length + 1
    let elem := (h.storage s).elem
    let rest := (h.items s).drop count
    let before := (Action.inTurn earlier (.array s) h).2
    (∀ first, ReceiverCall .head first → h.items s ≠ [] → ∃ v t after,
      first (.array s) h = (.ok v, h) ∧ last (.array s) h = (.ok (.array t), after) ∧
      v :: after.items t = h.items s) ∧
    ∃ t after, Action.inTurn (earlier ++ [last]) (.array s) h = (.ok (.array t), after) ∧
      h.Extends before ∧ before.Extends after ∧ t ∉ before.names ∧ t ∈ after.names ∧
      (after.storage t).elem = elem ∧ after.items t = rest ∧
      Storage.ofValues elem rest = .ok (after.storage t) ∧
      ∀ (now later : Heap) (slot : Option Int64) (α : Type) (write : Action α) (a : α),
        write now = (.ok a, later) →
        (ElementWrite s slot write → later.items t = now.items t) ∧
        (ElementWrite t slot write → later.items s = now.items s) ∧
        ∀ u held j m, ElementWrite u slot write → held.storage? = some u →
          (now.items s)[j]? = some held → (now.items t)[m]? = some held →
          ∃ i ∈ slot, ∃ w, now.WritesSlot later u i w ∧
            ((s = u → i.toInt.toNat ≠ j) → later.innerElement? s j i.toInt.toNat = some w) ∧
            ((t = u → i.toInt.toNat ≠ m) → later.innerElement? t m i.toInt.toNat = some w) := by
  intro count elem rest before
  have hself := Heap.HoldsRest.self hs
  constructor
  case left =>
    intro first hfirst hnonempty
    obtain ⟨v, others, hitems⟩ := List.exists_cons_of_ne_nil hnonempty
    obtain ⟨after, hran, _, hone⟩ := hself.tail hlast
    refine ⟨v, h.freshStorage, after, hfirst.head_of_cons hitems, hran, ?_⟩
    rw [hone.items_eq, hitems]
    rfl
  case right =>
    obtain ⟨r, mid, hturn, hrest⟩ := hself.tails_in_turn hearlier
    have hbefore : before = mid := congrArg Prod.snd hturn
    rw [Nat.zero_add] at hrest
    obtain ⟨after, hran, hextends, hcopy⟩ := hrest.tail hlast
    have hapart := hrest.grown.freshStorage_ne hs
    rw [Action.inTurn_concat, Action.bind_apply, hturn, hbefore]
    refine ⟨mid.freshStorage, after, hran, hrest.grown, hextends, mid.freshStorage_not_mem_names,
      hcopy.mem_names, hcopy.elem_eq, hcopy.items_eq, hcopy.ofValues_eq, ?_⟩
    intro now later slot α write a hwrote
    refine ⟨?_, ?_, ?_⟩
    · intro hwrite
      exact hwrite.items_eq_of_ne hwrote hapart
    · intro hwrite
      exact hwrite.items_eq_of_ne hwrote hapart.symm
    · intro u held j m hwrite hstorage hheld hcopied
      obtain ⟨i, hi, w, hslot⟩ := hwrite.exists_writesSlot hwrote
      exact ⟨i, hi, w, hslot, hslot.innerElement?_eq hheld hstorage,
        hslot.innerElement?_eq hcopied hstorage⟩

/-- The second tail of an array of four keeps its list view of the numbers, which the array holds
too.  The numbers are written, which shows through both, and then the array gets another value in a
slot that was copied, which does not show in the tail. -/
theorem second_tail_holds_the_numbers :
    let numbers : Storage := ⟨.int64, [.int64 5, .int64 6], by decide⟩
    let written : Storage := ⟨.int64, [.int64 5, .int64 7], by decide⟩
    let whole : Storage := ⟨.any, [.int64 1, .bool true, .list ⟨1⟩, .nothing], by decide⟩
    let changed : Storage := ⟨.any, [.int64 1, .bool true, .list ⟨1⟩, .char 'x'], by decide⟩
    let one : Storage := ⟨.any, [.bool true, .list ⟨1⟩, .nothing], by decide⟩
    let two : Storage := ⟨.any, [.list ⟨1⟩, .nothing], by decide⟩
    let h : Heap := ⟨#[whole, numbers], #[]⟩
    let after : Heap := ⟨#[whole, numbers, one, two], #[]⟩
    let inner : Heap := ⟨#[whole, written, one, two], #[]⟩
    let outer : Heap := ⟨#[changed, written, one, two], #[]⟩
    let history : List Call := [⟨[.array ⟨1⟩], h⟩]
    let cache := (InlineCache.fresh (.dynamic "tail" 0) ⟨some 0⟩ none).after history
    let first : Value → Action Value := fun v => Primitive.tail [v]
    let last : Value → Action Value := fun v heap => (cache.call [v] heap).outcome
    (⟨0⟩ : StorageId) ∈ h.names ∧ (∀ call ∈ [first, last], ReceiverCall .tail call) ∧
      Action.inTurn [first, last] (.array ⟨0⟩) h = (.ok (.array ⟨3⟩), after) ∧
      after.items ⟨3⟩ = (h.items ⟨0⟩).drop 2 ∧
      Action.writeListElement ⟨1⟩ 1 (.int64 7) after = (.ok (.int64 6), inner) ∧
      inner.innerElement? ⟨0⟩ 2 1 = some (.int64 7) ∧
      inner.innerElement? ⟨3⟩ 0 1 = some (.int64 7) ∧
      Action.writeElement .any ⟨0⟩ 3 (.char 'x') inner = (.ok (), outer) ∧
      outer.items ⟨3⟩ = inner.items ⟨3⟩ := by
  intro numbers written whole changed one two h after inner outer history cache first last
  have hs : (⟨0⟩ : StorageId) ∈ h.names := by decide
  have hname : ("tail", ArrayOperation.tail) ∈ ArrayOperation.names := by decide
  have hsite := ArrayOperation.callsDynamically_of_mem_names hname
  have hfirst : ∀ call ∈ [first], ReceiverCall .tail call := by
    intro call hcall
    rw [List.mem_singleton.1 hcall]
    exact .primitive .any
  have hlast : ReceiverCall .tail last := .cache hsite ⟨some 0⟩ none history
  have hcalls : ∀ call ∈ [first, last], ReceiverCall .tail call :=
    List.forall_mem_append.2 ⟨hfirst, List.forall_mem_singleton.2 hlast⟩
  have hran : Action.inTurn [first, last] (.array ⟨0⟩) h = (.ok (.array ⟨3⟩), after) := by rfl
  have hinner : Action.writeListElement ⟨1⟩ 1 (.int64 7) after = (.ok (.int64 6), inner) := by rfl
  have houter : Action.writeElement .any ⟨0⟩ 3 (.char 'x') inner = (.ok (), outer) := by rfl
  obtain ⟨_, t, later, hturn, _, _, _, _, _, hitems, _, hwrites⟩ :=
    tails_copy_the_rest hs hfirst hlast
  cases hturn.symm.trans hran
  obtain ⟨i, hi, w, hslot, harray, htail⟩ := (hwrites after inner _ _ _ _ hinner).2.2
    ⟨1⟩ (.list ⟨1⟩) 2 0 (.listView 1 (.int64 7)) rfl rfl rfl
  have hkept := (hwrites inner outer _ _ _ _ houter).1 (.accessor .any 3 (.char 'x'))
  cases hi
  have hw : some w = some (.int64 7) := by
    have hnew : (inner.items ⟨1⟩)[1]? = some (.int64 7) := rfl
    rw [hslot.items_eq] at hnew
    exact hnew
  rw [hw] at harray htail
  exact ⟨hs, hcalls, hran, hitems, hinner, harray (by decide), htail (by decide), houter, hkept⟩

end LateBinding

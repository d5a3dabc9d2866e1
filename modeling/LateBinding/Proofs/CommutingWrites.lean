import LateBinding.Proofs.WritePaths

/-!
# Writes that commute

A write looks at less of the heap than it could: at the types and at the length of the storage that
it addresses, and, where it gives the old element, at that one slot.  Another write changes none of
these unless it is to the same slot.  So two writes to different slots, by whatever ways and whether
they fail or not, have the same two results and leave the same heap in either order.  Of an array
that is written into its own storage this is meant only where the write returns, as
`Heap.setElement` says.
-/

namespace LateBinding

/-! ## What a written slot changes -/

theorem Storage.eq_of_items {content other : Storage} (helem : content.elem = other.elem)
    (hitems : content.items = other.items) : content = other := by
  cases content
  cases other
  simp_all

namespace Heap

variable {h other after : Heap} {s t : StorageId} {i j : Int64} {v w : Value}

/-- Heaps with the same names are told apart by a storage or by the cursors. -/
theorem eq_of_storage (hnames : h.names = other.names)
    (hstorage : ∀ u, h.storage u = other.storage u) (hcursors : h.cursors = other.cursors) :
    h = other := by
  have hsize : h.storages.size = other.storages.size := by
    simpa [names] using congrArg List.length hnames
  have hstorages : h.storages = other.storages := by
    apply Array.ext hsize
    intro position hleft hright
    have hsame := hstorage ⟨position⟩
    simpa [storage, hleft, hright] using hsame
  cases h
  cases other
  simp_all

theorem listElement_congr (hstorage : other.storage s = h.storage s) (i : Int64) :
    other.listElement s i = h.listElement s i := by
  rw [listElement, elementAt_of_elem_eq rfl, hstorage, listElement, elementAt_of_elem_eq rfl]

namespace WritesSlot

theorem items_eq_ite (hwrite : h.WritesSlot after s i w) (u : StorageId) :
    after.items u = if u = s then (h.items u).set i.toInt.toNat w else h.items u := by
  by_cases hu : u = s
  · rw [if_pos hu, hu, hwrite.items_eq]
  · rw [if_neg hu, items, hwrite.storage_eq u hu, items]

theorem elem_eq_all (hwrite : h.WritesSlot after s i w) (u : StorageId) :
    (after.storage u).elem = (h.storage u).elem := by
  by_cases hu : u = s
  · rw [hu, hwrite.elem_eq]
  · rw [hwrite.storage_eq u hu]

theorem length_eq (hwrite : h.WritesSlot after s i w) (u : StorageId) :
    (after.items u).length = (h.items u).length := by
  rw [hwrite.items_eq_ite]
  split
  · exact List.length_set
  · rfl

theorem position_ne (hwrite : h.WritesSlot after s i w) (hrange : 0 ≤ j.toInt) (hne : i ≠ j) :
    i.toInt.toNat ≠ j.toInt.toNat := by
  have hpositive := hwrite.range.1
  intro heq
  exact hne (Int64.toInt_inj.1 (by omega))

/-- Writing two slots one after the other, in either order, gives one and the same heap. -/
theorem comm {left right both swapped : Heap} (hleft : h.WritesSlot left s i v)
    (hboth : left.WritesSlot both t j w) (hright : h.WritesSlot right t j w)
    (hswapped : right.WritesSlot swapped s i v) (hslots : s = t → i ≠ j) : both = swapped := by
  apply eq_of_storage
  · rw [hboth.names_eq, hleft.names_eq, hswapped.names_eq, hright.names_eq]
  · intro u
    apply Storage.eq_of_items
    · rw [hboth.elem_eq_all, hleft.elem_eq_all, hswapped.elem_eq_all, hright.elem_eq_all]
    · change both.items u = swapped.items u
      rw [hboth.items_eq_ite, hleft.items_eq_ite, hswapped.items_eq_ite, hright.items_eq_ite]
      by_cases hs : u = s
      · by_cases ht : u = t
        · have hpositions := hleft.position_ne hright.range.1 (hslots (hs.symm.trans ht))
          rw [if_pos hs, if_pos ht, if_pos hs, if_pos ht, List.set_comm _ _ hpositions]
        · rw [if_neg ht, if_pos hs, if_pos hs, if_neg ht]
      · rw [if_neg hs, if_neg hs]
  · rw [hboth.cursors_eq, hleft.cursors_eq, hswapped.cursors_eq, hright.cursors_eq]

end WritesSlot

/-- Heaps that a write to the slot finds alike: the types of values, the length of the storage and
the element in the slot. -/
structure AgreesAt (h other : Heap) (s : StorageId) (slot : Option Int64) : Prop where
  elem_eq : ∀ u, (other.storage u).elem = (h.storage u).elem
  length_eq : (other.items s).length = (h.items s).length
  element_eq : ∀ i ∈ slot, other.listElement s i = h.listElement s i

theorem AgreesAt.refl (h : Heap) (s : StorageId) (slot : Option Int64) : h.AgreesAt h s slot :=
  ⟨fun _ => rfl, rfl, fun _ _ => rfl⟩

/-- A write to another slot is not noticed. -/
theorem WritesSlot.agreesAt (hwrite : h.WritesSlot after t j w) {slot : Option Int64}
    (hslots : s = t → j ∉ slot) : h.AgreesAt after s slot where
  elem_eq := hwrite.elem_eq_all
  length_eq := hwrite.length_eq s
  element_eq := by
    intro i hi
    by_cases hs : s = t
    · have hne : i ≠ j := fun heq => hslots hs (heq ▸ hi)
      rw [hs, hwrite.listElement_eq, if_neg hne]
    · exact listElement_congr (hwrite.storage_eq s hs) i

section Agreement

variable {slot : Option Int64} (hagrees : h.AgreesAt other s slot)

include hagrees

theorem AgreesAt.typeOf_eq (v : Value) : other.typeOf v = h.typeOf v := by
  cases v with
  | array u => exact congrArg ValueType.array (hagrees.elem_eq u)
  | _ => rfl

theorem AgreesAt.setElement_cases (elem : ElementType) (i : Int64) (v : Value) :
    (∃ fault, h.setElement elem s i v = .error fault ∧
      other.setElement elem s i v = .error fault) ∨
    ∃ after otherAfter, h.setElement elem s i v = .ok after ∧
      other.setElement elem s i v = .ok otherAfter ∧ h.WritesSlot after s i v ∧
      other.WritesSlot otherAfter s i v := by
  have hsame := hagrees.elem_eq s
  by_cases helem : (h.storage s).elem = elem
  case neg =>
    have hother : (other.storage s).elem ≠ elem := hsame ▸ helem
    refine .inl ⟨_, setElement_of_elem_ne helem i v, ?_⟩
    rw [setElement_of_elem_ne hother, hsame]
  case pos =>
    subst helem
    by_cases hadmits : (h.storage s).elem.admits v = true
    case neg =>
      refine .inl ⟨_, setElement_of_not_admits rfl i hadmits, ?_⟩
      rw [setElement_of_not_admits hsame i (hsame ▸ hadmits), storeFault, hagrees.typeOf_eq,
        storeFault]
    case pos =>
      have hotherAdmits : (other.storage s).elem.admits v = true := hsame ▸ hadmits
      by_cases hrange : 0 ≤ i.toInt ∧ i.toInt < (h.items s).length
      case neg =>
        refine .inl ⟨_, (setElement_eq_error_iff rfl hadmits).2 ⟨rfl, hrange⟩, ?_⟩
        rw [setElement_eq_error_iff hsame hotherAdmits, hagrees.length_eq]
        exact ⟨rfl, hrange⟩
      case pos =>
        obtain ⟨after, hset, hwrite⟩ := exists_writesSlot hadmits hrange
        obtain ⟨otherAfter, hotherSet, hotherWrite⟩ :=
          exists_writesSlot hotherAdmits (hagrees.length_eq ▸ hrange)
        exact .inr ⟨after, otherAfter, hset, hsame ▸ hotherSet, hwrite, hotherWrite⟩

end Agreement

end Heap

/-! ## Coercions look at types only -/

section Types

variable {h other : Heap} (htypes : ∀ v, other.typeOf v = h.typeOf v)

include htypes

theorem Heap.widen_congr (v : Value) (wanted : Kind) : other.widen v wanted = h.widen v wanted := by
  simp only [widen, htypes]

theorem Heap.cast_congr (v : Value) (wanted : Kind) : other.cast v wanted = h.cast v wanted := by
  simp only [cast, htypes, widen_congr htypes]

theorem Heap.asIndex_congr (v : Value) : other.asIndex v = h.asIndex v := by
  cases v <;> simp only [asIndex, htypes]

theorem Coercion.apply_congr (coercion : Coercion) (v : Value) :
    coercion.apply other v = coercion.apply h v := by
  cases coercion with
  | widen wanted => exact Heap.widen_congr htypes v wanted
  | cast wanted => exact Heap.cast_congr htypes v wanted
  | _ => rfl

theorem Adapter.passArgs_congr (adapter : Adapter) (args : List Value) :
    adapter.passArgs other args = adapter.passArgs h args := by
  simp only [passArgs, Coercion.apply_congr htypes]

end Types

/-! ## Actions that write one slot -/

namespace Action

variable {α β : Type}

/-- On heaps that agree at the slot, the action fails with one fault and changes nothing, or it
succeeds with one result and writes one value to the slot of both. -/
def WritesAt (action : Action α) (s : StorageId) (slot : Option Int64) : Prop :=
  ∀ h other, h.AgreesAt other s slot →
    (∃ fault, action h = (.error fault, h) ∧ action other = (.error fault, other)) ∨
    ∃ a after otherAfter, action h = (.ok a, after) ∧ action other = (.ok a, otherAfter) ∧
      ∃ i ∈ slot, ∃ w, h.WritesSlot after s i w ∧ other.WritesSlot otherAfter s i w

variable {action first : Action α} {second : Action β} {s t : StorageId} {slot other : Option Int64}

theorem WritesAt.agreesAt (hwrites : action.WritesAt t other)
    (hslots : s = t → ∀ i ∈ other, i ∉ slot) (h : Heap) : h.AgreesAt (action h).2 s slot := by
  rcases hwrites h h (.refl h t other) with ⟨fault, hfailed, _⟩ |
    ⟨a, after, _, hran, _, j, hj, w, hwrite, _⟩
  · rw [hfailed]
    exact .refl h s slot
  · rw [hran]
    exact hwrite.agreesAt fun hs => hslots hs j hj

theorem WritesAt.comm (hfirst : first.WritesAt s slot) (hsecond : second.WritesAt t other)
    (hslots : s = t → ∀ i ∈ slot, i ∉ other) (h : Heap) :
    (second (first h).2).1 = (second h).1 ∧ (first (second h).2).1 = (first h).1 ∧
      (second (first h).2).2 = (first (second h).2).2 := by
  have hbefore := hfirst h (second h).2
    (hsecond.agreesAt (fun hs j hj hi => hslots hs j hi hj) h)
  have hbehind := hsecond h (first h).2 (hfirst.agreesAt (fun ht => hslots ht.symm) h)
  rcases hbefore with ⟨fault, hfailed, hfails⟩ |
    ⟨a, left, swapped, hleft, hswapped, i, hi, v, hwritesLeft, hwritesSwapped⟩
  · -- a failed write has left the heap to the other
    rw [hfailed, hfails]
    exact ⟨rfl, rfl, rfl⟩
  · rcases hbehind with ⟨fault, hfailed, hfails⟩ |
      ⟨b, right, both, hright, hboth, j, hj, w, hwritesRight, hwritesBoth⟩
    · rw [hfailed, hfails]
      exact ⟨rfl, rfl, rfl⟩
    · rw [hleft] at hboth hwritesBoth
      rw [hright] at hswapped hwritesSwapped
      rw [hleft, hright, hboth, hswapped]
      have hne : s = t → i ≠ j := fun hs heq => hslots hs i hi (heq ▸ hj)
      exact ⟨rfl, rfl, hwritesLeft.comm hwritesBoth hwritesRight hwritesSwapped hne⟩

end Action

/-! ## The ways of writing -/

namespace Action

theorem writeElement_writesAt (elem : ElementType) (s : StorageId) (i : Int64) (v : Value) :
    (writeElement elem s i v).WritesAt s (some i) := by
  intro h other hagrees
  rcases hagrees.setElement_cases elem i v with ⟨fault, hfails, hotherFails⟩ |
    ⟨after, otherAfter, hset, hotherSet, hwrite, hotherWrite⟩
  · exact .inl ⟨fault, writeElement_of_error hfails, writeElement_of_error hotherFails⟩
  · exact .inr ⟨(), after, otherAfter, writeElement_of_ok hset, writeElement_of_ok hotherSet, i,
      rfl, v, hwrite, hotherWrite⟩

theorem writeListElement_writesAt (s : StorageId) (i : Int64) (v : Value) :
    (writeListElement s i v).WritesAt s (some i) := by
  intro h other hagrees
  rw [writeListElement_eq, writeListElement_eq, Heap.setListElement_eq, Heap.setListElement_eq,
    hagrees.element_eq i rfl, hagrees.elem_eq s]
  cases h.listElement s i with
  | error fault => exact .inl ⟨fault, rfl, rfl⟩
  | ok previous =>
      rcases hagrees.setElement_cases (h.storage s).elem i v with ⟨fault, hfails, hotherFails⟩ |
        ⟨after, otherAfter, hset, hotherSet, hwrite, hotherWrite⟩
      · rw [hfails, hotherFails]
        exact .inl ⟨fault, rfl, rfl⟩
      · rw [hset, hotherSet]
        exact .inr ⟨previous, after, otherAfter, rfl, rfl, i, rfl, v, hwrite, hotherWrite⟩

end Action

theorem Coercion.Between.apply_nothing {wanted : Kind} {coercion : Coercion}
    (hbetween : Between .void wanted coercion) (h : Heap) :
    coercion.apply h .nothing = .ok .nothing := by
  cases hbetween with
  | identity | discard | supplyNothing => rfl
  | forget hsource => exact absurd rfl hsource
  | widen hwidens => cases hwidens

theorem Target.call_of_refused {target : Target} {args : List Value} {h : Heap} {fault : CallFault}
    (hpass : target.adapter.passArgs h args = .error fault) :
    target.call args h = (.error fault, h) := by
  simp only [call, Action.bind_apply, Action.query, hpass]

section Targets

variable {elem : ElementType} {site : Signature} {receiver : ValueType} {target : Target}
  (hadapt : (ArrayOperation.set.primitive elem).adapt site receiver = .ok target)

include hadapt

/-- The result of a write is no value, which every site takes. -/
theorem ArrayOperation.call_set_of_passed {args : List Value} {s : StorageId} {index w : Value}
    {h : Heap} (hpass : target.adapter.passArgs h args = .ok [.array s, index, w]) :
    target.call args h =
      match (h.asIndex index).bind fun i => h.setElement elem s i w with
      | .ok after => (.ok .nothing, after)
      | .error fault => (.error fault, h) := by
  obtain ⟨adapter, hadapter, rfl⟩ := Operation.adapt_eq_ok_iff.1 hadapt
  obtain ⟨_, _, hret⟩ := Adapter.ofSignatures_eq_ok_iff.1 hadapter
  have hbetween := Coercion.of?_eq_some_iff.1 hret
  have hrun := Primitive.elementSet_run elem s index w h
  simp only [Target.call, Action.bind_apply, Action.query, hpass, primitive, hrun]
  cases (h.asIndex index).bind fun i => h.setElement elem s i w with
  | error fault => rfl
  | ok after =>
      simp only [Adapter.passResult, hbetween.apply_nothing]

theorem ArrayOperation.exists_of_passArgs_set {h : Heap} {s : StorageId} {index v : Value}
    {passed : List Value}
    (hpass : target.adapter.passArgs h [.array s, index, v] = .ok passed) :
    ∃ position w, passed = [.array s, position, w] ∧ Coercion.Passes h .int64 index position := by
  obtain ⟨adapter, hadapter, rfl⟩ := Operation.adapt_eq_ok_iff.1 hadapt
  rcases (Adapter.forall₂_passes hadapter hpass).2 with
    _ | ⟨hreceiver, _ | ⟨hindex, _ | ⟨_, ⟨⟩⟩⟩⟩
  cases hreceiver.eq_of_array
  exact ⟨_, _, rfl, hindex⟩

theorem ArrayOperation.call_set_writesAt (s : StorageId) (index v : Value) :
    (target.call [.array s, index, v]).WritesAt s index.index? := by
  intro h other hagrees
  have hpassOther := Adapter.passArgs_congr hagrees.typeOf_eq target.adapter [.array s, index, v]
  cases hpass : target.adapter.passArgs h [.array s, index, v] with
  | error fault =>
      have hrefused := hpassOther.trans hpass
      exact .inl ⟨fault, Target.call_of_refused hpass, Target.call_of_refused hrefused⟩
  | ok passed =>
      obtain ⟨position, w, rfl, hindex⟩ := exists_of_passArgs_set hadapt hpass
      rw [call_set_of_passed hadapt hpass, call_set_of_passed hadapt (hpassOther.trans hpass),
        Heap.asIndex_congr hagrees.typeOf_eq]
      cases hposition : h.asIndex position with
      | error fault => exact .inl ⟨fault, rfl, rfl⟩
      | ok i =>
          have hslot := hindex.index?_eq hposition
          simp only [Except.bind]
          rcases hagrees.setElement_cases elem i w with ⟨fault, hfails, hotherFails⟩ |
            ⟨after, otherAfter, hset, hotherSet, hwrite, hotherWrite⟩
          · rw [hfails, hotherFails]
            exact .inl ⟨fault, rfl, rfl⟩
          · rw [hset, hotherSet]
            exact .inr ⟨.nothing, after, otherAfter, rfl, rfl, i, hslot, w, hwrite, hotherWrite⟩

end Targets

theorem ArrayOperation.set_mem_names {name : String} (hname : name = "set") :
    (name, set) ∈ names := by
  simp [hname, names]

theorem InlineCache.Sourced.call_set_writesAt {cache : InlineCache} (hsourced : cache.Sourced)
    (hname : cache.site.name = "set") (s : StorageId) (index v : Value) :
    Action.WritesAt (fun h => (cache.call [.array s, index, v] h).outcome) s index.index? := by
  intro h other hagrees
  -- the type of the receiver decides what the cache does, and it is the same on both heaps
  rcases hdispatch : cache.dispatch (h.typeOf (.array s)) [.array s, index, v] with ⟨bound, next⟩
  have hdispatchOther := hdispatch
  rw [← hagrees.typeOf_eq] at hdispatchOther
  simp only [outcome_of_dispatch hdispatch, outcome_of_dispatch hdispatchOther]
  cases bound with
  | error fault => exact .inl ⟨.resolution fault, rfl, rfl⟩
  | ok target =>
      obtain ⟨earlier, hsource⟩ :=
        hsourced.exists_resolve_of_dispatch (congrArg Prod.fst hdispatch)
      simp only [resolve, Heap.typeOf, ValueType.shape] at hsource
      have hadapt := Resolver.adapt_of_arrays (ArrayOperation.set_mem_names hname) hsource
      exact ArrayOperation.call_set_writesAt hadapt s index v h other hagrees

/-- The ways of writing an element of an array, each with the slot that it addresses: by the
accessor of an element type, through a list view, by a call through a cache of any site in any
state, and by a call of a target of such a site.  A call whose index is no integer has no slot. -/
inductive ElementWrite (s : StorageId) : Option Int64 → {α : Type} → Action α → Prop where
  | accessor (elem : ElementType) (i : Int64) (v : Value) :
      ElementWrite s (some i) (Action.writeElement elem s i v)
  | listView (i : Int64) (v : Value) : ElementWrite s (some i) (Action.writeListElement s i v)
  | cache {site : CallSite} (hname : site.name = "set") (limit : RelinkLimit)
      (objects : Option Resolver) (history : List Call) (index v : Value) :
      ElementWrite s index.index? fun h =>
        (((InlineCache.fresh site limit objects).after history).call
          [.array s, index, v] h).outcome
  | target {site : CallSite} (hname : site.name = "set") {elem : ElementType} {args : List Value}
      {target : Target} (htarget : Resolver.arrays ⟨site, .array elem, args⟩ = .ok target)
      (index v : Value) : ElementWrite s index.index? (target.call [.array s, index, v])

theorem ElementWrite.writesAt {s : StorageId} {slot : Option Int64} {α : Type} {action : Action α}
    (hwrite : ElementWrite s slot action) : action.WritesAt s slot := by
  cases hwrite with
  | accessor elem i v => exact Action.writeElement_writesAt elem s i v
  | listView i v => exact Action.writeListElement_writesAt s i v
  | @cache site hname limit objects history index v =>
      have hsourced := InlineCache.sourced_after_fresh site limit objects history
      have hsame := (InlineCache.fresh site limit objects).sameSettings_after history
      have hcacheName := (congrArg CallSite.name hsame.site_eq).trans hname
      exact hsourced.call_set_writesAt hcacheName s index v
  | target hname htarget index v =>
      have hadapt := Resolver.adapt_of_arrays (ArrayOperation.set_mem_names hname) htarget
      exact ArrayOperation.call_set_writesAt hadapt s index v

/-- Two writes that address different storages, or different indices of one, commute: each has the
result that it has without the other, be it a value, an element or a fault, and the heap in the end
does not tell which came first. -/
theorem writes_to_different_slots_commute {s t : StorageId} {slot other : Option Int64}
    {α β : Type} {first : Action α} {second : Action β} (hfirst : ElementWrite s slot first)
    (hsecond : ElementWrite t other second) (hslots : s = t → ∀ i ∈ slot, i ∉ other) (h : Heap) :
    let once := first h
    let behind := second once.2
    let early := second h
    let late := first early.2
    once.1 = late.1 ∧ behind.1 = early.1 ∧ behind.2 = late.2 := by
  intro once behind early late
  obtain ⟨hsecondResult, hfirstResult, hheap⟩ := hfirst.writesAt.comm hsecond.writesAt hslots h
  exact ⟨hfirstResult.symm, hsecondResult, hheap⟩

/-- A view of the second array is written over that array itself, by a list view on the first array;
a call writes to the next slot of the first array, and another is refused by the second array, with
the type of the first in its fault. -/
theorem list_write_commutes_with_calls :
    let numbers : Storage := ⟨.int64, [.int64 1, .int64 2], by decide⟩
    let h : Heap := ⟨#[⟨.any, [.array ⟨1⟩, .nothing], by decide⟩, numbers], #[]⟩
    let history : List Call := [⟨[.array ⟨1⟩, .int64 1, .int64 5], h⟩]
    let cache := (InlineCache.fresh (.dynamic "set" 2) ⟨some 1⟩ none).after history
    let first := Action.writeListElement ⟨0⟩ 0 (.list ⟨1⟩)
    let second : Action Value := fun heap =>
      (cache.call [.array ⟨0⟩, .char (.ofNat 1), .string "x"] heap).outcome
    let refused : Action Value := fun heap =>
      (cache.call [.array ⟨1⟩, .int32 0, .array ⟨0⟩] heap).outcome
    let after : Heap := ⟨#[⟨.any, [.list ⟨1⟩, .string "x"], by decide⟩, numbers], #[]⟩
    ElementWrite ⟨0⟩ (some 0) first ∧ ElementWrite ⟨0⟩ (some 1) second ∧
      ElementWrite ⟨1⟩ (some 0) refused ∧
      (first h).1 = .ok (.array ⟨1⟩) ∧ (second (first h).2).1 = .ok .nothing ∧
      (second (first h).2).2 = after ∧ (first (second h).2).1 = .ok (.array ⟨1⟩) ∧
      (first (second h).2).2 = after ∧
      (refused h).1 = .error (.type (.cannotCast (.array .any) .int64)) ∧
      (refused (first h).2).1 = .error (.type (.cannotCast (.array .any) .int64)) := by
  intro numbers h history cache first second refused after
  have hfirst : ElementWrite ⟨0⟩ (some 0) first := .listView 0 (.list ⟨1⟩)
  have hsecond : ElementWrite ⟨0⟩ (some 1) second :=
    .cache rfl ⟨some 1⟩ none history (.char (.ofNat 1)) (.string "x")
  have hrefused : ElementWrite ⟨1⟩ (some 0) refused :=
    .cache rfl ⟨some 1⟩ none history (.int32 0) (.array ⟨0⟩)
  have hindices : (⟨0⟩ : StorageId) = ⟨0⟩ → ∀ i ∈ some (0 : Int64), i ∉ some (1 : Int64) := by
    simp
  have hstorages : (⟨0⟩ : StorageId) = ⟨1⟩ → ∀ i ∈ some (0 : Int64), i ∉ some (0 : Int64) := by
    simp
  obtain ⟨hold, hnew, hheap⟩ := writes_to_different_slots_commute hfirst hsecond hindices h
  obtain ⟨_, hfault, _⟩ := writes_to_different_slots_commute hfirst hrefused hstorages h
  have hread : (first h).1 = .ok (.array ⟨1⟩) := by rfl
  have hwrote : (second h).1 = .ok .nothing := by rfl
  have hafter : (second (first h).2).2 = after := by rfl
  have hfailed : (refused h).1 = .error (.type (.cannotCast (.array .any) .int64)) := by rfl
  exact ⟨hfirst, hsecond, hrefused, hread, hnew.trans hwrote, hafter, hold.symm.trans hread,
    hheap.symm.trans hafter, hfailed, hfault.trans hfailed⟩

end LateBinding

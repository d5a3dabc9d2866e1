import LateBinding.Proofs.DynamicCalls

/-!
# Writes of elements

A call that writes an element of an array changes one slot of one storage and nothing else of the
heap, whatever aliases the storage has.  Every way of reading the array agrees on what its elements
are, so each sees the new value at that slot and what it saw before at any other.  Calls that do not
write add to the heap at most.
-/

namespace LateBinding

namespace Heap

variable {h after : Heap} {s : StorageId} {i : Int64} {w : Value}

/-- `after` is `h` but for one slot of one storage, which holds `w`. -/
structure WritesSlot (h after : Heap) (s : StorageId) (i : Int64) (w : Value) : Prop where
  range : 0 ≤ i.toInt ∧ i.toInt < (h.items s).length
  elem_eq : (after.storage s).elem = (h.storage s).elem
  items_eq : after.items s = (h.items s).set i.toInt.toNat w
  storage_eq : ∀ t, t ≠ s → after.storage t = h.storage t
  names_eq : after.names = h.names
  cursors_eq : after.cursors = h.cursors

theorem writesSlot_of_setElement (hadmits : (h.storage s).elem.admits w = true)
    (hwrite : h.setElement (h.storage s).elem s i w = .ok after) : h.WritesSlot after s i w := by
  have hs := lt_size_of_setElement hwrite
  rw [setElement_of_admits rfl i hadmits] at hwrite
  cases hposition : positionOf i (h.storage s).items.length with
  | error fault =>
      rw [hposition] at hwrite
      contradiction
  | ok position =>
      rw [hposition] at hwrite
      cases hwrite
      obtain ⟨hrange, hvalue⟩ := positionOf_eq_ok hposition
      have hcontent := storage_write_self
        ((h.storage s).set position w hadmits) hs
      constructor
      case range => exact hrange
      case elem_eq => rw [hcontent, Storage.elem_set]
      case items_eq => rw [items, hcontent, Storage.items_set, hvalue, items]
      case storage_eq => exact fun t hne => storage_write_of_ne _ hne.symm
      case names_eq => simp [names, write]
      case cursors_eq => rfl

theorem cast_of_widen {v : Value} {wanted : Kind} (hwiden : h.widen v wanted = .ok w) :
    h.cast v wanted = .ok w := by
  have hsome := v.isSome_widened? wanted
  by_cases hkind : v.kind = wanted
  · have hsame : v.kind.widensTo wanted = false := by
      rw [hkind]
      cases wanted <;> rfl
    rw [hsame, Option.isSome_eq_false_iff, Option.isNone_iff_eq_none] at hsome
    rw [widen, hsome] at hwiden
    simpa [cast, hkind] using hwiden
  · cases hwidened : v.widened? wanted with
    | none =>
        rw [widen, hwidened] at hwiden
        simp [hkind] at hwiden
    | some widened =>
        rw [hwidened] at hsome
        rw [h.cast_of_widensTo hsome.symm, hwiden]

theorem WritesSlot.listElement_eq (hwrite : h.WritesSlot after s i w) (j : Int64) :
    after.listElement s j = if j = i then .ok w else h.listElement s j := by
  have hlength : (after.items s).length = (h.items s).length := by
    rw [hwrite.items_eq, List.length_set]
  by_cases hrange : 0 ≤ j.toInt ∧ j.toInt < (h.items s).length
  · have hin : j.toInt.toNat < (h.items s).length := by omega
    by_cases hsame : j = i
    · subst hsame
      rw [if_pos rfl]
      apply listElement_of_getElem? hrange.1
      rw [hwrite.items_eq, List.getElem?_set_self hin]
    · have hother : i.toInt.toNat ≠ j.toInt.toNat := by
        intro heq
        have hpositive := hwrite.range.1
        exact hsame (Int64.toInt_inj.1 (by omega))
      have hfound : (h.items s)[j.toInt.toNat]? = some (h.items s)[j.toInt.toNat] :=
        List.getElem?_eq_getElem hin
      rw [if_neg hsame, listElement_of_getElem? hrange.1 hfound]
      apply listElement_of_getElem? hrange.1
      rw [hwrite.items_eq, List.getElem?_set_ne hother, hfound]
  · have hother : j ≠ i := by
      rintro rfl
      exact hrange hwrite.range
    rw [if_neg hother, listElement_eq_error_iff.2 ⟨rfl, hrange⟩,
      listElement_eq_error_iff.2 ⟨rfl, hlength ▸ hrange⟩, hlength]

end Heap

/-! ## Reading an element -/

/-- The ways of reading the element of an array of one element type at an index: from the array,
through a list view, through a cache of a dynamic site in any state, and through a target of such a
site. -/
inductive ElementRead (elem : ElementType) (s : StorageId) (j : Int64) :
    (Heap → Except CallFault Value) → Prop where
  | array : ElementRead elem s j (·.elementAt elem s j)
  | listView : ElementRead elem s j (·.listElement s j)
  | cache {site : CallSite} (hname : site.name = "get") (hsignature : site.signature = .dynamic 2)
      (limit : RelinkLimit) (objects : Option Resolver) (history : List Call) {index : Value}
      (hindex : index.index? = some j) :
      ElementRead elem s j fun h =>
        (((InlineCache.fresh site limit objects).after history).call [.array s, index] h).answer
  | target {site : CallSite} (hname : site.name = "get") (hsignature : site.signature = .dynamic 2)
      {args : List Value} {target : Target}
      (htarget : Resolver.arrays ⟨site, .array elem, args⟩ = .ok target) {index : Value}
      (hindex : index.index? = some j) :
      ElementRead elem s j fun h => (target.call [.array s, index] h).1

theorem ElementRead.eq_listElement {elem : ElementType} {s : StorageId} {j : Int64}
    {read : Heap → Except CallFault Value} (hread : ElementRead elem s j read) {h : Heap}
    (helem : (h.storage s).elem = elem) : read h = h.listElement s j := by
  subst helem
  cases hread with
  | array | listView => rfl
  | cache hname hsignature limit objects history hindex =>
      rename_i site index
      have hsite : site.CallsDynamically .get :=
        ⟨by simp [hname, ArrayOperation.names], hsignature, by simp [ArrayOperation.owner?]⟩
      have hcount : [index].length = ArrayOperation.get.arity := rfl
      have houtcome :=
        InlineCache.outcome_after_of_dynamic hsite limit objects history s hcount h
      rw [ArrayOperation.callDynamic_get hindex] at houtcome
      exact congrArg Prod.fst houtcome
  | target hname hsignature htarget hindex =>
      rename_i site args target index
      have hget : (site.name, ArrayOperation.get) ∈ ArrayOperation.names := by
        simp [hname, ArrayOperation.names]
      have hadapt := Resolver.adapt_of_arrays hget htarget
      rw [hsignature] at hadapt
      have hcall := ArrayOperation.call_eq_callDynamic hadapt [index]
      rw [ArrayOperation.callDynamic_get hindex] at hcall
      exact congrArg Prod.fst hcall

/-! ## Writing an element -/

namespace Coercion.Passes

variable {h : Heap} {v w : Value}

theorem eq_of_array {s : StorageId} (hpasses : Passes h .array (.array s) w) : w = .array s := by
  obtain ⟨source, coercion, hcoercion, happly⟩ := hpasses
  cases (apply_array hcoercion h s).symm.trans happly
  rfl

theorem index?_eq {i : Int64} (hpasses : Passes h .int64 v w) (hindex : h.asIndex w = .ok i) :
    v.index? = some i := by
  obtain ⟨source, coercion, hcoercion, happly⟩ := hpasses
  have hbetween := (between_of_forParameter? hcoercion).2
  cases hbetween with
  | identity => cases happly; cases v <;> cases hindex <;> rfl
  | cast => cases v <;> cases happly <;> cases hindex <;> rfl
  | widen => cases v <;> cases happly <;> cases hindex <;> rfl

theorem cast_eq {wanted : Kind} (hpasses : Passes h wanted v w) (hfits : w.Fits wanted) :
    h.cast v wanted = .ok w := by
  obtain ⟨source, coercion, hcoercion, happly⟩ := hpasses
  obtain ⟨hvoid, hbetween⟩ := between_of_forParameter? hcoercion
  cases hbetween with
  -- handed on without a check; what fits, a cast would have handed on as well
  | identity =>
      cases happly
      rw [← h.castResult_of_ne_void v hvoid, h.castResult_of_fits hfits]
  | forget =>
      cases happly
      rw [← h.castResult_of_ne_void v hvoid, h.castResult_of_fits hfits]
  | discard => contradiction
  | supplyNothing => cases hcoercion
  | cast => exact happly
  | widen => exact Heap.cast_of_widen happly

theorem stored?_eq {elem : ElementType} (hpasses : Passes h (.ofElement elem) v w)
    (hadmits : elem.admits w = true) : v.stored? elem = some w := by
  have hcast := hpasses.cast_eq (Value.fits_ofElement hadmits)
  rw [Heap.cast_ofElement] at hcast
  cases hstored : v.stored? elem with
  | none =>
      rw [hstored] at hcast
      contradiction
  | some stored =>
      rw [hstored] at hcast
      cases hcast
      rfl

end Coercion.Passes

/-- A write that succeeds, through whatever site, puts the value into the storage that a dynamic
site would put there. -/
theorem ArrayOperation.setElement_of_call {h : Heap} {s : StorageId} {site : Signature}
    {receiver : ValueType} {target : Target}
    (hadapt : (set.primitive (h.storage s).elem).adapt site receiver = .ok target)
    {rest : List Value} {v : Value} {after : Heap}
    (hcall : target.call (.array s :: rest) h = (.ok v, after)) :
    ∃ index given i w, rest = [index, given] ∧ index.index? = some i ∧
      given.stored? (h.storage s).elem = some w ∧ (h.storage s).elem.admits w = true ∧
      h.setElement (h.storage s).elem s i w = .ok after := by
  obtain ⟨adapter, hadapter, rfl⟩ := Operation.adapt_eq_ok_iff.1 hadapt
  obtain ⟨passed, before, hpass, hrest⟩ := Action.exists_of_bind_eq_ok hcall
  obtain ⟨hpassed, hbefore⟩ := Prod.mk.inj hpass
  subst hbefore
  obtain ⟨result, written, hrun, hresult⟩ := Action.exists_of_bind_eq_ok hrest
  -- the coercion of the result looks at the written heap and leaves it alone
  have hwritten : written = after := (Prod.mk.inj hresult).2
  obtain ⟨hcount, hpasses⟩ := Adapter.forall₂_passes hadapter hpassed
  obtain ⟨index, given, rfl⟩ := List.length_eq_two.1 (Nat.succ.inj hcount)
  rcases hpasses with _ | ⟨hreceiver, _ | ⟨hindex, _ | ⟨hgiven, ⟨⟩⟩⟩⟩
  cases hreceiver.eq_of_array
  obtain ⟨i, hposition, hwrite⟩ := Primitive.exists_setElement_of_elementSet hrun
  rw [hwritten] at hwrite
  have hadmits := Heap.admits_of_setElement rfl hwrite
  exact ⟨index, given, i, _, rfl, hindex.index?_eq hposition, hgiven.stored?_eq hadmits, hadmits,
    hwrite⟩

theorem InlineCache.Sourced.writesSlot_of_set {cache : InlineCache} (hsourced : cache.Sourced)
    (hname : cache.site.name = "set") {s : StorageId} {rest : List Value} {h : Heap} {v : Value}
    (hanswer : (cache.call (.array s :: rest) h).answer = .ok v) :
    ∃ index given i w, rest = [index, given] ∧ index.index? = some i ∧
      given.stored? (h.storage s).elem = some w ∧
      h.WritesSlot (cache.call (.array s :: rest) h).heap s i w := by
  obtain ⟨operation, target, hnamed, hadapt, hran⟩ := hsourced.exists_target_of_answer hanswer
  have hset : operation = .set :=
    ArrayOperation.eq_of_mem_names hnamed (by simp [hname, ArrayOperation.names])
  subst hset
  obtain ⟨index, given, i, w, hrest, hindex, hstored, hadmits, hwrite⟩ :=
    ArrayOperation.setElement_of_call hadapt hran
  exact ⟨index, given, i, w, hrest, hindex, hstored, Heap.writesSlot_of_setElement hadmits hwrite⟩

/-- After any history, a call on an array that writes an element changes one slot, which holds the
value as the storage takes it, and every way of reading the array then gives this value at the index
and what it gave before at any other.  A call of another operation at most adds to the heap, and a
call that fails leaves it as it was. -/
theorem InlineCache.heap_after_array_call (site : CallSite) (limit : RelinkLimit)
    (objects : Option Resolver) (history : List Call) (s : StorageId) (rest : List Value)
    (h : Heap) :
    let elem := (h.storage s).elem
    let reply := ((fresh site limit objects).after history).call (.array s :: rest) h
    (site.name = "set" → ∀ v, reply.answer = .ok v →
      ∃ index given i w, rest = [index, given] ∧ index.index? = some i ∧
        given.stored? elem = some w ∧ (elem = .any → w = given) ∧
        h.WritesSlot reply.heap s i w ∧
        ∀ j read, ElementRead elem s j read →
          read reply.heap = if j = i then .ok w else read h) ∧
    (site.name ≠ "set" → h.Extends reply.heap) ∧
    ∀ fault, reply.answer = .error fault → reply.heap = h := by
  intro elem reply
  have hsourced := sourced_after_fresh site limit objects history
  have hsite := ((fresh site limit objects).sameSettings_after history).site_eq
  refine ⟨?_, ?_, ?_⟩
  · intro hname v hanswer
    obtain ⟨index, given, i, w, hrest, hindex, hstored, hwrite⟩ :=
      hsourced.writesSlot_of_set ((congrArg CallSite.name hsite).trans hname) hanswer
    refine ⟨index, given, i, w, hrest, hindex, hstored, ?_, hwrite, ?_⟩
    · intro (hany : (h.storage s).elem = .any)
      rw [hany] at hstored
      exact (Option.some.inj hstored).symm
    · intro j read hread
      rw [hread.eq_listElement rfl, hread.eq_listElement hwrite.elem_eq]
      exact hwrite.listElement_eq j
  · intro hname
    exact hsourced.extends_of_name_ne_set s rest h (hsite ▸ hname)
  · intro fault hfailed
    exact hsourced.heap_of_failed s rest h hfailed

/-- An array of 64-bit integers, which an array of any values holds twice, is written through a site
that knows the kinds of its arguments and answers with no value; the site was linked to the array of
any values before.  The short index and the character are widened, and the list view sees it. -/
theorem InlineCache.heap_after_widened_write :
    let site : CallSite := ⟨"set", ⟨[.array, .int32, .char], .void⟩, .standard⟩
    let reader := CallSite.dynamic "get" 1
    let h := (Heap.empty.allocate ⟨.int64, [.int64 1, .int64 2], by decide⟩).allocate
      ⟨.any, [.array ⟨0⟩, .list ⟨0⟩], by decide⟩
    let history : List Call := [⟨[.array ⟨1⟩, .int32 1, .char 'x'], h⟩]
    let reply := ((fresh site ⟨some 1⟩ none).after history).call
      [.array ⟨0⟩, .int32 1, .char 'A'] h
    let read := fun heap =>
      (((fresh reader ⟨some 0⟩ none).after []).call [.array ⟨0⟩, .char (.ofNat 1)] heap).answer
    site.name = "set" ∧ reply.answer = .ok .nothing ∧ h.WritesSlot reply.heap ⟨0⟩ 1 (.int64 65) ∧
      reply.heap.listElement ⟨0⟩ 1 = .ok (.int64 65) ∧ read reply.heap = .ok (.int64 65) ∧
      reply.heap.listElement ⟨0⟩ 0 = h.listElement ⟨0⟩ 0 := by
  intro site reader h history reply read
  have hanswer : reply.answer = .ok .nothing := by rfl
  obtain ⟨index, given, i, w, hrest, hindex, hstored, _, hwrite, hreads⟩ :=
    (heap_after_array_call site ⟨some 1⟩ none history ⟨0⟩ [.int32 1, .char 'A'] h).1 rfl _ hanswer
  cases hrest
  cases hindex
  cases hstored
  have hview := hreads 1 _ .listView
  have hother := hreads 0 _ .listView
  have hread := hreads 1 read (.cache rfl rfl ⟨some 0⟩ none [] rfl)
  exact ⟨rfl, hanswer, hwrite, hview, hread, hother⟩

end LateBinding

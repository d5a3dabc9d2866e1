import LateBinding.Proofs.IteratorRuns
import LateBinding.Proofs.Tails

/-!
# Ways of reading an array

The elements of an array are read by position, by the accessor of the element type, through a list
view, by a call of a site, in a copy of all elements, by an iterator, and as the first element of a
tail.  All of these give the element of one slot, or agree that there is none.  What can be asked
about the number of elements follows the same list.
-/

namespace LateBinding

namespace ReceiverCall

variable {call : Value → Action Value} {s : StorageId} {h : Heap}

theorem iterator_eq (hcall : ReceiverCall .iterator call) (s : StorageId) (h : Heap) :
    call (.array s) h = (.ok (.iterator h.freshCursor), h.openCursor s) :=
  hcall.eq_primitive rfl rfl .any s h

theorem isEmpty_eq (hcall : ReceiverCall .isEmpty call) (s : StorageId) (h : Heap) :
    call (.array s) h = (.ok (.bool (h.storage s).isEmpty), h) :=
  hcall.eq_primitive rfl rfl .any s h

theorem length_eq (hcall : ReceiverCall .length call) (s : StorageId) (h : Heap) :
    call (.array s) h =
      (if (h.items s).length ≤ Int64.maxValue.toInt then
        .ok (.int64 (.ofNat (h.items s).length))
      else .error (.overflow (.notInt64 (h.items s).length)), h) :=
  hcall.eq_primitive rfl rfl .any s h

theorem head_fails_iff (hcall : ReceiverCall .head call) :
    (∃ fault, (call (.array s) h).1 = .error fault) ↔ (h.items s).length = 0 := by
  rw [hcall.head_eq]
  cases h.items s with
  | nil =>
      constructor
      · exact fun _ => rfl
      · exact fun _ => ⟨_, rfl⟩
  | cons v rest =>
      constructor
      · rintro ⟨fault, hfailed⟩
        cases hfailed
      · intro hlength
        cases hlength

end ReceiverCall

namespace Heap

/-- In whatever way slot `i` of a storage is read, the value there is `v`. -/
structure ReadsAs (h : Heap) (s : StorageId) (i : Int64) (v : Value) : Prop where
  slot : (h.storage s).get? i.toInt.toNat = some v
  read : ∀ read, ElementRead (h.storage s).elem s i read → read h = .ok v
  copied : ∀ holder : Value, holder.storage? = some s →
    (h.elements? holder).bind (·[i.toInt.toNat]?) = some v
  iterated : ∀ call, ReceiverCall .iterator call → ∃ c start,
    call (.array s) h = (.ok (.iterator c), start) ∧
      (start.takeNext c (i.toInt.toNat + 1)).1[i.toInt.toNat]? = some v
  afterTails : ∀ calls first, (∀ call ∈ calls, ReceiverCall .tail call) →
    calls.length = i.toInt.toNat → ReceiverCall .head first → ∃ t after,
      Action.inTurn calls (.array s) h = (.ok (.array t), after) ∧
        first (.array t) after = (.ok v, after)

/-- In whatever way the elements of a storage are counted, there are `count`.  Calls give the number
as far as a 64-bit integer reaches. -/
structure CountsAs (h : Heap) (s : StorageId) (count : Nat) : Prop where
  slots : (h.storage s).length = count
  copied : ∀ holder : Value, holder.storage? = some s →
    (h.elements? holder).map List.length = some count
  called : count ≤ Int64.maxValue.toInt → ∀ call, ReceiverCall .length call → ∃ n,
    call (.array s) h = (.ok (.int64 n), h) ∧ n.toInt = count
  drained : ∀ call, ReceiverCall .iterator call → ∃ c start,
    call (.array s) h = (.ok (.iterator c), start) ∧ (start.drain c).1.length = count ∧
      (start.drain c).2.next? c = none
  isEmpty : (h.storage s).isEmpty = true ↔ count = 0
  isEmptyCalled : ∀ call, ReceiverCall .isEmpty call →
    call (.array s) h = (.ok (.bool (count = 0)), h)
  headFails : ∀ call, ReceiverCall .head call →
    ((∃ fault, (call (.array s) h).1 = .error fault) ↔ count = 0)

variable {h : Heap} {s : StorageId} {i : Int64}

theorem exists_readsAs (hrange : 0 ≤ i.toInt ∧ i.toInt < (h.items s).length) :
    ∃ v, h.ReadsAs s i v := by
  obtain ⟨v, hfound, hlist⟩ := exists_listElement hrange
  refine ⟨v, ?_⟩
  constructor
  case slot => exact hfound
  case read =>
    intro read hread
    rw [hread.eq_listElement rfl, hlist]
  case copied =>
    intro holder hstorage
    rw [elements?, hstorage]
    exact hfound
  case iterated =>
    intro call hcall
    refine ⟨h.freshCursor, h.openCursor s, hcall.iterator_eq s h, ?_⟩
    obtain ⟨hgiven, _⟩ := takeNext_of_standsAt (h.standsAt_openCursor s) (i.toInt.toNat + 1)
    rw [hgiven, List.drop_zero, List.getElem?_take_of_lt (Nat.lt_succ_self _)]
    exact hfound
  case afterTails =>
    intro calls first hcalls hcount hfirst
    -- an array with an element has a name, so no tail can be given the same
    have hs := mem_names_of_mem_items (List.mem_of_getElem? hfound)
    obtain ⟨t, after, hturn, hrest⟩ := (HoldsRest.self hs).tails_in_turn hcalls
    obtain ⟨hin, hv⟩ := List.getElem?_eq_some_iff.1 hfound
    have hitems : after.items t = v :: (h.items s).drop (i.toInt.toNat + 1) := by
      rw [hrest.items_eq, hcount, Nat.zero_add, List.drop_eq_getElem_cons hin, hv]
    exact ⟨t, after, hturn, hfirst.head_of_cons hitems⟩

theorem countsAs_length (h : Heap) (s : StorageId) : h.CountsAs s (h.items s).length := by
  have hempty : (h.storage s).isEmpty = true ↔ (h.items s).length = 0 := by
    rw [Storage.isEmpty, List.isEmpty_iff_length_eq_zero, items]
  constructor
  case slots => rfl
  case copied =>
    intro holder hstorage
    rw [elements?, hstorage]
    rfl
  case called =>
    intro hlength call hcall
    refine ⟨.ofNat (h.items s).length, ?_, ?_⟩
    · rw [hcall.length_eq, if_pos hlength]
    · have hmax : Int64.maxValue.toInt = 2 ^ 63 - 1 := rfl
      exact Int64.toInt_ofNat_of_lt (by omega)
  case drained =>
    intro call hcall
    obtain ⟨hdrained, hend⟩ := h.drain_fresh s
    refine ⟨h.freshCursor, h.openCursor s, hcall.iterator_eq s h, ?_, hend⟩
    rw [hdrained]
  case isEmpty => exact hempty
  case isEmptyCalled =>
    intro call hcall
    have hanswer : (h.storage s).isEmpty = decide ((h.items s).length = 0) :=
      Bool.eq_iff_iff.2 (hempty.trans decide_eq_true_iff.symm)
    rw [hcall.isEmpty_eq, hanswer]
  case headFails => exact fun call hcall => hcall.head_fails_iff

/-- The ways of reading an array agree: on the element of a slot, on an index that is out of range,
and on the number of elements.  Only the accessor of another element type gives nothing. -/
theorem read_paths_agree (h : Heap) (s : StorageId) (i : Int64) :
    let elem := (h.storage s).elem
    let count := (h.items s).length
    let inRange := 0 ≤ i.toInt ∧ i.toInt < count
    (inRange → ∃ v, h.ReadsAs s i v) ∧
    (¬inRange → (0 ≤ i.toInt → (h.storage s).get? i.toInt.toNat = none) ∧
      ∀ read, ElementRead elem s i read → read h = .error (.bounds i count)) ∧
    h.CountsAs s count ∧
    ∀ other, other ≠ elem →
      h.elementAt other s i = .error (.type (.wrongElementAccess other elem)) := by
  intro elem count inRange
  refine ⟨exists_readsAs, ?_, h.countsAs_length s, ?_⟩
  · intro hrange
    constructor
    · intro hpositive
      have hout : count ≤ i.toInt.toNat := by omega
      exact List.getElem?_eq_none hout
    · intro read hread
      rw [hread.eq_listElement rfl, listElement_eq_error_iff]
      exact ⟨rfl, hrange⟩
  · intro other hne
    exact elementAt_of_elem_ne hne.symm i

/-- The last of three strings is read by a call with a character for its index and as the head of the
second tail.  The index after it and the one before the first are out of range, and an accessor of
any values is refused. -/
theorem read_paths_of_three_strings :
    let h : Heap := ⟨#[⟨.string, [.string "a", .string "b", .string "c"], by decide⟩], #[]⟩
    let s : StorageId := ⟨0⟩
    let history : List Call := [⟨[.array s, .int64 0], h⟩]
    let getter := (InlineCache.fresh (.dynamic "get" 1) ⟨none⟩ none).after history
    let shortener := (InlineCache.fresh (.dynamic "tail" 0) ⟨some 0⟩ none).after []
    let get := fun index heap => (getter.call [.array s, index] heap).answer
    let tail : Value → Action Value := fun v heap => (shortener.call [v] heap).outcome
    let first : Value → Action Value := fun v => Primitive.head [v]
    h.ReadsAs s 2 (.string "c") ∧ get (.char (.ofNat 2)) h = .ok (.string "c") ∧
      (∃ t after, Action.inTurn [tail, tail] (.array s) h = (.ok (.array t), after) ∧
        first (.array t) after = (.ok (.string "c"), after)) ∧
      h.listElement s 3 = .error (.bounds 3 3) ∧ get (.int32 (-1)) h = .error (.bounds (-1) 3) ∧
      h.CountsAs s 3 ∧
      h.elementAt .any s 2 = .error (.type (.wrongElementAccess .any .string)) := by
  intro h s history getter shortener get tail first
  have hname : ("tail", ArrayOperation.tail) ∈ ArrayOperation.names := by decide
  have hsite := ArrayOperation.callsDynamically_of_mem_names hname
  have htail : ReceiverCall .tail tail := .cache hsite ⟨some 0⟩ none []
  have htails : ∀ call ∈ [tail, tail], ReceiverCall .tail call := by
    intro call hcall
    rw [List.eq_of_mem_replicate (n := 2) hcall]
    exact htail
  have hfirst : ReceiverCall .head first := .primitive .any
  have hget : ∀ index i, index.index? = some i → ElementRead .string s i (get index) :=
    fun _ _ hindex => .cache rfl rfl ⟨none⟩ none history hindex
  obtain ⟨hinside, -, hcount, hother⟩ := read_paths_agree h s 2
  obtain ⟨-, hbehind, -, -⟩ := read_paths_agree h s 3
  obtain ⟨-, hbefore, -, -⟩ := read_paths_agree h s (-1)
  obtain ⟨v, hv⟩ := hinside (by decide)
  cases hv.slot
  exact ⟨hv, hv.read _ (hget _ _ rfl), hv.afterTails _ first htails rfl hfirst,
    (hbehind (by decide)).2 _ .listView, (hbefore (by decide)).2 _ (hget _ _ rfl), hcount,
    hother .any (by decide)⟩

end Heap

end LateBinding

import LateBinding.Proofs.ElementWrites

/-!
# Ways of writing an element

An element of an array is written by the accessor of its element type, through a list view, or by a
call through a dynamic site.  The accessor checks the value before the index, the view the index
before the value, and the call has cast the value before the accessor sees either.  Where the
storage admits the value as it is, the three have the same outcome; where it does not, only the call
can still succeed.  A write that fails has changed nothing, since every check that can fail stands
before the one change of the heap.  Of an array that is written into its own storage this is meant
only where the write returns, as `Heap.setElement` says.
-/

namespace LateBinding

namespace Action

/-- Writes an element in place by the accessor of an element type. -/
def writeElement (elem : ElementType) (s : StorageId) (i : Int64) (v : Value) : Action Unit :=
  .update fun h => h.setElement elem s i v

/-- Writes an element in place through a list view, and gives the element that was there. -/
def writeListElement (s : StorageId) (i : Int64) (v : Value) : Action Value := do
  let elem ← .query fun h => .ok (h.storage s).elem
  let previous ← .query fun h => h.elementAt elem s i
  writeElement elem s i v
  return previous

variable {h : Heap} {s : StorageId} {i : Int64} {v : Value}

theorem writeElement_keepsOnFailure (elem : ElementType) (s : StorageId) (i : Int64) (v : Value) :
    (writeElement elem s i v).KeepsOnFailure :=
  keepsOnFailure_update _

theorem writeListElement_keepsOnFailure (s : StorageId) (i : Int64) (v : Value) :
    (writeListElement s i v).KeepsOnFailure := by
  apply keepsOnFailure_bind (reads_query _)
  intro elem
  apply keepsOnFailure_bind (reads_query _)
  intro previous
  -- nothing that can fail follows the write
  apply keepsOnFailure_bind_of_ok (writeElement_keepsOnFailure elem s i v)
  exact fun _ _ mid _ => ⟨previous, mid, rfl⟩

theorem writeElement_of_error {elem : ElementType} {fault : CallFault}
    (hwrite : h.setElement elem s i v = .error fault) :
    writeElement elem s i v h = (.error fault, h) := by
  simp only [writeElement, update, hwrite]

theorem writeElement_of_ok {elem : ElementType} {after : Heap}
    (hwrite : h.setElement elem s i v = .ok after) :
    writeElement elem s i v h = (.ok (), after) := by
  simp only [writeElement, update, hwrite]

theorem writeListElement_eq (h : Heap) (s : StorageId) (i : Int64) (v : Value) :
    writeListElement s i v h =
      match h.setListElement s i v with
      | .ok (previous, after) => (.ok previous, after)
      | .error fault => (.error fault, h) := by
  rw [Heap.setListElement_eq, Heap.listElement]
  simp only [writeListElement, bind_apply, query]
  cases h.elementAt (h.storage s).elem s i with
  | error fault => rfl
  | ok previous =>
      cases hwrite : h.setElement (h.storage s).elem s i v with
      | error fault =>
          simp only [writeElement_of_error hwrite]
          rfl
      | ok after =>
          simp only [writeElement_of_ok hwrite]
          rfl

end Action

variable {h : Heap} {s : StorageId} {i : Int64} {v w : Value}

/-! ## How each way ends -/

namespace Heap

theorem exists_writesSlot (hadmits : (h.storage s).elem.admits w = true)
    (hrange : 0 ≤ i.toInt ∧ i.toInt < (h.items s).length) :
    ∃ after, h.setElement (h.storage s).elem s i w = .ok after ∧ h.WritesSlot after s i w := by
  cases hwrite : h.setElement (h.storage s).elem s i w with
  | error fault => exact absurd hrange ((setElement_eq_error_iff rfl hadmits).1 hwrite).2
  | ok after => exact ⟨after, rfl, writesSlot_of_setElement hadmits hwrite⟩

theorem exists_listElement (hrange : 0 ≤ i.toInt ∧ i.toInt < (h.items s).length) :
    ∃ previous, (h.items s)[i.toInt.toNat]? = some previous ∧ h.listElement s i = .ok previous := by
  have hin : i.toInt.toNat < (h.items s).length := by omega
  have hfound := List.getElem?_eq_getElem hin
  exact ⟨_, hfound, listElement_of_getElem? hrange.1 hfound⟩

end Heap

namespace Action

/-- Through a list view an index out of range is reported, whatever is to be written. -/
theorem writeListElement_of_out_of_range
    (hrange : ¬(0 ≤ i.toInt ∧ i.toInt < (h.items s).length)) (v : Value) :
    writeListElement s i v h = (.error (.bounds i (h.items s).length), h) := by
  rw [writeListElement_eq, Heap.setListElement_eq, Heap.listElement_eq_error_iff.2 ⟨rfl, hrange⟩]
  rfl

theorem writeListElement_of_ok {after : Heap}
    (hrange : 0 ≤ i.toInt ∧ i.toInt < (h.items s).length)
    (hwrite : h.setElement (h.storage s).elem s i v = .ok after) :
    ∃ previous, (h.items s)[i.toInt.toNat]? = some previous ∧
      writeListElement s i v h = (.ok previous, after) := by
  obtain ⟨previous, hfound, hread⟩ := Heap.exists_listElement hrange
  refine ⟨previous, hfound, ?_⟩
  rw [writeListElement_eq, Heap.setListElement_eq, hread, hwrite]
  rfl

theorem writeListElement_of_not_admits
    (hrange : 0 ≤ i.toInt ∧ i.toInt < (h.items s).length)
    (hrefuses : (h.storage s).elem.admits v ≠ true) :
    writeListElement s i v h = (.error (h.storeFault (h.storage s).elem v), h) := by
  obtain ⟨previous, _, hread⟩ := Heap.exists_listElement hrange
  rw [writeListElement_eq, Heap.setListElement_eq, hread,
    Heap.setElement_of_not_admits rfl i hrefuses]
  rfl

end Action

namespace Value

variable {elem : ElementType}

theorem stored?_of_admits (hadmits : elem.admits v = true) : v.stored? elem = some v :=
  if_pos hadmits

theorem stored?_of_not_admits (hrefuses : elem.admits v = false) :
    v.stored? elem = v.widened? (.ofElement elem) := by
  simp only [stored?, hrefuses, Bool.false_eq_true, if_false]

end Value

namespace ArrayOperation

variable {index : Value}

theorem callDynamic_set_of_ok {after : Heap} (hindex : index.index? = some i)
    (hstored : v.stored? (h.storage s).elem = some w)
    (hwrite : h.setElement (h.storage s).elem s i w = .ok after) :
    set.callDynamic s [index, v] h = (.ok .nothing, after) := by
  rw [callDynamic_set hindex hstored, hwrite]

theorem callDynamic_set_of_out_of_range (hindex : index.index? = some i)
    (hstored : v.stored? (h.storage s).elem = some w)
    (hrange : ¬(0 ≤ i.toInt ∧ i.toInt < (h.items s).length)) :
    set.callDynamic s [index, v] h = (.error (.bounds i (h.items s).length), h) := by
  have hadmits := Value.admits_of_stored? hstored
  rw [callDynamic_set hindex hstored, (Heap.setElement_eq_error_iff rfl hadmits).2 ⟨rfl, hrange⟩]

theorem exists_writesSlot_of_callDynamic_set {r : Value} {after : Heap}
    (hindex : index.index? = some i) (hcall : set.callDynamic s [index, v] h = (.ok r, after)) :
    ∃ w, v.stored? (h.storage s).elem = some w ∧ h.WritesSlot after s i w := by
  cases hstored : v.stored? (h.storage s).elem with
  | none => cases (callDynamic_set_of_unfit hindex hstored).symm.trans hcall
  | some w =>
      refine ⟨w, rfl, ?_⟩
      by_cases hrange : 0 ≤ i.toInt ∧ i.toInt < (h.items s).length
      · obtain ⟨written, hwrite, hslot⟩ :=
          Heap.exists_writesSlot (Value.admits_of_stored? hstored) hrange
        cases (callDynamic_set_of_ok hindex hstored hwrite).symm.trans hcall
        exact hslot
      · cases (callDynamic_set_of_out_of_range hindex hstored hrange).symm.trans hcall

theorem callDynamic_set_succeeds_iff (hindex : index.index? = some i) :
    (∃ r after, set.callDynamic s [index, v] h = (.ok r, after)) ↔
      (v.stored? (h.storage s).elem).isSome = true ∧
        (0 ≤ i.toInt ∧ i.toInt < (h.items s).length) := by
  constructor
  · rintro ⟨r, after, hcall⟩
    obtain ⟨w, hstored, hslot⟩ := exists_writesSlot_of_callDynamic_set hindex hcall
    exact ⟨Option.isSome_of_eq_some hstored, hslot.range⟩
  · rintro ⟨hsome, hrange⟩
    obtain ⟨w, hstored⟩ := Option.isSome_iff_exists.1 hsome
    obtain ⟨after, hwrite, _⟩ :=
      Heap.exists_writesSlot (Value.admits_of_stored? hstored) hrange
    exact ⟨_, _, callDynamic_set_of_ok hindex hstored hwrite⟩

end ArrayOperation

/-! ## The ways compared -/

theorem Heap.same_write_of_range (hadmits : (h.storage s).elem.admits v = true)
    (hrange : 0 ≤ i.toInt ∧ i.toInt < (h.items s).length) :
    ∃ previous after, h.WritesSlot after s i v ∧ (h.items s)[i.toInt.toNat]? = some previous ∧
      Action.writeElement (h.storage s).elem s i v h = (.ok (), after) ∧
      Action.writeListElement s i v h = (.ok previous, after) ∧
      ArrayOperation.set.callDynamic s [.int64 i, v] h = (.ok .nothing, after) := by
  obtain ⟨after, hwrite, hslot⟩ := exists_writesSlot hadmits hrange
  obtain ⟨previous, hfound, hview⟩ := Action.writeListElement_of_ok hrange hwrite
  have hindex : (Value.int64 i).index? = some i := rfl
  have hstored := Value.stored?_of_admits hadmits
  have hcall := ArrayOperation.callDynamic_set_of_ok hindex hstored hwrite
  exact ⟨previous, after, hslot, hfound, Action.writeElement_of_ok hwrite, hview, hcall⟩

theorem Heap.same_refusal_of_out_of_range (hadmits : (h.storage s).elem.admits v = true)
    (hrange : ¬(0 ≤ i.toInt ∧ i.toInt < (h.items s).length)) :
    let refused : CallFault := .bounds i (h.items s).length
    Action.writeElement (h.storage s).elem s i v h = (.error refused, h) ∧
      Action.writeListElement s i v h = (.error refused, h) ∧
      ArrayOperation.set.callDynamic s [.int64 i, v] h = (.error refused, h) := by
  intro refused
  have hwrite := (setElement_eq_error_iff rfl hadmits).2 ⟨rfl, hrange⟩
  have hstored := Value.stored?_of_admits hadmits
  exact ⟨Action.writeElement_of_error hwrite, Action.writeListElement_of_out_of_range hrange v,
    ArrayOperation.callDynamic_set_of_out_of_range rfl hstored hrange⟩

theorem Heap.only_call_writes (hrefuses : (h.storage s).elem.admits v = false) :
    let elem := (h.storage s).elem
    let inRange := 0 ≤ i.toInt ∧ i.toInt < (h.items s).length
    let view := Action.writeListElement s i v h
    let call := ArrayOperation.set.callDynamic s [.int64 i, v] h
    Action.writeElement elem s i v h = (.error (h.storeFault elem v), h) ∧
      (inRange → view = (.error (h.storeFault elem v), h)) ∧
      (¬inRange → view = (.error (.bounds i (h.items s).length), h)) ∧
      ((∃ r after, call = (.ok r, after)) ↔ v.kind.widensTo (.ofElement elem) = true ∧ inRange) ∧
      ∀ r after, call = (.ok r, after) →
        ∃ w, v.widened? (.ofElement elem) = some w ∧ h.WritesSlot after s i w := by
  intro elem inRange view call
  have hunfit : (h.storage s).elem.admits v ≠ true := Bool.eq_false_iff.1 hrefuses
  have hstored := Value.stored?_of_not_admits hrefuses
  refine ⟨?_, ?_, ?_, ?_, ?_⟩
  · exact Action.writeElement_of_error (setElement_of_not_admits rfl i hunfit)
  · exact fun hrange => Action.writeListElement_of_not_admits hrange hunfit
  · exact fun hrange => Action.writeListElement_of_out_of_range hrange v
  · rw [ArrayOperation.callDynamic_set_succeeds_iff rfl, hstored, v.isSome_widened?]
  · intro r after hcall
    rw [← hstored]
    exact ArrayOperation.exists_writesSlot_of_callDynamic_set rfl hcall

namespace InlineCache

theorem Sourced.call_keepsOnFailure {cache : InlineCache} (hsourced : cache.Sourced)
    (s : StorageId) (rest : List Value) :
    Action.KeepsOnFailure fun h => (cache.call (.array s :: rest) h).outcome := by
  intro h fault after hrun
  have hheap := hsourced.heap_of_failed s rest h (congrArg Prod.fst hrun)
  exact (congrArg Prod.snd hrun).symm.trans hheap

/-- The ways of writing an element have the same outcome where the storage admits the value as it
is: in range the element is replaced and the list view gives the old one, out of range the index is
reported.  A value that is not admitted is refused by the accessor and the list view, and the call
writes what it widens to, if it does and the index is in range.  An accessor of another element type
is refused.  Whatever fails leaves every heap as it was. -/
theorem write_paths_agree (h : Heap) (s : StorageId) (i : Int64) (v : Value)
    (access : AccessContext) (limit : RelinkLimit) (objects : Option Resolver)
    (history : List Call) :
    let elem := (h.storage s).elem
    let inRange := 0 ≤ i.toInt ∧ i.toInt < (h.items s).length
    let outside := CallFault.bounds i (h.items s).length
    let cache := (fresh ⟨"set", .dynamic 3, access⟩ limit objects).after history
    let accessor := fun e => Action.writeElement e s i v
    let view := Action.writeListElement s i v
    let call : Action Value := fun h => (cache.call [.array s, .int64 i, v] h).outcome
    ((∀ e, (accessor e).KeepsOnFailure) ∧ view.KeepsOnFailure ∧ call.KeepsOnFailure) ∧
    (elem = .any → elem.admits v = true) ∧
    (elem.admits v = true → inRange → ∃ previous after, h.WritesSlot after s i v ∧
      (h.items s)[i.toInt.toNat]? = some previous ∧ accessor elem h = (.ok (), after) ∧
      view h = (.ok previous, after) ∧ call h = (.ok .nothing, after)) ∧
    (elem.admits v = true → ¬inRange → accessor elem h = (.error outside, h) ∧
      view h = (.error outside, h) ∧ call h = (.error outside, h)) ∧
    (elem.admits v = false → accessor elem h = (.error (h.storeFault elem v), h) ∧
      (inRange → view h = (.error (h.storeFault elem v), h)) ∧
      (¬inRange → view h = (.error outside, h)) ∧
      ((∃ r after, call h = (.ok r, after)) ↔
        v.kind.widensTo (.ofElement elem) = true ∧ inRange) ∧
      ∀ r after, call h = (.ok r, after) →
        ∃ w, v.widened? (.ofElement elem) = some w ∧ h.WritesSlot after s i w) ∧
    ∀ e, e ≠ elem → accessor e h = (.error (.type (.wrongElementAccess e elem)), h) := by
  intro elem inRange outside cache accessor view call
  have hsite : CallSite.CallsDynamically ⟨"set", .dynamic 3, access⟩ .set :=
    ⟨by simp [ArrayOperation.names], rfl, by simp [ArrayOperation.owner?]⟩
  have hcall : call h = ArrayOperation.set.callDynamic s [.int64 i, v] h :=
    outcome_after_of_dynamic hsite limit objects history s rfl h
  have hsourced : cache.Sourced := sourced_after_fresh _ limit objects history
  rw [hcall]
  refine ⟨⟨?_, ?_, ?_⟩, ?_, ?_, ?_, ?_, ?_⟩
  · exact fun e => Action.writeElement_keepsOnFailure e s i v
  · exact Action.writeListElement_keepsOnFailure s i v
  · exact hsourced.call_keepsOnFailure s [.int64 i, v]
  · intro hany
    rw [hany]
    exact ElementType.admits_any v
  · exact Heap.same_write_of_range
  · exact Heap.same_refusal_of_out_of_range
  · exact Heap.only_call_writes
  · intro e hne
    exact Action.writeElement_of_error (Heap.setElement_of_elem_ne (Ne.symm hne) i v)

/-- Into an array of two integers an integer is written in each of the ways, in range and out of it,
and then a character, which only the call can write; its cache wrote to an array of any values
before. -/
theorem write_paths_of_integer_and_character :
    let h : Heap := ⟨#[⟨.int64, [.int64 1, .int64 2], by decide⟩, ⟨.any, [.nothing], by decide⟩],
      #[]⟩
    let s : StorageId := ⟨0⟩
    let history : List Call := [⟨[.array ⟨1⟩, .int64 0, .string "x"], h⟩]
    let cache := (fresh (.dynamic "set" 2) ⟨some 1⟩ none).after history
    let call := fun i v => (cache.call [.array s, .int64 i, v] h).outcome
    (∃ after, h.WritesSlot after s 1 (.int64 9) ∧
      Action.writeElement .int64 s 1 (.int64 9) h = (.ok (), after) ∧
      Action.writeListElement s 1 (.int64 9) h = (.ok (.int64 2), after) ∧
      call 1 (.int64 9) = (.ok .nothing, after)) ∧
    Action.writeListElement s 2 (.int64 9) h = (.error (.bounds 2 2), h) ∧
    call 2 (.int64 9) = (.error (.bounds 2 2), h) ∧
    Action.writeListElement s 1 (.char 'A') h = (.error (.type (.cannotStore .char .int64)), h) ∧
    Action.writeListElement s 2 (.char 'A') h = (.error (.bounds 2 2), h) ∧
    (∃ after, call 1 (.char 'A') = (.ok .nothing, after) ∧ h.WritesSlot after s 1 (.int64 65)) ∧
    Action.writeElement .any s 1 (.int64 9) h =
      (.error (.type (.wrongElementAccess .any .int64)), h) ∧
    (call 0 (.string "x")).2 = h := by
  intro h s history cache call
  have hinside : 0 ≤ (1 : Int64).toInt ∧ (1 : Int64).toInt < (h.items s).length := by decide
  have houtside : ¬(0 ≤ (2 : Int64).toInt ∧ (2 : Int64).toInt < (h.items s).length) := by decide
  have hinteger : ElementType.int64.admits (.int64 9) = true := rfl
  have hcharacter : ElementType.int64.admits (.char 'A') = false := rfl
  obtain ⟨-, -, hwritten, -, -, hother⟩ :=
    write_paths_agree h s 1 (.int64 9) .standard ⟨some 1⟩ none history
  obtain ⟨-, -, -, hrefused, -, -⟩ :=
    write_paths_agree h s 2 (.int64 9) .standard ⟨some 1⟩ none history
  obtain ⟨-, -, -, -, hunfit, -⟩ :=
    write_paths_agree h s 1 (.char 'A') .standard ⟨some 1⟩ none history
  obtain ⟨-, -, -, -, hunfitOutside, -⟩ :=
    write_paths_agree h s 2 (.char 'A') .standard ⟨some 1⟩ none history
  obtain ⟨⟨-, -, hkept⟩, -⟩ :=
    write_paths_agree h s 0 (.string "x") .standard ⟨some 1⟩ none history
  obtain ⟨previous, after, hslot, hfound, haccessor, hview, hcall⟩ := hwritten hinteger hinside
  cases hfound
  obtain ⟨-, hviewOutside, hcallOutside⟩ := hrefused hinteger houtside
  obtain ⟨-, hviewUnfit, -, -, hwidened⟩ := hunfit hcharacter
  have hran : call 1 (.char 'A') = (.ok .nothing, (call 1 (.char 'A')).2) := rfl
  obtain ⟨w, hw, hslotWidened⟩ := hwidened _ _ hran
  cases hw
  have hfailed : call 0 (.string "x") =
      (.error (.type (.cannotCast .string .int64)), (call 0 (.string "x")).2) := rfl
  exact ⟨⟨after, hslot, haccessor, hview, hcall⟩, hviewOutside, hcallOutside, hviewUnfit hinside,
    (hunfitOutside hcharacter).2.2.1 houtside, ⟨_, hran, hslotWidened⟩, hother .any (by decide),
    hkept h _ _ hfailed⟩

end InlineCache

end LateBinding

import LateBinding.Proofs.ElementAccess
import LateBinding.Resolution.Primitive

/-!
# Runs of iterators

An iterator and the storage that it reads are both shared: copies of the iterator move one cursor,
and the storage may be written, replaced by a longer or shorter one, and read by other iterators
between any two steps.  Through all of this the position of the cursor is the number of elements
that the iterator has given, so each step gives the element that is then in the next slot, and a
step past the end leaves the cursor for a time when the storage reaches further.
-/

namespace LateBinding

/-- What happens to iterators and to the storages that they read. -/
inductive IteratorEvent where
  /-- A step of an iterator, through any of the copies that share its cursor. -/
  | next (c : CursorId)
  | hasNext (c : CursorId)
  /-- Another iterator is made. -/
  | openCursor (s : StorageId)
  | setElement (elem : ElementType) (s : StorageId) (i : Int64) (v : Value)
  | setListElement (s : StorageId) (i : Int64) (v : Value)
  /-- The content of a storage is replaced in place, element type and length included. -/
  | replace (s : StorageId) (content : Storage)

namespace Heap

/-- The heap after an event; what fails leaves it as it was. -/
def afterEvent (h : Heap) : IteratorEvent → Heap
  | .next c => ((h.next? c).map Prod.snd).getD h
  | .hasNext _ => h
  | .openCursor s => h.openCursor s
  | .setElement elem s i v =>
    match h.setElement elem s i v with
    | .ok after => after
    | .error _ => h
  | .setListElement s i v =>
    match h.setListElement s i v with
    | .ok (_, after) => after
    | .error _ => h
  | .replace s content => h.write s content

def afterEvents (h : Heap) (events : List IteratorEvent) : Heap :=
  events.foldl afterEvent h

/-- The element that an event takes from an iterator. -/
def taken? (h : Heap) (c : CursorId) : IteratorEvent → Option Value
  | .next d => if d = c then (h.next? d).map Prod.fst else none
  | _ => none

/-- The elements that an iterator gives in a run, in the order of its steps. -/
def taken (h : Heap) (c : CursorId) : List IteratorEvent → List Value
  | [] => []
  | event :: events => (h.taken? c event).toList ++ (h.afterEvent event).taken c events

/-- A cursor is before the element at a position of a storage. -/
def StandsAt (h : Heap) (c : CursorId) (s : StorageId) (position : Nat) : Prop :=
  h.cursors[c.index]? = some ⟨s, position⟩

variable {h : Heap} {c d : CursorId} {s : StorageId} {position : Nat}

/-! ## One step -/

theorem standsAt_openCursor (h : Heap) (s : StorageId) :
    (h.openCursor s).StandsAt h.freshCursor s 0 := by
  simp [StandsAt, openCursor, freshCursor]

theorem next?_of_standsAt (hc : h.StandsAt c s position) :
    h.next? c = (h.items s)[position]?.map fun v => (v, h.advance c) := by
  unfold StandsAt at hc
  simp only [next?, current?, hc, Option.bind_eq_bind, Option.bind_some]
  rfl

theorem given_of_standsAt (hc : h.StandsAt c s position) :
    (h.next? c).map Prod.fst = (h.items s)[position]? := by
  rw [next?_of_standsAt hc]
  cases (h.items s)[position]? <;> rfl

/-- The test for a further element compares lengths, the step reads the slot. -/
theorem hasNext_eq_isSome (h : Heap) (c : CursorId) : h.hasNext c = (h.next? c).isSome := by
  simp only [hasNext, next?, current?, Option.isSome_map]
  cases h.cursors[c.index]? with
  | none => rfl
  | some cursor =>
      have hreach : ((h.storage cursor.storage).get? cursor.position).isSome = true ↔
          cursor.position < (h.storage cursor.storage).length := by
        simp [Storage.get?, Storage.length]
      exact Bool.eq_iff_iff.2 (decide_eq_true_iff.trans hreach.symm)

theorem eq_advance_of_next? {v : Value} {after : Heap} (hnext : h.next? c = some (v, after)) :
    after = h.advance c := by
  obtain ⟨w, _, heq⟩ := Option.map_eq_some_iff.1 hnext
  exact (Prod.mk.inj heq).2.symm

theorem standsAt_advance (hc : h.StandsAt c s position) :
    (h.advance c).StandsAt c s (position + 1) := by
  unfold StandsAt at hc ⊢
  simp [advance, Array.getElem?_modify, hc]

theorem cursors_advance_of_ne (hne : d ≠ c) :
    (h.advance c).cursors[d.index]? = h.cursors[d.index]? := by
  have hindex : c.index ≠ d.index := by
    intro heq
    cases c
    cases d
    simp_all
  simp [advance, Array.getElem?_modify, hindex]

theorem afterEvent_next_of_none (hnext : h.next? c = none) : h.afterEvent (.next c) = h := by
  simp only [afterEvent, hnext, Option.map_none, Option.getD_none]

theorem afterEvent_next_of_some {v : Value} {after : Heap} (hnext : h.next? c = some (v, after)) :
    h.afterEvent (.next c) = h.advance c := by
  simp only [afterEvent, hnext, Option.map_some, Option.getD_some, eq_advance_of_next? hnext]

theorem eq_next_of_taken? {event : IteratorEvent} {v : Value}
    (hgiven : h.taken? c event = some v) :
    event = .next c ∧ (h.next? c).map Prod.fst = some v := by
  cases event with
  | next d =>
      by_cases hdc : d = c
      · subst hdc
        simpa only [taken?, if_true, true_and] using hgiven
      · simp only [taken?, hdc, if_false, reduceCtorEq] at hgiven
  | _ => cases hgiven

theorem standsAt_own_step (hc : h.StandsAt c s position) :
    (h.afterEvent (.next c)).StandsAt c s
      (position + (h.taken? c (.next c)).toList.length) := by
  simp only [taken?, if_true]
  cases hnext : h.next? c with
  | none =>
      rw [afterEvent_next_of_none hnext]
      exact hc
  | some given =>
      rw [afterEvent_next_of_some hnext]
      exact standsAt_advance hc

theorem standsAt_other_step (hc : h.StandsAt c s position) (hne : d ≠ c) :
    (h.afterEvent (.next d)).StandsAt c s position := by
  cases hnext : h.next? d with
  | none =>
      rw [afterEvent_next_of_none hnext]
      exact hc
  | some given =>
      rw [afterEvent_next_of_some hnext]
      exact (cursors_advance_of_ne hne.symm).trans hc

/-- An iterator moves by the elements that it gives, whatever happens. -/
theorem standsAt_afterEvent (hc : h.StandsAt c s position) (event : IteratorEvent) :
    (h.afterEvent event).StandsAt c s (position + (h.taken? c event).toList.length) := by
  cases event with
  | next d =>
      by_cases hdc : d = c
      · subst hdc
        exact standsAt_own_step hc
      · simp only [taken?, hdc, if_false]
        exact standsAt_other_step hc hdc
  | hasNext d => exact hc
  | openCursor t =>
      have hlt : c.index < h.cursors.size := (Array.getElem?_eq_some_iff.1 hc).1
      have hkept : (h.openCursor t).cursors[c.index]? = h.cursors[c.index]? := by
        simp [Heap.openCursor, Array.getElem?_push, Nat.ne_of_lt hlt]
      exact hkept.trans hc
  | setElement elem t i v =>
      simp only [afterEvent]
      split
      · next after hwrite =>
        obtain ⟨content, rfl⟩ := exists_write_of_setElement hwrite
        exact hc
      · exact hc
  | setListElement t i v =>
      simp only [afterEvent]
      split
      · next previous after hwrite =>
        obtain ⟨content, rfl⟩ := exists_write_of_setListElement hwrite
        exact hc
      · exact hc
  | replace t content => exact hc

theorem standsAt_afterEvents (hc : h.StandsAt c s position) (events : List IteratorEvent) :
    (h.afterEvents events).StandsAt c s (position + (h.taken c events).length) := by
  induction events generalizing h position with
  | nil => exact hc
  | cons event events ih =>
      rw [taken, List.length_append, ← Nat.add_assoc]
      exact ih (standsAt_afterEvent hc event)

/-- Every element that an iterator gives was, at that step, in the slot numbered by the elements
given before it. -/
theorem exists_step_of_taken {events : List IteratorEvent} {k : Nat} {v : Value}
    (hc : h.StandsAt c s position) (hv : (h.taken c events)[k]? = some v) :
    ∃ earlier later, events = earlier ++ .next c :: later ∧ (h.taken c earlier).length = k ∧
      ((h.afterEvents earlier).items s)[position + k]? = some v := by
  induction events generalizing h position k with
  | nil => cases hv
  | cons event events ih =>
      have hmoved := standsAt_afterEvent hc event
      rw [taken] at hv
      cases hgiven : h.taken? c event with
      | none =>
          rw [hgiven] at hv hmoved
          obtain ⟨earlier, later, rfl, hcount, hslot⟩ := ih hmoved hv
          refine ⟨event :: earlier, later, rfl, ?_, hslot⟩
          rw [taken, hgiven]
          exact hcount
      | some w =>
          rw [hgiven] at hv hmoved
          cases k with
          | zero =>
              cases hv
              obtain ⟨rfl, hstep⟩ := eq_next_of_taken? hgiven
              rw [given_of_standsAt hc] at hstep
              exact ⟨[], events, rfl, rfl, hstep⟩
          | succ k =>
              obtain ⟨earlier, later, rfl, hcount, hslot⟩ := ih hmoved hv
              refine ⟨event :: earlier, later, rfl, ?_, ?_⟩
              · rw [taken, hgiven]
                exact congrArg (· + 1) hcount
              · rw [← Nat.add_assoc, Nat.add_right_comm]
                exact hslot

/-! ## Draining -/

theorem takeNext_of_standsAt (hc : h.StandsAt c s position) (count : Nat) :
    (h.takeNext c count).1 = ((h.items s).drop position).take count ∧
      (h.takeNext c count).2.items s = h.items s ∧
      (h.takeNext c count).2.StandsAt c s (position + (h.takeNext c count).1.length) := by
  induction count generalizing h position with
  | zero => exact ⟨rfl, rfl, hc⟩
  | succ count ih =>
      have hnext := next?_of_standsAt hc
      cases hitem : (h.items s)[position]? with
      | none =>
          have hend : (h.items s).drop position = [] :=
            List.drop_eq_nil_of_le (List.getElem?_eq_none_iff.1 hitem)
          rw [hitem, Option.map_none] at hnext
          simp only [takeNext, hnext, hend, List.take_nil, true_and]
          exact hc
      | some v =>
          have hrest : (h.items s).drop position = v :: (h.items s).drop (position + 1) := by
            obtain ⟨hlt, rfl⟩ := List.getElem?_eq_some_iff.1 hitem
            exact List.drop_eq_getElem_cons hlt
          obtain ⟨hgiven, hitems, hmoved⟩ := ih (standsAt_advance hc)
          rw [hitem, Option.map_some] at hnext
          simp only [takeNext, hnext, hrest, List.take_succ_cons, List.length_cons]
          rw [Nat.add_right_comm] at hmoved
          exact ⟨congrArg (v :: ·) hgiven, hitems, hmoved⟩

theorem drain_fresh (h : Heap) (s : StorageId) :
    ((h.openCursor s).drain h.freshCursor).1 = h.items s ∧
      ((h.openCursor s).drain h.freshCursor).2.next? h.freshCursor = none := by
  have hc := h.standsAt_openCursor s
  have hlength : (h.openCursor s).cursorLength h.freshCursor = (h.items s).length := by
    unfold StandsAt at hc
    simp only [cursorLength, hc, Option.map_some, Option.getD_some]
    rfl
  obtain ⟨hgiven, hitems, hend⟩ := takeNext_of_standsAt hc (h.items s).length
  have hopened : (h.openCursor s).items s = h.items s := rfl
  rw [hopened, List.drop_zero, List.take_length] at hgiven
  rw [hgiven, Nat.zero_add] at hend
  rw [drain, hlength]
  refine ⟨hgiven, ?_⟩
  rw [next?_of_standsAt hend, hitems, hopened, List.getElem?_eq_none (Nat.le_refl _),
    Option.map_none]

/-- An iterator gives each slot of its storage once and in order, as the slot is when the iterator
is asked: after any run the next step gives the element in the slot numbered by the elements given
so far, and fails exactly if there is none.  A step moves no other iterator and changes no storage,
and a step that fails changes nothing at all.  Where nothing happens between the steps, the iterator
gives the elements of the storage. -/
theorem iterator_gives_slots_in_order (h : Heap) (s : StorageId) (events : List IteratorEvent) :
    let c := h.freshCursor
    let start := h.openCursor s
    let now := start.afterEvents events
    let given := start.taken c events
    Primitive.iterator [.array s] h = (.ok (.iterator c), start) ∧
    (∀ (k : Nat) v, given[k]? = some v → ∃ earlier later, events = earlier ++ .next c :: later ∧
      (start.taken c earlier).length = k ∧ ((start.afterEvents earlier).items s)[k]? = some v) ∧
    (now.next? c).map Prod.fst = (now.items s)[given.length]? ∧
    now.hasNext c = (now.next? c).isSome ∧
    (now.next? c = none → now.afterEvent (.next c) = now) ∧
    (now.afterEvent (.next c)).storages = now.storages ∧
    (∀ d, d ≠ c → (now.afterEvent (.next c)).cursors[d.index]? = now.cursors[d.index]?) ∧
    (start.drain c).1 = h.items s ∧ (start.drain c).2.next? c = none := by
  intro c start now given
  have hstart : start.StandsAt c s 0 := h.standsAt_openCursor s
  have hnow : now.StandsAt c s given.length := by
    simpa only [Nat.zero_add] using standsAt_afterEvents hstart events
  refine ⟨rfl, ?_, ?_, now.hasNext_eq_isSome c, afterEvent_next_of_none, ?_, ?_, h.drain_fresh s⟩
  · intro k v hv
    simpa only [Nat.zero_add] using exists_step_of_taken hstart hv
  · exact given_of_standsAt hnow
  · cases hnext : now.next? c with
    | none => rw [afterEvent_next_of_none hnext]
    | some step =>
        rw [afterEvent_next_of_some hnext]
        rfl
  · intro d hne
    cases hnext : now.next? c with
    | none => rw [afterEvent_next_of_none hnext]
    | some step =>
        rw [afterEvent_next_of_some hnext]
        exact cursors_advance_of_ne hne

/-- The array is written after one step and emptied after two; the next step fails, and once the
array is refilled the iterator goes on with its third slot.  The other iterator stays at its own. -/
theorem iterator_goes_on_after_refill :
    let letters : Storage := ⟨.string, [.string "a", .string "b", .string "c"], by decide⟩
    let numbers : Storage := ⟨.int64, [.int64 1, .int64 2, .int64 3], by decide⟩
    let s : StorageId := ⟨0⟩
    let c : CursorId := ⟨0⟩
    let d : CursorId := ⟨1⟩
    let start := Heap.openCursor ⟨#[letters], #[]⟩ s
    let emptied := [.openCursor s, .next c, .next d, .setElement .string s 1 (.string "y"),
      .next c, .replace s (.empty .any), .hasNext c, .next c]
    let refilled := emptied ++ [.replace s numbers, .next c]
    start.taken c refilled = [.string "a", .string "y", .int64 3] ∧
      (∃ earlier later, refilled = earlier ++ .next c :: later ∧
        (start.taken c earlier).length = 2 ∧
        ((start.afterEvents earlier).items s)[2]? = some (.int64 3)) ∧
      (start.afterEvents emptied).afterEvent (.next c) = start.afterEvents emptied ∧
      ((start.afterEvents emptied).afterEvent (.next c)).cursors[d.index]? = some ⟨s, 1⟩ ∧
      ((start.afterEvents refilled).next? d).map Prod.fst = some (.int64 2) := by
  intro letters numbers s c d start emptied refilled
  obtain ⟨-, -, -, -, hkept, -, hothers, -⟩ :=
    iterator_gives_slots_in_order ⟨#[letters], #[]⟩ s emptied
  obtain ⟨-, hsteps, -⟩ := iterator_gives_slots_in_order ⟨#[letters], #[]⟩ s refilled
  have hgiven : start.taken c refilled = [.string "a", .string "y", .int64 3] := by decide
  have hend : (start.afterEvents emptied).next? c = none := by decide
  have hsecond : (start.afterEvents emptied).cursors[d.index]? = some ⟨s, 1⟩ := by decide
  exact ⟨hgiven, hsteps 2 (.int64 3) (congrArg (·[2]?) hgiven), hkept hend,
    (hothers d (by decide)).trans hsecond, by decide⟩

end Heap

end LateBinding

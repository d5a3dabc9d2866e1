import LateBinding.Proofs.ElementAccess
import Mathlib.Data.List.Basic

/-!
# Unboxed arrays

An element type says how the elements of an array are laid out: as bare numbers, truth values,
characters or strings, and as whole values only where any is admitted.  Such an array is filled by
pushing one value after the other, each of which has to be of the element type's own variant.

What one push adds is read back as the value that was pushed.  So a storage and the unboxed array
that lays it out are the same data, filling the one and filling the other fail at the same value,
and what is read back from either is what it was filled with.  Reading and writing a single element
of either give the same answers and the same faults, so the one stays the layout of the other.
-/

namespace LateBinding

namespace ElementType

/-- What an array keeps of one element. -/
def Unboxed : ElementType → Type
  | int64 => Int64
  | int32 => Int32
  | float64 => Double
  | float32 => Single
  | bool => Bool
  | char => Char
  | string => String
  | any => Value

/-- The value that a bare element stands for. -/
def box : (elem : ElementType) → elem.Unboxed → Value
  | int64, n => .int64 n
  | int32, n => .int32 n
  | float64, x => .float64 x
  | float32, x => .float32 x
  | bool, b => .bool b
  | char, c => .char c
  | string, s => .string s
  | any, v => v

/-- The bare element that a value of the element type's own variant is kept as. -/
def unbox? : (elem : ElementType) → Value → Option elem.Unboxed
  | int64, .int64 n => some n
  | int32, .int32 n => some n
  | float64, .float64 x => some x
  | float32, .float32 x => some x
  | bool, .bool b => some b
  | char, .char c => some c
  | string, .string s => some s
  | any, v => some v
  | _, _ => none

variable {elem : ElementType} {v : Value}

theorem unbox?_box (cell : elem.Unboxed) : elem.unbox? (elem.box cell) = some cell := by
  cases elem <;> rfl

theorem box_of_unbox? {cell : elem.Unboxed} (hcell : elem.unbox? v = some cell) :
    elem.box cell = v := by
  cases elem <;> cases v <;> cases hcell <;> rfl

theorem isSome_unbox? (elem : ElementType) (v : Value) :
    (elem.unbox? v).isSome = elem.admits v := by
  cases elem <;> cases v <;> rfl

theorem admits_of_unbox? {cell : elem.Unboxed} (hcell : elem.unbox? v = some cell) :
    elem.admits v = true := by
  rw [← isSome_unbox?, hcell]
  rfl

theorem box_injective (elem : ElementType) : Function.Injective elem.box := by
  intro cell other hbox
  apply Option.some.inj
  rw [← unbox?_box cell, hbox, unbox?_box]

theorem admits_box (cell : elem.Unboxed) : elem.admits (elem.box cell) = true :=
  admits_of_unbox? (unbox?_box cell)

theorem admits_iff_kind : elem.admits v = true ↔ elem = .any ∨ v.kind = .ofElement elem := by
  cases elem <;> cases v <;> simp [admits, Value.kind, Kind.ofElement]

end ElementType

/-- An array as its element type lays it out. -/
structure UnboxedArray where
  elem : ElementType
  cells : List elem.Unboxed

namespace UnboxedArray

def empty (elem : ElementType) : UnboxedArray :=
  ⟨elem, []⟩

/-- The elements, read back as values. -/
def toValues (array : UnboxedArray) : List Value :=
  array.cells.map array.elem.box

/-- Adds a value behind the last element, or gives back one of another variant. -/
def push (array : UnboxedArray) (v : Value) : Except Value UnboxedArray :=
  match array.elem.unbox? v with
  | some cell => .ok ⟨array.elem, array.cells ++ [cell]⟩
  | none => .error v

/-- Fills an empty array, one value after the other. -/
def ofValues (elem : ElementType) (values : List Value) : Except Value UnboxedArray :=
  values.foldlM push (empty elem)

def length (array : UnboxedArray) : Nat :=
  array.cells.length

def isEmpty (array : UnboxedArray) : Bool :=
  array.length == 0

def get? (array : UnboxedArray) (position : Nat) : Option Value :=
  array.cells[position]?.map array.elem.box

/-- The element at an index, read by the primitive of an element type. -/
def elementAt (array : UnboxedArray) (elem : ElementType) (index : Int64) :
    Except CallFault Value :=
  if array.elem = elem then do
    let position ← positionOf index array.cells.length
    return array.elem.box array.cells[position]
  else throw (.type (.wrongElementAccess elem array.elem))

/-- The array after writing an element by the primitive of an element type.  The heap tells the type
of a value that is refused. -/
def setElement (array : UnboxedArray) (h : Heap) (elem : ElementType) (index : Int64) (v : Value) :
    Except CallFault UnboxedArray :=
  if array.elem = elem then
    match array.elem.unbox? v with
    | some cell => do
      let position ← positionOf index array.cells.length
      return ⟨array.elem, array.cells.set position cell⟩
    | none => throw (h.storeFault elem v)
  else throw (.type (.wrongElementAccess elem array.elem))

variable {array after other : UnboxedArray} {elem : ElementType} {v w : Value}
  {values : List Value}

theorem eq_of_toValues (helem : array.elem = other.elem)
    (hvalues : array.toValues = other.toValues) : array = other := by
  rcases array with ⟨elem, cells⟩
  rcases other with ⟨_, others⟩
  cases helem
  have hcells : cells = others := List.map_injective_iff.2 elem.box_injective hvalues
  rw [hcells]

theorem admits_of_mem_toValues (hv : v ∈ array.toValues) : array.elem.admits v = true := by
  obtain ⟨cell, _, rfl⟩ := List.mem_map.1 hv
  exact ElementType.admits_box cell

/-! ## One push -/

theorem push_eq_error_iff :
    array.push v = .error w ↔ w = v ∧ array.elem.admits v = false := by
  rw [← ElementType.isSome_unbox?, push]
  cases array.elem.unbox? v <;> simp [eq_comm]

/-- A push that succeeds is read back as the value, behind what was there before. -/
theorem values_of_push (hpush : array.push v = .ok after) :
    after.elem = array.elem ∧ after.toValues = array.toValues ++ [v] := by
  unfold push at hpush
  split at hpush
  · rename_i cell hcell
    cases hpush
    refine ⟨rfl, ?_⟩
    rw [toValues, List.map_append, List.map_singleton, ElementType.box_of_unbox? hcell, toValues]
  · contradiction

theorem admits_of_push (hpush : array.push v = .ok after) : array.elem.admits v = true := by
  obtain ⟨helem, hvalues⟩ := values_of_push hpush
  rw [← helem]
  exact admits_of_mem_toValues (by simp [hvalues])

/-! ## Filling -/

theorem foldlM_push_eq_ok_iff :
    values.foldlM push array = .ok after ↔
      after.elem = array.elem ∧ after.toValues = array.toValues ++ values := by
  induction values generalizing array with
  | nil =>
      rw [List.foldlM_nil, List.append_nil]
      constructor
      · intro hfilled
        cases hfilled
        exact ⟨rfl, rfl⟩
      · rintro ⟨helem, hvalues⟩
        rw [eq_of_toValues helem hvalues]
        rfl
  | cons v values ih =>
      rw [List.foldlM_cons]
      cases hpush : array.push v with
      | ok mid =>
          obtain ⟨helem, hvalues⟩ := values_of_push hpush
          have hrest := @ih mid
          rw [helem, hvalues, List.append_assoc] at hrest
          exact hrest
      | error w =>
          constructor
          · intro hfilled
            cases hfilled
          · -- whatever reads back with the value at its place has admitted it
            rintro ⟨helem, hvalues⟩
            have hadmits : after.elem.admits v = true := admits_of_mem_toValues (by simp [hvalues])
            rw [helem, (push_eq_error_iff.1 hpush).2] at hadmits
            contradiction

theorem foldlM_push_eq_error_iff :
    values.foldlM push array = .error w ↔
      (values.find? fun v => !array.elem.admits v) = some w := by
  induction values generalizing array with
  | nil =>
      constructor <;> intro hfilled <;> cases hfilled
  | cons v values ih =>
      rw [List.foldlM_cons]
      cases hpush : array.push v with
      | ok mid =>
          rw [List.find?_cons_of_neg (by simp [admits_of_push hpush]), ← (values_of_push hpush).1]
          exact ih
      | error first =>
          obtain ⟨rfl, hrefuses⟩ := push_eq_error_iff.1 hpush
          rw [List.find?_cons_of_pos (by simp [hrefuses])]
          exact ⟨fun hfilled => by cases hfilled; rfl, fun hfound => by cases hfound; rfl⟩

theorem ofValues_toValues (array : UnboxedArray) :
    ofValues array.elem array.toValues = .ok array :=
  foldlM_push_eq_ok_iff.2 ⟨rfl, rfl⟩

/-! ## Storages -/

/-- The storage that an unboxed array lays out. -/
def toStorage (array : UnboxedArray) : Storage where
  elem := array.elem
  items := array.toValues
  admitted := fun _ => admits_of_mem_toValues

/-- A storage of given values is the unboxed array that is filled with them, or none is. -/
theorem storage_ofValues_eq (elem : ElementType) (values : List Value) :
    Storage.ofValues elem values = (ofValues elem values).map toStorage := by
  cases hfilled : ofValues elem values with
  | ok array => exact Storage.ofValues_eq_ok_iff.2 (foldlM_push_eq_ok_iff.1 hfilled)
  | error v => exact Storage.ofValues_eq_error_iff.2 (foldlM_push_eq_error_iff.1 hfilled)

theorem toStorage_bijective : Function.Bijective toStorage := by
  constructor
  · intro array other hsame
    exact eq_of_toValues (congrArg Storage.elem hsame) (congrArg Storage.items hsame)
  · intro content
    have hfilled := storage_ofValues_eq content.elem content.items
    rw [Storage.ofValues_items] at hfilled
    cases harray : ofValues content.elem content.items with
    | ok array =>
        rw [harray] at hfilled
        exact ⟨array, (Except.ok.inj hfilled).symm⟩
    | error v =>
        rw [harray] at hfilled
        contradiction

theorem length_toStorage (array : UnboxedArray) :
    array.toStorage.length = array.length :=
  List.length_map _

theorem isEmpty_toStorage (array : UnboxedArray) :
    array.toStorage.isEmpty = array.isEmpty := by
  rw [isEmpty, ← length_toStorage, Storage.isEmpty, Storage.length]
  cases array.toStorage.items <;> rfl

theorem get?_toStorage (array : UnboxedArray) (position : Nat) :
    array.toStorage.get? position = array.get? position :=
  List.getElem?_map

/-- Writing a value into the storage is writing what it is kept as into the cells. -/
theorem set_toStorage {cell : array.elem.Unboxed} (hcell : array.elem.unbox? v = some cell)
    (position : Nat) : array.toStorage.set position v (ElementType.admits_of_unbox? hcell) =
      toStorage ⟨array.elem, array.cells.set position cell⟩ := by
  have hcells : (array.cells.map array.elem.box).set position v =
      (array.cells.set position cell).map array.elem.box := by
    rw [List.map_set, ElementType.box_of_unbox? hcell]
  simp only [Storage.set, toStorage, toValues, hcells]

end UnboxedArray

namespace Heap

variable {h : Heap} {elem : ElementType} {values : List Value} {content : Storage}
  {fault : CallFault} {s : StorageId} {array : UnboxedArray}

/-! ## Single elements -/

theorem elementAt_of_layout (hlayout : h.storage s = array.toStorage) (elem : ElementType)
    (index : Int64) : h.elementAt elem s index = array.elementAt elem index := by
  have hown : (h.storage s).elem = array.elem := congrArg Storage.elem hlayout
  by_cases helem : array.elem = elem
  · rw [elementAt_of_elem_eq (hown.trans helem), hlayout, UnboxedArray.elementAt, if_pos helem]
    refine (map_get_positionOf array.elem.box array.cells index).trans ?_
    cases positionOf index array.cells.length <;> rfl
  · rw [elementAt_of_elem_ne (hown.trans_ne helem), hown, UnboxedArray.elementAt, if_neg helem]
    rfl

theorem setElement_of_layout (hlayout : h.storage s = array.toStorage) (elem : ElementType)
    (index : Int64) (v : Value) :
    h.setElement elem s index v =
      (array.setElement h elem index v).map fun after => h.write s after.toStorage := by
  have hown : (h.storage s).elem = array.elem := congrArg Storage.elem hlayout
  have hlength : (h.storage s).items.length = array.cells.length :=
    hlayout ▸ List.length_map array.elem.box
  by_cases helem : array.elem = elem
  · rw [UnboxedArray.setElement, if_pos helem]
    cases hcell : array.elem.unbox? v with
    | some cell =>
        have hadmits : (h.storage s).elem.admits v = true :=
          hown ▸ ElementType.admits_of_unbox? hcell
        have hset (position : Nat) : (h.storage s).set position v hadmits =
            UnboxedArray.toStorage ⟨array.elem, array.cells.set position cell⟩ := by
          revert hadmits
          rw [hlayout]
          exact fun _ => UnboxedArray.set_toStorage hcell position
        rw [setElement_of_admits (hown.trans helem) index hadmits, hlength]
        cases positionOf index array.cells.length with
        | error fault => rfl
        | ok position =>
            exact congrArg (fun written => Except.ok (h.write s written)) (hset position)
    | none =>
        have hrefuses : (h.storage s).elem.admits v ≠ true := by
          rw [hown, ← ElementType.isSome_unbox?, hcell]
          exact Bool.false_ne_true
        rw [setElement_of_not_admits (hown.trans helem) index hrefuses]
        rfl
  · rw [setElement_of_elem_ne (hown.trans_ne helem), hown, UnboxedArray.setElement, if_neg helem]
    rfl

theorem layout_of_setElement (hlayout : h.storage s = array.toStorage) {index : Int64} {v : Value}
    {after : Heap} (hwrite : h.setElement elem s index v = .ok after) :
    ∃ written, array.setElement h elem index v = .ok written ∧
      after.storage s = written.toStorage := by
  have hs := lt_size_of_setElement hwrite
  rw [setElement_of_layout hlayout] at hwrite
  cases hwritten : array.setElement h elem index v with
  | error fault =>
      rw [hwritten] at hwrite
      contradiction
  | ok written =>
      rw [hwritten] at hwrite
      cases hwrite
      exact ⟨written, rfl, storage_write_self _ hs⟩

/-- A storage is counted, read and written as the array that lays it out, by the primitives of every
element type and with the same faults.  What a write makes of the array lays out what it makes of
the storage, so this goes on to hold. -/
theorem accessed_as_laid_out (hlayout : h.storage s = array.toStorage) :
    (h.storage s).length = array.length ∧
    (h.storage s).isEmpty = array.isEmpty ∧
    (∀ position, (h.storage s).get? position = array.get? position) ∧
    (∀ elem index, h.elementAt elem s index = array.elementAt elem index) ∧
    (∀ elem index v, h.setElement elem s index v =
      (array.setElement h elem index v).map fun written => h.write s written.toStorage) ∧
    ∀ elem index v after, h.setElement elem s index v = .ok after →
      ∃ written, array.setElement h elem index v = .ok written ∧
        after.storage s = written.toStorage := by
  refine ⟨?_, ?_, ?_, elementAt_of_layout hlayout, setElement_of_layout hlayout,
    fun elem index v after => layout_of_setElement hlayout⟩
  · rw [hlayout, UnboxedArray.length_toStorage]
  · rw [hlayout, UnboxedArray.isEmpty_toStorage]
  · intro position
    rw [hlayout, UnboxedArray.get?_toStorage]

/-! ## Filling and reading back -/

theorem storageOf_eq_ok_iff :
    h.storageOf elem values = .ok content ↔ content.elem = elem ∧ content.items = values := by
  rw [← Storage.ofValues_eq_ok_iff, storageOf]
  cases Storage.ofValues elem values <;> simp [Except.mapError]

/-- The first value that is not admitted is the one that the fault names. -/
theorem storageOf_eq_error_iff :
    h.storageOf elem values = .error fault ↔
      ∃ fit v rest, values = fit ++ v :: rest ∧ (∀ u ∈ fit, elem.admits u = true) ∧
        elem.admits v = false ∧ fault = h.storeFault elem v := by
  have hnamed : h.storageOf elem values = .error fault ↔
      ∃ v, Storage.ofValues elem values = .error v ∧ fault = h.storeFault elem v := by
    rw [storageOf]
    cases Storage.ofValues elem values <;> simp [Except.mapError, eq_comm]
  rw [hnamed]
  simp only [Storage.ofValues_eq_error_iff, List.find?_eq_some_iff_append]
  constructor
  · rintro ⟨v, ⟨hrefuses, fit, rest, hvalues, hfit⟩, rfl⟩
    exact ⟨fit, v, rest, hvalues, by simpa using hfit, by simpa using hrefuses, rfl⟩
  · rintro ⟨fit, v, rest, hvalues, hfit, hrefuses, rfl⟩
    exact ⟨v, ⟨by simpa using hrefuses, fit, rest, hvalues, by simpa using hfit⟩, rfl⟩

theorem exists_storageOf_iff :
    (∃ content, h.storageOf elem values = .ok content) ↔ ∀ v ∈ values, elem.admits v = true := by
  constructor
  · rintro ⟨content, hcontent⟩ v hv
    obtain ⟨rfl, rfl⟩ := storageOf_eq_ok_iff.1 hcontent
    exact content.admitted v hv
  · intro hadmits
    exact ⟨⟨elem, values, hadmits⟩, storageOf_eq_ok_iff.2 ⟨rfl, rfl⟩⟩

/-- Filling an array from values and reading it back loses nothing.  An array takes the values of
its element type's own variant, and every value where any is admitted; it then reads back as it was
filled, and otherwise the first value of another variant is named.  From what is read back from an
array it is filled again, bare element by bare element, exactly as it was. -/
theorem storageOf_reads_back (h : Heap) (elem : ElementType) (values : List Value) :
    let ownVariant := fun v : Value => elem = .any ∨ v.kind = .ofElement elem
    ((∃ content, h.storageOf elem values = .ok content) ↔ ∀ v ∈ values, ownVariant v) ∧
    (∀ content, h.storageOf elem values = .ok content ↔
      content.elem = elem ∧ content.items = values) ∧
    (∀ content, h.storageOf elem values = .ok content → content.length = values.length ∧
      (h.allocate content).elements? (.array h.freshStorage) = some values) ∧
    (∀ fault, h.storageOf elem values = .error fault ↔
      ∃ fit v rest, values = fit ++ v :: rest ∧ (∀ u ∈ fit, ownVariant u) ∧ ¬ownVariant v ∧
        fault = .type (.cannotStore (h.typeOf v) elem)) ∧
    (h.storageOf elem values =
      ((UnboxedArray.ofValues elem values).map UnboxedArray.toStorage).mapError
        (h.storeFault elem)) ∧
    (∀ array : UnboxedArray, UnboxedArray.ofValues array.elem array.toValues = .ok array ∧
      h.storageOf array.elem array.toValues = .ok array.toStorage) ∧
    ∀ content : Storage, h.storageOf content.elem content.items = .ok content ∧
      ∃! array : UnboxedArray, array.toStorage = content := by
  simp only [← ElementType.admits_iff_kind, Bool.not_eq_true]
  refine ⟨exists_storageOf_iff, fun content => storageOf_eq_ok_iff, ?_,
    fun fault => storageOf_eq_error_iff, ?_, ?_, ?_⟩
  · intro content hfilled
    obtain ⟨rfl, rfl⟩ := storageOf_eq_ok_iff.1 hfilled
    refine ⟨rfl, ?_⟩
    rw [elements?, Value.storage?, Option.map_some, items, storage_allocate_fresh]
  · rw [storageOf, UnboxedArray.storage_ofValues_eq]
  · intro array
    exact ⟨array.ofValues_toValues, storageOf_eq_ok_iff.2 ⟨rfl, rfl⟩⟩
  · intro content
    exact ⟨storageOf_eq_ok_iff.2 ⟨rfl, rfl⟩, UnboxedArray.toStorage_bijective.existsUnique content⟩

/-- A NaN with a sign and a payload is read back as it was, though it equals nothing, and so is an
array that contains itself.  Of integers, one of 32 bits among those of 64 is named before what
follows it, though it would widen. -/
theorem storageOf_reads_back_nan :
    let nan : Double := ⟨true, -1, 5⟩
    let h : Heap := ⟨#[⟨.any, [.array ⟨0⟩], by decide⟩], #[]⟩
    let floats : List Value := [.float64 nan, .float64 (.ofInt 1), .float64 nan]
    let mixed : List Value := [.array ⟨0⟩, .float64 nan, .nothing, .list ⟨0⟩]
    nan.equal nan = false ∧
    (∃ content, h.storageOf .float64 floats = .ok content ∧ content.items = floats ∧
      (h.allocate content).elements? (.array h.freshStorage) = some floats) ∧
    (∃ content, h.storageOf .any mixed = .ok content ∧ content.items = mixed) ∧
    h.storageOf .int64 [.int64 1, .int32 2, .nothing] =
      .error (.type (.cannotStore .int32 .int64)) := by
  intro nan h floats mixed
  obtain ⟨hfloats, hsame, hread, -⟩ := storageOf_reads_back h .float64 floats
  obtain ⟨hmixed, hkept, -⟩ := storageOf_reads_back h .any mixed
  obtain ⟨-, -, -, hrefused, -⟩ := storageOf_reads_back h .int64 [.int64 1, .int32 2, .nothing]
  obtain ⟨content, hcontent⟩ := hfloats.2 (by decide)
  obtain ⟨whole, hwhole⟩ := hmixed.2 (by decide)
  refine ⟨by decide, ⟨content, hcontent, ((hsame content).1 hcontent).2, (hread content hcontent).2⟩,
    ⟨whole, hwhole, ((hkept whole).1 hwhole).2⟩, (hrefused _).2 ?_⟩
  exact ⟨[.int64 1], .int32 2, [.nothing], rfl, by decide, by decide, rfl⟩

end Heap

end LateBinding

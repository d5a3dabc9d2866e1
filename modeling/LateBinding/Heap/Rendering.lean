import LateBinding.Heap.Basic
import LateBinding.Heap.Unseen
import LateBinding.Number.Layout

/-!
# Rendering

The text of a value, plain for `toString` and with quotes around strings and characters for display.
A value is written at the end of a draft, which also keeps the storages that are open there: an
array inside itself is cut, as a storage that is already open is written `[...]`.

Whatever a value opens it closes again, so the elements of an array are all written with one more
storage open than the array.  `textInside` is the text of a value by the path that leads to it, and
`writeText_eq` says that this is what writing adds.
-/

namespace LateBinding

def Value.scalarText (quoted : Bool) : Value → String
  | .int64 n => toString n
  | .int32 n => toString n
  | .float64 x => x.text .display64
  | .float32 x => x.text .display32
  | .bool b => toString b
  | .char c => if quoted then "'" ++ String.singleton c ++ "'" else String.singleton c
  | .nothing => "nothing"
  | .string s => if quoted then "\"" ++ s ++ "\"" else s
  | .iterator _ => "ArrayIterator(...)"
  | .type t => t.name
  | .array _ | .list _ => ""

/-- A text in the making, and the storages that are open at its end, the innermost first. -/
structure Draft where
  text : String
  outer : List StorageId
deriving DecidableEq

namespace Draft

def empty : Draft where
  text := ""
  outer := []

def put (draft : Draft) (text : String) : Draft :=
  { draft with text := draft.text ++ text }

/-- Sets an element apart from the one before it. -/
def separate (draft : Draft) (position : Nat) : Draft :=
  if 0 < position then draft.put ", " else draft

def enter (draft : Draft) (s : StorageId) : Draft :=
  { draft with outer := s :: draft.outer }

def leave (draft : Draft) : Draft :=
  { draft with outer := draft.outer.tail }

@[simp] theorem outer_put (draft : Draft) (text : String) : (draft.put text).outer = draft.outer :=
  rfl

@[simp] theorem outer_separate (draft : Draft) (position : Nat) :
    (draft.separate position).outer = draft.outer := by
  unfold separate
  split <;> rfl

end Draft

namespace Heap

/-- Writes a value at the end of a draft, after which the same storages are open as before. -/
def writeText (h : Heap) (quoted : Bool) (v : Value) (draft : Draft) :
    {after : Draft // after.outer = draft.outer} :=
  match v.storage? with
  | none => ⟨draft.put (v.scalarText quoted), rfl⟩
  | some s =>
    if hs : s ∈ draft.outer then ⟨draft.put "[...]", rfl⟩
    else
      let filled := (h.items s).attach.zipIdx.foldl
        (fun (filled : {inner : Draft // inner.outer = s :: draft.outer}) item =>
          let after := h.writeText quoted item.1.1 (filled.1.separate item.2)
          ⟨after.1, by rw [after.2, Draft.outer_separate, filled.2]⟩)
        ⟨(draft.enter s).put "[", rfl⟩
      ⟨filled.1.leave.put "]", by simp [Draft.leave, filled.2]⟩
termination_by unseen h.names draft.outer
decreasing_by
  rw [Draft.outer_separate, filled.2]
  exact unseen_cons_lt (mem_names_of_mem_items item.1.2) hs

/-- The text of a value inside the storages `outer`, which are open around it. -/
def textInside (h : Heap) (quoted : Bool) (outer : List StorageId) (v : Value) : String :=
  match v.storage? with
  | none => v.scalarText quoted
  | some s =>
    if _ : s ∈ outer then "[...]"
    else
      let texts := (h.items s).attach.map fun ⟨w, _⟩ => h.textInside quoted (s :: outer) w
      "[" ++ ", ".intercalate texts ++ "]"
termination_by unseen h.names outer
decreasing_by exact unseen_cons_lt (mem_names_of_mem_items ‹w ∈ h.items s›) ‹s ∉ outer›

theorem textInside_of_scalar (h : Heap) (quoted : Bool) (outer : List StorageId) {v : Value}
    (hv : v.storage? = none) : h.textInside quoted outer v = v.scalarText quoted := by
  rw [textInside, hv]

theorem textInside_of_mem (h : Heap) (quoted : Bool) {outer : List StorageId} {v : Value}
    {s : StorageId} (hv : v.storage? = some s) (hs : s ∈ outer) :
    h.textInside quoted outer v = "[...]" := by
  rw [textInside, hv]
  simp only [hs, dite_true]

theorem textInside_of_not_mem (h : Heap) (quoted : Bool) {outer : List StorageId} {v : Value}
    {s : StorageId} (hv : v.storage? = some s) (hs : s ∉ outer) :
    h.textInside quoted outer v =
      "[" ++ ", ".intercalate ((h.items s).map (h.textInside quoted (s :: outer))) ++ "]" := by
  rw [textInside, hv]
  simp only [hs, dite_false, List.map_attach_eq_pmap, List.pmap_eq_map]

/-! ## Writing by the path rule -/

theorem writeText_of_scalar (h : Heap) (quoted : Bool) (draft : Draft) {v : Value}
    (hv : v.storage? = none) :
    (h.writeText quoted v draft).1 = draft.put (v.scalarText quoted) := by
  rw [writeText, hv]

theorem writeText_of_mem (h : Heap) (quoted : Bool) {draft : Draft} {v : Value} {s : StorageId}
    (hv : v.storage? = some s) (hs : s ∈ draft.outer) :
    (h.writeText quoted v draft).1 = draft.put "[...]" := by
  rw [writeText, hv]
  simp only [hs, dite_true]

theorem writeText_of_not_mem (h : Heap) (quoted : Bool) {draft : Draft} {v : Value}
    {s : StorageId} (hv : v.storage? = some s) (hs : s ∉ draft.outer) :
    (h.writeText quoted v draft).1 =
      ((h.items s).zipIdx.foldl
        (fun filled item => (h.writeText quoted item.1 (filled.separate item.2)).1)
        ((draft.enter s).put "[")).leave.put "]" := by
  rw [writeText, hv]
  have hitems : (h.items s).zipIdx = (h.items s).attach.zipIdx.map (Prod.map Subtype.val id) := by
    rw [← List.zipIdx_map, List.attach_map_subtype_val]
  simp only [hs, dite_false, hitems, List.foldl_map]
  rw [← List.foldl_hom Subtype.val]
  intro filled item
  rfl

section Loop

variable (write : Value → Draft → Draft) {added : Value → String} {outer : List StorageId}

/-- Elements after the first, each behind a separator. -/
theorem foldl_write_rest {rest : List Value}
    (hwrite : ∀ w ∈ rest, ∀ text, write w ⟨text, outer⟩ = ⟨text ++ added w, outer⟩)
    (position : Nat) (text first : String) :
    (rest.zipIdx (position + 1)).foldl
        (fun filled item => write item.1 (filled.separate item.2)) ⟨text ++ first, outer⟩ =
      ⟨text ++ ", ".intercalate (first :: rest.map added), outer⟩ := by
  induction rest generalizing position text first with
  | nil => simp
  | cons w rest ih =>
    have hrest := ih (fun u hu => hwrite u (List.mem_cons_of_mem w hu)) (position + 1)
      (text ++ first ++ ", ") (added w)
    have hfirst := hwrite w List.mem_cons_self (text ++ first ++ ", ")
    simp only [List.zipIdx_cons, List.foldl_cons, Draft.separate, Draft.put, Nat.succ_pos,
      if_true, hfirst] at hrest ⊢
    rw [hrest, List.map_cons, String.intercalate_cons_cons]
    simp only [String.append_assoc]

/-- If writing an element only adds its text, writing all adds the separated texts. -/
theorem foldl_write {items : List Value}
    (hwrite : ∀ w ∈ items, ∀ text, write w ⟨text, outer⟩ = ⟨text ++ added w, outer⟩)
    (text : String) :
    items.zipIdx.foldl (fun filled item => write item.1 (filled.separate item.2)) ⟨text, outer⟩ =
      ⟨text ++ ", ".intercalate (items.map added), outer⟩ := by
  cases items with
  | nil => simp
  | cons w rest =>
    have hfirst := hwrite w List.mem_cons_self text
    have hrest := foldl_write_rest write (fun u hu => hwrite u (List.mem_cons_of_mem w hu)) 0 text
      (added w)
    simp only [List.zipIdx_cons, List.foldl_cons, Draft.separate, Nat.lt_irrefl, if_false,
      hfirst] at hrest ⊢
    exact hrest

end Loop

/-- Writing adds the text that the open storages call for, and leaves them as they were.  The
induction is that of `textInside`, which has the open storages as an argument. -/
theorem writeText_eq (h : Heap) (quoted : Bool) (v : Value) (text : String)
    (outer : List StorageId) :
    (h.writeText quoted v ⟨text, outer⟩).1 = ⟨text ++ h.textInside quoted outer v, outer⟩ := by
  induction outer, v using textInside.induct h quoted generalizing text with
  | case1 outer v hv =>
    rw [writeText_of_scalar h quoted _ hv, textInside_of_scalar h quoted outer hv]
    rfl
  | case2 outer v s hv hs =>
    rw [writeText_of_mem h quoted hv hs, textInside_of_mem h quoted hv hs]
    rfl
  | case3 outer v s hv hs ih =>
    have hfilled := foldl_write (fun w draft => (h.writeText quoted w draft).1) ih (text ++ "[")
    rw [writeText_of_not_mem h quoted hv hs, textInside_of_not_mem h quoted hv hs]
    simp only [Draft.enter, Draft.put, hfilled, Draft.leave, List.tail_cons, String.append_assoc]

/-- The text of a value that nothing is open around. -/
def textOf (h : Heap) (quoted : Bool) (v : Value) : String :=
  (h.writeText quoted v .empty).1.text

theorem textOf_eq (h : Heap) (quoted : Bool) (v : Value) :
    h.textOf quoted v = h.textInside quoted [] v := by
  simp only [textOf, Draft.empty, writeText_eq, String.empty_append]

/-- The text that `toString` gives. -/
def render (h : Heap) (v : Value) : String :=
  h.textOf false v

/-- The text for display, with strings and characters quoted. -/
def display (h : Heap) (v : Value) : String :=
  h.textOf true v

end Heap

end LateBinding

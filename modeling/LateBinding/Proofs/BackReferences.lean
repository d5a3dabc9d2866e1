import LateBinding.Heap.Rendering
import LateBinding.Proofs.Reachability

/-!
# Cuts at back-references

Writing a value keeps one list of open storages for the whole text: it grows when an array begins
and shrinks when the array ends.  So at each element the list is the path of storages that lead to
it, and an array is cut exactly if it is on its own path, however often it was written beside.
Where no storage leads back to itself, nothing is cut.
-/

namespace LateBinding.Heap

/-- The rule of texts that belong to a value and the storages on the path to it, the innermost
first: an array or a list view on its own path is cut, and any other shows its elements in order,
with its storage added to their paths. -/
structure CutsBackReferences (h : Heap) (quoted : Bool)
    (text : List StorageId → Value → String) : Prop where
  scalar : ∀ path v, v.storage? = none → text path v = v.scalarText quoted
  backReference : ∀ path v s, v.storage? = some s → s ∈ path → text path v = "[...]"
  elements : ∀ path v s, v.storage? = some s → s ∉ path →
    text path v = "[" ++ ", ".intercalate ((h.items s).map (text (s :: path))) ++ "]"

/-- What the plain recursion writes, which keeps no record of what is open.  It has no text for a
value inside which it never ends. -/
inductive PlainText (h : Heap) (quoted : Bool) : Value → String → Prop where
  | scalar {v : Value} (hv : v.storage? = none) : PlainText h quoted v (v.scalarText quoted)
  | elements {v : Value} {s : StorageId} {text : Value → String} (hv : v.storage? = some s)
      (hitems : ∀ w ∈ h.items s, PlainText h quoted w (text w)) :
      PlainText h quoted v ("[" ++ ", ".intercalate ((h.items s).map text) ++ "]")

variable {h : Heap} {quoted : Bool}

/-! ## The path rule -/

theorem CutsBackReferences.eq_textInside {text : List StorageId → Value → String}
    (hrule : h.CutsBackReferences quoted text) (path : List StorageId) (v : Value) :
    text path v = h.textInside quoted path v := by
  induction path, v using textInside.induct h quoted with
  | case1 path v hv => rw [hrule.scalar path v hv, textInside_of_scalar h quoted path hv]
  | case2 path v s hv hs =>
    rw [hrule.backReference path v s hv hs, textInside_of_mem h quoted hv hs]
  | case3 path v s hv hs ih =>
    have hitems : (h.items s).map (text (s :: path)) =
        (h.items s).map (h.textInside quoted (s :: path)) := List.map_congr_left ih
    rw [hrule.elements path v s hv hs, textInside_of_not_mem h quoted hv hs, hitems]

theorem cutsBackReferences_iff (text : List StorageId → Value → String) :
    h.CutsBackReferences quoted text ↔ text = h.textInside quoted := by
  constructor
  · intro hrule
    funext path v
    exact hrule.eq_textInside path v
  · rintro rfl
    exact {
      scalar := fun path v hv => textInside_of_scalar h quoted path hv
      backReference := fun path v s hv hs => textInside_of_mem h quoted hv hs
      elements := fun path v s hv hs => textInside_of_not_mem h quoted hv hs }

/-- An array that is held twice is written twice, and its holder inside itself is cut. -/
example :
    let h : Heap := ⟨#[⟨.string, [.string "a"], by decide⟩,
      ⟨.any, [.array ⟨0⟩, .list ⟨0⟩, .array ⟨1⟩], by decide⟩], #[]⟩
    h.textInside true [] (.array ⟨1⟩) = "[[\"a\"], [\"a\"], [...]]" := by cbv

/-! ## Without cycles -/

/-- Nothing is cut as long as the value leads to no storage that is open. -/
theorem plainText_of_acyclic {path : List StorageId} {v : Value} (hacyclic : h.Acyclic v)
    (hpath : ∀ s ∈ path, ¬h.Reaches v s) :
    h.PlainText quoted v (h.textInside quoted path v) := by
  induction path, v using textInside.induct h quoted with
  | case1 path v hv =>
    rw [textInside_of_scalar h quoted path hv]
    exact .scalar hv
  | case2 path v s hv hs => exact absurd (reaches_own hv) (hpath s hs)
  | case3 path v s hv hs ih =>
    rw [textInside_of_not_mem h quoted hv hs]
    apply PlainText.elements hv
    intro w hw
    apply ih w hw ((acyclic_iff_of_storage hv).1 hacyclic w hw)
    -- an element that led back to an open storage would close a cycle, or the array led there too
    intro t ht hreaches
    rcases List.mem_cons.1 ht with rfl | ht
    · exact hacyclic.not_reaches_own hv hw hreaches
    · exact hpath t ht (hreaches.of_item hv hw)

theorem PlainText.acyclic {v : Value} {text : String} (htext : h.PlainText quoted v text) :
    h.Acyclic v := by
  induction htext with
  | scalar hv => exact acyclic_of_scalar hv
  | elements hv _ ih => exact (acyclic_iff_of_storage hv).2 ih

theorem PlainText.unique {v : Value} {first second : String}
    (hfirst : h.PlainText quoted v first) (hsecond : h.PlainText quoted v second) :
    first = second := by
  induction hfirst generalizing second with
  | scalar hv =>
    cases hsecond with
    | scalar => rfl
    | elements hv' => cases hv.symm.trans hv'
  | elements hv _ ih =>
    cases hsecond with
    | scalar hv' => cases hv.symm.trans hv'
    | elements hv' hitems =>
      cases hv.symm.trans hv'
      rw [List.map_congr_left fun w hw => ih w hw (hitems w hw)]

theorem plainText_iff (v : Value) (text : String) :
    h.PlainText quoted v text ↔ h.Acyclic v ∧ text = h.textOf quoted v := by
  have hplain : h.Acyclic v → h.PlainText quoted v (h.textOf quoted v) := by
    intro hacyclic
    rw [textOf_eq]
    exact plainText_of_acyclic hacyclic (by simp)
  constructor
  · intro htext
    exact ⟨htext.acyclic, htext.unique (hplain htext.acyclic)⟩
  · rintro ⟨hacyclic, rfl⟩
    exact hplain hacyclic

/-- `toString` and display follow the path rule, which has one solution: writing adds the text of
the path that is open and leaves that path as it was.  The plain recursion ends exactly if nothing
that the value leads to contains itself, and then it writes the same text. -/
theorem rendering_cuts_back_references (h : Heap) :
    (∀ quoted text, h.CutsBackReferences quoted text ↔ text = h.textInside quoted) ∧
    (∀ v, h.render v = h.textInside false [] v ∧ h.display v = h.textInside true [] v) ∧
    (∀ quoted v draft, (h.writeText quoted v draft).1 =
      ⟨draft.text ++ h.textInside quoted draft.outer v, draft.outer⟩) ∧
    (∀ v text, h.PlainText false v text ↔ h.Acyclic v ∧ text = h.render v) ∧
    ∀ v text, h.PlainText true v text ↔ h.Acyclic v ∧ text = h.display v := by
  refine ⟨fun quoted => cutsBackReferences_iff, ?_, ?_, plainText_iff, plainText_iff⟩
  · intro v
    exact ⟨h.textOf_eq false v, h.textOf_eq true v⟩
  · intro quoted v draft
    exact h.writeText_eq quoted v draft.text draft.outer

end LateBinding.Heap

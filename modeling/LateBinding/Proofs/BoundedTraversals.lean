import LateBinding.Heap.Rendering
import LateBinding.Proofs.Bisimilarity
import LateBinding.Proofs.Reachability

/-!
# Traversals of cyclic heaps end

Comparing and writing follow the heap, which may be cyclic, and nothing in their recursion bounds
them.  Both end all the same: a comparison never opens a pair of storages again, and writing never
opens a storage inside itself, so both run out of what the values lead to.
-/

namespace LateBinding.Heap

/-! ## Comparing by nested recursion -/

/-- The outcomes of comparing by nested recursion: the elements of two storages are compared in a
recursion of their own, whose opened pairs the rest of the pairs goes on with. -/
inductive Compares (h : Heap) :
    List (StorageId × StorageId) → List (Value × Value) → Comparison → Prop where
  | nil {opened} : Compares h opened [] ⟨true, opened⟩
  | known {opened a b rest s t outcome} (ha : a.storage? = some s) (hb : b.storage? = some t)
      (hknown : s = t ∨ (s, t) ∈ opened) (hrest : Compares h opened rest outcome) :
      Compares h opened ((a, b) :: rest) outcome
  | lengths {opened a b rest s t} (ha : a.storage? = some s) (hb : b.storage? = some t)
      (hfresh : ¬(s = t ∨ (s, t) ∈ opened))
      (hlength : (h.items s).length ≠ (h.items t).length) :
      Compares h opened ((a, b) :: rest) ⟨false, (s, t) :: opened⟩
  | sameItems {opened a b rest s t inner outcome} (ha : a.storage? = some s)
      (hb : b.storage? = some t) (hfresh : ¬(s = t ∨ (s, t) ∈ opened))
      (hlength : (h.items s).length = (h.items t).length)
      (hitems : Compares h ((s, t) :: opened) ((h.items s).zip (h.items t)) ⟨true, inner⟩)
      (hrest : Compares h inner rest outcome) : Compares h opened ((a, b) :: rest) outcome
  | otherItems {opened a b rest s t inner} (ha : a.storage? = some s)
      (hb : b.storage? = some t) (hfresh : ¬(s = t ∨ (s, t) ∈ opened))
      (hlength : (h.items s).length = (h.items t).length)
      (hitems : Compares h ((s, t) :: opened) ((h.items s).zip (h.items t)) ⟨false, inner⟩) :
      Compares h opened ((a, b) :: rest) ⟨false, inner⟩
  | sameScalars {opened a b rest outcome} (ha : a.storage? = none) (hb : b.storage? = none)
      (hsame : a.sameScalar b = true) (hrest : Compares h opened rest outcome) :
      Compares h opened ((a, b) :: rest) outcome
  | otherScalars {opened a b rest} (ha : a.storage? = none) (hb : b.storage? = none)
      (hsame : a.sameScalar b = false) : Compares h opened ((a, b) :: rest) ⟨false, opened⟩
  | unlike {opened a b rest} (hunlike : a.storage?.isSome ≠ b.storage?.isSome) :
      Compares h opened ((a, b) :: rest) ⟨false, opened⟩

theorem isSome_ne {a b : Value}
    (hstorages : ∀ s t, a.storage? = some s → b.storage? = some t → False)
    (hscalars : a.storage? = none → b.storage? = none → False) :
    a.storage?.isSome ≠ b.storage?.isSome := by
  cases ha : a.storage? <;> cases hb : b.storage? <;> simp_all

/-- Comparing two work lists in turn, unless the first has a difference. -/
theorem compareAll_append (h : Heap) (opened : List (StorageId × StorageId))
    (front back : List (Value × Value)) :
    h.compareAll opened (front ++ back) =
      if (h.compareAll opened front).same then
        h.compareAll (h.compareAll opened front).opened back
      else h.compareAll opened front := by
  fun_induction h.compareAll opened front with
  | case1 opened => rfl
  | case2 opened a b rest s t hb ha hknown ih =>
    rw [List.cons_append, compareAll_of_known _ ha hb hknown, ih]
  | case3 opened a b rest s t hb ha hfresh hlength ih =>
    rw [List.cons_append, compareAll_of_items _ ha hb hfresh hlength, ← List.append_assoc, ih]
  | case4 opened a b rest s t hb ha hfresh hlength =>
    rw [List.cons_append, compareAll_of_lengths _ ha hb hfresh hlength]
    rfl
  | case5 opened a b rest hb ha hsame ih =>
    rw [List.cons_append, compareAll_of_scalars _ ha hb, if_pos hsame, ih]
  | case6 opened a b rest hb ha hsame =>
    rw [List.cons_append, compareAll_of_scalars _ ha hb, if_neg hsame]
    rfl
  | case7 opened a b rest hstorages hscalars =>
    rw [List.cons_append, compareAll_of_unlike _ (isSome_ne hstorages hscalars)]
    rfl

theorem Compares.eq_compareAll {h : Heap} {opened : List (StorageId × StorageId)}
    {work : List (Value × Value)} {outcome : Comparison}
    (hcompares : h.Compares opened work outcome) : outcome = h.compareAll opened work := by
  induction hcompares with
  | nil => rw [compareAll]
  | known ha hb hknown _ ih => rw [compareAll_of_known _ ha hb hknown, ih]
  | lengths ha hb hfresh hlength => rw [compareAll_of_lengths _ ha hb hfresh hlength]
  | sameItems ha hb hfresh hlength _ _ ihitems ihrest =>
    rw [compareAll_of_items _ ha hb hfresh hlength, compareAll_append, ← ihitems, ihrest]
    rfl
  | otherItems ha hb hfresh hlength _ ihitems =>
    rw [compareAll_of_items _ ha hb hfresh hlength, compareAll_append, ← ihitems]
    rfl
  | sameScalars ha hb hsame _ ih => rw [compareAll_of_scalars _ ha hb, if_pos hsame, ih]
  | otherScalars ha hb hsame => simp [compareAll_of_scalars _ ha hb, hsame]
  | unlike hunlike => rw [compareAll_of_unlike _ hunlike]

/-- A comparison of two work lists in turn is one of the first that finds a difference, or one of
the first and then one of the second. -/
theorem Compares.of_append {h : Heap} {opened : List (StorageId × StorageId)}
    {front back : List (Value × Value)} {outcome : Comparison}
    (hcompares : h.Compares opened (front ++ back) outcome) :
    (∃ inner, h.Compares opened front ⟨true, inner⟩ ∧ h.Compares inner back outcome) ∨
      (outcome.same = false ∧ h.Compares opened front outcome) := by
  induction front generalizing opened with
  | nil => exact .inl ⟨opened, .nil, hcompares⟩
  | cons pair front ih =>
    cases hcompares with
    | known ha hb hknown hrest =>
      rcases ih hrest with ⟨inner, hfront, hback⟩ | ⟨hsame, hfront⟩
      · exact .inl ⟨inner, .known ha hb hknown hfront, hback⟩
      · exact .inr ⟨hsame, .known ha hb hknown hfront⟩
    | lengths ha hb hfresh hlength => exact .inr ⟨rfl, .lengths ha hb hfresh hlength⟩
    | sameItems ha hb hfresh hlength hitems hrest =>
      rcases ih hrest with ⟨inner, hfront, hback⟩ | ⟨hsame, hfront⟩
      · exact .inl ⟨inner, .sameItems ha hb hfresh hlength hitems hfront, hback⟩
      · exact .inr ⟨hsame, .sameItems ha hb hfresh hlength hitems hfront⟩
    | otherItems ha hb hfresh hlength hitems =>
      exact .inr ⟨rfl, .otherItems ha hb hfresh hlength hitems⟩
    | sameScalars ha hb hsame hrest =>
      rcases ih hrest with ⟨inner, hfront, hback⟩ | ⟨hother, hfront⟩
      · exact .inl ⟨inner, .sameScalars ha hb hsame hfront, hback⟩
      · exact .inr ⟨hother, .sameScalars ha hb hsame hfront⟩
    | otherScalars ha hb hsame => exact .inr ⟨rfl, .otherScalars ha hb hsame⟩
    | unlike hunlike => exact .inr ⟨rfl, .unlike hunlike⟩

theorem compares_compareAll (h : Heap) (opened : List (StorageId × StorageId))
    (work : List (Value × Value)) : h.Compares opened work (h.compareAll opened work) := by
  fun_induction h.compareAll opened work with
  | case1 opened => exact .nil
  | case2 opened a b rest s t hb ha hknown ih => exact .known ha hb hknown ih
  | case3 opened a b rest s t hb ha hfresh hlength ih =>
    -- the work list holds the elements in front of the rest: the recursion on them ends first
    generalize h.compareAll ((s, t) :: opened) ((h.items s).zip (h.items t) ++ rest) = outcome
      at ih ⊢
    rcases ih.of_append with ⟨inner, hitems, hrest⟩ | ⟨hsame, hitems⟩
    · exact .sameItems ha hb hfresh hlength hitems hrest
    · obtain ⟨same, inner⟩ := outcome
      cases hsame
      exact .otherItems ha hb hfresh hlength hitems
  | case4 opened a b rest s t hb ha hfresh hlength => exact .lengths ha hb hfresh hlength
  | case5 opened a b rest hb ha hsame ih => exact .sameScalars ha hb hsame ih
  | case6 opened a b rest hb ha hsame => exact .otherScalars ha hb (by simpa using hsame)
  | case7 opened a b rest hstorages hscalars =>
    exact .unlike (isSome_ne hstorages hscalars)

theorem compares_iff (h : Heap) (a b : Value) (outcome : Comparison) :
    h.Compares [] [(a, b)] outcome ↔ outcome = h.compare a b := by
  constructor
  · intro hcompares
    exact hcompares.eq_compareAll
  · rintro rfl
    exact h.compares_compareAll [] [(a, b)]

/-! ## Pairs are opened once -/

theorem length_le_ncard {α : Type} [DecidableEq α] {members : Set α} {l : List α}
    (hfinite : members.Finite) (hnodup : l.Nodup) (hmem : ∀ a ∈ l, a ∈ members) :
    l.length ≤ members.ncard := by
  have hsubset : (l.toFinset : Set α) ⊆ members := fun a ha => hmem a (List.mem_toFinset.1 ha)
  calc
    l.length = (l.toFinset : Set α).ncard := by
      rw [Set.ncard_coe_finset, List.toFinset_card_of_nodup hnodup]
    _ ≤ members.ncard := Set.ncard_le_ncard hsubset hfinite

/-- No pair of storages was opened twice, and each has one storage of either region. -/
structure OpenedOnce (left right : Set StorageId) (opened : List (StorageId × StorageId)) :
    Prop where
  nodup : opened.Nodup
  within : ∀ s t, (s, t) ∈ opened → s ∈ left ∧ t ∈ right

section OpenedOnce

variable {h : Heap} {left right : Set StorageId} {opened : List (StorageId × StorageId)}

theorem OpenedOnce.cons {s t : StorageId} (hopened : OpenedOnce left right opened)
    (hfresh : (s, t) ∉ opened) (hs : s ∈ left) (ht : t ∈ right) :
    OpenedOnce left right ((s, t) :: opened) := by
  refine ⟨List.nodup_cons.2 ⟨hfresh, hopened.nodup⟩, ?_⟩
  intro u w hmem
  rcases List.mem_cons.1 hmem with heq | hmem
  · cases heq
    exact ⟨hs, ht⟩
  · exact hopened.within u w hmem

theorem OpenedOnce.mono {left' right' : Set StorageId} (hopened : OpenedOnce left right opened)
    (hleft : left ⊆ left') (hright : right ⊆ right') : OpenedOnce left' right' opened :=
  ⟨hopened.nodup, fun s t hmem => (hopened.within s t hmem).imp (hleft ·) (hright ·)⟩

/-- A comparison opens no pair again, and stays in the regions its values lead to. -/
theorem OpenedOnce.compareAll {work : List (Value × Value)}
    (hopened : OpenedOnce left right opened)
    (hwork : ∀ a b, (a, b) ∈ work → h.reachable a ⊆ left ∧ h.reachable b ⊆ right) :
    OpenedOnce left right (h.compareAll opened work).opened := by
  fun_induction h.compareAll opened work with
  | case1 => exact hopened
  | case2 opened a b rest s t hb ha _ ih =>
      exact ih hopened fun c d hmem => hwork c d (List.mem_cons_of_mem _ hmem)
  | case3 opened a b rest s t hb ha hunknown _ ih =>
      obtain ⟨hleft, hright⟩ := hwork a b List.mem_cons_self
      apply ih (hopened.cons (fun hmem => hunknown (.inr hmem)) (hleft (reaches_own ha))
        (hright (reaches_own hb)))
      intro c d hmem
      rcases List.mem_append.1 hmem with hmem | hmem
      · obtain ⟨hc, hd⟩ := List.of_mem_zip hmem
        exact ⟨(reachable_subset_of_item ha hc).trans hleft,
          (reachable_subset_of_item hb hd).trans hright⟩
      · exact hwork c d (List.mem_cons_of_mem _ hmem)
  | case4 opened a b rest s t hb ha hunknown _ =>
      obtain ⟨hleft, hright⟩ := hwork a b List.mem_cons_self
      exact hopened.cons (fun hmem => hunknown (.inr hmem)) (hleft (reaches_own ha))
        (hright (reaches_own hb))
  | case5 opened a b rest hb ha _ ih =>
      exact ih hopened fun c d hmem => hwork c d (List.mem_cons_of_mem _ hmem)
  | case6 | case7 => exact hopened

end OpenedOnce

theorem openedOnce_compare (h : Heap) (a b : Value) :
    OpenedOnce (h.reachable a) (h.reachable b) (h.compare a b).opened := by
  have hnone : OpenedOnce (h.reachable a) (h.reachable b) [] := ⟨List.nodup_nil, by simp⟩
  apply hnone.compareAll
  intro c d hmem
  rw [List.mem_singleton] at hmem
  cases hmem
  exact ⟨subset_rfl, subset_rfl⟩

theorem OpenedOnce.length_le {region : Set StorageId} {opened : List (StorageId × StorageId)}
    (hopened : OpenedOnce region region opened) (hfinite : region.Finite) :
    opened.length ≤ region.ncard * region.ncard := by
  rw [← Set.ncard_prod]
  apply length_le_ncard (hfinite.prod hfinite) hopened.nodup
  rintro ⟨s, t⟩ hmem
  exact hopened.within s t hmem

/-! ## Storages are open once at a time -/

/-- The writes inside a write, with the storages that are open at each: an array that is not cut
writes its elements inside itself. -/
inductive NestedWrite (h : Heap) : List StorageId × Value → List StorageId × Value → Prop where
  | element {path : List StorageId} {v w : Value} {s : StorageId} (hv : v.storage? = some s)
      (hfresh : s ∉ path) (hw : w ∈ h.items s) : NestedWrite h (path, v) (s :: path, w)

/-- The storages open at a write inside `root` are all different, and `root` leads to them and to
what the written value leads to. -/
structure OpenPath (h : Heap) (root : Value) (path : List StorageId) (v : Value) : Prop where
  nodup : path.Nodup
  within : ∀ s ∈ path, s ∈ h.reachable root
  below : h.reachable v ⊆ h.reachable root

theorem openPath_root (h : Heap) (root : Value) : h.OpenPath root [] root :=
  ⟨List.nodup_nil, by simp, subset_rfl⟩

theorem OpenPath.nested {h : Heap} {root v w : Value} {path inner : List StorageId}
    (hpath : h.OpenPath root path v) (hnested : h.NestedWrite (path, v) (inner, w)) :
    h.OpenPath root inner w := by
  cases hnested with
  | element hv hfresh hw =>
      refine ⟨List.nodup_cons.2 ⟨hfresh, hpath.nodup⟩, ?_, ?_⟩
      · intro t ht
        rcases List.mem_cons.1 ht with rfl | ht
        · exact hpath.below (reaches_own hv)
        · exact hpath.within t ht
      · exact (reachable_subset_of_item hv hw).trans hpath.below

theorem openPath_of_nested (h : Heap) (root : Value) (write : List StorageId × Value)
    (hnested : Relation.ReflTransGen h.NestedWrite ([], root) write) :
    h.OpenPath root write.1 write.2 := by
  induction hnested with
  | refl => exact h.openPath_root root
  | tail _ hstep ih => exact ih.nested hstep

theorem finite_unopened (h : Heap) (v : Value) (path : List StorageId) :
    (h.reachable v \ {t | t ∈ path}).Finite :=
  (h.finite_reachable v).subset Set.sdiff_subset

/-- Going into an array that is not open leaves fewer storages to open. -/
theorem ncard_unopened_lt {h : Heap} {path : List StorageId} {v w : Value} {s : StorageId}
    (hv : v.storage? = some s) (hfresh : s ∉ path) (hw : w ∈ h.items s) :
    (h.reachable w \ {t | t ∈ s :: path}).ncard < (h.reachable v \ {t | t ∈ path}).ncard := by
  apply Set.ncard_lt_ncard _ (h.finite_unopened v path)
  rw [Set.ssubset_iff_of_subset]
  · exact ⟨s, ⟨reaches_own hv, hfresh⟩, fun hs => hs.2 List.mem_cons_self⟩
  · rintro t ⟨ht, hpath⟩
    exact ⟨reachable_subset_of_item hv hw ht, fun hmem => hpath (List.mem_cons_of_mem s hmem)⟩

/-! ## Writing by bare recursion -/

/-- The drafts that writing a value can end with, at most `depth` arrays deep: an array takes the
draft from element to element. -/
inductive Writes (h : Heap) (quoted : Bool) : Nat → Value → Draft → Draft → Prop where
  | scalar {depth v draft} (hv : v.storage? = none) :
      Writes h quoted depth v draft (draft.put (v.scalarText quoted))
  | backReference {depth v draft s} (hv : v.storage? = some s) (hs : s ∈ draft.outer) :
      Writes h quoted depth v draft (draft.put "[...]")
  | elements {depth v draft s} {drafts : Nat → Draft} (hv : v.storage? = some s)
      (hs : s ∉ draft.outer) (hfirst : drafts 0 = (draft.enter s).put "[")
      (hitems : ∀ i (hi : i < (h.items s).length),
        Writes h quoted depth (h.items s)[i] ((drafts i).separate i) (drafts (i + 1))) :
      Writes h quoted (depth + 1) v draft ((drafts (h.items s).length).leave.put "]")

/-- The draft inside an array after so many of its elements. -/
def draftAfter (h : Heap) (quoted : Bool) (s : StorageId) (draft : Draft) (count : Nat) : Draft :=
  ((h.items s).zipIdx.take count).foldl
    (fun filled item => (h.writeText quoted item.1 (filled.separate item.2)).1)
    ((draft.enter s).put "[")

section

variable {h : Heap} {quoted : Bool} {s : StorageId} {draft : Draft}

theorem draftAfter_zero : h.draftAfter quoted s draft 0 = (draft.enter s).put "[" := rfl

theorem draftAfter_succ {i : Nat} (hi : i < (h.items s).length) :
    h.draftAfter quoted s draft (i + 1) =
      (h.writeText quoted (h.items s)[i] ((h.draftAfter quoted s draft i).separate i)).1 := by
  have hlength : i < (h.items s).zipIdx.length := by simpa using hi
  simp only [draftAfter, ← List.take_append_getElem hlength, List.foldl_append, List.foldl_cons,
    List.foldl_nil, List.getElem_zipIdx, Nat.zero_add]

theorem outer_draftAfter {count : Nat} (hcount : count ≤ (h.items s).length) :
    (h.draftAfter quoted s draft count).outer = s :: draft.outer := by
  induction count with
  | zero => rfl
  | succ i ih =>
    rw [draftAfter_succ hcount, (h.writeText quoted _ _).2, Draft.outer_separate]
    exact ih (Nat.le_of_succ_le hcount)

theorem writeText_eq_draftAfter {v : Value} (hv : v.storage? = some s) (hs : s ∉ draft.outer) :
    (h.writeText quoted v draft).1 =
      (h.draftAfter quoted s draft (h.items s).length).leave.put "]" := by
  have hall : (h.items s).zipIdx.take (h.items s).length = (h.items s).zipIdx :=
    List.take_of_length_le (by simp)
  rw [writeText_of_not_mem h quoted hv hs, draftAfter, hall]

end

theorem Writes.eq_writeText {h : Heap} {quoted : Bool} {depth : Nat} {v : Value}
    {draft after : Draft} (hwrites : h.Writes quoted depth v draft after) :
    after = (h.writeText quoted v draft).1 := by
  induction hwrites with
  | scalar hv => rw [writeText_of_scalar h quoted _ hv]
  | backReference hv hs => rw [writeText_of_mem h quoted hv hs]
  | @elements depth v draft s drafts hv hs hfirst _ ih =>
    have hdrafts : ∀ count, count ≤ (h.items s).length →
        drafts count = h.draftAfter quoted s draft count := by
      intro count hcount
      induction count with
      | zero => exact hfirst
      | succ i ihcount =>
        rw [ih i hcount, draftAfter_succ hcount, ihcount (Nat.le_of_succ_le hcount)]
    rw [writeText_eq_draftAfter hv hs, hdrafts _ le_rfl]

/-- Writing ends within as many open storages as there are left to open: `depth` is a bound on them,
and each array that is gone into leaves one less to its elements. -/
theorem writes_writeText (h : Heap) (quoted : Bool) (depth : Nat) (v : Value) (draft : Draft)
    (hdepth : (h.reachable v \ {t | t ∈ draft.outer}).ncard ≤ depth) :
    h.Writes quoted depth v draft (h.writeText quoted v draft).1 := by
  induction depth using Nat.strong_induction_on generalizing v draft with
  | _ depth ih =>
    cases hv : v.storage? with
    | none =>
      rw [writeText_of_scalar h quoted draft hv]
      exact .scalar hv
    | some s =>
      by_cases hs : s ∈ draft.outer
      · rw [writeText_of_mem h quoted hv hs]
        exact .backReference hv hs
      · -- the storage itself is still to be opened, so the bound is not used up
        have hunopened : s ∈ h.reachable v \ {t | t ∈ draft.outer} := ⟨reaches_own hv, hs⟩
        have hpositive := (Set.ncard_pos (h.finite_unopened v draft.outer)).2 ⟨s, hunopened⟩
        obtain ⟨inner, rfl⟩ : ∃ inner, depth = inner + 1 := ⟨depth - 1, by omega⟩
        rw [writeText_eq_draftAfter hv hs]
        apply Writes.elements hv hs draftAfter_zero
        intro i hi
        have hless := ncard_unopened_lt hv hs (List.getElem_mem hi)
        rw [draftAfter_succ hi]
        apply ih inner (Nat.lt_succ_self inner)
        rw [Draft.outer_separate, outer_draftAfter hi.le]
        omega

/-- Comparing and writing end on every heap, though nothing in their recursion bounds them.  A
comparison opens each pair of storages that its values lead to at most once; what is written has no
storage open twice, so that no more are open than the value leads to. -/
theorem traversals_end (h : Heap) :
    (∀ a b,
      let region := h.reachable a ∪ h.reachable b
      let opened := (h.compare a b).opened
      (∀ outcome, h.Compares [] [(a, b)] outcome ↔ outcome = h.compare a b) ∧
        opened.Nodup ∧ (∀ s t, (s, t) ∈ opened → s ∈ region ∧ t ∈ region) ∧
        region.Finite ∧ opened.length ≤ region.ncard * region.ncard) ∧
    ∀ v,
      let region := h.reachable v
      region.Finite ∧
      (∀ path w, Relation.ReflTransGen h.NestedWrite ([], v) (path, w) →
        path.Nodup ∧ (∀ s ∈ path, s ∈ region) ∧ path.length ≤ region.ncard) ∧
      ∀ quoted text after, h.Writes quoted region.ncard v ⟨text, []⟩ after ↔
        after = (h.writeText quoted v ⟨text, []⟩).1 := by
  constructor
  · intro a b region opened
    have hfinite : region.Finite := (h.finite_reachable a).union (h.finite_reachable b)
    have hopened : OpenedOnce region region opened :=
      (h.openedOnce_compare a b).mono Set.subset_union_left Set.subset_union_right
    exact ⟨h.compares_iff a b, hopened.nodup, hopened.within, hfinite, hopened.length_le hfinite⟩
  · intro v region
    have hfinite : region.Finite := h.finite_reachable v
    refine ⟨hfinite, ?_, ?_⟩
    · intro path w hnested
      have hpath := h.openPath_of_nested v (path, w) hnested
      exact ⟨hpath.nodup, hpath.within, length_le_ncard hfinite hpath.nodup hpath.within⟩
    · intro quoted text after
      constructor
      · intro hwrites
        exact hwrites.eq_writeText
      · rintro rfl
        apply writes_writeText
        exact Set.ncard_le_ncard Set.sdiff_subset hfinite

/-- Two arrays that contain each other, and one that contains itself: the comparison opens a pair
for each of the two, and the text has both of them open where it cuts. -/
theorem traversals_of_rings_end :
    let h : Heap := ⟨#[⟨.any, [.array ⟨0⟩, .int64 1], by decide⟩,
      ⟨.any, [.list ⟨2⟩, .int64 1], by decide⟩, ⟨.any, [.array ⟨1⟩, .int64 1], by decide⟩], #[]⟩
    let a := Value.array ⟨0⟩
    let b := Value.array ⟨1⟩
    h.Compares [] [(a, b)] ⟨true, [(⟨0⟩, ⟨2⟩), (⟨0⟩, ⟨1⟩)]⟩ ∧
      Relation.ReflTransGen h.NestedWrite ([], b) ([⟨2⟩, ⟨1⟩], b) ∧
      [(⟨2⟩ : StorageId), ⟨1⟩].length ≤ (h.reachable b).ncard ∧
      h.Writes false (h.reachable b).ncard b .empty ⟨"[[[...], 1], 1]", []⟩ := by
  intro h a b
  obtain ⟨hcompare, hwrite⟩ := traversals_end h
  have houtcome : h.compare a b = ⟨true, [(⟨0⟩, ⟨2⟩), (⟨0⟩, ⟨1⟩)]⟩ := by cbv
  have hlist : h.NestedWrite ([], b) ([⟨1⟩], .list ⟨2⟩) := .element rfl (by decide) (by decide)
  have hring : h.NestedWrite ([⟨1⟩], .list ⟨2⟩) ([⟨2⟩, ⟨1⟩], b) :=
    .element rfl (by decide) (by decide)
  have hnested : Relation.ReflTransGen h.NestedWrite ([], b) ([⟨2⟩, ⟨1⟩], b) :=
    (Relation.ReflTransGen.single hlist).tail hring
  have htext : h.textInside false [] b = "[[[...], 1], 1]" := by cbv
  have hcut : (h.writeText false b .empty).1 = ⟨"[[[...], 1], 1]", []⟩ := by
    rw [Draft.empty, writeText_eq, htext, String.empty_append]
  obtain ⟨_, hpaths, hends⟩ := hwrite b
  obtain ⟨_, _, hlength⟩ := hpaths _ _ hnested
  exact ⟨((hcompare a b).1 _).2 houtcome.symm, hnested, hlength, (hends false "" _).2 hcut.symm⟩

end LateBinding.Heap

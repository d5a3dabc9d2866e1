import LateBinding.Dispatch.InlineCache
import LateBinding.Proofs.NumericEquality
import Mathlib.Data.List.Forall2
import Mathlib.Order.FixedPoints

/-!
# Equality is bisimilarity

Content equality of values is the greatest relation that looks at elements pair by pair.  The pairs
that a comparison has opened by its end justify each other, so they lie in that relation although
the comparison took them for granted; and two related values never run into a difference.
-/

namespace LateBinding

/-- Agreement of two values without elements: the same variant and equal, where floats compare as
IEEE 754 has it. -/
def Value.Alike : Value → Value → Prop
  | .float64 x, .float64 y => x.SameNumber y
  | .float32 x, .float32 y => x.SameNumber y
  | v, w => v = w

theorem Value.sameScalar_eq_true_iff (a b : Value) : a.sameScalar b = true ↔ a.Alike b := by
  unfold sameScalar Alike
  split
  · exact Binary.equal_eq_true_iff (by decide)
  · exact Binary.equal_eq_true_iff (by decide)
  · simp

namespace Value

/-- Equality of two values as long as storages are compared by `contents`: two that name storages
share theirs or have related ones, and two without elements agree. -/
def EqualUpTo (contents : StorageId → StorageId → Prop) (a b : Value) : Prop :=
  match a.storage?, b.storage? with
  | some s, some t => s = t ∨ contents s t
  | none, none => a.Alike b
  | _, _ => False

variable {contents others : StorageId → StorageId → Prop} {a b : Value} {s t : StorageId}

theorem equalUpTo_iff_of_storages (ha : a.storage? = some s) (hb : b.storage? = some t) :
    EqualUpTo contents a b ↔ s = t ∨ contents s t := by
  simp only [EqualUpTo, ha, hb]

theorem equalUpTo_iff_of_scalars (ha : a.storage? = none) (hb : b.storage? = none) :
    EqualUpTo contents a b ↔ a.Alike b := by
  simp only [EqualUpTo, ha, hb]

theorem EqualUpTo.storages_or_scalars (hequal : EqualUpTo contents a b) :
    (∃ s t, a.storage? = some s ∧ b.storage? = some t) ∨
      a.storage? = none ∧ b.storage? = none := by
  unfold EqualUpTo at hequal
  cases ha : a.storage? <;> cases hb : b.storage? <;> simp_all

theorem EqualUpTo.imp (hequal : EqualUpTo contents a b)
    (himp : ∀ s t, contents s t → others s t) : EqualUpTo others a b := by
  rcases hequal.storages_or_scalars with ⟨s, t, ha, hb⟩ | ⟨ha, hb⟩
  · rw [equalUpTo_iff_of_storages ha hb] at hequal ⊢
    exact hequal.imp_right (himp s t)
  · rw [equalUpTo_iff_of_scalars ha hb] at hequal ⊢
    exact hequal

end Value

namespace Heap

/-- Two values match up to a relation if they are equal as long as storages are compared element by
element. -/
def Matches (h : Heap) (R : Value → Value → Prop) : Value → Value → Prop :=
  Value.EqualUpTo fun s t => List.Forall₂ R (h.items s) (h.items t)

theorem Matches.mono {h : Heap} {R S : Value → Value → Prop} (hsub : ∀ a b, R a b → S a b)
    {a b : Value} (hmatches : h.Matches R a b) : h.Matches S a b :=
  hmatches.imp fun _ _ hitems => hitems.imp hsub

/-- Matching as a monotone map on relations. -/
def matching (h : Heap) : (Value → Value → Prop) →o (Value → Value → Prop) where
  toFun := h.Matches
  monotone' := fun _ _ hsub _ _ => Matches.mono hsub

/-- The greatest relation in which two values are related exactly if they match. -/
def Bisimilar (h : Heap) : Value → Value → Prop :=
  h.matching.gfp

theorem bisimilar_iff_matches (h : Heap) (a b : Value) :
    h.Bisimilar a b ↔ h.Matches h.Bisimilar a b := by
  have hfixed : h.matching h.Bisimilar = h.Bisimilar := h.matching.map_gfp
  exact iff_of_eq (congrFun₂ hfixed a b).symm

theorem bisimilar_of_matches {h : Heap} {R : Value → Value → Prop}
    (hmatches : ∀ a b, R a b → h.Matches R a b) {a b : Value} (hrelated : R a b) :
    h.Bisimilar a b :=
  h.matching.le_gfp hmatches a b hrelated

theorem isGreatest_bisimilar (h : Heap) :
    IsGreatest {R : Value → Value → Prop | ∀ a b, R a b ↔ h.Matches R a b} h.Bisimilar := by
  constructor
  · exact h.bisimilar_iff_matches
  · intro R hfixed a b hrelated
    exact bisimilar_of_matches (fun a b => (hfixed a b).1) hrelated

/-! ## Equal values are bisimilar -/

/-- Two values are equal at once, given that some pairs of storages are taken as equal. -/
def Settled (opened : List (StorageId × StorageId)) : Value → Value → Prop :=
  Value.EqualUpTo fun s t => (s, t) ∈ opened

/-- The pairs opened by the end settle the work list, and each of them that is new has elements
that they settle. -/
structure Justifies (h : Heap) (opened : List (StorageId × StorageId))
    (work : List (Value × Value)) (final : List (StorageId × StorageId)) : Prop where
  keeps : opened ⊆ final
  settles : ∀ a b, (a, b) ∈ work → Settled final a b
  grows : ∀ s t, (s, t) ∈ final →
    (s, t) ∈ opened ∨ List.Forall₂ (Settled final) (h.items s) (h.items t)

section Justifies

variable {h : Heap} {opened final : List (StorageId × StorageId)}
  {rest : List (Value × Value)} {a b : Value} {s t : StorageId}

theorem Justifies.cons_settled (hrest : h.Justifies opened rest final)
    (hsettled : Settled final a b) : h.Justifies opened ((a, b) :: rest) final := by
  refine ⟨hrest.keeps, ?_, hrest.grows⟩
  intro c d hmem
  rcases List.mem_cons.1 hmem with heq | hmem
  · cases heq
    exact hsettled
  · exact hrest.settles c d hmem

theorem Justifies.cons_opened (ha : a.storage? = some s) (hb : b.storage? = some t)
    (hlength : (h.items s).length = (h.items t).length)
    (hinner : h.Justifies ((s, t) :: opened) ((h.items s).zip (h.items t) ++ rest) final) :
    h.Justifies opened ((a, b) :: rest) final := by
  have hpair : (s, t) ∈ final := hinner.keeps List.mem_cons_self
  have hitems : List.Forall₂ (Settled final) (h.items s) (h.items t) := by
    rw [List.forall₂_iff_zip]
    refine ⟨hlength, ?_⟩
    intro c d hmem
    exact hinner.settles c d (List.mem_append_left rest hmem)
  constructor
  · exact List.subset_of_cons_subset hinner.keeps
  · intro c d hmem
    rcases List.mem_cons.1 hmem with heq | hmem
    · cases heq
      exact (Value.equalUpTo_iff_of_storages ha hb).2 (.inr hpair)
    · exact hinner.settles c d (List.mem_append_right _ hmem)
  · intro u v hmem
    rcases hinner.grows u v hmem with hopened | hitems'
    · rcases List.mem_cons.1 hopened with heq | hopened
      · cases heq
        exact .inr hitems
      · exact .inl hopened
    · exact .inr hitems'

end Justifies

theorem justifies_of_compareAll (h : Heap) (opened : List (StorageId × StorageId))
    (work : List (Value × Value)) (hsame : (h.compareAll opened work).same = true) :
    h.Justifies opened work (h.compareAll opened work).opened := by
  fun_induction h.compareAll opened work with
  | case1 opened =>
      refine ⟨List.Subset.refl opened, ?_, ?_⟩
      · intro a b hmem
        cases hmem
      · intro s t hmem
        exact .inl hmem
  | case2 opened a b rest s t hb ha hknown ih =>
      have hrest := ih hsame
      have hkept : s = t ∨ (s, t) ∈ (h.compareAll opened rest).opened :=
        hknown.imp_right fun hmem => hrest.keeps hmem
      exact hrest.cons_settled ((Value.equalUpTo_iff_of_storages ha hb).2 hkept)
  | case3 opened a b rest s t hb ha _ hlength ih => exact (ih hsame).cons_opened ha hb hlength
  | case5 opened a b rest hb ha hscalar ih =>
      apply (ih hsame).cons_settled
      exact (Value.equalUpTo_iff_of_scalars ha hb).2 ((Value.sameScalar_eq_true_iff a b).1 hscalar)
  -- the other branches have found a difference
  | case4 | case6 | case7 => cases hsame

theorem Justifies.matches_of_settled {h : Heap} {work : List (Value × Value)}
    {final : List (StorageId × StorageId)} (hjustifies : h.Justifies [] work final) {a b : Value}
    (hsettled : Settled final a b) : h.Matches (Settled final) a b := by
  apply hsettled.imp
  intro s t hmem
  rcases hjustifies.grows s t hmem with hnone | hitems
  · cases hnone
  · exact hitems

theorem bisimilar_of_equal {h : Heap} {a b : Value} (hequal : h.equal a b = true) :
    h.Bisimilar a b := by
  have hjustifies := h.justifies_of_compareAll [] [(a, b)] hequal
  exact bisimilar_of_matches (fun _ _ => hjustifies.matches_of_settled)
    (hjustifies.settles a b List.mem_cons_self)

/-! ## Bisimilar values are equal -/

/-- Related values never run into a difference, whatever pairs are taken as equal on the way. -/
theorem same_compareAll {h : Heap} {R : Value → Value → Prop}
    (hmatches : ∀ a b, R a b → h.Matches R a b) (opened : List (StorageId × StorageId))
    (work : List (Value × Value)) (hwork : ∀ a b, (a, b) ∈ work → R a b) :
    (h.compareAll opened work).same = true := by
  fun_induction h.compareAll opened work with
  | case1 => rfl
  | case2 opened a b rest s t hb ha _ ih =>
      exact ih fun c d hmem => hwork c d (List.mem_cons_of_mem _ hmem)
  | case3 opened a b rest s t hb ha hunknown _ ih =>
      have hpair := hmatches a b (hwork a b List.mem_cons_self)
      have hstorages := (Value.equalUpTo_iff_of_storages ha hb).1 hpair
      apply ih
      intro c d hmem
      rcases List.mem_append.1 hmem with hmem | hmem
      · rcases hstorages with hsame | hitems
        · exact absurd (.inl hsame) hunknown
        · exact (List.forall₂_iff_zip.1 hitems).2 hmem
      · exact hwork c d (List.mem_cons_of_mem _ hmem)
  | case4 opened a b rest s t hb ha hunknown hlength =>
      have hpair := hmatches a b (hwork a b List.mem_cons_self)
      have hstorages := (Value.equalUpTo_iff_of_storages ha hb).1 hpair
      rcases hstorages with hsame | hitems
      · exact absurd (.inl hsame) hunknown
      · exact absurd hitems.length_eq hlength
  | case5 opened a b rest hb ha _ ih =>
      exact ih fun c d hmem => hwork c d (List.mem_cons_of_mem _ hmem)
  | case6 opened a b rest hb ha hscalar =>
      have hpair := hmatches a b (hwork a b List.mem_cons_self)
      have halike := (Value.equalUpTo_iff_of_scalars ha hb).1 hpair
      exact absurd ((Value.sameScalar_eq_true_iff a b).2 halike) hscalar
  | case7 opened a b rest hstorages hscalars =>
      have hpair := hmatches a b (hwork a b List.mem_cons_self)
      rcases hpair.storages_or_scalars with ⟨s, t, ha, hb⟩ | ⟨ha, hb⟩
      · exact (hstorages s t ha hb).elim
      · exact (hscalars ha hb).elim

theorem equal_of_bisimilar {h : Heap} {a b : Value} (hbisimilar : h.Bisimilar a b) :
    h.equal a b = true := by
  apply same_compareAll (fun a b => (h.bisimilar_iff_matches a b).1)
  intro c d hmem
  rw [List.mem_singleton] at hmem
  cases hmem
  exact hbisimilar

theorem equal_eq_true_iff_bisimilar {h : Heap} {a b : Value} :
    h.equal a b = true ↔ h.Bisimilar a b :=
  ⟨bisimilar_of_equal, equal_of_bisimilar⟩

/-- Equality is the greatest relation that relates two values exactly if they match, and it is what
the operation on arrays answers. -/
theorem equal_decides_bisimilarity (h : Heap) :
    IsGreatest {R : Value → Value → Prop | ∀ a b, R a b ↔ h.Matches R a b}
      (fun a b => h.equal a b = true) ∧
    (∀ s t, Primitive.equals [.array s, .array t] h =
      (.ok (.bool (h.equal (.array s) (.array t))), h)) ∧
    ∀ limit objects s t,
      let reply := (InlineCache.fresh (.dynamic "equals" 1) limit objects).call
        [.array s, .array t] h
      reply.answer = .ok (.bool (h.equal (.array s) (.array t))) ∧ reply.heap = h := by
  have hbisimilar : (fun a b => h.equal a b = true) = h.Bisimilar := by
    funext a b
    exact propext equal_eq_true_iff_bisimilar
  refine ⟨?_, ?_, ?_⟩
  · rw [hbisimilar]
    exact h.isGreatest_bisimilar
  · intro s t
    rfl
  · intro limit objects s t
    exact ⟨rfl, rfl⟩

end Heap

end LateBinding

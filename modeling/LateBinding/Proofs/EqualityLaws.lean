import LateBinding.Proofs.Bisimilarity

/-!
# Laws of equality

Content equality is symmetric and transitive on every heap, and it relates every value to itself
but a NaN: storages settle equality by their identity, so a NaN inside an array does no harm.  The
laws hold because bisimilarity can be turned round and composed, whatever pairs the comparisons
open on their way.

Equality of two storages as contents compares each element from scratch.  It agrees with equality
of the arrays up to what sharing a storage and the element type change.
-/

namespace LateBinding

namespace Binary

variable {f : FloatFormat} {x y z : Binary f}

theorem SameNumber.symm (hsame : x.SameNumber y) : y.SameNumber x := by
  cases hsame with
  | finite hx hy hvalue => exact .finite hy hx hvalue.symm
  | infinite hx hy hsign => exact .infinite hy hx hsign.symm

theorem not_isFinite_of_isInfinite (hinfinite : x.isInfinite = true) : ¬x.IsFinite := by
  simp only [isInfinite, Bool.and_eq_true, beq_iff_eq] at hinfinite
  exact fun hfinite => hfinite hinfinite.1

theorem not_isFinite_of_isNaN (hnan : x.isNaN = true) : ¬x.IsFinite := by
  intro hfinite
  rw [isNaN_of_isFinite hfinite] at hnan
  contradiction

theorem not_isInfinite_of_isNaN (hnan : x.isNaN = true) : ¬x.isInfinite = true := by
  intro hinfinite
  rw [isNaN_of_isInfinite hinfinite] at hnan
  contradiction

theorem isFinite_or_isInfinite_or_isNaN (x : Binary f) :
    x.IsFinite ∨ x.isInfinite = true ∨ x.isNaN = true := by
  by_cases hexponent : x.exponent.toNat = f.topExponent
  · right
    by_cases hfraction : x.fraction.toNat = 0
    · left
      simp [isInfinite, hexponent, hfraction]
    · right
      simp [isNaN, hexponent, hfraction]
  · exact .inl hexponent

theorem sameNumber_iff_value_eq (hx : x.IsFinite) (hy : y.IsFinite) :
    x.SameNumber y ↔ x.value = y.value := by
  constructor
  · rintro (⟨-, -, hvalue⟩ | ⟨hinfinite, -, -⟩)
    · exact hvalue
    · exact absurd hx (not_isFinite_of_isInfinite hinfinite)
  · exact .finite hx hy

theorem SameNumber.trans (hxy : x.SameNumber y) (hyz : y.SameNumber z) : x.SameNumber z := by
  cases hxy with
  | finite hx hy hvalue =>
      cases hyz with
      | finite _ hz hvalue' => exact .finite hx hz (hvalue.trans hvalue')
      | infinite hinfinite => exact absurd hy (not_isFinite_of_isInfinite hinfinite)
  | infinite hx hy hsign =>
      cases hyz with
      | finite hfinite => exact absurd hfinite (not_isFinite_of_isInfinite hy)
      | infinite _ hz hsign' => exact .infinite hx hz (hsign.trans hsign')

theorem sameNumber_self_iff : x.SameNumber x ↔ x.isNaN = false := by
  constructor
  · intro hsame
    cases hsame with
    | finite hfinite => exact isNaN_of_isFinite hfinite
    | infinite hinfinite => exact isNaN_of_isInfinite hinfinite
  · exact sameNumber_self

end Binary

namespace Value

/-- A NaN itself, not an array that holds one. -/
def isNaN : Value → Bool
  | .float64 x => x.isNaN
  | .float32 x => x.isNaN
  | _ => false

variable {a b c : Value}

theorem isNaN_of_storage? {s : StorageId} (ha : a.storage? = some s) : a.isNaN = false := by
  cases a <;> simp_all [storage?, isNaN]

/-! ## Values without elements -/

theorem Alike.cases (halike : a.Alike b) :
    (∃ x y, a = .float64 x ∧ b = .float64 y ∧ x.SameNumber y) ∨
      (∃ x y, a = .float32 x ∧ b = .float32 y ∧ x.SameNumber y) ∨ a = b := by
  unfold Alike at halike
  split at halike
  · exact .inl ⟨_, _, rfl, rfl, halike⟩
  · exact .inr (.inl ⟨_, _, rfl, rfl, halike⟩)
  · exact .inr (.inr halike)

theorem Alike.symm (halike : a.Alike b) : b.Alike a := by
  rcases halike.cases with ⟨x, y, rfl, rfl, hsame⟩ | ⟨x, y, rfl, rfl, hsame⟩ | rfl
  · exact hsame.symm
  · exact hsame.symm
  · exact halike

theorem Alike.trans (hab : a.Alike b) (hbc : b.Alike c) : a.Alike c := by
  rcases hab.cases with ⟨x, y, rfl, rfl, hxy⟩ | ⟨x, y, rfl, rfl, hxy⟩ | rfl
  · cases c with
    | float64 z => exact hxy.trans hbc
    | _ => cases hbc
  · cases c with
    | float32 z => exact hxy.trans hbc
    | _ => cases hbc
  · exact hbc

theorem alike_self_iff (a : Value) : a.Alike a ↔ a.isNaN = false := by
  cases a <;> simp [Alike, isNaN, Binary.sameNumber_self_iff]

/-! ## Values up to their storages -/

variable {first second : StorageId → StorageId → Prop}

theorem EqualUpTo.symm (hequal : EqualUpTo first a b) :
    EqualUpTo (fun s t => first t s) b a := by
  rcases hequal.storages_or_scalars with ⟨s, t, ha, hb⟩ | ⟨ha, hb⟩
  · rw [equalUpTo_iff_of_storages ha hb] at hequal
    rw [equalUpTo_iff_of_storages hb ha]
    exact hequal.imp_left Eq.symm
  · rw [equalUpTo_iff_of_scalars ha hb] at hequal
    rw [equalUpTo_iff_of_scalars hb ha]
    exact hequal.symm

theorem EqualUpTo.trans (hab : EqualUpTo first a b) (hbc : EqualUpTo second b c) :
    EqualUpTo (fun s u => first s u ∨ second s u ∨ ∃ t, first s t ∧ second t u) a c := by
  rcases hab.storages_or_scalars with ⟨s, t, ha, hb⟩ | ⟨ha, hb⟩
  · rcases hbc.storages_or_scalars with ⟨t', u, hb', hc⟩ | ⟨hb', _⟩
    · cases hb.symm.trans hb'
      rw [equalUpTo_iff_of_storages ha hb] at hab
      rw [equalUpTo_iff_of_storages hb hc] at hbc
      rw [equalUpTo_iff_of_storages ha hc]
      rcases hab with rfl | hst
      · exact hbc.imp_right fun htu => .inr (.inl htu)
      · rcases hbc with rfl | htu
        · exact .inr (.inl hst)
        · exact .inr (.inr (.inr ⟨t, hst, htu⟩))
    · cases hb.symm.trans hb'
  · rcases hbc.storages_or_scalars with ⟨t, u, hb', _⟩ | ⟨_, hc⟩
    · cases hb.symm.trans hb'
    · rw [equalUpTo_iff_of_scalars ha hb] at hab
      rw [equalUpTo_iff_of_scalars hb hc] at hbc
      rw [equalUpTo_iff_of_scalars ha hc]
      exact hab.trans hbc

end Value

theorem forall₂_comp {R S : Value → Value → Prop} {xs ys zs : List Value}
    (hxy : List.Forall₂ R xs ys) (hyz : List.Forall₂ S ys zs) :
    List.Forall₂ (fun x z => ∃ y, R x y ∧ S y z) xs zs := by
  induction hxy generalizing zs with
  | nil =>
      cases hyz
      exact .nil
  | cons hx _ ih =>
      cases hyz with
      | cons hy hrest => exact .cons ⟨_, hx, hy⟩ (ih hrest)

namespace Heap

variable {h : Heap} {a b c : Value}

/-! ## Bisimilarity -/

theorem Bisimilar.symm (hab : h.Bisimilar a b) : h.Bisimilar b a := by
  apply bisimilar_of_matches (R := fun a b => h.Bisimilar b a) _ hab
  intro a b hba
  have hmatches := ((h.bisimilar_iff_matches b a).1 hba).symm
  exact hmatches.imp fun s t hitems => hitems.flip

/-- The compositions of bisimilar pairs match, once the bisimilar pairs are added: where the storage
in the middle is shared, only one of the two sides has related elements. -/
theorem Bisimilar.trans (hab : h.Bisimilar a b) (hbc : h.Bisimilar b c) : h.Bisimilar a c := by
  let R : Value → Value → Prop := fun a c =>
    h.Bisimilar a c ∨ ∃ b, h.Bisimilar a b ∧ h.Bisimilar b c
  have hmatches : ∀ a c, R a c → h.Matches R a c := by
    rintro a c (hac | ⟨b, hab, hbc⟩)
    · exact ((h.bisimilar_iff_matches a c).1 hac).mono fun _ _ => .inl
    · have hab' := (h.bisimilar_iff_matches a b).1 hab
      have hbc' := (h.bisimilar_iff_matches b c).1 hbc
      apply (Value.EqualUpTo.trans hab' hbc').imp
      rintro s u (hitems | hitems | ⟨t, hst, htu⟩)
      · exact hitems.imp fun _ _ => .inl
      · exact hitems.imp fun _ _ => .inl
      · exact (forall₂_comp hst htu).imp fun _ _ => .inr
  exact bisimilar_of_matches hmatches (.inr ⟨b, hab, hbc⟩)

theorem bisimilar_of_storage {s : StorageId} (ha : a.storage? = some s)
    (hb : b.storage? = some s) : h.Bisimilar a b :=
  (h.bisimilar_iff_matches a b).2 ((Value.equalUpTo_iff_of_storages ha hb).2 (.inl rfl))

theorem bisimilar_self_iff (a : Value) : h.Bisimilar a a ↔ a.isNaN = false := by
  cases ha : a.storage? with
  | some s => simp only [bisimilar_of_storage ha ha, Value.isNaN_of_storage? ha]
  | none =>
      rw [bisimilar_iff_matches, Matches, Value.equalUpTo_iff_of_scalars ha ha,
        Value.alike_self_iff]

/-! ## Equality of values -/

theorem equal_comm (h : Heap) (a b : Value) : h.equal a b = h.equal b a := by
  rw [Bool.eq_iff_iff, equal_eq_true_iff_bisimilar, equal_eq_true_iff_bisimilar]
  exact ⟨Bisimilar.symm, Bisimilar.symm⟩

theorem equal_self (h : Heap) (a : Value) : h.equal a a = !a.isNaN := by
  rw [Bool.eq_iff_iff, equal_eq_true_iff_bisimilar, bisimilar_self_iff, Bool.not_eq_true']

/-- Equality is a partial equivalence on every heap, and only a NaN itself differs from itself: any
two values on one storage are equal, whatever it holds. -/
theorem equal_partial_equivalence (h : Heap) :
    (∀ a b, h.equal a b = h.equal b a) ∧
    (∀ a b c, h.equal a b = true → h.equal b c = true → h.equal a c = true) ∧
    (∀ a, h.equal a a = !a.isNaN) ∧
    ∀ a b s, a.storage? = some s → b.storage? = some s → h.equal a b = true := by
  refine ⟨h.equal_comm, ?_, h.equal_self, ?_⟩
  · intro a b c hab hbc
    rw [equal_eq_true_iff_bisimilar] at hab hbc ⊢
    exact hab.trans hbc
  · intro a b s ha hb
    exact equal_eq_true_iff_bisimilar.2 (bisimilar_of_storage ha hb)

/-- Two arrays that contain each other are both equal to one that contains itself, by a list view in
the middle; an array of a NaN equals its list view though the NaN does not equal itself. -/
theorem equal_through_cycles :
    let nan : Double := ⟨false, -1, 1⟩
    let h : Heap := ⟨#[⟨.any, [.array ⟨0⟩, .int64 1], by decide⟩,
      ⟨.any, [.list ⟨2⟩, .int64 1], by decide⟩, ⟨.any, [.array ⟨1⟩, .int64 1], by decide⟩,
      ⟨.float64, [.float64 nan], by decide⟩], #[]⟩
    h.equal (.array ⟨0⟩) (.list ⟨1⟩) = true ∧ h.equal (.list ⟨1⟩) (.array ⟨2⟩) = true ∧
      h.equal (.array ⟨0⟩) (.array ⟨2⟩) = true ∧ h.equal (.array ⟨3⟩) (.list ⟨3⟩) = true ∧
      h.equal (.float64 nan) (.float64 nan) = false := by
  intro nan h
  have hfirst : h.equal (.array ⟨0⟩) (.list ⟨1⟩) = true := by cbv
  have hsecond : h.equal (.list ⟨1⟩) (.array ⟨2⟩) = true := by cbv
  obtain ⟨_, htrans, hself, hshared⟩ := equal_partial_equivalence h
  exact ⟨hfirst, hsecond, htrans _ _ _ hfirst hsecond, hshared _ _ ⟨3⟩ rfl rfl, hself _⟩

/-! ## Equality of contents -/

theorem sameContent_eq_true_iff (h : Heap) (s t : StorageId) :
    h.sameContent s t = true ↔ (h.storage s).elem = (h.storage t).elem ∧
      List.Forall₂ h.Bisimilar (h.items s) (h.items t) := by
  simp only [sameContent, Bool.and_eq_true, beq_iff_eq, List.all_eq_true, and_assoc,
    List.forall₂_iff_zip, Prod.forall, equal_eq_true_iff_bisimilar]

theorem equal_arrays_eq_true_iff (h : Heap) (s t : StorageId) :
    h.equal (.array s) (.array t) = true ↔
      s = t ∨ List.Forall₂ h.Bisimilar (h.items s) (h.items t) := by
  rw [equal_eq_true_iff_bisimilar, bisimilar_iff_matches]
  exact Value.equalUpTo_iff_of_storages rfl rfl

/-- Equality of contents and equality of the arrays agree on different storages of one element type.
One storage has the contents of itself unless a NaN is among its elements, and contents of different
element types differ. -/
theorem sameContent_agrees_with_equal (h : Heap) (s t : StorageId) :
    h.equal (.array s) (.array s) = true ∧
    h.sameContent s t =
      if (h.storage s).elem ≠ (h.storage t).elem then false
      else if s = t then (h.items s).all fun v => !v.isNaN
      else h.equal (.array s) (.array t) := by
  refine ⟨h.equal_self (.array s), ?_⟩
  rw [Bool.eq_iff_iff, sameContent_eq_true_iff]
  by_cases helem : (h.storage s).elem = (h.storage t).elem
  · by_cases hst : s = t
    · subst hst
      simp [List.forall₂_same, bisimilar_self_iff]
    · simp only [helem, hst, equal_arrays_eq_true_iff, ne_eq, not_true_eq_false, if_false, false_or,
        true_and]
  · simp only [helem, ne_eq, not_false_eq_true, if_true, false_and, Bool.false_eq_true]

end Heap

end LateBinding

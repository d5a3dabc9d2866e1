import Mathlib.Data.List.Forall2

/-!
# Maps that can fail

What the results of a map over a list, in `Option` or with a fault, say about its single steps.
-/

namespace LateBinding

variable {ε α β : Type} {as : List α}

section Option

variable {f : α → Option β}

theorem forall₂_of_mapM_eq_some {bs : List β} (hmap : as.mapM f = some bs) :
    List.Forall₂ (fun a b => f a = some b) as bs := by
  induction as generalizing bs with
  | nil =>
      simp only [List.mapM_nil, Option.pure_def, Option.some.injEq] at hmap
      subst bs
      exact .nil
  | cons a as ih =>
      simp only [List.mapM_cons, Option.bind_eq_bind, Option.pure_def, Option.bind_eq_some_iff,
        Option.some.injEq] at hmap
      obtain ⟨b, hb, rest, hrest, rfl⟩ := hmap
      exact .cons hb (ih hrest)

theorem exists_of_mapM_eq_none (hmap : as.mapM f = none) : ∃ a ∈ as, f a = none := by
  induction as with
  | nil => simp at hmap
  | cons a as ih =>
      cases ha : f a with
      | none => exact ⟨a, List.mem_cons_self, ha⟩
      | some b =>
          have hrest : as.mapM f = none := by
            cases hrest : as.mapM f with
            | none => rfl
            | some bs => simp [List.mapM_cons, ha, hrest] at hmap
          obtain ⟨other, hmem, hother⟩ := ih hrest
          exact ⟨other, List.mem_cons_of_mem a hmem, hother⟩

end Option

section Except

variable {f : α → Except ε β} {fault : ε}

theorem forall₂_of_mapM_eq_ok {bs : List β} (hmap : as.mapM f = .ok bs) :
    List.Forall₂ (fun a b => f a = .ok b) as bs := by
  induction as generalizing bs with
  | nil =>
      cases hmap
      exact .nil
  | cons a as ih =>
      rw [List.mapM_cons] at hmap
      cases ha : f a with
      | error first =>
          rw [ha] at hmap
          cases hmap
      | ok b =>
          rw [ha] at hmap
          cases hrest : as.mapM f with
          | error first =>
              rw [hrest] at hmap
              cases hmap
          | ok rest =>
              rw [hrest] at hmap
              cases hmap
              exact .cons ha (ih hrest)

/-- The fault of the map is that of its first step that fails. -/
theorem exists_first_of_mapM_eq_error (hmap : as.mapM f = .error fault) :
    ∃ (i : Nat) (a : α), as[i]? = some a ∧ f a = .error fault ∧
      ∀ (j : Nat) (b : α), j < i → as[j]? = some b → ∃ c, f b = .ok c := by
  induction as with
  | nil => cases hmap
  | cons a as ih =>
      rw [List.mapM_cons] at hmap
      cases ha : f a with
      | error first =>
          rw [ha] at hmap
          cases hmap
          exact ⟨0, a, rfl, ha, fun j b hj => absurd hj (Nat.not_lt_zero j)⟩
      | ok b =>
          rw [ha] at hmap
          cases hrest : as.mapM f with
          | ok bs =>
              rw [hrest] at hmap
              cases hmap
          | error first =>
              rw [hrest] at hmap
              cases hmap
              obtain ⟨i, other, hother, hfault, hbefore⟩ := ih hrest
              refine ⟨i + 1, other, hother, hfault, ?_⟩
              intro j c hj hc
              cases j with
              | zero =>
                  cases hc
                  exact ⟨b, ha⟩
              | succ j => exact hbefore j c (Nat.lt_of_succ_lt_succ hj) hc

theorem exists_of_mapM_eq_error (hmap : as.mapM f = .error fault) :
    ∃ a ∈ as, f a = .error fault := by
  obtain ⟨i, a, ha, hfault, _⟩ := exists_first_of_mapM_eq_error hmap
  exact ⟨a, List.mem_of_getElem? ha, hfault⟩

/-- The map fails where any step does, though with the fault of the first. -/
theorem mapM_eq_error_of_mem {a : α} (ha : a ∈ as) (hfault : f a = .error fault) :
    ∃ first, as.mapM f = .error first := by
  induction as with
  | nil => contradiction
  | cons head as ih =>
      rw [List.mapM_cons]
      cases hhead : f head with
      | error first => exact ⟨first, rfl⟩
      | ok b =>
          rcases List.mem_cons.1 ha with rfl | hmem
          · rw [hfault] at hhead
            contradiction
          · obtain ⟨first, hfirst⟩ := ih hmem
            rw [hfirst]
            exact ⟨first, rfl⟩

end Except

end LateBinding

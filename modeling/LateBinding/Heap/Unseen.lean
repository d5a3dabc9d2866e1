/-!
# Unseen members

A walk over a finite list of names that marks each name when it meets it first can take only as many
steps as there are unmarked names.  `unseen` is that number, and it falls with every fresh mark.
-/

namespace LateBinding

variable {α : Type} [DecidableEq α]

/-- How many members of a list are not in `seen`. -/
def unseen (members seen : List α) : Nat :=
  members.countP fun a => decide (a ∉ seen)

theorem unseen_cons_le (members seen : List α) (a : α) :
    unseen members (a :: seen) ≤ unseen members seen := by
  apply List.countP_mono_left
  intro b _ hb
  simp only [List.mem_cons, not_or, decide_eq_true_eq] at hb ⊢
  exact hb.2

theorem unseen_cons_lt {members seen : List α} {a : α} (hmem : a ∈ members)
    (hfresh : a ∉ seen) : unseen members (a :: seen) < unseen members seen := by
  induction members with
  | nil => contradiction
  | cons b rest ih =>
    by_cases hba : b = a
    · subst hba
      have hle := unseen_cons_le rest seen b
      simp only [unseen] at hle ⊢
      rw [List.countP_cons_of_neg (by simp), List.countP_cons_of_pos (by simpa using hfresh)]
      omega
    · have hlt := ih ((List.mem_cons.1 hmem).resolve_left fun heq => hba heq.symm)
      simp only [unseen] at hlt ⊢
      by_cases hseen : b ∈ seen
      · rw [List.countP_cons_of_neg (by simp [hseen]), List.countP_cons_of_neg (by simp [hseen])]
        exact hlt
      · rw [List.countP_cons_of_pos (by simp [hseen, hba]),
          List.countP_cons_of_pos (by simpa using hseen)]
        omega

theorem unseen_cons_of_not_mem {members seen : List α} {a : α} (hmem : a ∉ members) :
    unseen members (a :: seen) = unseen members seen := by
  apply List.countP_congr
  intro b hb
  have hba : b ≠ a := fun heq => hmem (heq ▸ hb)
  simp [hba]

end LateBinding

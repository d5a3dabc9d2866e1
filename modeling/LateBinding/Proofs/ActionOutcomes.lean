import LateBinding.Heap.Action

/-!
# Outcomes of actions

What holds of the values that an action gives, on whatever heap it runs, and what holds of the
faults that it can end with on one heap.  Each has a rule for every way of building an action.
-/

namespace LateBinding

namespace Action

variable {α β : Type}

/-- Whatever the action gives satisfies the predicate. -/
def Returns (action : Action α) (good : α → Prop) : Prop :=
  ∀ h a after, action h = (.ok a, after) → good a

/-- Whatever fault the action ends with on this heap satisfies the predicate. -/
def FailsOnlyWith (action : Action α) (h : Heap) (tolerated : CallFault → Prop) : Prop :=
  ∀ fault after, action h = (.error fault, after) → tolerated fault

/-! ## Inversion -/

section Inversion

variable {first : Action α} {next : α → Action β} {h after : Heap} {fault : CallFault}

theorem exists_of_bind_eq_ok {b : β} (hrun : (first >>= next) h = (.ok b, after)) :
    ∃ a mid, first h = (.ok a, mid) ∧ next a mid = (.ok b, after) := by
  rw [bind_apply] at hrun
  rcases hran : first h with ⟨failed | a, mid⟩
  · rw [hran] at hrun
    cases hrun
  · rw [hran] at hrun
    exact ⟨a, mid, rfl, hrun⟩

theorem bind_eq_error_cases (hrun : (first >>= next) h = (.error fault, after)) :
    first h = (.error fault, after) ∨
      ∃ a mid, first h = (.ok a, mid) ∧ next a mid = (.error fault, after) := by
  rw [bind_apply] at hrun
  rcases hran : first h with ⟨failed | a, mid⟩
  · rw [hran] at hrun
    cases hrun
    exact .inl rfl
  · rw [hran] at hrun
    exact .inr ⟨a, mid, rfl, hrun⟩

theorem eq_error_of_update {change : Heap → Except CallFault Heap}
    (hrun : update change h = (.error fault, after)) : change h = .error fault ∧ after = h := by
  unfold update at hrun
  cases hchange : change h with
  | ok changed =>
      rw [hchange] at hrun
      cases hrun
  | error failed =>
      rw [hchange] at hrun
      cases hrun
      exact ⟨rfl, rfl⟩

end Inversion

/-! ## Rules -/

section Returns

variable {good : β → Prop}

theorem returns_pure {b : β} (hgood : good b) : (pure b : Action β).Returns good := by
  intro h a after hrun
  cases hrun
  exact hgood

theorem returns_query {read : Heap → Except CallFault β}
    (hgood : ∀ h b, read h = .ok b → good b) : (query read).Returns good := by
  intro h b after hrun
  exact hgood h b (Prod.mk.inj hrun).1

theorem returns_bind_of_returns {first : Action α} {next : α → Action β} {passed : α → Prop}
    (hfirst : first.Returns passed) (hnext : ∀ a, passed a → (next a).Returns good) :
    (first >>= next).Returns good := by
  intro h b after hrun
  obtain ⟨a, mid, hran, hrest⟩ := exists_of_bind_eq_ok hrun
  exact hnext a (hfirst h a mid hran) mid b after hrest

theorem returns_bind {first : Action α} {next : α → Action β}
    (hnext : ∀ a, (next a).Returns good) : (first >>= next).Returns good :=
  returns_bind_of_returns (fun _ _ _ _ => trivial) fun a _ => hnext a

end Returns

section FailsOnlyWith

variable {h : Heap} {tolerated : CallFault → Prop}

theorem failsOnlyWith_pure {a : α} : (pure a : Action α).FailsOnlyWith h tolerated := by
  intro fault after hrun
  cases hrun

theorem failsOnlyWith_fail {fault : CallFault} (htolerated : tolerated fault) :
    (fail fault : Action α).FailsOnlyWith h tolerated := by
  intro other after hrun
  cases hrun
  exact htolerated

theorem failsOnlyWith_query {read : Heap → Except CallFault α}
    (htolerated : ∀ fault, read h = .error fault → tolerated fault) :
    (query read).FailsOnlyWith h tolerated := by
  intro fault after hrun
  exact htolerated fault (Prod.mk.inj hrun).1

theorem failsOnlyWith_update {change : Heap → Except CallFault Heap}
    (htolerated : ∀ fault, change h = .error fault → tolerated fault) :
    (update change).FailsOnlyWith h tolerated := by
  intro fault after hrun
  exact htolerated fault (eq_error_of_update hrun).1

theorem failsOnlyWith_allocate {content : Storage} :
    (allocate content).FailsOnlyWith h tolerated := by
  intro fault after hrun
  cases hrun

theorem failsOnlyWith_openCursor {s : StorageId} :
    (openCursor s).FailsOnlyWith h tolerated := by
  intro fault after hrun
  cases hrun

theorem failsOnlyWith_bind {first : Action α} {next : α → Action β}
    (hfirst : first.FailsOnlyWith h tolerated)
    (hnext : ∀ a mid, first h = (.ok a, mid) → (next a).FailsOnlyWith mid tolerated) :
    (first >>= next).FailsOnlyWith h tolerated := by
  intro fault after hrun
  rcases bind_eq_error_cases hrun with hfailed | ⟨a, mid, hran, hfailed⟩
  · exact hfirst fault after hfailed
  · exact hnext a mid hran fault after hfailed

end FailsOnlyWith

end Action

end LateBinding

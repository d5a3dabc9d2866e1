import LateBinding.Proofs.StaleTargets

/-!
# Kinds of answers

A call on an array that returns a value returns one of the kind that its site declares, also where
the arguments are not of the declared kinds: the primitive answers in its own kind, and every
coercion of results lands in the kind of the site.
-/

namespace LateBinding

theorem Value.kind_of_widened? {v w : Value} {wanted : Kind}
    (hwidened : v.widened? wanted = some w) : w.kind = wanted := by
  cases v <;> cases wanted <;> cases hwidened <;> rfl

namespace Heap

variable {h : Heap} {v w : Value} {wanted : Kind}

theorem kind_of_widen (hwiden : h.widen v wanted = .ok w) : w.kind = wanted := by
  unfold widen at hwiden
  cases hwidened : v.widened? wanted with
  | some widened =>
      rw [hwidened] at hwiden
      cases hwiden
      exact Value.kind_of_widened? hwidened
  | none =>
      simp only [hwidened] at hwiden
      split at hwiden
      · next hkind =>
        cases hwiden
        exact hkind
      · contradiction

theorem fits_of_cast (hcast : h.cast v wanted = .ok w) : w.Fits wanted := by
  unfold cast at hcast
  split at hcast
  · next hkept =>
    cases hcast
    rcases hkept with hkind | hany
    · exact .inr (.inr hkind)
    · exact .inl hany
  · split at hcast
    · exact .inr (.inr (kind_of_widen hcast))
    · contradiction

theorem fits_of_castResult (hcast : h.castResult v wanted = .ok w) : w.Fits wanted := by
  unfold castResult at hcast
  split at hcast
  · next hvoid =>
    cases hcast
    exact .inr (.inl ⟨hvoid, rfl⟩)
  · exact fits_of_cast hcast

end Heap

/-- Adapted to a site, an operation whose results fit its own signature returns what fits the
site's, whatever it is given. -/
theorem Operation.adapted_returnsFitting {operation : Operation}
    (hreturns : operation.ReturnsFitting) {site : Signature} {receiver : ValueType}
    {target : Target} (hadapt : operation.adapt site receiver = .ok target) (args : List Value) :
    (target.call args).Returns (·.Fits site.ret) := by
  obtain ⟨adapter, hadapter, rfl⟩ := Operation.adapt_eq_ok_iff.1 hadapt
  have hresult : ∀ result, result.Fits operation.signature.ret →
      (Action.query fun h => adapter.passResult h result).Returns (·.Fits site.ret) := by
    intro result hfits
    apply Action.returns_query
    intro h v hpass
    rw [Adapter.passResult_eq_castResult hadapter hfits] at hpass
    exact Heap.fits_of_castResult hpass
  exact Action.returns_bind fun passed => Action.returns_bind_of_returns (hreturns passed) hresult

namespace InlineCache

theorem Sourced.answer_fits {cache : InlineCache} (hsourced : cache.Sourced) {s : StorageId}
    {rest : List Value} {h : Heap} {v : Value}
    (hanswer : (cache.call (.array s :: rest) h).answer = .ok v) :
    v.Fits cache.site.signature.ret := by
  obtain ⟨operation, target, _, hadapt, hreturned⟩ := hsourced.exists_target_of_answer hanswer
  have hreturns := operation.primitive_returnsFitting (h.storage s).elem
  exact Operation.adapted_returnsFitting hreturns hadapt _ h v _ hreturned

/-- After any history, whatever a call on an array returns is nothing where the site wants no
value, and else of the kind that the site wants, unless that is any. -/
theorem answer_has_return_kind (site : CallSite) (limit : RelinkLimit) (objects : Option Resolver)
    (history : List Call) (s : StorageId) (rest : List Value) (h : Heap) {v : Value}
    (hanswer : (((fresh site limit objects).after history).call (.array s :: rest) h).answer =
      .ok v) :
    (site.signature.ret = .void → v = .nothing) ∧
      (site.signature.ret ≠ .void → site.signature.ret ≠ .any → v.kind = site.signature.ret) := by
  have hsourced := sourced_after_fresh site limit objects history
  have hsite := ((fresh site limit objects).sameSettings_after history).site_eq
  have hfits : v.Fits site.signature.ret := by
    have hanswered := hsourced.answer_fits hanswer
    rwa [hsite] at hanswered
  constructor
  · intro hvoid
    rw [hvoid] at hfits
    exact hfits.eq_nothing
  · intro hvoid hany
    exact hfits.kind_eq hany hvoid

/-- A cache that was linked to short integers reads a character as a long integer, though the index
is a character where the site declares a short integer.  Where no value is wanted, a tail is
dropped. -/
theorem answers_have_return_kinds :
    let reading : CallSite := ⟨"get", ⟨[.any, .int32], .int64⟩, .standard⟩
    let dropping : CallSite := ⟨"tail", ⟨[.array], .void⟩, .standard⟩
    let h := (Heap.empty.allocate ⟨.char, [.char 'x', .char 'y'], by decide⟩).allocate
      ⟨.int32, [.int32 7], by decide⟩
    let cache := (fresh reading ⟨some 1⟩ none).after [⟨[.array ⟨1⟩, .int32 0], h⟩]
    let read := cache.call [.array ⟨0⟩, .char (.ofNat 1)] h
    let dropped := ((fresh dropping .unbounded none).after []).call [.array ⟨1⟩] h
    cache.status = .linked (.array .int32) ∧
      read.answer = .ok (.int64 121) ∧ (Value.int64 121).kind = reading.signature.ret ∧
      ∃ v, dropped.answer = .ok v ∧ v = .nothing := by
  intro reading dropping h cache read dropped
  have hread : read.answer = .ok (.int64 121) := by rfl
  have hdropped : dropped.answer = .ok .nothing := by rfl
  have hkind := answer_has_return_kind reading ⟨some 1⟩ none [⟨[.array ⟨1⟩, .int32 0], h⟩] ⟨0⟩
    [.char (.ofNat 1)] h hread
  have hnothing := answer_has_return_kind dropping .unbounded none [] ⟨1⟩ [] h hdropped
  exact ⟨rfl, hread, hkind.2 (by decide) (by decide), _, hdropped, hnothing.1 rfl⟩

end InlineCache

end LateBinding

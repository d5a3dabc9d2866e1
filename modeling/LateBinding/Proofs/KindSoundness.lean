import LateBinding.Proofs.HeapFrames
import LateBinding.Proofs.ReturnKinds

/-!
# Soundness of adapters

An adapter stands between two signatures and takes what fits the one to what fits the other: the
arguments from the site to the operation, and the result back.  It can only fail at a cast, that is
where nothing is known of the kind of a value and a certain kind is wanted, and there it fails
exactly on the values that are not of that kind and do not widen to it.
-/

namespace LateBinding

/-- A value of unknown kind where a certain kind is wanted, which it neither has nor widens to. -/
structure Value.Misfit (v : Value) (source wanted : Kind) : Prop where
  source_eq : source = .any
  wanted_ne_any : wanted ≠ .any
  wanted_ne_void : wanted ≠ .void
  kind_ne : v.kind ≠ wanted
  widensTo_eq : v.kind.widensTo wanted = false

/-! ## One value -/

namespace Coercion

variable {source wanted : Kind} {coercion : Coercion} {v w : Value}

theorem Between.apply_of_misfit (hbetween : Between source wanted coercion)
    (hmisfit : v.Misfit source wanted) (h : Heap) :
    coercion.apply h v = .error (.type (.cannotCast (h.typeOf v) wanted)) := by
  cases hbetween with
  | identity => exact absurd hmisfit.source_eq hmisfit.wanted_ne_any
  | forget => exact absurd rfl hmisfit.wanted_ne_any
  | discard => exact absurd rfl hmisfit.wanted_ne_void
  | supplyNothing => exact absurd rfl hmisfit.wanted_ne_any
  | cast hany _ => exact h.cast_of_not_widensTo hany hmisfit.kind_ne hmisfit.widensTo_eq
  | widen hwidens =>
      rw [hmisfit.source_eq] at hwidens
      cases hwidens

theorem Between.fits_of_apply (hbetween : Between source wanted coercion) (hfits : v.Fits source)
    {h : Heap} (happly : coercion.apply h v = .ok w) : w.Fits wanted := by
  rw [hbetween.apply_eq_castResult hfits] at happly
  exact Heap.fits_of_castResult happly

theorem Between.exists_apply_of_not_misfit (hbetween : Between source wanted coercion)
    (hfits : v.Fits source) (hmisfit : ¬v.Misfit source wanted) (h : Heap) :
    ∃ w, coercion.apply h v = .ok w := by
  by_cases hsource : source = .any
  · subst hsource
    cases hbetween with
    | identity | forget => exact ⟨v, rfl⟩
    | discard => exact ⟨.nothing, rfl⟩
    | widen hwidens => cases hwidens
    | cast hany hvoid =>
        by_cases hkind : v.kind = wanted
        · exact ⟨v, by simp [apply, Heap.cast, hkind]⟩
        · have hwidens : v.kind.widensTo wanted = true := by
            by_contra hno
            exact hmisfit ⟨rfl, hany, hvoid, hkind, Bool.eq_false_iff.2 hno⟩
          have hknown : v.kind ≠ .any := by
            intro heq
            rw [heq] at hwidens
            cases hwidens
          rw [apply, h.cast_of_widensTo hwidens]
          exact (Between.widen hwidens).exists_apply_ok hknown (.inr (.inr rfl)) h
  · exact hbetween.exists_apply_ok hsource hfits h

end Coercion

/-! ## Argument lists -/

/-- The value at a position is one that an adapter to the operation's signature cannot take there:
the site knows nothing of its kind, and it is not what the operation wants. -/
def Signature.RefusesAt (target site : Signature) (args : List Value) (i : Nat) (v : Value)
    (wanted : Kind) : Prop :=
  args[i]? = some v ∧ target.params[i]? = some wanted ∧
    ∃ source, site.params[i]? = some source ∧ v.Misfit source wanted

namespace Adapter

variable {target site : Signature} {adapter : Adapter}
  (hadapter : Adapter.ofSignatures target site = .ok adapter)

include hadapter

theorem forParameter?_at {i : Nat} {source wanted : Kind} {coercion : Coercion}
    (hsource : site.params[i]? = some source) (hwanted : target.params[i]? = some wanted)
    (hcoercion : adapter.params[i]? = some coercion) :
    Coercion.forParameter? source wanted = some coercion := by
  obtain ⟨_, hparams, _⟩ := Adapter.ofSignatures_eq_ok_iff.1 hadapter
  have hpairs := forall₂_of_mapM_eq_some hparams
  rw [List.forall₂_iff_zip] at hpairs
  have hpair : (site.params.zip target.params)[i]? = some (source, wanted) :=
    List.getElem?_zip_eq_some.2 ⟨hsource, hwanted⟩
  have hmem : ((source, wanted), coercion) ∈ (site.params.zip target.params).zip adapter.params :=
    List.mem_of_getElem? (List.getElem?_zip_eq_some.2 ⟨hpair, hcoercion⟩)
  exact hpairs.2 hmem

theorem between_at {i : Nat} {source wanted : Kind} {coercion : Coercion}
    (hsource : site.params[i]? = some source) (hwanted : target.params[i]? = some wanted)
    (hcoercion : adapter.params[i]? = some coercion) : Coercion.Between source wanted coercion :=
  (Coercion.between_of_forParameter? (forParameter?_at hadapter hsource hwanted hcoercion)).2

/-- The kinds and the coercion that an argument meets at its position. -/
theorem exists_kinds_at {args : List Value} (hcount : args.length = site.params.length)
    (hfits : site.ArgsFit args) {i : Nat} {v : Value} (hv : args[i]? = some v) :
    ∃ source wanted coercion, site.params[i]? = some source ∧ target.params[i]? = some wanted ∧
      (adapter.params.zip args)[i]? = some (coercion, v) ∧
      Coercion.Between source wanted coercion ∧ v.Fits source := by
  obtain ⟨htarget, hparams⟩ := Adapter.length_eq_of_ofSignatures hadapter
  have hi : i < args.length := (List.getElem?_eq_some_iff.1 hv).1
  have hsource := List.getElem?_eq_getElem (hcount ▸ hi)
  have hwanted := List.getElem?_eq_getElem (htarget ▸ hcount ▸ hi)
  have hcoercion := List.getElem?_eq_getElem (hparams ▸ hcount ▸ hi)
  have hpair : (site.params[i], v) ∈ site.params.zip args :=
    List.mem_of_getElem? (List.getElem?_zip_eq_some.2 ⟨hsource, hv⟩)
  exact ⟨_, _, adapter.params[i], hsource, hwanted, List.getElem?_zip_eq_some.2 ⟨hcoercion, hv⟩,
    between_at hadapter hsource hwanted hcoercion, hfits _ hpair⟩

section Pass

variable {args : List Value} (hcount : args.length = site.params.length)
  (hfits : site.ArgsFit args) {h : Heap} {i : Nat} {v : Value} {wanted : Kind}

include hcount hfits

theorem apply_of_refusesAt (hrefuses : target.RefusesAt site args i v wanted) :
    ∃ coercion, (adapter.params.zip args)[i]? = some (coercion, v) ∧
      coercion.apply h v = .error (.type (.cannotCast (h.typeOf v) wanted)) := by
  obtain ⟨hv, hwanted, source, hsource, hmisfit⟩ := hrefuses
  obtain ⟨source', wanted', coercion, hsource', hwanted', hpair, hbetween, _⟩ :=
    exists_kinds_at hadapter hcount hfits hv
  cases hsource.symm.trans hsource'
  cases hwanted.symm.trans hwanted'
  exact ⟨coercion, hpair, hbetween.apply_of_misfit hmisfit h⟩

theorem exists_refusesAt {coercion : Coercion} {fault : CallFault}
    (hpair : (adapter.params.zip args)[i]? = some (coercion, v))
    (hfault : coercion.apply h v = .error fault) :
    ∃ wanted, target.RefusesAt site args i v wanted := by
  have hv := (List.getElem?_zip_eq_some.1 hpair).2
  obtain ⟨source, wanted, coercion', hsource, hwanted, hpair', hbetween, hsite⟩ :=
    exists_kinds_at hadapter hcount hfits hv
  cases hpair.symm.trans hpair'
  refine ⟨wanted, hv, hwanted, source, hsource, ?_⟩
  by_contra hmisfit
  obtain ⟨w, hw⟩ := hbetween.exists_apply_of_not_misfit hsite hmisfit h
  cases hfault.symm.trans hw

theorem argsFit_of_passed {passed : List Value}
    (hpassed : (adapter.params.zip args).Forall₂
      (fun pair w => pair.1.apply h pair.2 = .ok w) passed) : target.ArgsFit passed := by
  have hparams := (Adapter.length_eq_of_ofSignatures hadapter).2
  rw [List.forall₂_iff_zip, List.length_zip, hparams, ← hcount, Nat.min_self] at hpassed
  rintro ⟨wanted, w⟩ hmem
  obtain ⟨i, hi⟩ := List.mem_iff_getElem?.1 hmem
  obtain ⟨hwanted, hw⟩ := List.getElem?_zip_eq_some.1 hi
  have hlt : i < args.length := hpassed.1 ▸ (List.getElem?_eq_some_iff.1 hw).1
  obtain ⟨source, wanted', coercion, _, hwanted', hpair, hbetween, hsite⟩ :=
    exists_kinds_at hadapter hcount hfits (List.getElem?_eq_getElem hlt)
  cases hwanted.symm.trans hwanted'
  have hstep : ((coercion, args[i]), w) ∈ (adapter.params.zip args).zip passed :=
    List.mem_of_getElem? (List.getElem?_zip_eq_some.2 ⟨hpair, hw⟩)
  exact hbetween.fits_of_apply hsite (hpassed.2 hstep)

/-- Arguments that fit the site arrive as arguments that fit the operation, or the first of those
that are refused is reported. -/
theorem passArgs_cases (h : Heap) :
    (∃ passed, adapter.passArgs h args = .ok passed ∧ passed.length = args.length ∧
      target.ArgsFit passed ∧ ∀ i v wanted, ¬target.RefusesAt site args i v wanted) ∨
    ∃ i v wanted, target.RefusesAt site args i v wanted ∧
      (∀ j u k, j < i → ¬target.RefusesAt site args j u k) ∧
      adapter.passArgs h args = .error (.type (.cannotCast (h.typeOf v) wanted)) := by
  have hparams := (Adapter.length_eq_of_ofSignatures hadapter).2
  have hpass : adapter.passArgs h args =
      (adapter.params.zip args).mapM fun pair => pair.1.apply h pair.2 :=
    if_pos (hcount.trans hparams.symm)
  rw [hpass]
  cases hmap : (adapter.params.zip args).mapM fun pair => pair.1.apply h pair.2 with
  | ok passed =>
      have hpassed := forall₂_of_mapM_eq_ok hmap
      have hlength := hpassed.length_eq
      rw [List.length_zip, hparams, ← hcount, Nat.min_self] at hlength
      refine .inl ⟨passed, rfl, hlength.symm, argsFit_of_passed hadapter hcount hfits hpassed, ?_⟩
      intro i v wanted hrefuses
      obtain ⟨coercion, hpair, hfault⟩ := apply_of_refusesAt hadapter hcount hfits hrefuses
      have hmem := List.mem_of_getElem? hpair
      obtain ⟨first, hfirst⟩ :=
        mapM_eq_error_of_mem (f := fun pair => pair.1.apply h pair.2) hmem hfault
      cases hmap.symm.trans hfirst
  | error fault =>
      obtain ⟨i, ⟨coercion, v⟩, hpair, hfault, hbefore⟩ := exists_first_of_mapM_eq_error hmap
      obtain ⟨wanted, hrefuses⟩ := exists_refusesAt hadapter hcount hfits hpair hfault
      refine .inr ⟨i, v, wanted, hrefuses, ?_, ?_⟩
      · intro j u k hj hearlier
        obtain ⟨other, hother, hfailed⟩ := apply_of_refusesAt hadapter hcount hfits hearlier
        obtain ⟨w, hw⟩ := hbefore j _ hj hother
        cases hfailed.symm.trans hw
      · obtain ⟨other, hother, hreported⟩ := apply_of_refusesAt hadapter hcount hfits hrefuses
        cases hpair.symm.trans hother
        cases hfault.symm.trans hreported
        rfl

end Pass

theorem passResult_cases {v : Value} (hfits : v.Fits target.ret) (h : Heap) :
    (∃ w, adapter.passResult h v = .ok w ∧ w.Fits site.ret ∧ ¬v.Misfit target.ret site.ret) ∨
      v.Misfit target.ret site.ret ∧
        adapter.passResult h v = .error (.type (.cannotCast (h.typeOf v) site.ret)) := by
  have hret := (Adapter.ofSignatures_eq_ok_iff.1 hadapter).2.2
  have hbetween := Coercion.of?_eq_some_iff.1 hret
  by_cases hmisfit : v.Misfit target.ret site.ret
  · exact .inr ⟨hmisfit, hbetween.apply_of_misfit hmisfit h⟩
  · obtain ⟨w, hw⟩ := hbetween.exists_apply_of_not_misfit hfits hmisfit h
    exact .inl ⟨w, hw, hbetween.fits_of_apply hfits hw, hmisfit⟩

/-- An adapter takes arguments that fit the site to as many that fit the operation, and a result
that fits the operation to one that fits the site.  It fails exactly where a value of unknown kind
is a misfit, and of several arguments the first is reported.  No other number of arguments is
accepted. -/
theorem kind_sound (h : Heap) :
    (∀ args, args.length = site.params.length → site.ArgsFit args →
      (∃ passed, adapter.passArgs h args = .ok passed ∧ passed.length = args.length ∧
        target.ArgsFit passed ∧ ∀ i v wanted, ¬target.RefusesAt site args i v wanted) ∨
      ∃ i v wanted, target.RefusesAt site args i v wanted ∧
        (∀ j u k, j < i → ¬target.RefusesAt site args j u k) ∧
        adapter.passArgs h args = .error (.type (.cannotCast (h.typeOf v) wanted))) ∧
    (∀ args, args.length ≠ site.params.length → adapter.passArgs h args =
      .error (.argument (.wrongCount site.params.length args.length))) ∧
    ∀ v, v.Fits target.ret →
      (∃ w, adapter.passResult h v = .ok w ∧ w.Fits site.ret ∧
        ¬v.Misfit target.ret site.ret) ∨
      v.Misfit target.ret site.ret ∧
        adapter.passResult h v = .error (.type (.cannotCast (h.typeOf v) site.ret)) := by
  refine ⟨?_, ?_, ?_⟩
  · intro args hcount hfits
    exact passArgs_cases hadapter hcount hfits h
  · intro args hcount
    have hparams := (Adapter.length_eq_of_ofSignatures hadapter).2
    rw [← hparams] at hcount ⊢
    exact if_neg hcount
  · intro v hfits
    exact passResult_cases hadapter hfits h

omit hadapter in
/-- A character is widened and a short integer cast to a float, but a truth value is refused as one;
of the results, which may be anything, a site that wants a truth value refuses an integer. -/
theorem kind_sound_of_dynamic_argument :
    let target : Signature := ⟨[.array, .int64, .float64, .any], .any⟩
    let site : Signature := ⟨[.array, .char, .any, .string], .bool⟩
    let adapter : Adapter := ⟨[.identity, .widen .int64, .cast .float64, .identity], .cast .bool⟩
    let args := [Value.array ⟨0⟩, .char 'x', .int32 3, .string "s"]
    let unfit := [Value.array ⟨0⟩, .char 'x', .bool true, .string "s"]
    let h := Heap.empty
    Adapter.ofSignatures target site = .ok adapter ∧
      args.length = site.params.length ∧ site.ArgsFit args ∧
      unfit.length = site.params.length ∧ site.ArgsFit unfit ∧
      (∃ passed, adapter.passArgs h args = .ok passed ∧ passed.length = 4 ∧
        target.ArgsFit passed) ∧
      (∃ i v wanted, target.RefusesAt site unfit i v wanted ∧
        adapter.passArgs h unfit = .error (.type (.cannotCast (h.typeOf v) wanted))) ∧
      [Value.nothing].length ≠ site.params.length ∧
      adapter.passArgs h [.nothing] = .error (.argument (.wrongCount 4 1)) ∧
      (Value.int64 1).Fits target.ret ∧ (Value.int64 1).Misfit target.ret site.ret ∧
      adapter.passResult h (.int64 1) = .error (.type (.cannotCast .int64 .bool)) := by
  intro target site adapter args unfit h
  have hadapter : Adapter.ofSignatures target site = .ok adapter := by decide
  have hargs : site.ArgsFit args := by decide
  have hunfit : site.ArgsFit unfit := by decide
  have hint : (Value.int64 1).Fits target.ret := by decide
  obtain ⟨hpass, hcount, hresult⟩ := kind_sound hadapter h
  refine ⟨hadapter, rfl, hargs, rfl, hunfit, ?_, ?_, by decide, hcount [.nothing] (by decide), hint,
    ?_⟩
  · rcases hpass args rfl hargs with ⟨passed, hpassed, hlength, hfits, _⟩ | ⟨_, _, _, _, _, hfailed⟩
    · exact ⟨passed, hpassed, hlength, hfits⟩
    · cases hfailed
  · rcases hpass unfit rfl hunfit with ⟨_, hpassed, _⟩ | ⟨i, v, wanted, hrefuses, _, hfailed⟩
    · cases hpassed
    · exact ⟨i, v, wanted, hrefuses, hfailed⟩
  · rcases hresult (.int64 1) hint with ⟨_, hpassed, _⟩ | hfailed
    · cases hpassed
    · exact hfailed

end Adapter

end LateBinding

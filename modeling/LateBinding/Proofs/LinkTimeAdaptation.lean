import LateBinding.Proofs.ActionOutcomes
import LateBinding.Proofs.ElementAccess
import LateBinding.Proofs.ResolutionOutcome

/-!
# Adaptation at link time and checks at run time

An operation can be reached in two ways.  Adapted to a site's signature, it is called through
coercions that were chosen from the kinds alone; adapted to the dynamic signature, it is called
through casts that look at the values, and its result is cast to what the site wants.  For arguments
and results that fit their declared kinds both ways agree, value, fault and heap, and where no
adapter exists the second way always fails.
-/

namespace LateBinding

/-- A value fits any kind that describes it; nothing also fits the kind of no value. -/
def Value.Fits (v : Value) (k : Kind) : Prop :=
  k = .any ∨ (k = .void ∧ v = .nothing) ∨ v.kind = k

instance (v : Value) (k : Kind) : Decidable (v.Fits k) :=
  inferInstanceAs (Decidable (_ ∨ _ ∨ _))

theorem Value.fits_any (v : Value) : v.Fits .any :=
  .inl rfl

theorem Value.kind_ne_void (v : Value) : v.kind ≠ .void := by
  cases v <;> simp [kind]

theorem Value.Fits.eq_nothing {v : Value} (hfits : v.Fits .void) : v = .nothing := by
  rcases hfits with hany | ⟨_, hnothing⟩ | hkind
  · contradiction
  · exact hnothing
  · exact absurd hkind v.kind_ne_void

theorem Value.Fits.kind_eq {v : Value} {k : Kind} (hfits : v.Fits k) (hany : k ≠ .any)
    (hvoid : k ≠ .void) : v.kind = k := by
  rcases hfits with h | ⟨h, _⟩ | hkind
  · exact absurd h hany
  · exact absurd h hvoid
  · exact hkind

namespace Heap

/-- What a site that wants a result of some kind makes of a value at run time. -/
def castResult (h : Heap) (v : Value) (wanted : Kind) : Except CallFault Value :=
  if wanted = .void then .ok .nothing else h.cast v wanted

theorem castResult_of_ne_void (h : Heap) (v : Value) {wanted : Kind} (hvoid : wanted ≠ .void) :
    h.castResult v wanted = h.cast v wanted := by
  simp [castResult, hvoid]

theorem castResult_of_fits (h : Heap) {v : Value} {wanted : Kind} (hfits : v.Fits wanted) :
    h.castResult v wanted = .ok v := by
  rcases hfits with rfl | ⟨rfl, rfl⟩ | hkind
  · simp [castResult, cast]
  · rfl
  · have hvoid : wanted ≠ .void := hkind ▸ v.kind_ne_void
    simp [castResult, cast, hvoid, hkind]

theorem cast_of_widensTo (h : Heap) {v : Value} {wanted : Kind}
    (hwidens : v.kind.widensTo wanted = true) : h.cast v wanted = h.widen v wanted := by
  have hne : v.kind ≠ wanted := by
    intro heq
    rw [heq] at hwidens
    cases wanted <;> contradiction
  have hany : wanted ≠ .any := by
    rintro rfl
    cases hkind : v.kind <;> rw [hkind] at hwidens <;> contradiction
  simp [cast, hne, hany, hwidens]

theorem cast_of_not_widensTo (h : Heap) {v : Value} {wanted : Kind} (hany : wanted ≠ .any)
    (hne : v.kind ≠ wanted) (hwidens : v.kind.widensTo wanted = false) :
    h.cast v wanted = .error (.type (.cannotCast (h.typeOf v) wanted)) := by
  simp [cast, hne, hany, hwidens]

end Heap

/-! ## One value -/

namespace Coercion

/-- The coercions that there are, by the kinds that they go between. -/
inductive Between : Kind → Kind → Coercion → Prop where
  | identity (k : Kind) : Between k k .identity
  | forget {source : Kind} (hsource : source ≠ .void) : Between source .any .identity
  | discard {source : Kind} (hsource : source ≠ .void) : Between source .void .discard
  | supplyNothing : Between .void .any .supplyNothing
  | cast {wanted : Kind} (hany : wanted ≠ .any) (hvoid : wanted ≠ .void) :
      Between .any wanted (.cast wanted)
  | widen {source wanted : Kind} (hwidens : source.widensTo wanted = true) :
      Between source wanted (.widen wanted)

theorem of?_eq_some_iff {source wanted : Kind} {coercion : Coercion} :
    of? source wanted = some coercion ↔ Between source wanted coercion := by
  constructor
  · intro hcoercion
    unfold of? at hcoercion
    split at hcoercion
    · rename_i hsame
      cases hcoercion
      exact hsame ▸ .identity source
    · rename_i hne
      split at hcoercion
      · cases hcoercion
        exact .discard hne
      · cases hcoercion
        exact .supplyNothing
      · contradiction
      · rename_i hvoid
        cases hcoercion
        exact .forget hvoid
      · rename_i hvoid hany
        cases hcoercion
        exact .cast hany hvoid
      · split at hcoercion
        · rename_i hwidens
          cases hcoercion
          exact .widen hwidens
        · contradiction
  · rintro (k | hsource | hsource | _ | ⟨hany, hvoid⟩ | hwidens)
    · simp [of?]
    · cases source <;> first | rfl | contradiction
    · simp [of?, hsource]
    · rfl
    · cases wanted <;> first | rfl | contradiction
    · cases source <;> cases wanted <;> first | rfl | contradiction

/-- On a value that fits the kind it comes from, the coercion chosen from the kinds does what the
check on the value does. -/
theorem Between.apply_eq_castResult {source wanted : Kind} {coercion : Coercion}
    (hbetween : Between source wanted coercion) {v : Value} (hfits : v.Fits source) (h : Heap) :
    coercion.apply h v = h.castResult v wanted := by
  cases hbetween with
  | identity => exact (h.castResult_of_fits hfits).symm
  | forget => exact (h.castResult_of_fits v.fits_any).symm
  | discard => rfl
  | supplyNothing =>
      rw [hfits.eq_nothing]
      rfl
  | cast _ hvoid => exact (h.castResult_of_ne_void v hvoid).symm
  | widen hwidens =>
      have hkind : v.kind = source := by
        refine hfits.kind_eq ?_ ?_ <;> rintro rfl <;> cases hwidens
      have hvoid : wanted ≠ .void := by
        rintro rfl
        cases source <;> cases hwidens
      rw [h.castResult_of_ne_void v hvoid, h.cast_of_widensTo (hkind ▸ hwidens)]
      rfl

theorem unrelated_of_of?_eq_none {source wanted : Kind} (hnone : of? source wanted = none) :
    source ≠ wanted ∧ source ≠ .any ∧ wanted ≠ .any ∧ wanted ≠ .void ∧
      source.widensTo wanted = false := by
  have hno : ∀ coercion, ¬Between source wanted coercion := by
    intro coercion hbetween
    rw [of?_eq_some_iff.2 hbetween] at hnone
    contradiction
  have hsame : source ≠ wanted := by
    rintro rfl
    exact hno _ (.identity source)
  have hany : wanted ≠ .any := by
    rintro rfl
    by_cases hvoid : source = .void
    · subst source
      exact hno _ .supplyNothing
    · exact hno _ (.forget hvoid)
  have hvoid : wanted ≠ .void := by
    rintro rfl
    exact hno _ (.discard hsame)
  refine ⟨hsame, ?_, hany, hvoid, ?_⟩
  · rintro rfl
    exact hno _ (.cast hany hvoid)
  · cases hwidens : source.widensTo wanted with
    | false => rfl
    | true => exact absurd (.widen hwidens) (hno _)

/-- Where no coercion exists, the check fails on every value that fits the kind it comes from. -/
theorem castResult_of_no_coercion {source wanted : Kind} (hnone : of? source wanted = none)
    {v : Value} (hfits : v.Fits source) (h : Heap) :
    ∃ fault, h.castResult v wanted = .error fault := by
  obtain ⟨hsame, hsource, hany, hdropped, hwidens⟩ := unrelated_of_of?_eq_none hnone
  rw [h.castResult_of_ne_void v hdropped]
  rcases hfits with rfl | ⟨rfl, rfl⟩ | rfl
  · contradiction
  · -- no value at all: what stands for it is of no kind that could be wanted
    exact ⟨_, h.cast_of_not_widensTo hany hany.symm rfl⟩
  · exact ⟨_, h.cast_of_not_widensTo hany hsame hwidens⟩

theorem between_of_forParameter? {source wanted : Kind} {coercion : Coercion}
    (hcoercion : forParameter? source wanted = some coercion) :
    wanted ≠ .void ∧ Between source wanted coercion := by
  unfold forParameter? at hcoercion
  split at hcoercion
  · contradiction
  · rename_i hvoid
    exact ⟨fun hwanted => hvoid (.inr hwanted), of?_eq_some_iff.1 hcoercion⟩

theorem of?_eq_none_of_forParameter? {source wanted : Kind} (hsource : source ≠ .void)
    (hwanted : wanted ≠ .void) (hnone : forParameter? source wanted = none) :
    of? source wanted = none := by
  simpa [forParameter?, hsource, hwanted] using hnone

theorem apply_eq_cast {source wanted : Kind} {coercion : Coercion}
    (hcoercion : forParameter? source wanted = some coercion) {v : Value} (hfits : v.Fits source)
    (h : Heap) : coercion.apply h v = h.cast v wanted := by
  obtain ⟨hvoid, hbetween⟩ := between_of_forParameter? hcoercion
  rw [hbetween.apply_eq_castResult hfits h, h.castResult_of_ne_void v hvoid]

/-- A parameter of kind `wanted` can get `w` when a site passes `v`. -/
def Passes (h : Heap) (wanted : Kind) (v w : Value) : Prop :=
  ∃ source coercion, forParameter? source wanted = some coercion ∧ coercion.apply h v = .ok w

theorem cast_of_no_coercion {source wanted : Kind} (hsource : source ≠ .void)
    (hwanted : wanted ≠ .void) (hnone : forParameter? source wanted = none) {v : Value}
    (hfits : v.Fits source) (h : Heap) : ∃ fault, h.cast v wanted = .error fault := by
  have hchecked := castResult_of_no_coercion
    (of?_eq_none_of_forParameter? hsource hwanted hnone) hfits h
  rwa [h.castResult_of_ne_void v hwanted] at hchecked

theorem forParameter?_any_ne_none {wanted : Kind} (hwanted : wanted ≠ .void) :
    forParameter? .any wanted ≠ none := by
  intro hnone
  obtain ⟨_, hany, _⟩ :=
    unrelated_of_of?_eq_none (of?_eq_none_of_forParameter? (by decide) hwanted hnone)
  contradiction

end Coercion

/-! ## Argument lists -/

def Signature.ArgsFit (site : Signature) (args : List Value) : Prop :=
  ∀ pair ∈ site.params.zip args, pair.2.Fits pair.1

instance (site : Signature) (args : List Value) : Decidable (site.ArgsFit args) :=
  inferInstanceAs (Decidable (∀ _ ∈ _, _))

theorem Signature.argsFit_dynamic (count : Nat) (args : List Value) :
    (dynamic count).ArgsFit args := by
  rintro ⟨k, v⟩ hpair
  have hk : k = .any := by
    simpa [dynamic] using (List.mem_replicate.1 (List.of_mem_zip hpair).1).2
  rw [hk]
  exact v.fits_any

namespace Heap

/-- The arguments of an operation with parameters of these kinds, each cast at run time. -/
def castArgs (h : Heap) (wanted : List Kind) (args : List Value) :
    Except CallFault (List Value) :=
  if args.length = wanted.length then (wanted.zip args).mapM fun (k, v) => h.cast v k
  else .error (.argument (.wrongCount wanted.length args.length))

end Heap

namespace Adapter

theorem mapM_apply_eq_mapM_cast {sources wanted : List Kind} {coercions : List Coercion}
    (hlength : wanted.length = sources.length)
    (hcoercions : (sources.zip wanted).Forall₂
      (fun pair coercion => Coercion.forParameter? pair.1 pair.2 = some coercion) coercions)
    {args : List Value} (hfits : ∀ pair ∈ sources.zip args, pair.2.Fits pair.1) (h : Heap) :
    ((coercions.zip args).mapM fun (coercion, v) => coercion.apply h v) =
      (wanted.zip args).mapM fun (k, v) => h.cast v k := by
  induction sources generalizing wanted coercions args with
  | nil =>
      have hwanted : wanted = [] := List.length_eq_zero_iff.1 hlength
      subst wanted
      cases hcoercions
      rfl
  | cons source sources ih =>
      obtain ⟨k, wanted, rfl⟩ := List.exists_cons_of_length_eq_add_one hlength
      rw [List.zip_cons_cons] at hcoercions
      rcases hcoercions with _ | ⟨hfirst, hrest⟩
      cases args with
      | nil => simp
      | cons v args =>
          have hv : v.Fits source := hfits (source, v) List.mem_cons_self
          have hargs : ∀ pair ∈ sources.zip args, pair.2.Fits pair.1 := fun pair hpair =>
            hfits pair (List.mem_cons_of_mem _ hpair)
          have htail := ih (by simpa using hlength) hrest hargs
          simp only [List.zip_cons_cons, List.mapM_cons, htail, Coercion.apply_eq_cast hfirst hv h]

theorem forall₂_passes_of_mapM {sources wanted : List Kind} {coercions : List Coercion}
    (hlength : wanted.length = sources.length)
    (hcoercions : (sources.zip wanted).Forall₂
      (fun pair coercion => Coercion.forParameter? pair.1 pair.2 = some coercion) coercions)
    {h : Heap} {args passed : List Value}
    (hpassed : (coercions.zip args).Forall₂ (fun pair w => pair.1.apply h pair.2 = .ok w) passed) :
    (wanted.zip args).Forall₂ (fun pair w => Coercion.Passes h pair.1 pair.2 w) passed := by
  induction sources generalizing wanted coercions args passed with
  | nil =>
      have hwanted : wanted = [] := List.length_eq_zero_iff.1 hlength
      subst wanted
      cases hcoercions
      cases hpassed
      exact .nil
  | cons source sources ih =>
      obtain ⟨k, wanted, rfl⟩ := List.exists_cons_of_length_eq_add_one hlength
      rw [List.zip_cons_cons] at hcoercions
      rcases hcoercions with _ | ⟨hfirst, hrest⟩
      cases args with
      | nil =>
          cases hpassed
          exact .nil
      | cons v args =>
          rw [List.zip_cons_cons] at hpassed
          rcases hpassed with _ | ⟨hv, hargs⟩
          exact .cons ⟨source, _, hfirst, hv⟩ (ih (by simpa using hlength) hrest hargs)

section Adapted

variable {target site : Signature} {adapter : Adapter}
  (hadapter : Adapter.ofSignatures target site = .ok adapter)

include hadapter

/-- Each parameter of the operation gets what some coercion to its kind makes of its argument. -/
theorem forall₂_passes {h : Heap} {args passed : List Value}
    (hpass : adapter.passArgs h args = .ok passed) :
    args.length = target.params.length ∧
      (target.params.zip args).Forall₂ (fun pair w => Coercion.Passes h pair.1 pair.2 w) passed := by
  obtain ⟨hlength, hparams, _⟩ := Adapter.ofSignatures_eq_ok_iff.1 hadapter
  have hcount : adapter.params.length = target.params.length :=
    (Adapter.length_eq_of_ofSignatures hadapter).2.trans hlength.symm
  unfold passArgs at hpass
  split at hpass
  · next hargs =>
    have hpassed := forall₂_of_mapM_eq_ok hpass
    exact ⟨hargs.trans hcount,
      forall₂_passes_of_mapM hlength (forall₂_of_mapM_eq_some hparams) hpassed⟩
  · contradiction

theorem passArgs_eq_castArgs {args : List Value} (hfits : site.ArgsFit args) (h : Heap) :
    adapter.passArgs h args = h.castArgs target.params args := by
  obtain ⟨hlength, hparams, _⟩ := Adapter.ofSignatures_eq_ok_iff.1 hadapter
  have hcount : adapter.params.length = target.params.length :=
    (Adapter.length_eq_of_ofSignatures hadapter).2.trans hlength.symm
  have hmap := mapM_apply_eq_mapM_cast hlength (forall₂_of_mapM_eq_some hparams) hfits h
  unfold passArgs Heap.castArgs
  rw [hcount, hmap]

theorem passResult_eq_castResult {v : Value} (hfits : v.Fits target.ret) (h : Heap) :
    adapter.passResult h v = h.castResult v site.ret := by
  obtain ⟨_, _, hret⟩ := Adapter.ofSignatures_eq_ok_iff.1 hadapter
  exact (Coercion.of?_eq_some_iff.1 hret).apply_eq_castResult hfits h

end Adapted

/-- Signatures of one length are incompatible only where some coercion is missing. -/
theorem exists_missing_of_ofSignatures {target site : Signature} {fault : LinkFault}
    (hlength : target.params.length = site.params.length)
    (hadapter : Adapter.ofSignatures target site = .error fault) :
    (∃ pair ∈ site.params.zip target.params, Coercion.forParameter? pair.1 pair.2 = none) ∨
      Coercion.of? target.ret site.ret = none := by
  cases hparams :
      (site.params.zip target.params).mapM fun pair => Coercion.forParameter? pair.1 pair.2 with
  | none => exact .inl (exists_of_mapM_eq_none hparams)
  | some params =>
      cases hret : Coercion.of? target.ret site.ret with
      | none => exact .inr rfl
      | some ret =>
          have hok : Adapter.ofSignatures target site = .ok ⟨params, ret⟩ :=
            Adapter.ofSignatures_eq_ok_iff.2 ⟨hlength, hparams, hret⟩
          rw [hok] at hadapter
          contradiction

theorem exists_ofSignatures_dynamic {target : Signature} (hparams : .void ∉ target.params) :
    ∃ adapter, Adapter.ofSignatures target (.dynamic target.params.length) = .ok adapter := by
  cases hadapter : Adapter.ofSignatures target (.dynamic target.params.length) with
  | ok adapter => exact ⟨adapter, rfl⟩
  | error fault =>
      exfalso
      rcases exists_missing_of_ofSignatures (by simp) hadapter with
        ⟨⟨k, wanted⟩, hpair, hnone⟩ | hnone
      · obtain ⟨hk, hwanted⟩ := List.of_mem_zip hpair
        have hany : k = .any := by
          simpa [Signature.dynamic] using (List.mem_replicate.1 hk).2
        have hvoid : wanted ≠ .void := fun heq => hparams (heq ▸ hwanted)
        exact Coercion.forParameter?_any_ne_none hvoid (hany ▸ hnone)
      · obtain ⟨_, _, hany, _⟩ := Coercion.unrelated_of_of?_eq_none hnone
        exact hany rfl

theorem castArgs_of_missing {sources wanted : List Kind} (hlength : wanted.length = sources.length)
    (hsources : .void ∉ sources) (hwanted : .void ∉ wanted) {pair : Kind × Kind}
    (hpair : pair ∈ sources.zip wanted) (hnone : Coercion.forParameter? pair.1 pair.2 = none)
    {args : List Value} (hfits : ∀ pair ∈ sources.zip args, pair.2.Fits pair.1) (h : Heap) :
    ∃ fault, h.castArgs wanted args = .error fault := by
  unfold Heap.castArgs
  by_cases hcount : args.length = wanted.length
  · obtain ⟨i, hi, rfl⟩ := List.mem_iff_getElem.1 hpair
    rw [List.length_zip] at hi
    have hv : args[i].Fits sources[i] := by
      apply hfits (sources[i], args[i])
      rw [List.mem_iff_getElem]
      exact ⟨i, by simp; omega, by simp⟩
    simp only [List.getElem_zip] at hnone
    obtain ⟨fault, hfault⟩ := Coercion.cast_of_no_coercion
      (fun hvoid => hsources (hvoid ▸ List.getElem_mem _))
      (fun hvoid => hwanted (hvoid ▸ List.getElem_mem _)) hnone hv h
    have hmem : (wanted[i], args[i]) ∈ wanted.zip args := by
      rw [List.mem_iff_getElem]
      exact ⟨i, by simp; omega, by simp⟩
    rw [if_pos hcount]
    exact mapM_eq_error_of_mem hmem hfault
  · exact ⟨_, if_neg hcount⟩

end Adapter

/-! ## Operations -/

namespace Operation

def ReturnsFitting (operation : Operation) : Prop :=
  ∀ args, (operation.run args).Returns (·.Fits operation.signature.ret)

/-- Runs an operation on arguments that are cast at run time, and casts its result. -/
def callWithCasts (operation : Operation) (wanted : Kind) (args : List Value) : Action Value := do
  let passed ← Action.query fun h => h.castArgs operation.signature.params args
  let v ← operation.run passed
  Action.query fun h => h.castResult v wanted

theorem call_eq_callWithCasts {operation : Operation} (hreturns : operation.ReturnsFitting)
    {site : Signature} {receiver : ValueType} {target : Target}
    (htarget : operation.adapt site receiver = .ok target) {args : List Value}
    (hfits : site.ArgsFit args) (h : Heap) :
    target.call args h = operation.callWithCasts site.ret args h := by
  obtain ⟨adapter, hadapter, rfl⟩ := Operation.adapt_eq_ok_iff.1 htarget
  simp only [Target.call, callWithCasts, Action.bind_apply, Action.query,
    Adapter.passArgs_eq_castArgs hadapter hfits h]
  cases h.castArgs operation.signature.params args with
  | error fault => rfl
  | ok passed =>
      simp only
      rcases hrun : operation.run passed h with ⟨fault | v, after⟩
      · rfl
      · simp only [Adapter.passResult_eq_castResult hadapter (hreturns passed h v after hrun)]

theorem callWithCasts_of_no_adapter {operation : Operation} (hreturns : operation.ReturnsFitting)
    (hparams : .void ∉ operation.signature.params) {site : Signature} (hsite : .void ∉ site.params)
    (hcount : operation.signature.params.length = site.params.length) {missing : LinkFault}
    (hadapter : Adapter.ofSignatures operation.signature site = .error missing)
    {args : List Value} (hfits : site.ArgsFit args) (h : Heap) :
    ∃ fault after, operation.callWithCasts site.ret args h = (.error fault, after) := by
  simp only [callWithCasts, Action.bind_apply, Action.query]
  cases hpassed : h.castArgs operation.signature.params args with
  | error fault => exact ⟨fault, h, rfl⟩
  | ok passed =>
      -- the arguments pass, so it is the result that has no coercion
      simp only
      rcases Adapter.exists_missing_of_ofSignatures hcount hadapter with
        ⟨pair, hpair, hnone⟩ | hnone
      · obtain ⟨fault, hfault⟩ :=
          Adapter.castArgs_of_missing hcount hsite hparams hpair hnone hfits h
        rw [hpassed] at hfault
        contradiction
      · rcases hrun : operation.run passed h with ⟨fault | v, after⟩
        · exact ⟨fault, after, rfl⟩
        · obtain ⟨fault, hfault⟩ :=
            Coercion.castResult_of_no_coercion hnone (hreturns passed h v after hrun) after
          exact ⟨fault, after, by simp only [hfault]⟩

end Operation

/-! ## The operations of arrays -/

theorem Value.fits_ofElement {v : Value} {elem : ElementType} (hadmits : elem.admits v = true) :
    v.Fits (.ofElement elem) := by
  cases elem with
  | any => exact v.fits_any
  | _ => cases v <;> first | exact .inr (.inr rfl) | contradiction

namespace ArrayOperation

theorem void_not_mem_params (operation : ArrayOperation) (elem : ElementType) :
    .void ∉ (operation.primitive elem).signature.params := by
  cases operation <;> cases elem <;> decide

theorem primitive_returnsFitting (operation : ArrayOperation) (elem : ElementType) :
    (operation.primitive elem).ReturnsFitting := by
  intro args
  cases operation with
  | get =>
      refine Action.returns_bind fun s => Action.returns_bind fun index => Action.returns_query ?_
      intro h v hread
      cases hindex : h.asIndex index with
      | error fault =>
          rw [hindex] at hread
          contradiction
      | ok position =>
          rw [hindex] at hread
          exact Value.fits_ofElement (Heap.admits_of_elementAt hread)
  | set =>
      refine Action.returns_bind fun s => Action.returns_bind fun index => ?_
      refine Action.returns_bind fun position => Action.returns_bind fun v => ?_
      exact Action.returns_bind fun _ => Action.returns_pure (.inr (.inl ⟨rfl, rfl⟩))
  | length =>
      refine Action.returns_bind fun s => Action.returns_query ?_
      intro h v hread
      simp only at hread
      split at hread
      · cases hread
        exact .inr (.inr rfl)
      · contradiction
  | iterator =>
      refine Action.returns_bind fun s => Action.returns_bind fun c => Action.returns_pure ?_
      exact .inr (.inr rfl)
  | render =>
      refine Action.returns_bind fun s => Action.returns_query ?_
      rintro h v ⟨⟩
      exact .inr (.inr rfl)
  | listView => exact Action.returns_bind fun s => Action.returns_pure (.inr (.inr rfl))
  | equals =>
      refine Action.returns_bind fun s => Action.returns_bind fun t => Action.returns_query ?_
      rintro h v ⟨⟩
      exact .inr (.inr rfl)
  | receiverType => exact Action.returns_pure (.inr (.inr rfl))
  | head => exact fun _ v _ _ => v.fits_any
  | tail =>
      refine Action.returns_bind fun s => Action.returns_bind fun content => ?_
      exact Action.returns_bind fun t => Action.returns_pure (.inr (.inr rfl))
  | isEmpty =>
      refine Action.returns_bind fun s => Action.returns_query ?_
      rintro h v ⟨⟩
      exact .inr (.inr rfl)

end ArrayOperation

/-! ## Both ways -/

def Target.callCast (target : Target) (wanted : Kind) (args : List Value) : Action Value := do
  let v ← target.call args
  Action.query fun h => h.castResult v wanted

namespace Operation

theorem callCast_eq_callWithCasts {operation : Operation} (hreturns : operation.ReturnsFitting)
    {count : Nat} {receiver : ValueType} {generic : Target}
    (hgeneric : operation.adapt (.dynamic count) receiver = .ok generic) (wanted : Kind)
    (args : List Value) (h : Heap) :
    generic.callCast wanted args h = operation.callWithCasts wanted args h := by
  have hcall := call_eq_callWithCasts hreturns hgeneric (Signature.argsFit_dynamic count args) h
  simp only [Target.callCast, Action.bind_apply, hcall, callWithCasts, Action.query]
  cases h.castArgs operation.signature.params args with
  | error fault => rfl
  | ok passed =>
      simp only
      rcases operation.run passed h with ⟨fault | v, after⟩
      · rfl
      · simp [Signature.dynamic, Heap.castResult_of_fits _ (Value.fits_any _)]

/-- An operation whose results fit its signature does the same whether it is adapted to a site, or
adapted to the dynamic signature with its result cast to what the site wants; and where it cannot be
adapted to the site, the second way fails on all arguments that the site may pass. -/
theorem adapted_call_eq_cast_call (operation : Operation)
    (hparams : .void ∉ operation.signature.params) (hreturns : operation.ReturnsFitting)
    (site : Signature) (hsite : .void ∉ site.params)
    (hcount : site.params.length = operation.signature.params.length) (receiver : ValueType) :
    ∃ generic, operation.adapt (.dynamic site.params.length) receiver = .ok generic ∧
      ∀ args, site.ArgsFit args →
        (∀ target, operation.adapt site receiver = .ok target → ∀ h,
          target.call args h = generic.callCast site.ret args h ∧
          target.adapter.passArgs h args = generic.adapter.passArgs h args ∧
          target.body = operation.run ∧ generic.body = operation.run) ∧
        ∀ fault, operation.adapt site receiver = .error fault → ∀ h,
          ∃ failure after, generic.callCast site.ret args h = (.error failure, after) := by
  obtain ⟨loose, hloose⟩ := Adapter.exists_ofSignatures_dynamic hparams
  rw [← hcount] at hloose
  have hgeneric : operation.adapt (.dynamic site.params.length) receiver =
      .ok ⟨operation.name, receiver, .dynamic site.params.length, loose, operation.run⟩ :=
    Operation.adapt_eq_ok_iff.2 ⟨loose, hloose, rfl⟩
  refine ⟨_, hgeneric, fun args hfits => ⟨?_, ?_⟩⟩
  · intro target htarget h
    have hcast := callCast_eq_callWithCasts hreturns hgeneric site.ret args h
    have hcall := call_eq_callWithCasts hreturns htarget hfits h
    obtain ⟨adapter, hadapter, rfl⟩ := Operation.adapt_eq_ok_iff.1 htarget
    have hany := Signature.argsFit_dynamic site.params.length args
    have hpassed := Adapter.passArgs_eq_castArgs hadapter hfits h
    have hpassedLoose := Adapter.passArgs_eq_castArgs hloose hany h
    exact ⟨hcall.trans hcast.symm, hpassed.trans hpassedLoose.symm, rfl, rfl⟩
  · intro fault hfault h
    cases hadapter : Adapter.ofSignatures operation.signature site with
    | ok adapter =>
        rw [Operation.adapt_eq_ok_iff.2 ⟨adapter, hadapter, rfl⟩] at hfault
        contradiction
    | error missing =>
        rw [callCast_eq_callWithCasts hreturns hgeneric site.ret args h]
        exact callWithCasts_of_no_adapter hreturns hparams hsite hcount.symm hadapter hfits h

/-- Reading a character with a short index as a long integer: both ways give its code point.  With a
string for the index there is no adapter, and the cast of the index fails. -/
theorem adapted_get_eq_cast_get :
    let operation := ArrayOperation.get.primitive .char
    let site : Signature := ⟨[.array, .int32], .int64⟩
    let refused : Signature := ⟨[.array, .string], .int64⟩
    let h := Heap.empty.allocate ⟨.char, [.char 'x', .char 'y'], by decide⟩
    let args := [Value.array ⟨0⟩, .int32 1]
    let words := [Value.array ⟨0⟩, .string "1"]
    .void ∉ operation.signature.params ∧ operation.ReturnsFitting ∧
      .void ∉ site.params ∧ site.params.length = operation.signature.params.length ∧
      .void ∉ refused.params ∧ refused.params.length = operation.signature.params.length ∧
      site.ArgsFit args ∧ refused.ArgsFit words ∧
      ∃ generic target, operation.adapt (.dynamic 2) (.array .char) = .ok generic ∧
        operation.adapt site (.array .char) = .ok target ∧
        target.call args h = generic.callCast .int64 args h ∧
        (target.call args h).1 = .ok (.int64 121) ∧
        (operation.adapt refused (.array .char)).isOk = false ∧
        ∃ failure after, generic.callCast .int64 words h = (.error failure, after) := by
  intro operation site refused h args words
  have hparams := ArrayOperation.void_not_mem_params .get .char
  have hreturns := ArrayOperation.primitive_returnsFitting .get .char
  have hargs : site.ArgsFit args := by decide
  have hwords : refused.ArgsFit words := by decide
  obtain ⟨generic, hgeneric, hadapted⟩ := adapted_call_eq_cast_call operation hparams hreturns site
    (by decide) rfl (.array .char)
  obtain ⟨other, hother, hrefused⟩ := adapted_call_eq_cast_call operation hparams hreturns refused
    (by decide) rfl (.array .char)
  cases hgeneric.symm.trans hother
  refine ⟨hparams, hreturns, by decide, rfl, by decide, rfl, hargs, hwords, generic, _, hgeneric,
    rfl, ((hadapted args hargs).1 _ rfl h).1, rfl, rfl, ?_⟩
  exact (hrefused words hwords).2 _ rfl h

end Operation

end LateBinding

import LateBinding.Proofs.KindSoundness

/-!
# Identity adapters

An adapter that calls itself an identity hands everything on as it is, so a call through it is a run
of the operation.  Every other adapter can be told from it: arguments that fit the site, or a
result, are refused or come out changed.
-/

namespace LateBinding

/-- A value that fits the kind.  Where the kind says nothing of its values it is nothing. -/
def Kind.sample : Kind → Value
  | any | void => .nothing
  | int64 => .int64 0
  | int32 => .int32 0
  | float64 => .float64 (.ofInt 0)
  | float32 => .float32 (.ofInt 0)
  | bool => .bool false
  | char => .char 'a'
  | string => .string ""
  | array => .array ⟨0⟩
  | list => .list ⟨0⟩
  | iterator => .iterator ⟨0⟩
  | type => .type .nothing

theorem Kind.sample_fits (k : Kind) : k.sample.Fits k := by
  cases k <;> decide

/-! ## Coercions that show -/

namespace Coercion

variable {source wanted : Kind} {coercion : Coercion}

/-- Nothing is of no kind that a cast could want. -/
theorem apply_cast_sample_ne (hany : wanted ≠ .any) (h : Heap) :
    (cast wanted).apply h Kind.any.sample ≠ .ok Kind.any.sample := by
  have hrefused := h.cast_of_not_widensTo (v := Kind.any.sample) hany hany.symm rfl
  intro hkept
  cases hrefused.symm.trans hkept

/-- A widened value is of another kind than before. -/
theorem apply_widen_sample_ne (hwidens : source.widensTo wanted = true) (h : Heap) :
    (widen wanted).apply h source.sample ≠ .ok source.sample := by
  intro hkept
  have hafter : source.sample.kind = wanted := Heap.kind_of_widen hkept
  have hbefore : source.sample.kind = source := by
    refine source.sample_fits.kind_eq ?_ ?_ <;> rintro rfl <;> cases hwidens
  rw [← hafter, hbefore] at hwidens
  cases source <;> cases hwidens

theorem apply_sample_ne (hcoercion : forParameter? source wanted = some coercion)
    (hchanges : coercion ≠ .identity) (h : Heap) :
    coercion.apply h source.sample ≠ .ok source.sample := by
  obtain ⟨hvoid, hbetween⟩ := between_of_forParameter? hcoercion
  cases hbetween with
  | identity | forget | discard => contradiction
  | supplyNothing => cases hcoercion
  | cast hany _ => exact apply_cast_sample_ne hany h
  | widen hwidens => exact apply_widen_sample_ne hwidens h

/-- The value fits the kind that the coercion comes from, if there are values of that kind. -/
theorem Between.exists_apply_ne (hbetween : Between source wanted coercion)
    (hchanges : coercion ≠ .identity) (h : Heap) :
    ∃ v, (source = .void ∨ v.Fits source) ∧ coercion.apply h v ≠ .ok v := by
  cases hbetween with
  | identity | forget => contradiction
  | cast hany _ => exact ⟨_, .inr (Kind.sample_fits _), apply_cast_sample_ne hany h⟩
  | widen hwidens => exact ⟨_, .inr (Kind.sample_fits _), apply_widen_sample_ne hwidens h⟩
  | supplyNothing => exact ⟨.bool true, .inl rfl, by rintro ⟨⟩⟩
  | discard hvoid =>
      -- the sample of any value is nothing, which discarding keeps
      by_cases hany : source = .any
      · exact ⟨.bool true, .inr (.inl hany), by rintro ⟨⟩⟩
      · refine ⟨source.sample, .inr source.sample_fits, ?_⟩
        cases source <;> first | contradiction | rintro ⟨⟩

end Coercion

/-! ## Argument lists -/

theorem Signature.argsFit_samples (site : Signature) :
    site.ArgsFit (site.params.map Kind.sample) := by
  rintro ⟨k, v⟩ hpair
  obtain ⟨i, hi⟩ := List.mem_iff_getElem?.1 hpair
  obtain ⟨hk, hv⟩ := List.getElem?_zip_eq_some.1 hi
  rw [List.getElem?_map, hk] at hv
  have hsample : v = k.sample := (Option.some.inj hv).symm
  rw [hsample]
  exact k.sample_fits

namespace Adapter

theorem isIdentity_iff {adapter : Adapter} :
    adapter.isIdentity = true ↔
      adapter.ret = .identity ∧ ∀ coercion ∈ adapter.params, coercion = .identity := by
  simp [isIdentity]

theorem mapM_apply_identity {coercions : List Coercion}
    (hidentity : ∀ coercion ∈ coercions, coercion = .identity) {args : List Value}
    (hcount : args.length = coercions.length) (h : Heap) :
    ((coercions.zip args).mapM fun (coercion, v) => coercion.apply h v) = .ok args := by
  induction coercions generalizing args with
  | nil =>
      rw [List.length_eq_zero_iff.1 hcount]
      rfl
  | cons coercion coercions ih =>
      obtain ⟨v, args, rfl⟩ := List.exists_cons_of_length_eq_add_one hcount
      have hfirst : coercion = .identity := hidentity coercion List.mem_cons_self
      have hrest := ih (fun other hmem => hidentity other (List.mem_cons_of_mem _ hmem))
        (Nat.succ.inj hcount)
      rw [List.zip_cons_cons, List.mapM_cons, hrest, hfirst]
      rfl

theorem passArgs_of_isIdentity {adapter : Adapter} (hidentity : adapter.isIdentity = true)
    {args : List Value} (hcount : args.length = adapter.params.length) (h : Heap) :
    adapter.passArgs h args = .ok args := by
  rw [passArgs, if_pos hcount]
  exact mapM_apply_identity (isIdentity_iff.1 hidentity).2 hcount h

theorem passResult_of_isIdentity {adapter : Adapter} (hidentity : adapter.isIdentity = true)
    (h : Heap) (v : Value) : adapter.passResult h v = .ok v := by
  rw [passResult, (isIdentity_iff.1 hidentity).1]
  rfl

variable {target site : Signature} {adapter : Adapter}

/-- One sample for each parameter tells every coercion that is no identity. -/
theorem passArgs_samples_ne (hadapter : ofSignatures target site = .ok adapter)
    {coercion : Coercion} (hmem : coercion ∈ adapter.params) (hchanges : coercion ≠ .identity)
    (h : Heap) :
    adapter.passArgs h (site.params.map Kind.sample) ≠ .ok (site.params.map Kind.sample) := by
  intro hkept
  obtain ⟨hlength, hcount⟩ := length_eq_of_ofSignatures hadapter
  obtain ⟨i, hi⟩ := List.mem_iff_getElem?.1 hmem
  have hlt : i < adapter.params.length := (List.getElem?_eq_some_iff.1 hi).1
  obtain ⟨source, hsource⟩ : ∃ source, site.params[i]? = some source :=
    ⟨_, List.getElem?_eq_getElem (hcount ▸ hlt)⟩
  have hwanted := List.getElem?_eq_getElem (hlength ▸ hcount ▸ hlt)
  have hcoercion := forParameter?_at hadapter hsource hwanted hi
  have hsample : (site.params.map Kind.sample)[i]? = some source.sample := by
    rw [List.getElem?_map, hsource]
    rfl
  rw [passArgs, if_pos (by rw [List.length_map, hcount])] at hkept
  have hsteps := forall₂_of_mapM_eq_ok hkept
  rw [List.forall₂_iff_zip] at hsteps
  have hpair : (adapter.params.zip (site.params.map Kind.sample))[i]? =
      some (coercion, source.sample) := List.getElem?_zip_eq_some.2 ⟨hi, hsample⟩
  have hstep := hsteps.2 (List.mem_of_getElem? (List.getElem?_zip_eq_some.2 ⟨hpair, hsample⟩))
  exact Coercion.apply_sample_ne hcoercion hchanges h hstep

theorem exists_change_of_not_isIdentity (hadapter : ofSignatures target site = .ok adapter)
    (hchanges : adapter.isIdentity = false) (h : Heap) :
    (∃ args, args.length = site.params.length ∧ site.ArgsFit args ∧
      adapter.passArgs h args ≠ .ok args) ∨
    ∃ v, (target.ret = .void ∨ v.Fits target.ret) ∧ adapter.passResult h v ≠ .ok v := by
  have hret := (ofSignatures_eq_ok_iff.1 hadapter).2.2
  by_cases hresult : adapter.ret = .identity
  · have hparam : ¬∀ coercion ∈ adapter.params, coercion = .identity := by
      intro hparams
      rw [isIdentity_iff.2 ⟨hresult, hparams⟩] at hchanges
      contradiction
    push Not at hparam
    obtain ⟨coercion, hmem, hne⟩ := hparam
    exact .inl ⟨_, List.length_map _, site.argsFit_samples, passArgs_samples_ne hadapter hmem hne h⟩
  · exact .inr ((Coercion.of?_eq_some_iff.1 hret).exists_apply_ne hresult h)

end Adapter

theorem Target.call_of_isIdentity {target : Target} (hidentity : target.adapter.isIdentity = true)
    {args : List Value} (hcount : args.length = target.adapter.params.length) (h : Heap) :
    target.call args h = target.body args h := by
  simp only [Target.call, Action.bind_apply, Action.query,
    Adapter.passArgs_of_isIdentity hidentity hcount h]
  rcases target.body args h with ⟨fault | v, after⟩
  · rfl
  · simp only [Adapter.passResult_of_isIdentity hidentity]

/-- An adapter is an identity exactly when it hands on every argument list of the site's length and
every result as it is.  A call through it is then a run of the operation; if it is none, arguments
that fit the site are refused or changed, or a result is, which fits the operation if that has any
result. -/
theorem Adapter.isIdentity_exact {target site : Signature} {adapter : Adapter}
    (hadapter : Adapter.ofSignatures target site = .ok adapter) (h : Heap) :
    (adapter.isIdentity = true ↔
      (∀ args, args.length = site.params.length → adapter.passArgs h args = .ok args) ∧
        ∀ v, adapter.passResult h v = .ok v) ∧
    (∀ operation receiver, operation.signature = target →
      ∃ bound, Operation.adapt operation site receiver = .ok bound ∧ bound.adapter = adapter ∧
        (adapter.isIdentity = true → ∀ args, args.length = site.params.length →
          bound.call args h = operation.run args h)) ∧
    (adapter.isIdentity = false →
      (∃ args, args.length = site.params.length ∧ site.ArgsFit args ∧
        adapter.passArgs h args ≠ .ok args) ∨
      ∃ v, (target.ret = .void ∨ v.Fits target.ret) ∧ adapter.passResult h v ≠ .ok v) := by
  have hparams := (Adapter.length_eq_of_ofSignatures hadapter).2
  refine ⟨⟨?_, ?_⟩, ?_, fun hchanges => exists_change_of_not_isIdentity hadapter hchanges h⟩
  · intro hidentity
    refine ⟨fun args hcount => ?_, passResult_of_isIdentity hidentity h⟩
    exact passArgs_of_isIdentity hidentity (hcount.trans hparams.symm) h
  · rintro ⟨hargs, hresult⟩
    by_contra hchanges
    rw [Bool.not_eq_true] at hchanges
    rcases exists_change_of_not_isIdentity hadapter hchanges h with
      ⟨args, hcount, _, hne⟩ | ⟨v, _, hne⟩
    · exact hne (hargs args hcount)
    · exact hne (hresult v)
  · rintro operation receiver rfl
    refine ⟨_, Operation.adapt_eq_ok_iff.2 ⟨adapter, hadapter, rfl⟩, rfl, ?_⟩
    intro hidentity args hcount
    exact Target.call_of_isIdentity hidentity (hcount.trans hparams.symm) h

/-- Reading an integer through a site that knows all kinds but accepts any result runs the primitive
as it is; at a dynamic site nothing in the place of the array is refused. -/
theorem Adapter.isIdentity_exact_of_get :
    let operation := Primitive.elementGet .int64
    let typed : Signature := ⟨[.array, .int64], .any⟩
    let same : Adapter := ⟨[.identity, .identity], .identity⟩
    let casting : Adapter := ⟨[.cast .array, .cast .int64], .identity⟩
    let h := Heap.empty.allocate ⟨.int64, [.int64 10, .int64 20], by decide⟩
    let args := [Value.array ⟨0⟩, .int64 1]
    Adapter.ofSignatures operation.signature typed = .ok same ∧
      Adapter.ofSignatures operation.signature (.dynamic 2) = .ok casting ∧
      same.isIdentity = true ∧ casting.isIdentity = false ∧
      same.passArgs h args = .ok args ∧
      (∃ bound, operation.adapt typed (.array .int64) = .ok bound ∧ bound.adapter = same ∧
        bound.call args h = operation.run args h) ∧
      ∃ unfit, unfit.length = 2 ∧ casting.passArgs h unfit ≠ .ok unfit := by
  intro operation typed same casting h args
  have hsame : Adapter.ofSignatures operation.signature typed = .ok same := by decide
  have hcasting : Adapter.ofSignatures operation.signature (.dynamic 2) = .ok casting := by decide
  have hidentity : same.isIdentity = true := by decide
  have hchanges : casting.isIdentity = false := by decide
  obtain ⟨hkeeps, hadapted, _⟩ := Adapter.isIdentity_exact hsame h
  obtain ⟨bound, hbound, hadapter, hruns⟩ := hadapted operation (.array .int64) rfl
  refine ⟨hsame, hcasting, hidentity, hchanges, (hkeeps.1 hidentity).1 args rfl,
    ⟨bound, hbound, hadapter, hruns hidentity args rfl⟩, ?_⟩
  rcases (Adapter.isIdentity_exact hcasting h).2.2 hchanges with ⟨unfit, hcount, _, hne⟩ |
    ⟨v, _, hne⟩
  · exact ⟨unfit, hcount, hne⟩
  · exact absurd rfl hne

end LateBinding

import LateBinding.Proofs.HeapFrames

/-!
# Calls through dynamic sites

At a dynamic site nothing is known of the values before the call, so every argument is cast when the
call is made.  Which calls on arrays fail there, and with which fault, is listed by `Refused`: the
index is looked at first, then the value to be stored, then the range of the index.
-/

namespace LateBinding

/-! ## Values as dynamic sites pass them -/

namespace Value

/-- The index that a value stands for. -/
def index? : Value → Option Int64
  | int64 n => some n
  | int32 n => some n.toInt64
  | char c => some (.ofNat c.toNat)
  | _ => none

/-- What a storage of an element type comes to hold when a value is written to it. -/
def stored? (v : Value) (elem : ElementType) : Option Value :=
  if elem.admits v then some v else v.widened? (.ofElement elem)

theorem index?_eq_none_iff {v : Value} :
    v.index? = none ↔ v.kind ∉ [Kind.int64, Kind.int32, Kind.char] := by
  cases v <;> simp [index?, kind]

theorem stored?_eq_none_iff {v : Value} {elem : ElementType} :
    v.stored? elem = none ↔
      elem.admits v = false ∧ v.kind.widensTo (.ofElement elem) = false := by
  unfold stored?
  rw [← v.isSome_widened?, Option.isSome_eq_false_iff, Option.isNone_iff_eq_none]
  cases elem.admits v with
  | true => simp
  | false => simp

end Value

namespace Heap

variable (h : Heap)

theorem cast_int64 (v : Value) :
    h.cast v .int64 =
      match v.index? with
      | some i => .ok (.int64 i)
      | none => .error (.type (.cannotCast (h.typeOf v) .int64)) := by
  cases v <;> rfl

theorem cast_ofElement (v : Value) (elem : ElementType) :
    h.cast v (.ofElement elem) =
      match v.stored? elem with
      | some w => .ok w
      | none => .error (.type (.cannotCast (h.typeOf v) (.ofElement elem))) := by
  cases elem <;> cases v <;> rfl

theorem cast_array_of_not_array {v : Value} (hv : ∀ t, v ≠ .array t) :
    h.cast v .array = .error (.type (.cannotCast (h.typeOf v) .array)) := by
  cases v with
  | array t => exact absurd rfl (hv t)
  | _ => rfl

theorem castArgs_cons {k : Kind} {wanted : List Kind} {v : Value} {args : List Value}
    (hlength : args.length = wanted.length) :
    h.castArgs (k :: wanted) (v :: args) =
      (h.cast v k).bind fun w => (h.castArgs wanted args).map (w :: ·) := by
  simp only [castArgs, List.length_cons, hlength, if_true, List.zip_cons_cons, List.mapM_cons]
  cases h.cast v k with
  | error fault => rfl
  | ok w => cases (wanted.zip args).mapM fun pair => h.cast pair.2 pair.1 <;> rfl

end Heap

namespace Operation

variable {operation : Operation} {args : List Value} {h : Heap}

theorem callWithCasts_of_passed {passed : List Value}
    (hpassed : h.castArgs operation.signature.params args = .ok passed) :
    operation.callWithCasts .any args h = operation.run passed h := by
  simp only [callWithCasts, Action.bind_apply, Action.query, hpassed]
  rcases operation.run passed h with ⟨fault | v, after⟩
  · rfl
  · simp only [Heap.castResult_of_fits _ v.fits_any]

theorem callWithCasts_of_refused {fault : CallFault} (wanted : Kind)
    (hrefused : h.castArgs operation.signature.params args = .error fault) :
    operation.callWithCasts wanted args h = (.error fault, h) := by
  simp only [callWithCasts, Action.bind_apply, Action.query, hrefused]

end Operation

/-! ## The operations of arrays -/

namespace ArrayOperation

/-- Calls an operation on an array with arguments that are cast. -/
def callDynamic (operation : ArrayOperation) (s : StorageId) (args : List Value) : Action Value :=
  fun h => (operation.primitive (h.storage s).elem).callWithCasts .any (.array s :: args) h

section Evaluation

variable {h : Heap} {s : StorageId} {index v w : Value} {i : Int64}

theorem callDynamic_of_passed (operation : ArrayOperation) {args passed : List Value}
    (hpassed : h.castArgs (operation.primitive (h.storage s).elem).signature.params
      (.array s :: args) = .ok passed) :
    operation.callDynamic s args h = (operation.primitive (h.storage s).elem).run passed h :=
  Operation.callWithCasts_of_passed hpassed

theorem callDynamic_of_refused (operation : ArrayOperation) {args : List Value} {fault : CallFault}
    (hrefused : h.castArgs (operation.primitive (h.storage s).elem).signature.params
      (.array s :: args) = .error fault) :
    operation.callDynamic s args h = (.error fault, h) :=
  Operation.callWithCasts_of_refused .any hrefused

theorem callDynamic_of_unary {operation : ArrayOperation}
    (hparams : (operation.primitive (h.storage s).elem).signature.params = [.array]) :
    operation.callDynamic s [] h = (operation.primitive (h.storage s).elem).run [.array s] h := by
  apply callDynamic_of_passed
  rw [hparams]
  rfl

theorem callDynamic_get (hindex : index.index? = some i) :
    get.callDynamic s [index] h = (h.listElement s i, h) := by
  have hpassed : h.castArgs [.array, .int64] [.array s, index] = .ok [.array s, .int64 i] := by
    rw [h.castArgs_cons rfl, h.castArgs_cons rfl, h.cast_int64, hindex]
    rfl
  rw [callDynamic_of_passed .get hpassed]
  rfl

theorem callDynamic_get_of_no_index (hindex : index.index? = none) :
    get.callDynamic s [index] h = (.error (.type (.cannotCast (h.typeOf index) .int64)), h) := by
  have hrefused : h.castArgs [.array, .int64] [.array s, index] =
      .error (.type (.cannotCast (h.typeOf index) .int64)) := by
    rw [h.castArgs_cons rfl, h.castArgs_cons rfl, h.cast_int64, hindex]
    rfl
  exact callDynamic_of_refused .get hrefused

theorem callDynamic_set (hindex : index.index? = some i)
    (hstored : v.stored? (h.storage s).elem = some w) :
    set.callDynamic s [index, v] h =
      match h.setElement (h.storage s).elem s i w with
      | .ok after => (.ok .nothing, after)
      | .error fault => (.error fault, h) := by
  have hpassed : h.castArgs [.array, .int64, .ofElement (h.storage s).elem] [.array s, index, v] =
      .ok [.array s, .int64 i, w] := by
    rw [h.castArgs_cons rfl, h.castArgs_cons rfl, h.castArgs_cons rfl, h.cast_int64, hindex,
      h.cast_ofElement, hstored]
    rfl
  rw [callDynamic_of_passed .set hpassed]
  exact Primitive.elementSet_run (h.storage s).elem s (.int64 i) w h

theorem callDynamic_set_of_no_index (hindex : index.index? = none) :
    set.callDynamic s [index, v] h =
      (.error (.type (.cannotCast (h.typeOf index) .int64)), h) := by
  have hrefused : h.castArgs [.array, .int64, .ofElement (h.storage s).elem] [.array s, index, v] =
      .error (.type (.cannotCast (h.typeOf index) .int64)) := by
    rw [h.castArgs_cons rfl, h.castArgs_cons rfl, h.cast_int64, hindex]
    rfl
  exact callDynamic_of_refused .set hrefused

theorem callDynamic_set_of_unfit (hindex : index.index? = some i)
    (hstored : v.stored? (h.storage s).elem = none) :
    set.callDynamic s [index, v] h =
      (.error (.type (.cannotCast (h.typeOf v) (.ofElement (h.storage s).elem))), h) := by
  have hrefused : h.castArgs [.array, .int64, .ofElement (h.storage s).elem] [.array s, index, v] =
      .error (.type (.cannotCast (h.typeOf v) (.ofElement (h.storage s).elem))) := by
    rw [h.castArgs_cons rfl, h.castArgs_cons rfl, h.castArgs_cons rfl, h.cast_int64, hindex,
      h.cast_ofElement, hstored]
    rfl
  exact callDynamic_of_refused .set hrefused

theorem callDynamic_equals (t : StorageId) :
    equals.callDynamic s [.array t] h = (.ok (.bool (h.equal (.array s) (.array t))), h) := by
  have hpassed : h.castArgs [.array, .array] [.array s, .array t] = .ok [.array s, .array t] := rfl
  rw [callDynamic_of_passed .equals hpassed]
  rfl

theorem callDynamic_equals_of_not_array (hv : ∀ t, v ≠ .array t) :
    equals.callDynamic s [v] h = (.error (.type (.cannotCast (h.typeOf v) .array)), h) := by
  have hrefused : h.castArgs [.array, .array] [.array s, v] =
      .error (.type (.cannotCast (h.typeOf v) .array)) := by
    rw [h.castArgs_cons rfl, h.castArgs_cons rfl, h.cast_array_of_not_array hv]
    rfl
  exact callDynamic_of_refused .equals hrefused

end Evaluation

end ArrayOperation

/-! ## Failures -/

/-- How calls on an array fail at a dynamic site. -/
inductive Refused (h : Heap) (s : StorageId) : ArrayOperation → List Value → CallFault → Prop where
  | getNoIndex {index : Value} (hkind : index.kind ∉ [Kind.int64, Kind.int32, Kind.char]) :
      Refused h s .get [index] (.type (.cannotCast (h.typeOf index) .int64))
  | getOutOfRange {index : Value} {i : Int64} (hindex : index.index? = some i)
      (hrange : ¬(0 ≤ i.toInt ∧ i.toInt < (h.items s).length)) :
      Refused h s .get [index] (.bounds i (h.items s).length)
  | setNoIndex {index v : Value} (hkind : index.kind ∉ [Kind.int64, Kind.int32, Kind.char]) :
      Refused h s .set [index, v] (.type (.cannotCast (h.typeOf index) .int64))
  | setUnfit {index v : Value} (hkind : index.kind ∈ [Kind.int64, Kind.int32, Kind.char])
      (hadmits : (h.storage s).elem.admits v = false)
      (hwidens : v.kind.widensTo (.ofElement (h.storage s).elem) = false) :
      Refused h s .set [index, v]
        (.type (.cannotCast (h.typeOf v) (.ofElement (h.storage s).elem)))
  | setOutOfRange {index v : Value} {i : Int64} (hindex : index.index? = some i)
      (hfits : (h.storage s).elem.admits v = true ∨
        v.kind.widensTo (.ofElement (h.storage s).elem) = true)
      (hrange : ¬(0 ≤ i.toInt ∧ i.toInt < (h.items s).length)) :
      Refused h s .set [index, v] (.bounds i (h.items s).length)
  | equalsNoArray {v : Value} (hv : ∀ t, v ≠ .array t) :
      Refused h s .equals [v] (.type (.cannotCast (h.typeOf v) .array))
  | headOfEmpty (hempty : (h.items s).length = 0) :
      Refused h s .head [] (.argument .headOfEmpty)

theorem Value.admits_of_stored? {v w : Value} {elem : ElementType}
    (hstored : v.stored? elem = some w) : elem.admits w = true := by
  unfold stored? at hstored
  split at hstored
  · next hadmits =>
    cases hstored
    exact hadmits
  · cases v <;> cases elem <;> cases hstored <;> rfl

namespace ArrayOperation

variable {h : Heap} {s : StorageId} {fault : CallFault}

theorem get_fails_iff (index : Value) :
    (get.callDynamic s [index] h).1 = .error fault ↔ Refused h s .get [index] fault := by
  cases hindex : index.index? with
  | none =>
      have hkind := Value.index?_eq_none_iff.1 hindex
      rw [callDynamic_get_of_no_index hindex]
      constructor
      · rintro ⟨⟩
        exact .getNoIndex hkind
      · intro hrefused
        cases hrefused with
        | getNoIndex => rfl
        | getOutOfRange hfound => cases hindex.symm.trans hfound
  | some i =>
      rw [callDynamic_get hindex, Heap.listElement_eq_error_iff]
      constructor
      · rintro ⟨rfl, hrange⟩
        exact .getOutOfRange hindex hrange
      · intro hrefused
        cases hrefused with
        | getNoIndex hkind => cases hindex.symm.trans (Value.index?_eq_none_iff.2 hkind)
        | getOutOfRange hfound hrange =>
            cases hindex.symm.trans hfound
            exact ⟨rfl, hrange⟩

theorem set_fails_iff (index v : Value) :
    (set.callDynamic s [index, v] h).1 = .error fault ↔ Refused h s .set [index, v] fault := by
  cases hindex : index.index? with
  | none =>
      have hkind := Value.index?_eq_none_iff.1 hindex
      rw [callDynamic_set_of_no_index hindex]
      constructor
      · rintro ⟨⟩
        exact .setNoIndex hkind
      · intro hrefused
        cases hrefused with
        | setNoIndex => rfl
        | setUnfit hfound => exact absurd hfound hkind
        | setOutOfRange hfound => cases hindex.symm.trans hfound
  | some i =>
      have hkind : index.kind ∈ [Kind.int64, Kind.int32, Kind.char] := by
        by_contra hkind
        cases hindex.symm.trans (Value.index?_eq_none_iff.2 hkind)
      cases hstored : v.stored? (h.storage s).elem with
      | none =>
          have hunfit := Value.stored?_eq_none_iff.1 hstored
          rw [callDynamic_set_of_unfit hindex hstored]
          constructor
          · rintro ⟨⟩
            exact .setUnfit hkind hunfit.1 hunfit.2
          · intro hrefused
            cases hrefused with
            | setNoIndex hno => exact absurd hkind hno
            | setUnfit => rfl
            | setOutOfRange _ hfits => simp [hunfit] at hfits
      | some w =>
          have hfits : (h.storage s).elem.admits v = true ∨
              v.kind.widensTo (.ofElement (h.storage s).elem) = true := by
            by_contra hunfit
            rw [not_or, Bool.not_eq_true, Bool.not_eq_true] at hunfit
            cases hstored.symm.trans (Value.stored?_eq_none_iff.2 hunfit)
          have hadmits := Value.admits_of_stored? hstored
          have hanswer : (set.callDynamic s [index, v] h).1 = .error fault ↔
              h.setElement (h.storage s).elem s i w = .error fault := by
            rw [callDynamic_set hindex hstored]
            cases h.setElement (h.storage s).elem s i w <;> simp
          rw [hanswer, Heap.setElement_eq_error_iff rfl hadmits]
          constructor
          · rintro ⟨rfl, hrange⟩
            exact .setOutOfRange hindex hfits hrange
          · intro hrefused
            cases hrefused with
            | setNoIndex hno => exact absurd hkind hno
            | setUnfit _ hrefuses hwidens => simp [hrefuses, hwidens] at hfits
            | setOutOfRange hfound _ hrange =>
                cases hindex.symm.trans hfound
                exact ⟨rfl, hrange⟩

theorem equals_fails_iff (v : Value) :
    (equals.callDynamic s [v] h).1 = .error fault ↔ Refused h s .equals [v] fault := by
  by_cases hv : ∃ t, v = .array t
  · obtain ⟨t, rfl⟩ := hv
    rw [callDynamic_equals t]
    constructor
    · rintro ⟨⟩
    · rintro ⟨⟩
      rename_i hother
      exact absurd rfl (hother t)
  · rw [not_exists] at hv
    rw [callDynamic_equals_of_not_array hv]
    constructor
    · rintro ⟨⟩
      exact .equalsNoArray hv
    · rintro ⟨⟩
      rfl

theorem head_fails_iff :
    (head.callDynamic s [] h).1 = .error fault ↔ Refused h s .head [] fault := by
  have hrun : head.callDynamic s [] h = Primitive.head [.array s] h := callDynamic_of_unary rfl
  have hreceiver : Primitive.arrayArgument [.array s] 0 h = (.ok s, h) := rfl
  rw [hrun, Primitive.head, Action.bind_apply, hreceiver]
  cases hitems : h.items s with
  | nil =>
      simp only [Action.query, hitems]
      constructor
      · rintro ⟨⟩
        exact .headOfEmpty (congrArg List.length hitems)
      · rintro ⟨⟩
        rfl
  | cons v rest =>
      simp only [Action.query, hitems]
      constructor
      · rintro ⟨⟩
      · rintro ⟨⟩
        rename_i hempty
        rw [hitems] at hempty
        cases hempty

theorem length_succeeds (hlength : (h.items s).length ≤ Int64.maxValue.toInt) :
    (length.callDynamic s [] h).1 = .ok (.int64 (.ofNat (h.items s).length)) := by
  have hanswer : (length.callDynamic s [] h).1 =
      if (h.storage s).length ≤ Int64.maxValue.toInt then
        .ok (.int64 (.ofNat (h.storage s).length))
      else .error (.overflow (.notInt64 (h.storage s).length)) := by
    rw [callDynamic_of_unary rfl]
    rfl
  rw [hanswer]
  exact if_pos hlength

theorem callDynamic_fails_iff (operation : ArrayOperation) {args : List Value}
    (hcount : args.length = operation.arity)
    (hlength : (h.items s).length ≤ Int64.maxValue.toInt) :
    (operation.callDynamic s args h).1 = .error fault ↔ Refused h s operation args fault := by
  cases operation with
  | get =>
      obtain ⟨index, rfl⟩ := List.length_eq_one_iff.1 hcount
      exact get_fails_iff index
  | set =>
      obtain ⟨index, v, rfl⟩ := List.length_eq_two.1 hcount
      exact set_fails_iff index v
  | equals =>
      obtain ⟨v, rfl⟩ := List.length_eq_one_iff.1 hcount
      exact equals_fails_iff v
  | head =>
      cases List.length_eq_zero_iff.1 hcount
      exact head_fails_iff
  | length =>
      cases List.length_eq_zero_iff.1 hcount
      rw [length_succeeds hlength]
      constructor <;> rintro ⟨⟩
  | tail =>
      cases List.length_eq_zero_iff.1 hcount
      have htail : (tail.callDynamic s [] h).1 = .ok (.array h.freshStorage) := by
        rw [callDynamic_of_unary rfl]
        exact congrArg Prod.fst (Primitive.tail_apply s [] h)
      rw [htail]
      constructor <;> rintro ⟨⟩
  | iterator | render | listView | receiverType | isEmpty =>
      cases List.length_eq_zero_iff.1 hcount
      rw [callDynamic_of_unary rfl]
      constructor <;> rintro ⟨⟩

end ArrayOperation

/-! ## Caches of dynamic sites -/

theorem ArrayOperation.length_params (operation : ArrayOperation) (elem : ElementType) :
    (operation.primitive elem).signature.params.length = operation.arity + 1 := by
  cases operation <;> rfl

theorem ArrayOperation.call_eq_callDynamic {operation : ArrayOperation} {h : Heap} {s : StorageId}
    {count : Nat} {receiver : ValueType} {target : Target}
    (hadapt : (operation.primitive (h.storage s).elem).adapt (.dynamic count) receiver = .ok target)
    (rest : List Value) : target.call (.array s :: rest) h = operation.callDynamic s rest h := by
  have hreturns := operation.primitive_returnsFitting (h.storage s).elem
  have hfits := Signature.argsFit_dynamic count (.array s :: rest)
  exact Operation.call_eq_callWithCasts hreturns hadapt hfits h

/-- A site that calls an operation of arrays dynamically, with the rights to do so. -/
structure CallSite.CallsDynamically (site : CallSite) (operation : ArrayOperation) : Prop where
  name_mem : (site.name, operation) ∈ ArrayOperation.names
  signature_eq : site.signature = .dynamic (operation.arity + 1)
  granted : ∀ owner ∈ operation.owner?, owner ∉ site.access.denied

theorem CallSite.CallsDynamically.resolves {site : CallSite} {operation : ArrayOperation}
    (hsite : site.CallsDynamically operation) (elem : ElementType) {args : List Value}
    (hcount : args.length = operation.arity + 1) :
    ∃ target, Resolver.arrays ⟨site, .array elem, args⟩ = .ok target := by
  have hcalls : Request.Calls ⟨site, .array elem, args⟩ operation :=
    ⟨hsite.name_mem, by simp [hcount]⟩
  have hparams := operation.void_not_mem_params elem
  obtain ⟨adapter, hadapter⟩ := Adapter.exists_ofSignatures_dynamic hparams
  rw [operation.length_params, ← hsite.signature_eq] at hadapter
  exact ⟨_, Resolver.arrays_eq_of_arrayOutcome (.bound hcalls rfl hsite.granted hadapter)⟩

namespace InlineCache

theorem Sourced.outcome_of_dynamic {cache : InlineCache} (hsourced : cache.Sourced)
    {operation : ArrayOperation} (hsite : cache.site.CallsDynamically operation) (s : StorageId)
    {rest : List Value} (hcount : rest.length = operation.arity) (h : Heap) :
    (cache.call (.array s :: rest) h).outcome = operation.callDynamic s rest h := by
  rcases hsourced.call_array_cases s rest h with ⟨fault, hfault, _⟩ |
    ⟨named, target, hnamed, hadapt, houtcome⟩
  · have hlength : (Value.array s :: rest).length = operation.arity + 1 := by simp [hcount]
    obtain ⟨target, htarget⟩ := hsite.resolves (h.storage s).elem hlength
    simp only [resolve, Heap.typeOf, ValueType.shape] at hfault
    cases htarget.symm.trans hfault
  · cases ArrayOperation.eq_of_mem_names hnamed hsite.name_mem
    rw [hsite.signature_eq] at hadapt
    rw [houtcome]
    exact ArrayOperation.call_eq_callDynamic hadapt rest

theorem outcome_after_of_dynamic {site : CallSite} {operation : ArrayOperation}
    (hsite : site.CallsDynamically operation) (limit : RelinkLimit) (objects : Option Resolver)
    (history : List Call) (s : StorageId) {rest : List Value}
    (hcount : rest.length = operation.arity) (h : Heap) :
    (((fresh site limit objects).after history).call (.array s :: rest) h).outcome =
      operation.callDynamic s rest h := by
  have hsourced := sourced_after_fresh site limit objects history
  have hsame := ((fresh site limit objects).sameSettings_after history).site_eq
  exact hsourced.outcome_of_dynamic (hsame ▸ hsite) s hcount h

/-- After any history a dynamic call on an array with the right number of arguments fails exactly in
the listed cases, with the listed faults, and a call that fails leaves the heap as it was. -/
theorem dynamic_call_fails_iff_refused {site : CallSite} {operation : ArrayOperation}
    (hsite : site.CallsDynamically operation) (limit : RelinkLimit) (objects : Option Resolver)
    (history : List Call) (s : StorageId) {rest : List Value}
    (hcount : rest.length = operation.arity) (h : Heap)
    (hlength : (h.items s).length ≤ Int64.maxValue.toInt) :
    let reply := ((fresh site limit objects).after history).call (.array s :: rest) h
    ∀ fault, (reply.answer = .error fault ↔ Refused h s operation rest fault) ∧
      (reply.answer = .error fault → reply.heap = h) := by
  intro reply fault
  have houtcome := outcome_after_of_dynamic hsite limit objects history s hcount h
  constructor
  · have hanswer : reply.answer = (operation.callDynamic s rest h).1 := congrArg Prod.fst houtcome
    rw [hanswer]
    exact operation.callDynamic_fails_iff hcount hlength
  · intro hfailed
    exact (sourced_after_fresh site limit objects history).heap_of_failed s rest h hfailed

/-- A cache that wrote to an array of any values is called on two short integers: a character would
be stored, but the index, itself given as a character, is out of range; a string is refused before
the index is looked at. -/
theorem dynamic_set_refused :
    let site := CallSite.dynamic "set" 2
    let h := (Heap.empty.allocate ⟨.int32, [.int32 1, .int32 2], by decide⟩).allocate
      ⟨.any, [.nothing], by decide⟩
    let history : List Call := [⟨[.array ⟨1⟩, .int64 0, .bool true], h⟩]
    let cache := (fresh site ⟨some 0⟩ none).after history
    let outside := cache.call [.array ⟨0⟩, .char (.ofNat 2), .char 'x'] h
    let unfit := cache.call [.array ⟨0⟩, .char (.ofNat 2), .string "x"] h
    site.CallsDynamically .set ∧ [Value.char (.ofNat 2), .char 'x'].length = 2 ∧
      (h.items ⟨0⟩).length ≤ Int64.maxValue.toInt ∧ cache.status = .linked (.array .any) ∧
      outside.answer = .error (.bounds 2 2) ∧ outside.heap = h ∧
      unfit.answer = .error (.type (.cannotCast .string .int32)) ∧ unfit.heap = h := by
  intro site h history cache outside unfit
  have hsite : site.CallsDynamically .set :=
    ⟨by simp [site, CallSite.dynamic, ArrayOperation.names], rfl, by simp [ArrayOperation.owner?]⟩
  have hlength : (h.items ⟨0⟩).length ≤ Int64.maxValue.toInt := by decide
  have hchar : [Value.char (.ofNat 2), .char 'x'].length = ArrayOperation.set.arity := rfl
  have hstring : [Value.char (.ofNat 2), .string "x"].length = ArrayOperation.set.arity := rfl
  obtain ⟨houtside, hkept⟩ := dynamic_call_fails_iff_refused hsite ⟨some 0⟩ none history ⟨0⟩
    hchar h hlength (.bounds 2 2)
  obtain ⟨hunfit, hunfitKept⟩ := dynamic_call_fails_iff_refused hsite ⟨some 0⟩ none history ⟨0⟩
    hstring h hlength (.type (.cannotCast .string .int32))
  have hbounds : outside.answer = .error (.bounds 2 2) :=
    houtside.2 (.setOutOfRange rfl (.inr rfl) (by decide))
  have hcast : unfit.answer = .error (.type (.cannotCast .string .int32)) :=
    hunfit.2 (.setUnfit (by decide) rfl rfl)
  exact ⟨hsite, hchar, hlength, rfl, hbounds, hkept hbounds, hcast, hunfitKept hcast⟩

end InlineCache

end LateBinding

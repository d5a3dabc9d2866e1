import LateBinding.Proofs.KindSoundness

/-!
# Texts of signatures

A signature can be read off its text.  No name of a kind has a comma or a bracket in it, so the name
of the first parameter ends at the first of these, and what stands behind it says in the same way
what the other parameters are; behind the last bracket stands the kind of the result.

A fault that shows signatures by their texts therefore says which ones they are.  It shows one text
twice only where a signature is refused against itself, and that happens to those with a parameter
of kind `void` and to no others.
-/

namespace LateBinding

namespace Kind

theorem ofName?_name (k : Kind) : ofName? k.name = some k := by
  cases k <;> decide

theorem name_injective : Function.Injective name := by
  intro k l hname
  apply Option.some.inj
  rw [← ofName?_name k, ← ofName?_name l, hname]

/-- The characters that end a name in a list of parameters. -/
def endsName (c : Char) : Bool :=
  c = ',' || c = ')'

theorem endsName_of_mem_name {k : Kind} {c : Char} (hc : c ∈ k.name.toList) :
    endsName c = false := by
  have hname : k.name.toList.all (fun c => !endsName c) = true := by cases k <;> rfl
  simpa using List.all_eq_true.1 hname c hc

theorem name_ne_empty (k : Kind) : k.name.toList ≠ [] := by
  cases k <;> decide

theorem takeWhile_name_append (k : Kind) {rest : List Char}
    (hrest : ∀ c ∈ rest.head?, endsName c = true) :
    (k.name.toList ++ rest).takeWhile (fun c => !endsName c) = k.name.toList := by
  rw [List.takeWhile_append_of_pos fun c hc => by simp [endsName_of_mem_name hc]]
  cases rest with
  | nil => simp
  | cons c rest => simp [hrest c rfl]

/-- A name reaches up to the first character that ends it. -/
theorem eq_of_name_append {k l : Kind} {rest other : List Char}
    (hrest : ∀ c ∈ rest.head?, endsName c = true) (hother : ∀ c ∈ other.head?, endsName c = true)
    (htext : k.name.toList ++ rest = l.name.toList ++ other) : k = l ∧ rest = other := by
  have hname : k.name.toList = l.name.toList := by
    rw [← k.takeWhile_name_append hrest, htext, l.takeWhile_name_append hother]
  rw [hname] at htext
  exact ⟨name_injective (String.toList_injective hname), List.append_cancel_left htext⟩

/-- A bracket stands where a name would begin only if there is no parameter. -/
theorem name_append_ne_bracket (k : Kind) (rest other : List Char) :
    k.name.toList ++ rest ≠ ')' :: other := by
  obtain ⟨c, name, hname⟩ := List.exists_cons_of_ne_nil k.name_ne_empty
  intro htext
  rw [hname, List.cons_append] at htext
  have hc : endsName c = false := endsName_of_mem_name (k := k) (by simp [hname])
  rw [(List.cons.inj htext).1] at hc
  contradiction

end Kind

namespace Signature

/-- What stands behind the name of a parameter: the other parameters, the bracket and the result. -/
def textBehind (ret : Kind) : List Kind → List Char
  | [] => ')' :: ret.name.toList
  | k :: ks => ',' :: ' ' :: (k.name.toList ++ textBehind ret ks)

theorem endsName_of_mem_head?_textBehind {ret : Kind} {ks : List Kind} {c : Char}
    (hc : c ∈ (textBehind ret ks).head?) : Kind.endsName c = true := by
  cases ks <;> cases hc <;> rfl

theorem eq_of_name_textBehind {ret other k l : Kind} {ks ls : List Kind}
    (htext : k.name.toList ++ textBehind ret ks = l.name.toList ++ textBehind other ls) :
    k = l ∧ textBehind ret ks = textBehind other ls :=
  Kind.eq_of_name_append (fun _ => endsName_of_mem_head?_textBehind)
    (fun _ => endsName_of_mem_head?_textBehind) htext

/-- The bracket tells the end of the parameters, so the induction takes off one of each list. -/
theorem textBehind_injective {ret other : Kind} {ks ls : List Kind}
    (htext : textBehind ret ks = textBehind other ls) : ks = ls ∧ ret = other := by
  induction ks generalizing ls with
  | nil =>
      cases ls with
      | nil =>
          have hret : ret.name.toList = other.name.toList := (List.cons.inj htext).2
          exact ⟨rfl, Kind.name_injective (String.toList_injective hret)⟩
      | cons l ls => cases htext
  | cons k ks ih =>
      cases ls with
      | nil => cases htext
      | cons l ls =>
          have hnames := (List.cons.inj (List.cons.inj htext).2).2
          obtain ⟨hkind, hbehind⟩ := eq_of_name_textBehind hnames
          obtain ⟨hkinds, hret⟩ := ih hbehind
          exact ⟨by rw [hkind, hkinds], hret⟩

theorem toList_intercalate_names (k : Kind) (ks : List Kind) (ret : Kind) :
    (", ".intercalate ((k :: ks).map Kind.name) ++ ")" ++ ret.name).toList =
      k.name.toList ++ textBehind ret ks := by
  induction ks generalizing k with
  | nil => simp [textBehind]
  | cons l ks ih =>
      have hrest := ih l
      simp only [List.map_cons, String.intercalate_cons_cons, String.toList_append,
        List.append_assoc] at hrest ⊢
      rw [hrest]
      rfl

theorem toList_text_of_nil (ret : Kind) :
    (⟨[], ret⟩ : Signature).text.toList = '(' :: textBehind ret [] := by
  simp [text, textBehind]

theorem toList_text_of_cons (k : Kind) (ks : List Kind) (ret : Kind) :
    (⟨k :: ks, ret⟩ : Signature).text.toList = '(' :: (k.name.toList ++ textBehind ret ks) := by
  rw [← toList_intercalate_names]
  simp [text, String.append_assoc]

theorem text_ne_of_no_parameter (k : Kind) (ks : List Kind) (ret other : Kind) :
    (⟨k :: ks, ret⟩ : Signature).text ≠ (⟨[], other⟩ : Signature).text := by
  intro htext
  have hlists := congrArg String.toList htext
  rw [toList_text_of_cons, toList_text_of_nil] at hlists
  exact k.name_append_ne_bracket _ _ (List.cons.inj hlists).2

theorem text_injective : Function.Injective text := by
  rintro ⟨ks, ret⟩ ⟨ls, other⟩ htext
  cases ks with
  | nil =>
      cases ls with
      | nil =>
          have hlists := congrArg String.toList htext
          rw [toList_text_of_nil, toList_text_of_nil] at hlists
          rw [(textBehind_injective (List.cons.inj hlists).2).2]
      | cons l ls => exact absurd htext.symm (text_ne_of_no_parameter l ls other ret)
  | cons k ks =>
      cases ls with
      | nil => exact absurd htext (text_ne_of_no_parameter k ks ret other)
      | cons l ls =>
          have hlists := congrArg String.toList htext
          rw [toList_text_of_cons, toList_text_of_cons] at hlists
          obtain ⟨hkind, hbehind⟩ := eq_of_name_textBehind (List.cons.inj hlists).2
          obtain ⟨hkinds, hret⟩ := textBehind_injective hbehind
          rw [hkind, hkinds, hret]

end Signature

/-! ## Faults that show signatures -/

namespace Adapter

/-- A signature adapts to itself unless it has a parameter of kind `void`. -/
theorem exists_ofSignatures_self {s : Signature} (hparams : .void ∉ s.params) :
    ∃ adapter, ofSignatures s s = .ok adapter := by
  cases hadapter : ofSignatures s s with
  | ok adapter => exact ⟨adapter, rfl⟩
  | error fault =>
      exfalso
      rcases exists_missing_of_ofSignatures rfl hadapter with ⟨pair, hpair, hnone⟩ | hnone
      · -- a list paired with itself has pairs of equals only
        obtain ⟨i, hi⟩ := List.mem_iff_getElem?.1 hpair
        obtain ⟨hsource, hwanted⟩ := List.getElem?_zip_eq_some.1 hi
        have hsame : pair.1 = pair.2 := Option.some.inj (hsource.symm.trans hwanted)
        have hvoid : pair.2 ≠ .void := fun heq => hparams (heq ▸ List.mem_of_getElem? hwanted)
        have hnone := Coercion.of?_eq_none_of_forParameter? (hsame ▸ hvoid) hvoid hnone
        exact (Coercion.unrelated_of_of?_eq_none hnone).1 hsame
      · exact (Coercion.unrelated_of_of?_eq_none hnone).1 rfl

theorem void_not_mem_params_of_ofSignatures {target site : Signature} {adapter : Adapter}
    (hadapter : ofSignatures target site = .ok adapter) : .void ∉ target.params := by
  intro hvoid
  obtain ⟨hlength, hcount⟩ := length_eq_of_ofSignatures hadapter
  obtain ⟨i, hi⟩ := List.mem_iff_getElem?.1 hvoid
  have hlt : i < target.params.length := (List.getElem?_eq_some_iff.1 hi).1
  have hsource := List.getElem?_eq_getElem (hlength ▸ hlt)
  have hcoercion := List.getElem?_eq_getElem (hcount.symm ▸ hlength ▸ hlt)
  exact (Coercion.between_of_forParameter? (forParameter?_at hadapter hsource hi hcoercion)).1 rfl

/-- One text stands twice in a fault exactly where a signature that does not adapt to itself should. -/
theorem exists_same_text_iff {target site : Signature} :
    (∃ text, ofSignatures target site = .error (.noAdapter text text)) ↔
      target = site ∧ .void ∈ target.params := by
  constructor
  · rintro ⟨text, hadapter⟩
    obtain ⟨htarget, hsite⟩ := LinkFault.noAdapter.inj (fault_of_ofSignatures hadapter)
    have hsame : target = site := Signature.text_injective (htarget.symm.trans hsite)
    refine ⟨hsame, ?_⟩
    by_contra hparams
    obtain ⟨adapter, hok⟩ := exists_ofSignatures_self hparams
    rw [← hsame, hok] at hadapter
    cases hadapter
  · rintro ⟨rfl, hvoid⟩
    cases hadapter : ofSignatures target target with
    | ok adapter => exact absurd hvoid (void_not_mem_params_of_ofSignatures hadapter)
    | error fault =>
        cases fault_of_ofSignatures hadapter
        exact ⟨target.text, rfl⟩

end Adapter

theorem AccessContext.text_of_noPrimitive {access : AccessContext} {owner : Owner}
    {name owned named shown : String} {asked : Signature}
    (hbind : access.bind owner name asked = .error (.noPrimitive owned named shown)) :
    shown = asked.text := by
  unfold bind at hbind
  split at hbind
  · cases hbind
    rfl
  · split at hbind <;> cases hbind

/-- An operation of arrays has no parameter of kind `void`, so where it is refused it is not because
of its own signature. -/
theorem Resolver.texts_of_noAdapter {request : Request} {name source wanted : String}
    (hrefused : arrays request = .error (.unlinkable name (.noAdapter source wanted))) :
    wanted = request.site.signature.text ∧ source ≠ wanted := by
  have houtcome := arrayOutcome_arrays request
  rw [hrefused] at houtcome
  cases houtcome with
  | @noAdapter operation elem _ _ _ hadapter =>
      refine ⟨rfl, ?_⟩
      intro htext
      obtain ⟨adapter, hok⟩ := Adapter.exists_ofSignatures_self (operation.void_not_mem_params elem)
      rw [Signature.text_injective htext] at hok hadapter
      exact hadapter adapter hok

namespace Signature

/-- A text belongs to one signature.  The texts of a missing adapter belong to the operation and to
the site that were to be joined; they are equal only where a signature with a parameter of kind
`void` met itself, which no operation of arrays does at any site.  The text of a missing primitive
belongs to the signature that was asked for. -/
theorem text_identifies_signature :
    (∀ a b : Signature, a.text = b.text → a = b) ∧
    (∀ (target site : Signature) (source wanted : String),
      Adapter.ofSignatures target site = .error (.noAdapter source wanted) →
        (∀ a, text a = source ↔ a = target) ∧ ∀ b, text b = wanted ↔ b = site) ∧
    (∀ target site : Signature,
      (∃ text, Adapter.ofSignatures target site = .error (.noAdapter text text)) ↔
        target = site ∧ .void ∈ target.params) ∧
    (∀ (request : Request) (name source wanted : String),
      Resolver.arrays request = .error (.unlinkable name (.noAdapter source wanted)) →
        source ≠ wanted ∧ ∀ b, text b = wanted ↔ b = request.site.signature) ∧
    ∀ (access : AccessContext) (owner : Owner) (name : String) (asked : Signature)
      (owned named shown : String),
      access.bind owner name asked = .error (.noPrimitive owned named shown) →
        ∀ a, text a = shown ↔ a = asked := by
  refine ⟨text_injective, ?_, fun target site => Adapter.exists_same_text_iff, ?_, ?_⟩
  · intro target site source wanted hadapter
    cases Adapter.fault_of_ofSignatures hadapter
    exact ⟨fun other => text_injective.eq_iff, fun other => text_injective.eq_iff⟩
  · intro request name source wanted hrefused
    obtain ⟨rfl, hne⟩ := Resolver.texts_of_noAdapter hrefused
    exact ⟨hne, fun other => text_injective.eq_iff⟩
  · intro access owner name asked owned named shown hbind
    cases AccessContext.text_of_noPrimitive hbind
    exact fun other => text_injective.eq_iff

/-- A site that wants the length of anything as a string is refused, and so is one that compares an
array with an iterator.  A primitive that compares with an iterator is missing, and a signature
with a parameter of kind `void` is refused against itself. -/
theorem text_identifies_refused_signatures :
    let length : Signature := ⟨[.array], .int64⟩
    let anyText : Signature := ⟨[.any], .string⟩
    let compared : Signature := ⟨[.array, .iterator], .bool⟩
    let request : Request := ⟨⟨"equals", compared, .standard⟩, .array .any, [.array ⟨0⟩, .nothing]⟩
    let empty : Signature := ⟨[.void], .void⟩
    (Adapter.ofSignatures length anyText = .error (.noAdapter "(Array)Int64" "(Any)String") ∧
      ∀ b : Signature, b.text = "(Any)String" ↔ b = anyText) ∧
    (Resolver.arrays request = .error (.unlinkable "equals"
        (.noAdapter "(Array, Array)Bool" "(Array, ArrayIterator)Bool")) ∧
      ∀ b : Signature, b.text = "(Array, ArrayIterator)Bool" ↔ b = compared) ∧
    (AccessContext.standard.bind .arrays "equals" compared =
        .error (.noPrimitive "Arrays" "equals" "(Array, ArrayIterator)Bool") ∧
      ∀ a : Signature, a.text = "(Array, ArrayIterator)Bool" ↔ a = compared) ∧
    ∃ text, Adapter.ofSignatures empty empty = .error (.noAdapter text text) := by
  intro length anyText compared request empty
  have hadapter : Adapter.ofSignatures length anyText =
      .error (.noAdapter "(Array)Int64" "(Any)String") := by decide
  have hrefused : Resolver.arrays request = .error (.unlinkable "equals"
      (.noAdapter "(Array, Array)Bool" "(Array, ArrayIterator)Bool")) := by rfl
  have hmissing : AccessContext.standard.bind .arrays "equals" compared =
      .error (.noPrimitive "Arrays" "equals" "(Array, ArrayIterator)Bool") := by rfl
  obtain ⟨-, hadapters, hself, hrequests, hprimitives⟩ := text_identifies_signature
  exact ⟨⟨hadapter, (hadapters _ _ _ _ hadapter).2⟩,
    ⟨hrefused, (hrequests _ _ _ _ hrefused).2⟩,
    ⟨hmissing, hprimitives _ _ _ _ _ _ _ hmissing⟩, (hself empty empty).2 (by decide)⟩

end Signature

end LateBinding

import LateBinding.Proofs.StaleTargets

/-!
# What calls leave of the heap

Of the primitives of arrays most only read the heap, two add to it, and only the write of an element
changes what was there.  A primitive that fails has changed nothing, and after one that did change
the heap the coercion of its result cannot fail; so a call on an array that fails leaves the heap as
it was.
-/

namespace LateBinding

/-! ## Heaps that have more -/

/-- What `h` has, `later` has as well and unchanged; it may have further storages and cursors. -/
structure Heap.Extends (h later : Heap) : Prop where
  storages : ∀ (i : Nat) content, h.storages[i]? = some content → later.storages[i]? = some content
  cursors : ∀ (i : Nat) cursor, h.cursors[i]? = some cursor → later.cursors[i]? = some cursor

namespace Heap

theorem Extends.refl (h : Heap) : h.Extends h :=
  ⟨fun _ _ hfound => hfound, fun _ _ hfound => hfound⟩

theorem Extends.trans {h mid later : Heap} (hfirst : h.Extends mid) (hrest : mid.Extends later) :
    h.Extends later where
  storages := fun i content hfound => hrest.storages i content (hfirst.storages i content hfound)
  cursors := fun i cursor hfound => hrest.cursors i cursor (hfirst.cursors i cursor hfound)

theorem getElem?_push_of_some {α : Type} {found : α} {items : Array α} {i : Nat} (last : α)
    (hfound : items[i]? = some found) : (items.push last)[i]? = some found := by
  have hi : i < items.size := (Array.getElem?_eq_some_iff.1 hfound).1
  rw [Array.getElem?_push, if_neg (Nat.ne_of_lt hi), hfound]

theorem extends_allocate (h : Heap) (content : Storage) : h.Extends (h.allocate content) where
  storages := fun _ _ hfound => getElem?_push_of_some content hfound
  cursors := fun _ _ hfound => hfound

theorem extends_openCursor (h : Heap) (s : StorageId) : h.Extends (h.openCursor s) where
  storages := fun _ _ hfound => hfound
  cursors := fun _ _ hfound => getElem?_push_of_some (Cursor.mk s 0) hfound

end Heap

/-! ## Actions -/

namespace Action

variable {α β : Type} {first : Action α} {next : α → Action β}

def Reads (action : Action α) : Prop :=
  ∀ h, (action h).2 = h

def Grows (action : Action α) : Prop :=
  ∀ h : Heap, h.Extends (action h).2

def KeepsOnFailure (action : Action α) : Prop :=
  ∀ h fault after, action h = (.error fault, after) → after = h

theorem Reads.grows {action : Action α} (hreads : action.Reads) : action.Grows := by
  intro h
  rw [hreads h]
  exact .refl h

theorem Reads.keepsOnFailure {action : Action α} (hreads : action.Reads) :
    action.KeepsOnFailure := by
  intro h fault after hrun
  rw [← hreads h, hrun]

theorem reads_pure (a : α) : (pure a : Action α).Reads :=
  fun _ => rfl

theorem reads_fail (fault : CallFault) : (fail fault : Action α).Reads :=
  fun _ => rfl

theorem reads_query (read : Heap → Except CallFault α) : (query read).Reads :=
  fun _ => rfl

theorem reads_bind (hfirst : first.Reads) (hnext : ∀ a, (next a).Reads) :
    (first >>= next).Reads := by
  intro h
  rw [bind_apply]
  have hkept := hfirst h
  rcases hran : first h with ⟨fault | a, mid⟩
  · rw [hran] at hkept
    exact hkept
  · rw [hran] at hkept
    exact (hnext a mid).trans hkept

theorem grows_allocate (content : Storage) : (allocate content).Grows :=
  fun h => h.extends_allocate content

theorem grows_openCursor (s : StorageId) : (openCursor s).Grows :=
  fun h => h.extends_openCursor s

theorem grows_bind (hfirst : first.Grows) (hnext : ∀ a, (next a).Grows) :
    (first >>= next).Grows := by
  intro h
  rw [bind_apply]
  have hgrown := hfirst h
  rcases hran : first h with ⟨fault | a, mid⟩
  · rw [hran] at hgrown
    exact hgrown
  · rw [hran] at hgrown
    exact hgrown.trans (hnext a mid)

theorem keepsOnFailure_update (change : Heap → Except CallFault Heap) :
    (update change).KeepsOnFailure := by
  intro h fault after hrun
  exact (eq_error_of_update hrun).2

theorem keepsOnFailure_bind (hfirst : first.Reads) (hnext : ∀ a, (next a).KeepsOnFailure) :
    (first >>= next).KeepsOnFailure := by
  intro h fault after hrun
  rcases bind_eq_error_cases hrun with hfailed | ⟨a, mid, hran, hfailed⟩
  · exact hfirst.keepsOnFailure h fault after hfailed
  · have hkept : mid = h := by rw [← hfirst h, hran]
    exact (hnext a mid fault after hfailed).trans hkept

/-- A first action that changes the heap must be the last that can fail. -/
theorem keepsOnFailure_bind_of_ok (hfirst : first.KeepsOnFailure)
    (hnext : ∀ h a mid, first h = (.ok a, mid) → ∃ b after, next a mid = (.ok b, after)) :
    (first >>= next).KeepsOnFailure := by
  intro h fault after hrun
  rcases bind_eq_error_cases hrun with hfailed | ⟨a, mid, hran, hfailed⟩
  · exact hfirst h fault after hfailed
  · obtain ⟨b, last, hlast⟩ := hnext h a mid hran
    cases hlast.symm.trans hfailed

end Action

/-! ## Primitives -/

namespace Primitive

theorem argument_reads (args : List Value) (position : Nat) : (argument args position).Reads := by
  unfold argument
  split
  · exact Action.reads_pure _
  · exact Action.reads_fail _

theorem arrayArgument_reads (args : List Value) (position : Nat) :
    (arrayArgument args position).Reads := by
  apply Action.reads_bind (argument_reads args position)
  intro v
  cases v with
  | array s => exact Action.reads_pure s
  | _ => exact Action.reads_query _

theorem iterator_grows (args : List Value) : (iterator args).Grows := by
  apply Action.grows_bind (arrayArgument_reads args 0).grows
  intro s
  apply Action.grows_bind (Action.grows_openCursor s)
  exact fun c => (Action.reads_pure _).grows

theorem tail_grows (args : List Value) : (tail args).Grows := by
  apply Action.grows_bind (arrayArgument_reads args 0).grows
  intro s
  apply Action.grows_bind (Action.reads_query _).grows
  intro content
  apply Action.grows_bind (Action.grows_allocate _)
  exact fun t => (Action.reads_pure _).grows

theorem iterator_keepsOnFailure (args : List Value) : (iterator args).KeepsOnFailure := by
  apply Action.keepsOnFailure_bind (arrayArgument_reads args 0)
  intro s h fault after hrun
  cases hrun

theorem tail_keepsOnFailure (args : List Value) : (tail args).KeepsOnFailure := by
  rw [tail_eq_allocate]
  apply Action.keepsOnFailure_bind (arrayArgument_reads args 0)
  intro s h fault after hrun
  cases hrun

theorem elementSet_keepsOnFailure (elem : ElementType) (args : List Value) :
    ((elementSet elem).run args).KeepsOnFailure := by
  apply Action.keepsOnFailure_bind (arrayArgument_reads args 0)
  intro s
  apply Action.keepsOnFailure_bind (argument_reads args 1)
  intro index
  apply Action.keepsOnFailure_bind (Action.reads_query _)
  intro position
  apply Action.keepsOnFailure_bind (argument_reads args 2)
  intro v
  apply Action.keepsOnFailure_bind_of_ok (Action.keepsOnFailure_update _)
  exact fun _ _ mid _ => ⟨.nothing, mid, rfl⟩

end Primitive

namespace ArrayOperation

def changesHeap : ArrayOperation → Bool
  | set | iterator | tail => true
  | _ => false

theorem primitive_reads {operation : ArrayOperation} (hreads : operation.changesHeap = false)
    (elem : ElementType) (args : List Value) : ((operation.primitive elem).run args).Reads := by
  have hreceiver := Primitive.arrayArgument_reads args 0
  cases operation with
  | set | iterator | tail => contradiction
  | get =>
      apply Action.reads_bind hreceiver
      intro s
      apply Action.reads_bind (Primitive.argument_reads args 1)
      exact fun index => Action.reads_query _
  | equals =>
      apply Action.reads_bind hreceiver
      intro s
      apply Action.reads_bind (Primitive.arrayArgument_reads args 1)
      exact fun t => Action.reads_query _
  | listView => exact Action.reads_bind hreceiver fun s => Action.reads_pure _
  | receiverType => exact Action.reads_pure _
  | length | render | head | isEmpty =>
      exact Action.reads_bind hreceiver fun s => Action.reads_query _

theorem primitive_grows {operation : ArrayOperation} (hset : operation ≠ .set)
    (elem : ElementType) (args : List Value) : ((operation.primitive elem).run args).Grows := by
  cases hchanges : operation.changesHeap with
  | false => exact (primitive_reads hchanges elem args).grows
  | true =>
      cases operation with
      | set => contradiction
      | iterator => exact Primitive.iterator_grows args
      | tail => exact Primitive.tail_grows args
      | _ => contradiction

theorem primitive_keepsOnFailure (operation : ArrayOperation) (elem : ElementType)
    (args : List Value) : ((operation.primitive elem).run args).KeepsOnFailure := by
  cases hchanges : operation.changesHeap with
  | false => exact (primitive_reads hchanges elem args).keepsOnFailure
  | true =>
      cases operation with
      | set => exact Primitive.elementSet_keepsOnFailure elem args
      | iterator => exact Primitive.iterator_keepsOnFailure args
      | tail => exact Primitive.tail_keepsOnFailure args
      | _ => contradiction

theorem ret_ne_any_of_changesHeap {operation : ArrayOperation}
    (hchanges : operation.changesHeap = true) (elem : ElementType) :
    (operation.primitive elem).signature.ret ≠ .any := by
  cases operation with
  | set | iterator | tail => exact Kind.noConfusion
  | _ => contradiction

end ArrayOperation

/-! ## Targets -/

/-- Of the coercions of fitting values only the casts can fail, and those come from any value. -/
theorem Coercion.Between.exists_apply_ok {source wanted : Kind} {coercion : Coercion}
    (hbetween : Between source wanted coercion) (hsource : source ≠ .any) {v : Value}
    (hfits : v.Fits source) (h : Heap) : ∃ w, coercion.apply h v = .ok w := by
  cases hbetween with
  | identity | forget => exact ⟨v, rfl⟩
  | discard | supplyNothing => exact ⟨.nothing, rfl⟩
  | cast => contradiction
  | widen hwidens =>
      have hvoid : source ≠ .void := by
        rintro rfl
        cases hwidens
      rw [← hfits.kind_eq hsource hvoid, ← v.isSome_widened?] at hwidens
      obtain ⟨w, hwidened⟩ := Option.isSome_iff_exists.1 hwidens
      exact ⟨w, by simp [Coercion.apply, Heap.widen, hwidened]⟩

namespace ArrayOperation

variable {operation : ArrayOperation} {elem : ElementType} {site : Signature}
  {receiver : ValueType} {target : Target}
  (hadapt : (operation.primitive elem).adapt site receiver = .ok target)

include hadapt

theorem call_grows (hset : operation ≠ .set) (args : List Value) : (target.call args).Grows := by
  obtain ⟨adapter, _, rfl⟩ := Operation.adapt_eq_ok_iff.1 hadapt
  apply Action.grows_bind (Action.reads_query _).grows
  intro passed
  apply Action.grows_bind (primitive_grows hset elem passed)
  exact fun result => (Action.reads_query _).grows

theorem call_keepsOnFailure (args : List Value) : (target.call args).KeepsOnFailure := by
  obtain ⟨adapter, hadapter, rfl⟩ := Operation.adapt_eq_ok_iff.1 hadapt
  apply Action.keepsOnFailure_bind (Action.reads_query _)
  intro passed
  cases hchanges : operation.changesHeap with
  | false =>
      have hreads := primitive_reads hchanges elem passed
      exact (Action.reads_bind hreads fun result => Action.reads_query _).keepsOnFailure
  | true =>
      apply Action.keepsOnFailure_bind_of_ok (operation.primitive_keepsOnFailure elem passed)
      intro h result mid hrun
      have hret := (Adapter.ofSignatures_eq_ok_iff.1 hadapter).2.2
      have hfits := operation.primitive_returnsFitting elem passed h result mid hrun
      obtain ⟨v, hv⟩ := (Coercion.of?_eq_some_iff.1 hret).exists_apply_ok
        (ret_ne_any_of_changesHeap hchanges elem) hfits mid
      exact ⟨v, mid, congrArg (·, mid) hv⟩

end ArrayOperation

/-! ## Calls on arrays -/

namespace InlineCache

variable {cache : InlineCache} (hsourced : cache.Sourced) (s : StorageId) (rest : List Value)
  (h : Heap)

include hsourced

theorem Sourced.heap_of_failed {fault : CallFault}
    (hfailed : (cache.call (.array s :: rest) h).answer = .error fault) :
    (cache.call (.array s :: rest) h).heap = h := by
  rcases hsourced.call_array_cases s rest h with ⟨_, _, houtcome⟩ |
    ⟨operation, target, _, hadapt, houtcome⟩
  · exact congrArg Prod.snd houtcome
  · have hran : target.call (.array s :: rest) h =
        (.error fault, (cache.call (.array s :: rest) h).heap) := by
      rw [← houtcome, Reply.outcome, hfailed]
    exact ArrayOperation.call_keepsOnFailure hadapt _ h fault _ hran

theorem Sourced.extends_of_name_ne_set (hname : cache.site.name ≠ "set") :
    h.Extends (cache.call (.array s :: rest) h).heap := by
  rcases hsourced.call_array_cases s rest h with ⟨_, _, houtcome⟩ |
    ⟨operation, target, hnamed, hadapt, houtcome⟩
  · have hheap : (cache.call (.array s :: rest) h).heap = h := congrArg Prod.snd houtcome
    rw [hheap]
    exact .refl h
  · have hset : operation ≠ .set := by
      rintro rfl
      simp [ArrayOperation.names, hname] at hnamed
    have hheap : (cache.call (.array s :: rest) h).heap = (target.call (.array s :: rest) h).2 :=
      congrArg Prod.snd houtcome
    rw [hheap]
    exact ArrayOperation.call_grows hadapt hset _ h

end InlineCache

end LateBinding

import LateBinding.Calling.Operation
import LateBinding.Resolution.Primitive

/-!
# Ignored arguments

An operation can be given further parameters that it ignores, again and again and at any positions.
Its signature is then spliced, and its arguments are cut, by rules of their own.  The two stay in
step: what is ignored in the end are the arguments that were inserted along the way.
-/

namespace LateBinding

/-! ## Lists with members put in and left out -/

section Lists

variable {α : Type} (items : List α) (position : Nat)

/-- The list with further members at a position. -/
def insertAt (more : List α) : List α :=
  items.take position ++ more ++ items.drop position

/-- The members whose positions are not from `first` on and before `last`. -/
def without (first last : Nat) : List α :=
  (items.zipIdx.filter fun item => item.2 < first ∨ last ≤ item.2).map Prod.fst

/-- The members from one position on and before another, if the list reaches that far. -/
def slice? (first last : Nat) : Option (List α) :=
  if first ≤ last ∧ last ≤ items.length then some ((items.take last).drop first) else none

/-- The members before and behind a run of `count` members, each side as one slice.  Behind a run
that the list ends in there is no slice to take. -/
def sides? (count : Nat) : Option (List α) :=
  let last := position + count
  let behind? := if last < items.length then slice? items last items.length else some []
  (slice? items 0 (min position items.length)).bind fun before => behind?.map (before ++ ·)

theorem length_insertAt (more : List α) :
    (insertAt items position more).length = items.length + more.length := by
  simp only [insertAt, List.length_append, List.length_take, List.length_drop]
  omega

theorem insertAt_insertAt (first second : List α) :
    insertAt (insertAt items position first) (position + first.length) second =
      insertAt items position (first ++ second) := by
  rcases Nat.le_total position items.length with hin | hout
  · have hinserted : (items.take position ++ first).length = position + first.length := by
      rw [List.length_append, List.length_take_of_le hin]
    simp only [insertAt]
    rw [List.take_left' hinserted, List.drop_left' hinserted]
    simp only [List.append_assoc]
  · have hall : (items ++ first).length ≤ position + first.length := by
      rw [List.length_append]
      omega
    simp only [insertAt, List.take_of_length_le hout, List.drop_of_length_le hout,
      List.append_nil]
    rw [List.take_of_length_le hall, List.drop_of_length_le hall, List.append_nil,
      List.append_assoc]

variable {position} in
/-- Cutting out what was inserted gives the list back. -/
theorem cut_insertAt (hposition : position ≤ items.length) (more : List α) :
    (insertAt items position more).take position ++
      (insertAt items position more).drop (position + more.length) = items := by
  have hbefore : (items.take position).length = position := List.length_take_of_le hposition
  have hinserted : (items.take position ++ more).length = position + more.length := by
    rw [List.length_append, hbefore]
  have htake : (insertAt items position more).take position = items.take position := by
    rw [insertAt, List.append_assoc, List.take_left' hbefore]
  have hdrop : (insertAt items position more).drop (position + more.length) =
      items.drop position := by
    rw [insertAt, List.drop_left' hinserted]
  rw [htake, hdrop, List.take_append_drop]

/-- Cutting twice at one position is cutting once. -/
theorem cut_cut (first second : Nat) :
    let once := items.take (position + first) ++ items.drop (position + first + second)
    once.take position ++ once.drop (position + first) =
      items.take position ++ items.drop (position + (first + second)) := by
  intro once
  rcases Nat.le_total (position + first) items.length with hin | hout
  · have hkept : (items.take (position + first)).length = position + first :=
      List.length_take_of_le hin
    have htake : once.take position = items.take position := by
      rw [List.take_append_of_le_length (by omega), List.take_take,
        Nat.min_eq_left (Nat.le_add_right position first)]
    rw [htake, List.drop_left' hkept, Nat.add_assoc]
  · have honce : once = items := by
      simp only [once, List.take_of_length_le hout]
      rw [List.drop_of_length_le (by omega), List.append_nil]
    rw [honce, List.drop_of_length_le hout, List.drop_of_length_le (by omega)]

theorem without_eq_cut (count : Nat) :
    without items position (position + count) =
      items.take position ++ items.drop (position + count) := by
  let before := items.take position
  let hidden := (items.drop position).take count
  let behind := items.drop (position + count)
  have hitems : items = before ++ (hidden ++ behind) := by
    simp only [before, hidden, behind, ← List.drop_drop, List.take_append_drop]
  have hbefore : before.length = min position items.length := List.length_take
  have hhidden : hidden.length = min count (items.length - position) := by
    rw [List.length_take, List.length_drop]
  have hbehind : behind.length = items.length - (position + count) := List.length_drop
  -- a side that has a member begins where the list without gaps has it begin
  have hkeepsBefore : (before.zipIdx.filter fun item =>
      item.2 < position ∨ position + count ≤ item.2) = before.zipIdx := by
    apply List.filter_eq_self.2
    intro item hitem
    have hrange := List.mem_zipIdx hitem
    simp only [decide_eq_true_eq]
    omega
  have hdropsHidden : ((hidden.zipIdx (0 + before.length)).filter fun item =>
      item.2 < position ∨ position + count ≤ item.2) = [] := by
    apply List.filter_eq_nil_iff.2
    intro item hitem
    have hrange := List.mem_zipIdx hitem
    simp only [decide_eq_true_eq]
    omega
  have hkeepsBehind : ((behind.zipIdx (0 + before.length + hidden.length)).filter fun item =>
      item.2 < position ∨ position + count ≤ item.2) =
        behind.zipIdx (0 + before.length + hidden.length) := by
    apply List.filter_eq_self.2
    intro item hitem
    have hrange := List.mem_zipIdx hitem
    simp only [decide_eq_true_eq]
    omega
  calc
    without items position (position + count) =
        without (before ++ (hidden ++ behind)) position (position + count) := by
      rw [← hitems]
    _ = before ++ behind := by
      simp only [without, List.zipIdx_append, List.filter_append]
      rw [hkeepsBefore, hdropsHidden, hkeepsBehind, List.nil_append, List.map_append,
        List.zipIdx_map_fst, List.zipIdx_map_fst]

/-- Both sides of a run can be sliced out of any list, and are what a cut leaves. -/
theorem sides?_eq_cut (count : Nat) :
    sides? items position count =
      some (items.take position ++ items.drop (position + count)) := by
  have hbefore : slice? items 0 (min position items.length) = some (items.take position) := by
    rw [slice?, if_pos ⟨Nat.zero_le _, Nat.min_le_right _ _⟩, List.drop_zero,
      ← List.take_eq_take_min]
  simp only [sides?, hbefore, Option.bind_some]
  by_cases hreach : position + count < items.length
  · have hbehind : slice? items (position + count) items.length =
        some (items.drop (position + count)) := by
      rw [slice?, if_pos ⟨Nat.le_of_lt hreach, Nat.le_refl _⟩, List.take_length]
    rw [if_pos hreach, hbehind, Option.map_some]
  · rw [if_neg hreach, List.drop_of_length_le (Nat.le_of_not_lt hreach), Option.map_some]

end Lists

/-! ## Operations that ignore several groups of parameters -/

/-- Further parameters at a position, and what a call passes for them. -/
structure Insertion where
  position : Nat
  kinds : List Kind
  args : List Value
  length_args : args.length = kinds.length

section Insertions

variable {α : Type}

/-- The list with the members that each insertion has for it, put in one group after another. -/
def insertAll (members : Insertion → List α) (items : List α) (insertions : List Insertion) :
    List α :=
  insertions.foldl (fun items insertion => insertAt items insertion.position (members insertion))
    items

theorem insertAll_cons (members : Insertion → List α) (items : List α) (insertion : Insertion)
    (rest : List Insertion) :
    insertAll members items (insertion :: rest) =
      insertAll members (insertAt items insertion.position (members insertion)) rest :=
  List.foldl_cons

theorem length_insertAll {members : Insertion → List α}
    (hlength : ∀ insertion, (members insertion).length = insertion.kinds.length) (items : List α)
    (insertions : List Insertion) :
    (insertAll members items insertions).length =
      items.length + (insertions.flatMap Insertion.kinds).length := by
  induction insertions generalizing items with
  | nil => rfl
  | cons insertion rest ih =>
      rw [insertAll_cons, ih, length_insertAt, hlength, List.flatMap_cons, List.length_append]
      omega

end Insertions

namespace Operation

/-- The operation with the parameters of each insertion, which it ignores. -/
def ignoringAll (operation : Operation) (insertions : List Insertion) : Operation :=
  insertions.foldl (fun operation insertion =>
    operation.ignoring insertion.position insertion.kinds) operation

/-- Each insertion is at a position that the parameters of its turn reach. -/
def CanIgnore (operation : Operation) : List Insertion → Prop
  | [] => True
  | insertion :: rest =>
    insertion.position ≤ operation.signature.params.length ∧
      (operation.ignoring insertion.position insertion.kinds).CanIgnore rest

variable {operation : Operation}

theorem ignoringAll_cons (operation : Operation) (insertion : Insertion) (rest : List Insertion) :
    operation.ignoringAll (insertion :: rest) =
      (operation.ignoring insertion.position insertion.kinds).ignoringAll rest :=
  List.foldl_cons

theorem signature_ignoringAll (operation : Operation) (insertions : List Insertion) :
    (operation.ignoringAll insertions).signature =
      ⟨insertAll Insertion.kinds operation.signature.params insertions,
        operation.signature.ret⟩ := by
  induction insertions generalizing operation with
  | nil => rfl
  | cons insertion rest ih =>
      rw [ignoringAll_cons, ih, insertAll_cons]
      rfl

theorem run_ignoring_insertAt {args : List Value} (insertion : Insertion)
    (hposition : insertion.position ≤ args.length) :
    (operation.ignoring insertion.position insertion.kinds).run
      (insertAt args insertion.position insertion.args) = operation.run args := by
  have hcut := cut_insertAt args hposition insertion.args
  rw [insertion.length_args] at hcut
  exact congrArg operation.run hcut

theorem run_ignoringAll_insertAll {insertions : List Insertion}
    (hcan : operation.CanIgnore insertions) {args : List Value}
    (hargs : operation.signature.params.length ≤ args.length) :
    (operation.ignoringAll insertions).run (insertAll Insertion.args args insertions) =
      operation.run args := by
  induction insertions generalizing operation args with
  | nil => rfl
  | cons insertion rest ih =>
      obtain ⟨hposition, hrest⟩ := hcan
      -- parameters and arguments grow by the same number, so the next position is in reach of both
      have hgrown : (operation.ignoring insertion.position insertion.kinds).signature.params.length
          ≤ (insertAt args insertion.position insertion.args).length := by
        have hparams := length_insertAt operation.signature.params insertion.position
          insertion.kinds
        have hlength := insertion.length_args
        rw [length_insertAt]
        simp only [ignoring, Signature.insert]
        simp only [insertAt] at hparams
        omega
      rw [ignoringAll_cons, insertAll_cons, ih hrest hgrown]
      exact run_ignoring_insertAt insertion (Nat.le_trans hposition hargs)

theorem ignoring_ignoring (operation : Operation) (position : Nat) (first second : List Kind) :
    (operation.ignoring position first).ignoring (position + first.length) second =
      operation.ignoring position (first ++ second) := by
  have hparams := insertAt_insertAt operation.signature.params position first second
  simp only [insertAt] at hparams
  simp only [ignoring, Signature.insert, hparams, mk.injEq, true_and]
  funext args
  have hcut := cut_cut args position first.length second.length
  rw [List.length_append]
  exact congrArg operation.run hcut

/-- Where each group of parameters is inserted within the parameters of its turn, a call that has
the same insertions among its arguments does what the operation does without them.  One group takes
out of any list the arguments at its own positions, and a group right behind another is one longer
group. -/
theorem ignores_inserted_arguments (operation : Operation) :
    (∀ insertions, operation.CanIgnore insertions →
      ∀ args : List Value, operation.signature.params.length ≤ args.length →
        let final := operation.ignoringAll insertions
        let passed := insertAll Insertion.args args insertions
        final.run passed = operation.run args ∧
        final.signature = ⟨insertAll Insertion.kinds operation.signature.params insertions,
          operation.signature.ret⟩ ∧
        final.signature.params.length + args.length =
          passed.length + operation.signature.params.length) ∧
    (∀ position kinds args, ∃ kept,
      (operation.ignoring position kinds).run args = operation.run kept ∧
      kept = without args position (position + kinds.length) ∧
      sides? args position kinds.length = some kept) ∧
    ∀ position first second,
      (operation.ignoring position first).ignoring (position + first.length) second =
        operation.ignoring position (first ++ second) := by
  refine ⟨?_, ?_, operation.ignoring_ignoring⟩
  · intro insertions hcan args hargs final passed
    have hsignature := operation.signature_ignoringAll insertions
    have hparams : (insertAll Insertion.kinds operation.signature.params insertions).length =
        operation.signature.params.length + (insertions.flatMap Insertion.kinds).length :=
      length_insertAll (fun _ => rfl) operation.signature.params insertions
    have hpassed := length_insertAll Insertion.length_args args insertions
    refine ⟨run_ignoringAll_insertAll hcan hargs, hsignature, ?_⟩
    simp only [final, passed, hsignature]
    omega
  · intro position kinds args
    have hwithout := without_eq_cut args position kinds.length
    exact ⟨_, rfl, hwithout.symm, sides?_eq_cut args position kinds.length⟩

/-- The second group is inserted among the first and the third behind all parameters. -/
theorem get_ignores_inserted_arguments :
    let operation := Primitive.elementGet .int64
    let h : Heap := ⟨#[⟨.int64, [.int64 10, .int64 20], by decide⟩], #[]⟩
    let insertions : List Insertion :=
      [⟨1, [.string, .bool], [.string "x", .bool true], rfl⟩, ⟨2, [.char], [.char 'c'], rfl⟩,
        ⟨5, [.any], [.nothing], rfl⟩]
    let final := operation.ignoringAll insertions
    let passed : List Value :=
      [.array ⟨0⟩, .string "x", .char 'c', .bool true, .int64 1, .nothing]
    operation.CanIgnore insertions ∧
      operation.signature.params.length ≤ [Value.array ⟨0⟩, .int64 1].length ∧
      insertAll Insertion.args [.array ⟨0⟩, .int64 1] insertions = passed ∧
      final.run passed h = (.ok (.int64 20), h) ∧
      final.signature = ⟨[.array, .string, .char, .bool, .int64, .any], .int64⟩ ∧
      final.signature.params.length = passed.length := by
  intro operation h insertions final passed
  have hcan : operation.CanIgnore insertions := ⟨by decide, by decide, by decide, trivial⟩
  have hargs : operation.signature.params.length ≤ [Value.array ⟨0⟩, .int64 1].length := by decide
  obtain ⟨hrun, hsignature, hlengths⟩ :=
    operation.ignores_inserted_arguments.1 insertions hcan [.array ⟨0⟩, .int64 1] hargs
  have hcall : final.run passed h = operation.run [.array ⟨0⟩, .int64 1] h := congrFun hrun h
  exact ⟨hcan, hargs, rfl, hcall, hsignature, Nat.add_right_cancel hlengths⟩

end Operation

end LateBinding

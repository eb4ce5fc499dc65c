import ScriptTree.Proofs.Comparison
import ScriptTree.Proofs.OperatorDomain

/-!
# Mirrored comparisons

Equality and order do not depend on which operand stands on which side: with its operands exchanged, a comparison has the
answer of the operator turned round (`BinaryOperator.mirror`), and where it refuses its operands, the refusal names them in
the other order (`OperationError.mirror`). `apply_mirror` says this of all eight comparisons at once.

The functions behind them do not look symmetric. Loose equality converts a boolean on one side at a time, and a BigInt on the
left is compared by another branch than one on the right; both come down to symmetric comparisons of what the operands hold.
-/

namespace ScriptTree

namespace BinaryOperator

/-- The operator turned round: what it says of two values, a comparison says of them in the other order. -/
def mirror : BinaryOperator → BinaryOperator
  | less => greater
  | lessEqual => greaterEqual
  | greater => less
  | greaterEqual => lessEqual
  | operator => operator

/-- The operators that compare two values: the equalities and the orders. -/
def isComparison : BinaryOperator → Bool
  | looseEqual | looseUnequal | strictEqual | strictUnequal | less | lessEqual | greater | greaterEqual => true
  | _ => false

/-- Comparisons result in booleans. -/
theorem resultType_of_isComparison {operator : BinaryOperator} (h : operator.isComparison = true) (left right : Value) :
    operator.resultType left right = .boolean := by
  cases operator with
  | looseEqual | looseUnequal | strictEqual | strictUnequal | less | lessEqual | greater | greaterEqual => rfl
  | _ => nomatch h

/-- Comparisons have no range to exceed. -/
theorem mayExceed_of_isComparison {operator : BinaryOperator} (h : operator.isComparison = true) :
    operator.mayExceed = false := by
  cases operator with
  | looseEqual | looseUnequal | strictEqual | strictUnequal | less | lessEqual | greater | greaterEqual => rfl
  | _ => nomatch h

end BinaryOperator

/-- The failure of an operation whose operands are exchanged. -/
def OperationError.mirror : OperationError → OperationError
  | .unsupported operator left right => .unsupported operator.mirror right left
  | .range cause => .range cause

namespace Value

/-! ## Equality -/

/-- Strict equality is symmetric. -/
theorem strictEquals_comm (a b : Value) : b.strictEquals a = a.strictEquals b := by
  cases a <;> cases b
  case number.number x y => exact y.equals_comm x
  case boolean.boolean | string.string | bigint.bigint | regex.regex | callable.callable | object.object =>
    exact BEq.comm
  -- values of two kinds are unequal from either side
  all_goals rfl

/-- Equality by conversion is symmetric but for the order of the types in a refusal. -/
theorem equalsConverting_mirror (a b : Value) :
    b.equalsConverting a = (a.equalsConverting b).mapError OperationError.mirror := by
  cases a <;> cases b
  case number.number | boolean.boolean | string.string | bigint.bigint | regex.regex | callable.callable
      | object.object =>
    exact congrArg Except.ok (strictEquals_comm _ _)
  -- values of two kinds are read by one branch from either side, or refused by it
  all_goals rfl

/-- Beside a nullish operand nothing is converted: the other one is nullish or not. -/
theorem looseEquals_of_isNullish {a b : Value} (h : (a.isNullish || b.isNullish) = true) :
    a.looseEquals b = .ok (a.isNullish && b.isNullish) := if_pos h

/-- Loose equality is symmetric but for the order of the types in a refusal. -/
theorem looseEquals_mirror (a b : Value) : b.looseEquals a = (a.looseEquals b).mapError OperationError.mirror := by
  cases hn : a.isNullish || b.isNullish with
  | true =>
    rw [looseEquals_of_isNullish hn, looseEquals_of_isNullish (Bool.or_comm .. ▸ hn), Bool.and_comm]
    rfl
  | false =>
    obtain ⟨ha, hb⟩ := Bool.or_eq_false_iff.mp hn
    rw [looseEquals_eq ha hb, looseEquals_eq hb ha, equalsConverting_mirror]

/-! ## Order -/

theorem map_swap_map_swap (o : Option Ordering) : (o.map Ordering.swap).map Ordering.swap = o := by
  cases o with
  | none => rfl
  | some ordering => exact congrArg some ordering.swap_swap

/-- A BigInt compares with what a text is read as from either side. -/
theorem compareRead_swap (a : BigInt) (read : Option BigInt) :
    (read.map fun b => compare b.val a.val) = (read.map fun b => compare a.val b.val).map Ordering.swap := by
  cases read with
  | none => rfl
  | some b => exact congrArg some Std.OrientedOrd.eq_swap

/-- Two primitives that are no BigInts compare as the numbers that they convert to. -/
theorem compareNumbers_swap (x y : Option Double) :
    (do (← y).compare? (← x)) = ((do (← x).compare? (← y)) : Option Ordering).map Ordering.swap := by
  cases x with
  | none => cases y <;> rfl
  | some x =>
    cases y with
    | none => rfl
    | some y => exact Double.compare?_swap x y

/-- The order of two primitives is turned round with them. -/
theorem order?_swap (a b : Value) : b.order? a = (a.order? b).map Ordering.swap := by
  cases a with
  | string s =>
    cases b with
    | string t => exact congrArg some Std.OrientedOrd.eq_swap
    | bigint b => exact (map_swap_map_swap _).symm.trans (congrArg _ (compareRead_swap b _).symm)
    | _ => exact compareNumbers_swap _ _
  | bigint a =>
    cases b with
    | string t => exact compareRead_swap a _
    | bigint b => exact congrArg some Std.OrientedOrd.eq_swap
    | _ => rfl
  | _ =>
    cases b with
    -- a number on the left of a BigInt is compared with the sides exchanged, and the answer turned round
    | bigint b => exact (map_swap_map_swap _).symm
    | _ => exact compareNumbers_swap _ _

/-- An order operator that accepts the orderings of another, turned round, mirrors it. -/
theorem compareBy_mirror (operator : BinaryOperator) {accepts accepts' : Ordering → Bool}
    (h : ∀ ordering, accepts' ordering.swap = accepts ordering) (a b : Value) :
    compareBy operator.mirror accepts' b a = (compareBy operator accepts a b).mapError OperationError.mirror := by
  have hany : (b.order? a).any accepts' = (a.order? b).any accepts := by
    rw [order?_swap a b]
    cases a.order? b with
    | none => rfl
    | some ordering => exact h ordering
  unfold compareBy
  rw [Bool.or_comm, hany]
  split <;> rfl

end Value

/-! ## The comparisons -/

/-- What is done with a result and what is done with a failure do not meet. -/
theorem map_mapError {ε ε' α β : Type} (f : α → β) (g : ε → ε') (result : Except ε α) :
    (result.mapError g).map f = (result.map f).mapError g := by
  cases result <;> rfl

open Value in
/-- A comparison of exchanged operands has the result of the operator turned round, a refusal turned round as well. -/
theorem apply_mirror {operator : BinaryOperator} (h : operator.isComparison = true) (a b : Value) :
    operator.mirror.apply b a = (operator.apply a b).mapError OperationError.mirror := by
  cases operator with
  | looseEqual | looseUnequal =>
    exact (congrArg _ (looseEquals_mirror a b)).trans (map_mapError _ _ _)
  | strictEqual => exact congrArg (fun equal => Except.ok (boolean equal)) (strictEquals_comm a b)
  | strictUnequal => exact congrArg (fun equal => Except.ok (boolean !equal)) (strictEquals_comm a b)
  | less | lessEqual | greater | greaterEqual =>
    exact compareBy_mirror _ (fun ordering => by cases ordering <;> rfl) a b
  | _ => nomatch h

open BinaryOperator in
/-- A comparison has a boolean for its result, or refuses its operands. -/
theorem apply_of_isComparison {operator : BinaryOperator} (h : operator.isComparison = true) (a b : Value) :
    (∃ answer, operator.apply a b = .ok (.boolean answer)) ∨
      ∃ named l r, operator.apply a b = .error (.unsupported named l r) := by
  have hjudges := judges_apply operator a b
  cases hresult : operator.apply a b with
  | ok value =>
    rw [hresult] at hjudges
    have htype : value.typeName = .boolean := hjudges.2.trans (resultType_of_isComparison h a b)
    cases value with
    | boolean answer => exact .inl ⟨answer, rfl⟩
    | _ => nomatch htype
  | error error =>
    rw [hresult] at hjudges
    cases error with
    | unsupported named l r => exact .inr ⟨named, l, r, rfl⟩
    | range cause => exact absurd (mayExceed_of_isComparison h ▸ hjudges.2.1) Bool.false_ne_true

/-- Comparisons are mirror-symmetric. With its operands exchanged and its operator turned round, a comparison has the same
answer; or both are refused, and the one refusal is the other with its two types exchanged. -/
theorem comparisons_are_mirrored (operator : BinaryOperator) (h : operator.isComparison = true) (a b : Value) :
    (∃ answer, operator.apply a b = .ok (.boolean answer) ∧ operator.mirror.apply b a = .ok (.boolean answer)) ∨
      ∃ named l r, operator.apply a b = .error (.unsupported named l r) ∧
        operator.mirror.apply b a = .error (.unsupported named.mirror r l) := by
  rw [apply_mirror h a b]
  rcases apply_of_isComparison h a b with ⟨answer, hanswer⟩ | ⟨named, l, r, hrefused⟩
  · rw [hanswer]
    exact .inl ⟨answer, rfl, rfl⟩
  · rw [hrefused]
    exact .inr ⟨named, l, r, rfl, rfl⟩

/-- A BigInt and a text, each read exactly, and a boolean beside an object, where the refusals name the number
that the boolean has become. -/
theorem mirrored_answer_and_refusal :
    let two : Value := .bigint ⟨2, by decide, by decide⟩
    let object : Value := .object 0 []
    (BinaryOperator.lessEqual.isComparison = true ∧ BinaryOperator.looseUnequal.isComparison = true) ∧
      (BinaryOperator.lessEqual.Holds two (.string "10") ∧ BinaryOperator.greaterEqual.Holds (.string "10") two) ∧
      (BinaryOperator.looseUnequal.apply (.boolean true) object = .error (.unsupported .looseEqual .number .object) ∧
        BinaryOperator.looseUnequal.apply object (.boolean true) =
          .error (.unsupported .looseEqual .object .number)) := by
  intro two object
  refine ⟨⟨rfl, rfl⟩, ?_, ?_⟩
  · rcases comparisons_are_mirrored .lessEqual rfl two (.string "10") with ⟨answer, h, h'⟩ | ⟨_, _, _, h, -⟩
    · have hanswer : BinaryOperator.lessEqual.apply two (.string "10") = .ok (.boolean true) := by rfl
      obtain rfl : answer = true := by simpa [hanswer] using h.symm
      exact ⟨h, h'⟩
    · nomatch h
  · rcases comparisons_are_mirrored .looseUnequal rfl (.boolean true) object with ⟨answer, h, -⟩ | ⟨named, l, r, h, h'⟩
    · nomatch h
    · obtain ⟨⟩ := h
      exact ⟨rfl, h'⟩

end ScriptTree

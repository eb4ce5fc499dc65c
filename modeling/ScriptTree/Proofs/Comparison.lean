import ScriptTree.Operation.Apply
import ScriptTree.Proofs.CodeUnits
import ScriptTree.Proofs.Rounding

/-!
# Loose equality and order agree

The four order operators read one order off two values (`Value.order?`), while loose equality converts its operands on its
own. `looseEquals_eq_order` says that for booleans, numbers, strings and BigInts it finds out the same: two values are
loosely equal exactly if that order calls them equal. What the five operators have to do with one another follows
(`equality_agrees_with_order`).
-/

namespace ScriptTree

namespace BinaryOperator

/-- An operator holds of two values if its result is true. -/
def Holds (operator : BinaryOperator) (left right : Value) : Prop :=
  operator.apply left right = .ok (.boolean true)

/-- An operator decides a question about two values: its result is a boolean, and true exactly if the answer is yes. -/
def Decides (operator : BinaryOperator) (left right : Value) (question : Prop) : Prop :=
  (∃ answer, operator.apply left right = .ok (.boolean answer)) ∧ (operator.Holds left right ↔ question)

/-- An operator whose answer is true exactly if a question is answered yes decides that question. -/
theorem decides_of_apply {operator : BinaryOperator} {left right : Value} {answer : Bool} {question : Prop}
    (h : operator.apply left right = .ok (.boolean answer)) (hq : answer = true ↔ question) :
    operator.Decides left right question := by
  refine ⟨⟨answer, h⟩, ?_⟩
  rw [Holds, h, ← hq]
  simp

/-- What decides a question decides every question with the same answer. -/
theorem Decides.congr {operator : BinaryOperator} {left right : Value} {question question' : Prop}
    (h : operator.Decides left right question) (hq : question ↔ question') : operator.Decides left right question' :=
  ⟨h.1, h.2.trans hq⟩

/-- The answer is false where the question is not answered yes. -/
theorem Decides.apply_eq_false {operator : BinaryOperator} {left right : Value} {question : Prop}
    (h : operator.Decides left right question) (hq : ¬question) : operator.apply left right = .ok (.boolean false) := by
  obtain ⟨⟨answer, hanswer⟩, hholds⟩ := h
  cases answer with
  | false => exact hanswer
  | true => exact absurd (hholds.mp hanswer) hq

end BinaryOperator

/-! ## Symmetry of the comparisons of numbers -/

/-- The order of exchanged doubles is turned round. -/
theorem Double.compare?_swap (x y : Double) : y.compare? x = (x.compare? y).map Ordering.swap := by
  unfold Double.compare?
  cases x.position with
  | none => cases y.position <;> rfl
  | some a =>
    cases y.position with
    | none => rfl
    | some b => exact congrArg some Std.OrientedOrd.eq_swap

/-- Operands are equal whichever way round they are compared. -/
theorem map_swap_eq_some_eq_iff {o : Option Ordering} : o.map Ordering.swap = some .eq ↔ o = some .eq := by
  cases o with
  | none => simp
  | some ordering => cases ordering <;> simp

/-- Doubles are equal exactly if they are ordered so. -/
theorem Double.equals_iff {x y : Double} : x.equals y = true ↔ x.compare? y = some .eq := beq_iff_eq

/-- A number equals itself unless it is NaN. -/
theorem Double.equals_self {x : Double} (h : x.isNan = false) : x.equals x = true := by
  obtain ⟨place, hplace⟩ : ∃ place, x.position = some place := by
    cases x with
    | nan => cases h
    | infinite | finite => exact ⟨_, rfl⟩
  rw [equals_iff, compare?, hplace]
  exact congrArg some Std.ReflOrd.compare_self

theorem Double.equals_comm (x y : Double) : x.equals y = y.equals x := by
  rw [Bool.eq_iff_iff, equals_iff, equals_iff, compare?_swap x y, map_swap_eq_some_eq_iff]

/-- The doubles of the booleans are zero and one. -/
theorem Double.position_ofBool (b : Bool) : (ofBool b).position = some (b.toNat * unitsPerOne : Nat) :=
  position_ofNat (Nat.lt_of_le_of_lt b.toNat_le (by decide))

/-- As doubles, booleans are equal exactly if they are the same. -/
theorem Double.compare?_ofBool_eq_iff {p q : Bool} : (ofBool p).compare? (ofBool q) = some .eq ↔ p = q := by
  have hone : unitsPerOne ≠ 0 := by decide
  rw [compare?, position_ofBool, position_ofBool]
  show some (compare _ _) = some .eq ↔ _
  rw [Option.some.injEq, Std.LawfulEqOrd.compare_eq_iff_eq, Int.ofNat_inj, Nat.mul_left_inj hone]
  cases p <;> cases q <;> decide

namespace Value

/-- The values that loose equality converts and compares by what they hold: booleans, numbers, strings and BigInts. -/
def isConvertible : Value → Bool
  | .boolean _ | .number _ | .string _ | .bigint _ => true
  | _ => false

theorem isObjectLike_of_isConvertible {v : Value} (h : v.isConvertible = true) : v.isObjectLike = false := by
  cases v with
  | boolean | number | string | bigint => rfl
  | _ => nomatch h

theorem isNullish_of_isConvertible {v : Value} (h : v.isConvertible = true) : v.isNullish = false := by
  cases v with
  | boolean | number | string | bigint => rfl
  | _ => nomatch h

/-! ## The order operators -/

section Order

variable {left right : Value}

/-- A relational operator accepts an order of its operands or not; without an order the answer is false. -/
theorem compareBy_eq (operator : BinaryOperator) (accepts : Ordering → Bool) (hl : left.isObjectLike = false)
    (hr : right.isObjectLike = false) :
    compareBy operator accepts left right = .ok (.boolean ((left.order? right).any accepts)) := by
  unfold compareBy
  rw [hl, hr]
  rfl

open BinaryOperator

variable (hl : left.isObjectLike = false) (hr : right.isObjectLike = false)
include hl hr

/-- `<` decides whether the order puts the left value first. -/
theorem less_decides : less.Decides left right (left.order? right = some .lt) := by
  refine decides_of_apply (compareBy_eq less (· == .lt) hl hr) ?_
  cases left.order? right <;> simp

theorem greater_decides : greater.Decides left right (left.order? right = some .gt) := by
  refine decides_of_apply (compareBy_eq greater (· == .gt) hl hr) ?_
  cases left.order? right <;> simp

theorem lessEqual_decides :
    lessEqual.Decides left right (left.order? right = some .lt ∨ left.order? right = some .eq) := by
  refine decides_of_apply (compareBy_eq lessEqual (· != .gt) hl hr) ?_
  cases left.order? right with
  | none => simp
  | some ordering => cases ordering <;> decide

theorem greaterEqual_decides :
    greaterEqual.Decides left right (left.order? right = some .gt ∨ left.order? right = some .eq) := by
  refine decides_of_apply (compareBy_eq greaterEqual (· != .lt) hl hr) ?_
  cases left.order? right with
  | none => simp
  | some ordering => cases ordering <;> decide

end Order

/-! ## Loose equality -/

/-- In an order a boolean is the number that it converts to. -/
theorem order?_boolean_left (p : Bool) (v : Value) : (boolean p).order? v = (number (.ofBool p)).order? v := by
  cases v <;> rfl

/-- A boolean on the right is ordered as its number. -/
theorem order?_boolean_right (v : Value) (q : Bool) : v.order? (boolean q) = v.order? (number (.ofBool q)) := by
  cases v <;> rfl

theorem order?_number (x y : Double) : (number x).order? (number y) = x.compare? y := rfl

/-- A text that is read as a BigInt is equal to one exactly if the two are equal integers. -/
theorem ofText?_eq_some_iff {s : String} {b : BigInt} {compareRead : BigInt → Ordering}
    (h : ∀ a, compareRead a = .eq ↔ a.val = b.val) :
    BigInt.ofText? s = some b ↔ (BigInt.ofText? s).map compareRead = some .eq := by
  cases BigInt.ofText? s with
  | none => simp
  | some a =>
    rw [Option.map_some, Option.some.injEq, Option.some.injEq, h]
    cases a
    cases b
    exact BigInt.mk.injEq _ _ _ _ _ _ ▸ Iff.rfl

/-- What loose equality takes a boolean for: the number that it converts to. -/
def withoutBoolean : Value → Value
  | .boolean p => .number (.ofBool p)
  | v => v

/-- Values other than booleans stay what they are. -/
theorem withoutBoolean_eq_self {v : Value} (h : ∀ p, v = .boolean p → False) : v.withoutBoolean = v := by
  cases v with
  | boolean p => exact (h p rfl).elim
  | _ => rfl

/-- Unless an operand is nullish, loose equality is that of the operands without booleans: two booleans are equal
exactly if their numbers are. -/
theorem looseEquals_eq {a b : Value} (ha : a.isNullish = false) (hb : b.isNullish = false) :
    a.looseEquals b = a.withoutBoolean.equalsConverting b.withoutBoolean := by
  unfold looseEquals
  rw [ha, hb, if_neg (by decide)]
  split
  case h_1 p q =>
    refine congrArg Except.ok (Bool.eq_iff_iff.mpr ?_)
    rw [beq_iff_eq]
    exact (Double.equals_iff.trans Double.compare?_ofBool_eq_iff).symm
  case h_2 _ _ p hright => rw [withoutBoolean_eq_self hright, withoutBoolean]
  case h_3 _ _ q hleft => rw [withoutBoolean_eq_self hleft, withoutBoolean]
  case h_4 hright hleft _ => rw [withoutBoolean_eq_self hright, withoutBoolean_eq_self hleft]

/-- Replacing a boolean by its number does not change whether a value converts to one. -/
theorem isConvertible_withoutBoolean (v : Value) : v.withoutBoolean.isConvertible = v.isConvertible := by
  cases v <;> rfl

/-- There is no boolean left afterwards. -/
theorem asBool?_withoutBoolean (v : Value) : v.withoutBoolean.asBool? = none := by
  cases v <;> rfl

/-- The order takes booleans for the same numbers. -/
theorem order?_withoutBoolean (a b : Value) : a.withoutBoolean.order? b.withoutBoolean = a.order? b := by
  cases a <;> cases b <;> rfl

/-- Numbers, strings and BigInts are loosely equal exactly if the order calls them equal. -/
theorem equalsConverting_eq_order {left right : Value} (hl : left.isConvertible = true) (hr : right.isConvertible = true)
    (hlb : left.asBool? = none) (hrb : right.asBool? = none) :
    left.equalsConverting right = .ok (left.order? right == some .eq) := by
  cases left with
  | number x =>
    cases right with
    | number y => rfl
    | string t => rfl
    | bigint b =>
      refine congrArg Except.ok (Bool.eq_iff_iff.mpr ?_)
      rw [beq_iff_eq, beq_iff_eq]
      exact map_swap_eq_some_eq_iff.symm
    | boolean => nomatch hrb
    | _ => nomatch hr
  | string s =>
    cases right with
    | number y => exact congrArg Except.ok (Double.equals_comm y (.ofText s))
    | string t =>
      refine congrArg Except.ok (Bool.eq_iff_iff.mpr ?_)
      simp [strictEquals, order?, Text.compareUnits_eq_iff]
    | bigint b =>
      refine congrArg Except.ok (Bool.eq_iff_iff.mpr ?_)
      simp only [order?, beq_iff_eq]
      exact ofText?_eq_some_iff fun a => Std.LawfulEqOrd.compare_eq_iff_eq
    | boolean => nomatch hrb
    | _ => nomatch hr
  | bigint a =>
    cases right with
    | number y => rfl
    | string t =>
      refine congrArg Except.ok (Bool.eq_iff_iff.mpr ?_)
      simp only [order?, beq_iff_eq]
      exact ofText?_eq_some_iff fun b => Std.LawfulEqOrd.compare_eq_iff_eq.trans eq_comm
    | bigint b =>
      refine congrArg Except.ok (Bool.eq_iff_iff.mpr ?_)
      simp [strictEquals, order?]
    | boolean => nomatch hrb
    | _ => nomatch hr
  | boolean => nomatch hlb
  | _ => nomatch hl

/-- Booleans, numbers, strings and BigInts are loosely equal exactly if the order calls them equal. -/
theorem looseEquals_eq_order {left right : Value} (hl : left.isConvertible = true) (hr : right.isConvertible = true) :
    left.looseEquals right = .ok (left.order? right == some .eq) := by
  rw [looseEquals_eq (isNullish_of_isConvertible hl) (isNullish_of_isConvertible hr), ← order?_withoutBoolean]
  exact equalsConverting_eq_order (left.isConvertible_withoutBoolean.trans hl) (right.isConvertible_withoutBoolean.trans hr)
    left.asBool?_withoutBoolean right.asBool?_withoutBoolean

/-- `==` decides whether the order calls two values equal. -/
theorem looseEqual_decides {left right : Value} (hl : left.isConvertible = true) (hr : right.isConvertible = true) :
    BinaryOperator.looseEqual.Decides left right (left.order? right = some .eq) := by
  have happly : BinaryOperator.looseEqual.apply left right = .ok (.boolean (left.order? right == some .eq)) := by
    show (left.looseEquals right).map Value.boolean = _
    rw [looseEquals_eq_order hl hr]
    rfl
  exact BinaryOperator.decides_of_apply happly beq_iff_eq

end Value

open Value BinaryOperator

/-- Loose equality and the order operators agree on booleans, numbers, strings and BigInts: all five have an answer; two
values are equal exactly if each is at most the other; one is at most the other exactly if it is less or equal; and at most
one of less, equal and greater holds. -/
theorem equality_agrees_with_order (a b : Value) (ha : a.isConvertible = true) (hb : b.isConvertible = true) :
    (∀ operator ∈ [looseEqual, less, lessEqual, greater, greaterEqual],
      ∃ answer, operator.apply a b = .ok (.boolean answer)) ∧
    (looseEqual.Holds a b ↔ lessEqual.Holds a b ∧ greaterEqual.Holds a b) ∧
    (lessEqual.Holds a b ↔ less.Holds a b ∨ looseEqual.Holds a b) ∧
    (greaterEqual.Holds a b ↔ greater.Holds a b ∨ looseEqual.Holds a b) ∧
    ¬(less.Holds a b ∧ looseEqual.Holds a b) ∧
    ¬(less.Holds a b ∧ greater.Holds a b) ∧
    ¬(looseEqual.Holds a b ∧ greater.Holds a b) := by
  have hao := isObjectLike_of_isConvertible ha
  have hbo := isObjectLike_of_isConvertible hb
  obtain ⟨hequal, hequal'⟩ := looseEqual_decides ha hb
  obtain ⟨hless, hless'⟩ := less_decides hao hbo
  obtain ⟨hatMost, hatMost'⟩ := lessEqual_decides hao hbo
  obtain ⟨hmore, hmore'⟩ := greater_decides hao hbo
  obtain ⟨hatLeast, hatLeast'⟩ := greaterEqual_decides hao hbo
  rw [hequal', hless', hatMost', hmore', hatLeast']
  refine ⟨?_, ?_⟩
  · simp only [List.forall_mem_cons]
    exact ⟨hequal, hless, hatMost, hmore, hatLeast, nofun⟩
  · -- the order has one answer, or none
    rcases a.order? b with _ | (_ | _ | _) <;> simp

/-- A BigInt beside a text that reads as the same integer, and beside one that reads as no BigInt. -/
theorem bigint_agrees_with_text :
    let seven : Value := .bigint ⟨7, by decide, by decide⟩
    seven.isConvertible = true ∧ (Value.string " 0x7 ").isConvertible = true ∧
      looseEqual.Holds seven (.string " 0x7 ") ∧ lessEqual.Holds seven (.string " 0x7 ") ∧
      ¬looseEqual.Holds seven (.string "7.0") ∧
      (lessEqual.Holds seven (.string "7.0") ↔ less.Holds seven (.string "7.0")) := by
  intro seven
  obtain ⟨-, hequal, -, -, -, -, -⟩ := equality_agrees_with_order seven (.string " 0x7 ") rfl rfl
  obtain ⟨-, -, hatMost, -, -, -, -⟩ := equality_agrees_with_order seven (.string "7.0") rfl rfl
  have hsame : looseEqual.Holds seven (.string " 0x7 ") := by rfl
  have hother : ¬looseEqual.Holds seven (.string "7.0") := by
    intro h
    nomatch h
  exact ⟨rfl, rfl, hsame, (hequal.mp hsame).1, hother, by rw [hatMost]; simp [hother]⟩

end ScriptTree

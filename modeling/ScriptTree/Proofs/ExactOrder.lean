import Mathlib.Algebra.Order.Field.Rat
import Mathlib.Data.List.Chain
import Mathlib.Order.WithBot
import Mathlib.Tactic.FieldSimp
import Mathlib.Tactic.Positivity
import ScriptTree.Proofs.Comparison

/-!
# Comparisons are exact

`null`, booleans, numbers and BigInts stand for extended rationals (`Value.exactValue?`), NaN for none.
`comparison_is_exact` says that the order operators and loose equality compare two such values as the extended rationals
they stand for, whatever the mixture: nothing is rounded on the way.

The order goes by places on one line, in units of `2 ^ -1074` (`Value.position?`); there the comparison of a BigInt with the
whole part and then with the fraction of a number is the comparison of the two places (`compareDouble?_eq`).
-/

namespace ScriptTree

/-- The rational numbers and the two infinities. -/
abbrev ExtendedRat := WithBot (WithTop ℚ)

/-- The rational that a count of units is. -/
def rationalOfUnits (n : Int) : ℚ := n / 2 ^ unitExponent

/-- The exact value of a number, if it is not NaN. -/
def Double.exactValue? : Double → Option ExtendedRat
  | .nan _ => none
  | .infinite negative => some (if negative then ⊥ else ⊤)
  | .finite negative units _ => some ((rationalOfUnits (signed negative units) : WithTop ℚ) : ExtendedRat)

namespace Value

/-- The exact value of `null`, which is zero, a boolean, which is zero or one, a number or a BigInt. -/
def exactValue? : Value → Option ExtendedRat
  | .null => some (((0 : ℚ) : WithTop ℚ) : ExtendedRat)
  | .boolean b => some (((b.toNat : ℚ) : WithTop ℚ) : ExtendedRat)
  | .number x => x.exactValue?
  | .bigint b => some (((b.val : ℚ) : WithTop ℚ) : ExtendedRat)
  | _ => none

/-- The values that have an exact value, and NaN. -/
def isQuantity : Value → Bool
  | .null | .boolean _ | .number _ | .bigint _ => true
  | _ => false

/-- Whether two values have exact values that stand in a relation. -/
def Exactly (r : ExtendedRat → ExtendedRat → Prop) (a b : Value) : Prop :=
  ∃ x y, a.exactValue? = some x ∧ b.exactValue? = some y ∧ r x y

end Value

/-! ## Places on the line of units -/

theorem unitsPerOne_pos : (0 : Int) < unitsPerOne := by
  rw [unitsPerOne_eq]
  positivity

/-- Every BigInt has its place among the finite numbers. -/
theorem BigInt.position_bounds (b : BigInt) :
    -(overflowUnits : Int) < b.val * unitsPerOne ∧ b.val * unitsPerOne < overflowUnits := by
  have hfit : bigIntBound * unitsPerOne < overflowUnits := by decide
  have hpos := unitsPerOne_pos
  have hlow := Int.mul_le_mul_of_nonneg_right b.lower hpos.le
  have hhigh := Int.mul_le_mul_of_nonneg_right b.upper.le hpos.le
  rw [Int.neg_mul] at hlow
  omega

/-- The whole part of a count of units is less than one away from it, on the side of zero. -/
theorem whole_bounds (negative : Bool) (units : Nat) :
    let whole := signed negative (units / unitsPerOne)
    let place := signed negative units
    (whole - 1) * unitsPerOne < place ∧ place < (whole + 1) * unitsPerOne ∧
      (0 < whole → whole * unitsPerOne ≤ place) ∧ (whole < 0 → place ≤ whole * unitsPerOne) := by
  intro whole place
  have hpos := unitsPerOne_pos
  have hsplit : (units : Int) = (units / unitsPerOne : Nat) * unitsPerOne + (units % unitsPerOne : Nat) := by
    exact_mod_cast (Nat.div_add_mod' units unitsPerOne).symm
  have hlt : ((units % unitsPerOne : Nat) : Int) < unitsPerOne := by
    exact_mod_cast Nat.mod_lt units (by exact_mod_cast hpos)
  simp only [whole, place]
  generalize units / unitsPerOne = quotient at *
  generalize units % unitsPerOne = remainder at *
  cases negative with
  | false =>
    simp only [signed_false, Int.sub_mul, Int.add_mul, Int.one_mul]
    omega
  | true =>
    simp only [signed_true, Int.sub_mul, Int.add_mul, Int.one_mul, Int.neg_mul]
    omega

/-- A BigInt compares with a number as their places do. -/
theorem BigInt.compareDouble?_eq (b : BigInt) (x : Double) :
    b.compareDouble? x = x.position.map fun place => compare (b.val * unitsPerOne) place := by
  have hpos := unitsPerOne_pos
  have hmono {m n : Int} (h : m ≤ n) : m * unitsPerOne ≤ n * unitsPerOne := Int.mul_le_mul_of_nonneg_right h hpos.le
  obtain ⟨hlow, hhigh⟩ := b.position_bounds
  cases x with
  | nan signaling => rfl
  | infinite negative =>
    cases negative with
    | false => exact congrArg some (Int.compare_eq_lt.mpr hhigh).symm
    | true => exact congrArg some (Int.compare_eq_gt.mpr hlow).symm
  | finite negative units fits =>
    obtain ⟨hbelow, habove, hpositive, hnegative⟩ := whole_bounds negative units
    have hl := b.lower
    have hu := b.upper
    have hbound : 0 < bigIntBound := by decide
    simp only [compareDouble?, Double.position, Option.map_some]
    generalize signed negative (units / unitsPerOne) = whole at *
    generalize signed negative units = place at *
    split
    · -- the whole part lies above all BigInts
      have := hmono (m := b.val + 1) (n := whole) (by omega)
      have := hpositive (by omega)
      rw [Int.add_mul, Int.one_mul] at *
      exact congrArg some (Int.compare_eq_lt.mpr (by omega)).symm
    · split
      · have := hmono (m := whole) (n := b.val - 1) (by omega)
        have := hnegative (by omega)
        rw [Int.sub_mul, Int.one_mul] at *
        exact congrArg some (Int.compare_eq_gt.mpr (by omega)).symm
      · rcases Int.lt_trichotomy b.val whole with hlt | rfl | hgt
        · rw [Int.compare_eq_lt.mpr hlt]
          have := hmono (m := b.val) (n := whole - 1) (by omega)
          exact congrArg some (Int.compare_eq_lt.mpr (by omega)).symm
        · rw [Int.compare_eq_eq.mpr rfl]
          rfl
        · rw [Int.compare_eq_gt.mpr hgt]
          have := hmono (m := whole + 1) (n := b.val) (by omega)
          exact congrArg some (Int.compare_eq_gt.mpr (by omega)).symm

namespace Value

/-- The place of a value that has an exact value. -/
def position? : Value → Option Int
  | .null => some 0
  | .boolean b => some (b.toNat * unitsPerOne : Nat)
  | .number x => x.position
  | .bigint b => some (b.val * unitsPerOne)
  | _ => none

/-- In an order `null` is the number zero. -/
theorem order?_null_left (v : Value) : null.order? v = (number (.zero false)).order? v := by
  cases v <;> rfl

/-- Null on the right is ordered as zero. -/
theorem order?_null_right (v : Value) : v.order? null = v.order? (number (.zero false)) := by
  cases v <;> rfl

/-- A value that has an exact value is a BigInt, or in an order it is a number at its place. -/
theorem isQuantity_cases {v : Value} (h : v.isQuantity = true) :
    (∃ b, v = .bigint b) ∨
    ∃ x : Double, v.position? = x.position ∧ (∀ w : Value, v.order? w = (number x).order? w) ∧
      ∀ w : Value, w.order? v = w.order? (number x) := by
  cases v with
  | bigint b => exact .inl ⟨b, rfl⟩
  | null => exact .inr ⟨.zero false, rfl, order?_null_left, order?_null_right⟩
  | boolean b =>
    exact .inr ⟨.ofBool b, (Double.position_ofBool b).symm, order?_boolean_left b, fun w => order?_boolean_right w b⟩
  | number x => exact .inr ⟨x, rfl, fun _ => rfl, fun _ => rfl⟩
  | _ => nomatch h

/-- Integers compare as their places on the line do. -/
theorem compare_mul_unitsPerOne (m n : Int) : compare (m * unitsPerOne) (n * unitsPerOne) = compare m n := by
  have hlt {i j : Int} : i * unitsPerOne < j * unitsPerOne ↔ i < j := Int.mul_lt_mul_right unitsPerOne_pos
  rcases Int.lt_trichotomy m n with h | rfl | h
  · rw [Int.compare_eq_lt.mpr h, Int.compare_eq_lt.mpr (hlt.mpr h)]
  · rw [Int.compare_eq_eq.mpr rfl, Int.compare_eq_eq.mpr rfl]
  · rw [Int.compare_eq_gt.mpr h, Int.compare_eq_gt.mpr (hlt.mpr h)]

/-- Values that have exact values are in the order of their places. -/
theorem order?_eq_position {a b : Value} (ha : a.isQuantity = true) (hb : b.isQuantity = true) :
    a.order? b = a.position?.bind fun m => b.position?.map fun n => compare m n := by
  rcases isQuantity_cases ha with ⟨i, rfl⟩ | ⟨x, hx, hxl, -⟩
  · rcases isQuantity_cases hb with ⟨j, rfl⟩ | ⟨y, hy, -, hyr⟩
    · exact congrArg some (compare_mul_unitsPerOne i.val j.val).symm
    · rw [hyr, hy]
      exact i.compareDouble?_eq y
  · rcases isQuantity_cases hb with ⟨j, rfl⟩ | ⟨y, hy, -, hyr⟩
    · rw [hxl, hx]
      show (j.compareDouble? x).map Ordering.swap = _
      rw [j.compareDouble?_eq x]
      cases x.position with
      | none => rfl
      | some m => exact congrArg some Std.OrientedOrd.eq_swap.symm
    · rw [hxl, hyr, hx, hy, order?_number, Double.compare?]
      cases x.position with
      | none => rfl
      | some m => cases y.position <;> rfl

/-! ## Exact values -/

end Value

/-- The extended rational at a place; the infinities stand at the overflow bound. -/
def extendedOfPosition (n : Int) : ExtendedRat :=
  if n = overflowUnits then ⊤ else if n = -overflowUnits then ⊥ else ((rationalOfUnits n : WithTop ℚ) : ExtendedRat)

/-- Counts of units compare as the rationals that they are. -/
theorem rationalOfUnits_lt_iff {m n : Int} : rationalOfUnits m < rationalOfUnits n ↔ m < n := by
  unfold rationalOfUnits
  rw [div_lt_div_iff_of_pos_right (by positivity), Int.cast_lt]

/-- The rational of the place of an integer is the integer. -/
theorem rationalOfUnits_mul (n : Int) : rationalOfUnits (n * unitsPerOne) = n := by
  unfold rationalOfUnits
  rw [unitsPerOne_eq]
  push_cast
  field_simp

theorem overflowUnits_pos : (0 : Int) < overflowUnits := by
  rw [overflowUnits, Nat.one_shiftLeft]
  positivity

/-- Infinity stands at the overflow bound. -/
theorem extendedOfPosition_overflow : extendedOfPosition overflowUnits = ⊤ := if_pos rfl

/-- Negative infinity stands at the bound on the other side. -/
theorem extendedOfPosition_neg_overflow : extendedOfPosition (-overflowUnits) = ⊥ := by
  have hpos := overflowUnits_pos
  rw [extendedOfPosition, if_neg (by omega), if_pos rfl]

/-- Strictly between the bounds stand the rationals. -/
theorem extendedOfPosition_of_finite {n : Int} (hlow : -(overflowUnits : Int) < n) (hhigh : n < overflowUnits) :
    extendedOfPosition n = ((rationalOfUnits n : WithTop ℚ) : ExtendedRat) := by
  rw [extendedOfPosition, if_neg (by omega), if_neg (by omega)]

/-- From one bound to the other the extended rationals increase. -/
theorem extendedOfPosition_lt {m n : Int} (hm : -(overflowUnits : Int) ≤ m) (hn : n ≤ overflowUnits) (h : m < n) :
    extendedOfPosition m < extendedOfPosition n := by
  rcases eq_or_lt_of_le hm with rfl | hm
  · rw [extendedOfPosition_neg_overflow]
    rcases eq_or_lt_of_le hn with rfl | hn
    · rw [extendedOfPosition_overflow]
      exact bot_lt_top
    · rw [extendedOfPosition_of_finite h hn]
      exact WithBot.bot_lt_coe _
  · rw [extendedOfPosition_of_finite hm (by omega)]
    rcases eq_or_lt_of_le hn with rfl | hn
    · rw [extendedOfPosition_overflow]
      exact WithBot.coe_lt_coe.mpr (WithTop.coe_lt_top _)
    · rw [extendedOfPosition_of_finite (by omega) hn]
      exact WithBot.coe_lt_coe.mpr (WithTop.coe_lt_coe.mpr (rationalOfUnits_lt_iff.mpr h))

/-- A place on the line from one infinity to the other. -/
def OnLine (n : Int) : Prop := -(overflowUnits : Int) ≤ n ∧ n ≤ overflowUnits

/-- Along the line the extended rationals increase, so they compare as the places do. -/
theorem cmp_extendedOfPosition {m n : Int} (hm : OnLine m) (hn : OnLine n) :
    cmp (extendedOfPosition m) (extendedOfPosition n) = compare m n := by
  rcases Int.lt_trichotomy m n with h | rfl | h
  · rw [Int.compare_eq_lt.mpr h, cmp_eq_lt_iff]
    exact extendedOfPosition_lt hm.1 hn.2 h
  · rw [Int.compare_eq_eq.mpr rfl, cmp_self_eq_eq]
  · rw [Int.compare_eq_gt.mpr h, cmp_eq_gt_iff]
    exact extendedOfPosition_lt hn.1 hm.2 h

/-- Every double but NaN stands on the line. -/
theorem Double.position_onLine {x : Double} {n : Int} (h : x.position = some n) : OnLine n := by
  have hpos := overflowUnits_pos
  unfold OnLine
  cases x with
  | nan => nomatch h
  | infinite negative => cases negative <;> cases h <;> simp
  | finite negative units fits =>
    have := fits.1
    cases negative <;> cases h <;> simp <;> omega

/-- The exact value of a double is the one at its place. -/
theorem Double.exactValue?_eq (x : Double) : x.exactValue? = x.position.map extendedOfPosition := by
  cases x with
  | nan => rfl
  | infinite negative =>
    cases negative with
    | false => exact congrArg some extendedOfPosition_overflow.symm
    | true => exact congrArg some extendedOfPosition_neg_overflow.symm
  | finite negative units fits =>
    have hlt := fits.1
    refine congrArg some (extendedOfPosition_of_finite ?_ ?_).symm
    · cases negative <;> simp <;> omega
    · cases negative <;> simp <;> omega

namespace Value

/-- Every quantity but NaN stands on the line. -/
theorem position?_onLine {v : Value} {n : Int} (h : v.position? = some n) : OnLine n := by
  have hpos := overflowUnits_pos
  cases v with
  | null =>
    cases h
    exact ⟨by omega, by omega⟩
  | boolean b =>
    have hone : unitsPerOne ≤ overflowUnits := by decide
    have hle : b.toNat * unitsPerOne ≤ 1 * unitsPerOne := Nat.mul_le_mul_right _ b.toNat_le
    cases h
    exact ⟨by omega, by omega⟩
  | number x => exact Double.position_onLine h
  | bigint b =>
    obtain ⟨hlow, hhigh⟩ := b.position_bounds
    cases h
    exact ⟨hlow.le, hhigh.le⟩
  | _ => nomatch h

/-- The exact value of a value is the extended rational at its place. -/
theorem exactValue?_eq (v : Value) : v.exactValue? = v.position?.map extendedOfPosition := by
  have hzero : (0 : Int) < overflowUnits := overflowUnits_pos
  cases v with
  | null =>
    refine congrArg some ?_
    rw [extendedOfPosition_of_finite (by omega) hzero]
    simp [rationalOfUnits]
  | boolean b =>
    have hone : unitsPerOne < overflowUnits := by decide
    have hle : b.toNat * unitsPerOne ≤ 1 * unitsPerOne := Nat.mul_le_mul_right _ b.toNat_le
    refine congrArg some ?_
    rw [extendedOfPosition_of_finite (by omega) (by omega), Int.natCast_mul, rationalOfUnits_mul]
    rfl
  | number x => exact x.exactValue?_eq
  | bigint b =>
    obtain ⟨hlow, hhigh⟩ := b.position_bounds
    refine congrArg some ?_
    rw [extendedOfPosition_of_finite hlow hhigh, rationalOfUnits_mul]
  | _ => rfl

/-- Values that have exact values are in the order of their exact values, and NaN is in no order. -/
theorem order?_eq_some_iff {a b : Value} (ha : a.isQuantity = true) (hb : b.isQuantity = true) (o : Ordering) :
    a.order? b = some o ↔ a.Exactly (fun x y => cmp x y = o) b := by
  unfold Exactly
  rw [order?_eq_position ha hb, a.exactValue?_eq, b.exactValue?_eq]
  cases hm : a.position? with
  | none =>
    constructor
    · intro h
      cases h
    · rintro ⟨x, y, hx, -, -⟩
      cases hx
  | some m =>
    cases hn : b.position? with
    | none =>
      constructor
      · intro h
        cases h
      · rintro ⟨x, y, -, hy, -⟩
        cases hy
    | some n =>
      rw [Option.bind_some, Option.map_some, Option.some.injEq,
        ← cmp_extendedOfPosition (position?_onLine hm) (position?_onLine hn)]
      constructor
      · intro h
        exact ⟨_, _, rfl, rfl, h⟩
      · rintro ⟨x, y, hx, hy, h⟩
        cases hx
        cases hy
        exact h

/-- Relations that are the same stand between the same values. -/
theorem exactly_congr {r r' : ExtendedRat → ExtendedRat → Prop} {a b : Value} (h : ∀ x y, r x y ↔ r' x y) :
    a.Exactly r b ↔ a.Exactly r' b := by
  simp only [Exactly, h]

/-- One of two relations stands between exact values, or the other does. -/
theorem exactly_or {r r' : ExtendedRat → ExtendedRat → Prop} {a b : Value} :
    a.Exactly r b ∨ a.Exactly r' b ↔ a.Exactly (fun x y => r x y ∨ r' x y) b := by
  constructor
  · rintro (⟨x, y, hx, hy, h⟩ | ⟨x, y, hx, hy, h⟩)
    · exact ⟨x, y, hx, hy, .inl h⟩
    · exact ⟨x, y, hx, hy, .inr h⟩
  · rintro ⟨x, y, hx, hy, h | h⟩
    · exact .inl ⟨x, y, hx, hy, h⟩
    · exact .inr ⟨x, y, hx, hy, h⟩

/-- What is exactly less than something is exactly less than everything above it. -/
theorem Exactly.trans {a b c : Value} (h : a.Exactly (· < ·) b) (h' : b.Exactly (· < ·) c) : a.Exactly (· < ·) c := by
  obtain ⟨x, y, hx, hy, hlt⟩ := h
  obtain ⟨y', z, hy', hz, hlt'⟩ := h'
  cases hy.symm.trans hy'
  exact ⟨x, z, hx, hz, hlt.trans hlt'⟩

instance : Trans (Exactly (· < ·)) (Exactly (· < ·)) (Exactly (· < ·)) := ⟨Exactly.trans⟩

/-- NaN stands in no relation to any value. -/
theorem not_exactly_of_nan {r : ExtendedRat → ExtendedRat → Prop} {a b : Value}
    (h : ∃ signaling, a = .number (.nan signaling) ∨ b = .number (.nan signaling)) : ¬a.Exactly r b := by
  rintro ⟨x, y, hx, hy, -⟩
  obtain ⟨signaling, rfl | rfl⟩ := h
  · nomatch hx
  · nomatch hy

theorem isObjectLike_of_isQuantity {v : Value} (h : v.isQuantity = true) : v.isObjectLike = false := by
  cases v with
  | null | boolean | number | bigint => rfl
  | _ => nomatch h

section Decisions

open BinaryOperator

variable {a b : Value} (ha : a.isQuantity = true) (hb : b.isQuantity = true)
include ha hb

/-- The operator `<` decides whether the exact value on the left is less. -/
theorem less_decides_exactly : less.Decides a b (a.Exactly (· < ·) b) := by
  refine (less_decides (isObjectLike_of_isQuantity ha) (isObjectLike_of_isQuantity hb)).congr ?_
  rw [order?_eq_some_iff ha hb]
  exact exactly_congr cmp_eq_lt_iff

theorem greater_decides_exactly : greater.Decides a b (a.Exactly (· > ·) b) := by
  refine (greater_decides (isObjectLike_of_isQuantity ha) (isObjectLike_of_isQuantity hb)).congr ?_
  rw [order?_eq_some_iff ha hb]
  exact exactly_congr cmp_eq_gt_iff

theorem lessEqual_decides_exactly : lessEqual.Decides a b (a.Exactly (· ≤ ·) b) := by
  refine (lessEqual_decides (isObjectLike_of_isQuantity ha) (isObjectLike_of_isQuantity hb)).congr ?_
  rw [order?_eq_some_iff ha hb, order?_eq_some_iff ha hb, exactly_or]
  refine exactly_congr fun x y => ?_
  rw [cmp_eq_lt_iff, cmp_eq_eq_iff, le_iff_lt_or_eq]

theorem greaterEqual_decides_exactly : greaterEqual.Decides a b (a.Exactly (· ≥ ·) b) := by
  refine (greaterEqual_decides (isObjectLike_of_isQuantity ha) (isObjectLike_of_isQuantity hb)).congr ?_
  rw [order?_eq_some_iff ha hb, order?_eq_some_iff ha hb, exactly_or]
  refine exactly_congr fun x y => ?_
  rw [cmp_eq_gt_iff, cmp_eq_eq_iff, ge_iff_le, le_iff_lt_or_eq, @eq_comm _ y x]

/-- Loose equality decides, of values that convert to numbers, whether the exact values are equal. -/
theorem looseEqual_decides_exactly (ha' : a.isConvertible = true) (hb' : b.isConvertible = true) :
    looseEqual.Decides a b (a.Exactly (· = ·) b) := by
  refine (looseEqual_decides ha' hb').congr ?_
  rw [order?_eq_some_iff ha hb]
  exact exactly_congr cmp_eq_eq_iff

end Decisions

end Value

open Value BinaryOperator

/-- Comparison is exact, whatever the mixture of `null`, booleans, numbers and BigInts: the order operators decide how the
exact values compare, and so does loose equality on any two of them that are not `null`; nothing is less than, equal to or
greater than NaN. Therefore what a chain of such values puts in order step by step is in order as a whole. -/
theorem comparison_is_exact :
    (∀ a b : Value, a.isQuantity = true → b.isQuantity = true →
      less.Decides a b (a.Exactly (· < ·) b) ∧
      lessEqual.Decides a b (a.Exactly (· ≤ ·) b) ∧
      greater.Decides a b (a.Exactly (· > ·) b) ∧
      greaterEqual.Decides a b (a.Exactly (· ≥ ·) b) ∧
      (a.isConvertible = true → b.isConvertible = true → looseEqual.Decides a b (a.Exactly (· = ·) b)) ∧
      ((∃ signaling, a = .number (.nan signaling) ∨ b = .number (.nan signaling)) →
        ∀ operator ∈ [less, lessEqual, greater, greaterEqual], operator.apply a b = .ok (.boolean false))) ∧
    ∀ chain : List Value, (∀ v ∈ chain, v.isQuantity = true) → chain.IsChain less.Holds → chain.Pairwise less.Holds := by
  refine ⟨fun a b ha hb => ?_, fun chain hchain h => ?_⟩
  · have hless := less_decides_exactly ha hb
    have hatMost := lessEqual_decides_exactly ha hb
    have hmore := greater_decides_exactly ha hb
    have hatLeast := greaterEqual_decides_exactly ha hb
    refine ⟨hless, hatMost, hmore, hatLeast, looseEqual_decides_exactly ha hb, fun hnan => ?_⟩
    simp only [List.forall_mem_cons]
    exact ⟨hless.apply_eq_false (not_exactly_of_nan hnan), hatMost.apply_eq_false (not_exactly_of_nan hnan),
      hmore.apply_eq_false (not_exactly_of_nan hnan), hatLeast.apply_eq_false (not_exactly_of_nan hnan), nofun⟩
  · have hexact : chain.IsChain (Exactly (· < ·)) :=
      h.imp_of_mem_imp fun a b ha hb => (less_decides_exactly (hchain a ha) (hchain b hb)).2.mp
    exact hexact.pairwise.imp_of_mem fun {a b} ha hb => (less_decides_exactly (hchain a ha) (hchain b hb)).2.mpr

/-- Three neighbours that a rounded comparison would confuse: the BigInt after `2 ^ 53` lies between two doubles. -/
theorem bigint_between_doubles :
    let low : Value := .number (.ofBits 0x4340000000000000)
    let middle : Value := .bigint ⟨9007199254740993, by decide, by decide⟩
    let high : Value := .number (.ofBits 0x4340000000000001)
    low.isQuantity = true ∧ middle.isQuantity = true ∧ less.Holds low middle ∧ less.Holds middle high ∧
      low.Exactly (· < ·) middle ∧ less.Holds low high := by
  intro low middle high
  have hlow : less.Holds low middle := by rfl
  have hhigh : less.Holds middle high := by rfl
  obtain ⟨hpairs, hchains⟩ := comparison_is_exact
  have hexact := (hpairs low middle rfl rfl).1.2.mp hlow
  have hchain := hchains [low, middle, high] (by simp [low, middle, high, isQuantity]) (by simp [hlow, hhigh])
  refine ⟨rfl, rfl, hlow, hhigh, hexact, ?_⟩
  simp only [List.pairwise_cons] at hchain
  exact hchain.1 high (by simp)

end ScriptTree

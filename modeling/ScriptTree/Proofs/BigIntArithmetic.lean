import Mathlib.Data.Nat.Prime.Basic
import Mathlib.Tactic.Ring
import ScriptTree.Proofs.IntegerOrder
import ScriptTree.Proofs.WholePart

/-!
# BigInt arithmetic is exact

`Arithmetic.Gives` says what an arithmetic operator gives for two integers, and `Arithmetic.Fails` why it gives no BigInt: the
exact result is none, or it lies outside the range. `bigint_arithmetic_is_exact` says that on BigInts every operator gives
just that, and fails just so.

Each operation is the exact result, brought into the range at the end (`Arithmetic.operation_eq`). For the power this is not
how it is worked out: the products on the way could leave the range. They do so only if the power does
(`BigInt.powFrom_eq`). A product that goes into the result divides it by a positive factor; a square beyond the range is
beyond it by more than the bound itself, which is no square.
-/

namespace ScriptTree

/-- The arithmetic operators. -/
inductive Arithmetic where
  | sum | difference | product | quotient | remainder | power
  deriving DecidableEq

namespace Arithmetic

/-- The operator of a script. -/
def operator : Arithmetic → BinaryOperator
  | sum => .add
  | difference => .subtract
  | product => .multiply
  | quotient => .divide
  | remainder => .remainder
  | power => .power

/-- The operation on BigInts. -/
def operation : Arithmetic → BigInt → BigInt → Except RangeCause BigInt
  | sum => BigInt.add
  | difference => BigInt.sub
  | product => BigInt.mul
  | quotient => BigInt.div
  | remainder => BigInt.rem
  | power => BigInt.pow

/-- What an operator gives for two integers. The quotient is truncated toward zero, and the remainder is what its multiple of
the divisor leaves of the dividend, whose sign it has; a power is a product of as many factors as the exponent says. -/
def Gives : Arithmetic → ℤ → ℤ → ℤ → Prop
  | sum, a, b, r => r = a + b
  | difference, a, b, r => r = a - b
  | product, a, b, r => r = a * b
  | quotient, a, b, r => b ≠ 0 ∧ r = wholePart (a / b)
  | remainder, a, b, r => b ≠ 0 ∧ a = wholePart (a / b) * b + r ∧ 0 ≤ a * r
  | power, a, b, r => ∃ n : ℕ, b = n ∧ r = a ^ n

/-- Why an operator gives no BigInt for two integers. -/
def Fails (op : Arithmetic) (a b : ℤ) : RangeCause → Prop
  | .outOfRange => ∃ r, op.Gives a b r ∧ ¬InRange r
  | .divisionByZero => (op = quotient ∨ op = remainder) ∧ b = 0
  | .negativeExponent => op = power ∧ b < 0

/-- The integer that an operator gives, or why there is none. -/
def exact : Arithmetic → ℤ → ℤ → Except RangeCause ℤ
  | sum, a, b => .ok (a + b)
  | difference, a, b => .ok (a - b)
  | product, a, b => .ok (a * b)
  | quotient, a, b => if b = 0 then .error .divisionByZero else .ok (a.tdiv b)
  | remainder, a, b => if b = 0 then .error .divisionByZero else .ok (a.tmod b)
  | power, a, b => if b < 0 then .error .negativeExponent else .ok (a ^ b.toNat)

end Arithmetic

/-! ## The range -/

/-- Every BigInt is in range, by its bounds. -/
theorem InRange.of_bigint (b : BigInt) : InRange b.val := ⟨b.lower, b.upper⟩

/-- A positive multiple of an integer outside the range lies outside the range. -/
theorem InRange.of_mul {n k : ℤ} (hk : 0 < k) (h : InRange (n * k)) : InRange n := by
  unfold InRange at *
  have hbound : 0 < bigIntBound := by decide
  constructor
  · by_contra hlt
    have : n * k ≤ n * 1 := Int.mul_le_mul_of_nonpos_left (by omega) hk
    omega
  · by_contra hge
    have : n * 1 ≤ n * k := Int.mul_le_mul_of_nonneg_left hk (by omega)
    omega

namespace BigInt

variable {n : ℤ} {b : BigInt} {cause : RangeCause}

/-- An exact result in range is given as it is. -/
theorem ofResult_of_inRange (h : InRange n) : ofResult n = .ok ⟨n, h.1, h.2⟩ := by
  have hsome : ofInt? n = some ⟨n, h.1, h.2⟩ := dif_pos h
  rw [ofResult, hsome]

/-- An exact result out of range is refused. -/
theorem ofResult_of_not_inRange (h : ¬InRange n) : ofResult n = .error .outOfRange := by
  have hnone : ofInt? n = none := dif_neg h
  rw [ofResult, hnone]

theorem ofResult_val (b : BigInt) : ofResult b.val = .ok b := ofResult_of_inRange (.of_bigint b)

/-- A result is given exactly if its integer is the exact one. -/
theorem ofResult_eq_ok_iff : ofResult n = .ok b ↔ n = b.val := by
  by_cases h : InRange n
  · rw [ofResult_of_inRange h, Except.ok.injEq]
    constructor
    · rintro rfl
      rfl
    · rintro rfl
      rfl
  · rw [ofResult_of_not_inRange h]
    refine iff_of_false nofun ?_
    rintro rfl
    exact h (.of_bigint b)

/-- The range is the only cause for which an exact result is refused. -/
theorem ofResult_eq_error_iff : ofResult n = .error cause ↔ cause = .outOfRange ∧ ¬InRange n := by
  by_cases h : InRange n
  · rw [ofResult_of_inRange h]
    exact iff_of_false nofun fun hnot => hnot.2 h
  · rw [ofResult_of_not_inRange h, Except.error.injEq, eq_comm]
    exact (and_iff_left h).symm

/-! ## Powers -/

/-- The bound of the range is no square: its exponent is odd. -/
theorem mul_self_ne_bound (n : ℤ) : n * n ≠ bigIntBound := by
  intro h
  have hbound : bigIntBound.natAbs = 2 ^ 127 := by decide
  have hsquare : n.natAbs ^ 2 = 2 ^ 127 := by rw [← hbound, ← h, Int.natAbs_mul, pow_two]
  have hdvd : n.natAbs ∣ 2 ^ 127 := hsquare ▸ dvd_pow_self n.natAbs two_ne_zero
  obtain ⟨k, -, hk⟩ := (Nat.dvd_prime_pow Nat.prime_two).mp hdvd
  rw [hk, ← pow_mul] at hsquare
  have := Nat.pow_right_injective (Nat.le_refl 2) hsquare
  omega

/-- If the square of a base lies outside the range, so does every multiple of its higher powers. -/
theorem not_inRange_of_square {product base : ℤ} {k : ℕ} (hproduct : product ≠ 0) (hk : 2 ≤ k)
    (hsquare : ¬InRange (base * base)) : ¬InRange (product * base ^ k) := by
  have hne := mul_self_ne_bound base
  have hnonneg := mul_self_nonneg base
  have hbound : 0 < bigIntBound := by decide
  have hover : bigIntBound < base * base := by
    unfold InRange at hsquare
    omega
  have hbase : 1 ≤ base.natAbs := by
    rcases Nat.eq_zero_or_pos base.natAbs with h | h
    · rw [Int.natAbs_eq_zero.mp h] at hover
      omega
    · exact h
  have hlarge : base.natAbs * base.natAbs ≤ (product * base ^ k).natAbs := by
    rw [Int.natAbs_mul, Int.natAbs_pow]
    calc base.natAbs * base.natAbs
        = 1 * base.natAbs ^ 2 := by ring
      _ ≤ product.natAbs * base.natAbs ^ k :=
          Nat.mul_le_mul (Int.natAbs_pos.mpr hproduct) (Nat.pow_le_pow_right hbase hk)
  rw [← Int.natAbs_mul] at hlarge
  unfold InRange
  omega

/-- The odd step of a power multiplies by the base, the even step by one, and the range of the product is checked. -/
theorem mulOdd_eq (product base : BigInt) (n : ℕ) :
    product.mulOdd base n = ofResult (product.val * base.val ^ (n % 2)) := by
  unfold mulOdd
  split
  case isTrue h => rw [h, pow_one, mul]
  case isFalse h =>
    have heven : n % 2 = 0 := by omega
    rw [heven, pow_zero, mul_one, ofResult_val]

/-- A power is one of the square of its base, with half the exponent, and what is left for the bit that halving loses. -/
theorem pow_split (base : ℤ) (n : ℕ) : base ^ n = base ^ (n % 2) * (base * base) ^ (n / 2) := by
  rw [← pow_two, ← pow_mul, ← pow_add, Nat.mod_add_div]

/-- If a product with the odd factor of a power lies outside the range, so does the product with the whole power. -/
theorem not_inRange_of_odd {product base : BigInt} {k : ℕ} (h : ¬InRange (product.val * base.val ^ (k % 2))) :
    ¬InRange (product.val * base.val ^ k) := by
  have hne : base.val ≠ 0 := by
    intro hzero
    rw [hzero] at h
    rcases Nat.mod_two_eq_zero_or_one k with hk | hk
    · rw [hk, pow_zero, mul_one] at h
      exact h (.of_bigint product)
    · rw [hk, pow_one, mul_zero] at h
      exact h (by decide)
  intro hrange
  rw [pow_split, ← mul_assoc] at hrange
  exact h (hrange.of_mul (pow_pos (mul_self_pos.mpr hne) _))

/-- Repeated squaring gives the exact product, or refuses it if that lies outside the range. -/
theorem powFrom_eq {product base : BigInt} {k : ℕ} (hzero : product.val = 0 → base.val = 0) :
    product.powFrom base k = ofResult (product.val * base.val ^ k) := by
  induction k using Nat.strong_induction_on generalizing product base with
  | _ k ih =>
    unfold powFrom
    split
    case isTrue h => rw [h, pow_zero, mul_one, ofResult_val]
    split
    case isTrue h => rw [h, pow_one, mul]
    case isFalse hne hone =>
      rw [mulOdd_eq]
      by_cases hodd : InRange (product.val * base.val ^ (k % 2))
      · rw [ofResult_of_inRange hodd]
        show (base.mul base >>= fun square => powFrom ⟨_, hodd.1, hodd.2⟩ square (k / 2)) = _
        by_cases hsquare : InRange (base.val * base.val)
        · rw [mul, ofResult_of_inRange hsquare]
          show powFrom ⟨_, hodd.1, hodd.2⟩ ⟨_, hsquare.1, hsquare.2⟩ (k / 2) = _
          rw [ih (k / 2) (by omega), mul_assoc, ← pow_split]
          -- a product is zero only if the base is, whose squares are zero as well
          intro h
          show base.val * base.val = 0
          rcases mul_eq_zero.mp h with h | h
          · rw [hzero h, mul_zero]
          · rw [eq_zero_of_pow_eq_zero h, mul_zero]
        · have hproduct : product.val ≠ 0 := by
            intro h
            rw [hzero h] at hsquare
            exact hsquare (by decide)
          rw [mul, ofResult_of_not_inRange hsquare,
            ofResult_of_not_inRange (not_inRange_of_square hproduct (by omega) hsquare)]
          rfl
      · rw [ofResult_of_not_inRange hodd, ofResult_of_not_inRange (not_inRange_of_odd hodd)]
        rfl

/-- A large power of a base that is not zero, one or minus one lies outside the range. -/
theorem not_inRange_of_large {base : ℤ} {k : ℕ} (hbase : 2 ≤ base.natAbs) (hk : 128 ≤ k) : ¬InRange (base ^ k) := by
  have hlarge : 2 ^ 128 ≤ (base ^ k).natAbs := by
    rw [Int.natAbs_pow]
    exact Nat.le_trans (Nat.pow_le_pow_right (by decide) hk) (Nat.pow_le_pow_left hbase k)
  unfold InRange bigIntBound
  omega

/-- A power is refused for a negative exponent, and else given if the exact one is in range, whatever comes up on the way. -/
theorem pow_eq (base exponent : BigInt) :
    base.pow exponent =
      if exponent.val < 0 then .error .negativeExponent else ofResult (base.val ^ exponent.val.toNat) := by
  unfold pow
  refine if_congr Iff.rfl rfl ?_
  split
  case isTrue hsmall => rw [powFrom_eq (fun h => absurd h (by decide)), one_mul]
  case isFalse hlarge =>
    have hpos : exponent.val.toNat ≠ 0 := by omega
    split
    case isTrue h =>
      have hsame : base.val ^ exponent.val.toNat = base.val := by
        rcases h with h | h
        · rw [h, zero_pow hpos]
        · rw [h, one_pow]
      rw [hsame, ofResult_val]
    case isFalse hbase =>
      split
      case isTrue h =>
        rw [h, eq_comm, ofResult_eq_ok_iff]
        split
        case isTrue heven => exact Even.neg_one_pow (Nat.even_iff.mpr (by omega))
        case isFalse hodd => exact Odd.neg_one_pow (Nat.odd_iff.mpr (by omega))
      case isFalse h => rw [ofResult_of_not_inRange (not_inRange_of_large (by omega) (by omega))]

/-! ## Quotients and remainders -/

/-- A remainder takes the sign of the dividend and is refused for the divisor zero only. -/
theorem rem_eq (a b : BigInt) :
    a.rem b = if b.val = 0 then .error .divisionByZero else ofResult (a.val.tmod b.val) := by
  unfold rem
  refine if_congr Iff.rfl rfl ?_
  split
  case isTrue h =>
    rw [h, eq_comm, ofResult_eq_ok_iff, Int.tmod_neg]
    exact Int.tmod_one a.val
  case isFalse => exact (ofResult_val (a.remainder b)).symm

end BigInt

namespace Arithmetic

variable {op : Arithmetic} {a b : BigInt} {m n r : ℤ} {cause : RangeCause}

/-- Every operation gives the exact result if that is in range, and fails otherwise. -/
theorem operation_eq (op : Arithmetic) (a b : BigInt) : op.operation a b = op.exact a.val b.val >>= BigInt.ofResult := by
  cases op with
  | sum | difference | product => rfl
  | quotient =>
    simp only [operation, exact, BigInt.div]
    split <;> rfl
  | remainder =>
    simp only [operation, exact, BigInt.rem_eq]
    split <;> rfl
  | power =>
    simp only [operation, exact, BigInt.pow_eq]
    split <;> rfl

/-- The remainder is what the multiple of the divisor leaves, and never has the other sign than the dividend. -/
theorem tmod_eq_iff : m.tmod n = r ↔ m = wholePart (m / n) * n + r ∧ 0 ≤ m * r := by
  have hsplit := Int.tdiv_mul_add_tmod m n
  rw [wholePart_intCast_div]
  constructor
  · rintro rfl
    refine ⟨hsplit.symm, ?_⟩
    rcases Int.le_total 0 m with hm | hm
    · exact mul_nonneg hm (Int.tmod_nonneg n hm)
    · have := Int.tmod_nonneg n (Int.neg_nonneg.mpr hm)
      rw [Int.neg_tmod] at this
      exact mul_nonneg_of_nonpos_of_nonpos hm (by omega)
  · rintro ⟨h, -⟩
    omega

/-- The specification in one function and the one in cases have the same results. -/
theorem exact_eq_ok_iff : op.exact m n = .ok r ↔ op.Gives m n r := by
  cases op with
  | sum | difference | product =>
    simp only [exact, Gives, Except.ok.injEq]
    exact eq_comm
  | quotient =>
    simp only [exact, Gives, wholePart_intCast_div]
    split
    case isTrue h => simp [h]
    case isFalse h => simp [h, eq_comm]
  | remainder =>
    simp only [exact, Gives]
    split
    case isTrue h => simp [h]
    case isFalse h => simp only [Except.ok.injEq, tmod_eq_iff, ne_eq, h, not_false_eq_true, true_and]
  | power =>
    simp only [exact, Gives]
    split
    case isTrue h =>
      refine iff_of_false nofun ?_
      rintro ⟨k, rfl, -⟩
      omega
    case isFalse h =>
      obtain ⟨k, rfl⟩ := Int.eq_ofNat_of_zero_le (Int.not_lt.mp h)
      rw [Int.toNat_natCast, Except.ok.injEq, eq_comm]
      constructor
      · rintro rfl
        exact ⟨k, rfl, rfl⟩
      · rintro ⟨j, hj, rfl⟩
        rw [Int.natCast_inj.mp hj]

/-- The specification in one function refuses for the causes of the one in cases, but for the
range, which it does not look at. -/
theorem exact_eq_error_iff : op.exact m n = .error cause ↔ cause ≠ .outOfRange ∧ op.Fails m n cause := by
  cases op with
  | sum | difference | product => cases cause <;> simp [exact, Fails]
  | quotient | remainder =>
    simp only [exact]
    split
    case isTrue h => cases cause <;> simp [Fails, h]
    case isFalse h => cases cause <;> simp [Fails, h]
  | power =>
    simp only [exact]
    split
    case isTrue h => cases cause <;> simp [Fails, h]
    case isFalse h => cases cause <;> simp [Fails, h]

/-- An operation gives a BigInt exactly if that is the exact result. -/
theorem operation_eq_ok_iff {c : BigInt} : op.operation a b = .ok c ↔ op.Gives a.val b.val c.val := by
  rw [operation_eq, ← exact_eq_ok_iff]
  cases op.exact a.val b.val with
  | ok r =>
    rw [Except.ok.injEq]
    exact BigInt.ofResult_eq_ok_iff
  | error e => exact iff_of_false nofun nofun

/-- An operation fails exactly if there is no exact result, or it lies outside the range. -/
theorem operation_eq_error_iff : op.operation a b = .error cause ↔ op.Fails a.val b.val cause := by
  rw [operation_eq]
  cases hexact : op.exact a.val b.val with
  | ok r =>
    show BigInt.ofResult r = .error cause ↔ _
    rw [BigInt.ofResult_eq_error_iff]
    constructor
    · rintro ⟨rfl, hr⟩
      exact ⟨r, exact_eq_ok_iff.mp hexact, hr⟩
    · intro h
      by_cases hcause : cause = .outOfRange
      · subst hcause
        obtain ⟨r', hgives, hr'⟩ := h
        rw [exact_eq_ok_iff.mpr hgives, Except.ok.injEq] at hexact
        exact ⟨rfl, hexact ▸ hr'⟩
      · rw [exact_eq_error_iff.mpr ⟨hcause, h⟩] at hexact
        nomatch hexact
  | error e =>
    show Except.error e = .error cause ↔ _
    rw [Except.error.injEq]
    constructor
    · rintro rfl
      exact (exact_eq_error_iff.mp hexact).2
    · intro h
      by_cases hcause : cause = .outOfRange
      · subst hcause
        obtain ⟨r, hgives, -⟩ := h
        rw [exact_eq_ok_iff.mpr hgives] at hexact
        nomatch hexact
      · rw [exact_eq_error_iff.mpr ⟨hcause, h⟩, Except.error.injEq] at hexact
        exact hexact.symm

end Arithmetic

/-! ## The operators -/

namespace BigInt

variable {result : Except RangeCause BigInt} {value : Value} {error : OperationError}

/-- What an operator gives on BigInts is what the operation gives, as a value. -/
theorem toValue_eq_ok_iff :
    (result.map Value.bigint).mapError OperationError.range = .ok value ↔ ∃ c, result = .ok c ∧ value = .bigint c := by
  cases result with
  | ok c =>
    simp only [Except.map, Except.mapError, Except.ok.injEq, exists_eq_left']
    exact eq_comm
  | error cause => simp [Except.map, Except.mapError]

/-- An operation on BigInts fails with a range error only, whose cause is that of the arithmetic. -/
theorem toValue_eq_error_iff :
    (result.map Value.bigint).mapError OperationError.range = .error error ↔
      ∃ cause, result = .error cause ∧ error = .range cause := by
  cases result with
  | ok c => simp [Except.map, Except.mapError]
  | error cause =>
    simp only [Except.map, Except.mapError, Except.error.injEq, exists_eq_left']
    exact eq_comm

end BigInt

/-- On BigInts the operator table works out the operation of the operator. -/
theorem Arithmetic.apply_operator (op : Arithmetic) (a b : BigInt) :
    op.operator.apply (.bigint a) (.bigint b) = ((op.operation a b).map .bigint).mapError .range := by
  cases op <;> rfl

/-- Arithmetic on BigInts is exact or refused. An operator gives the exact result if it is in range; it fails with a range error
if there is none, or it is not, and never with another error. -/
theorem bigint_arithmetic_is_exact (op : Arithmetic) (a b : BigInt) :
    (∀ value, op.operator.apply (.bigint a) (.bigint b) = .ok value ↔
      ∃ c : BigInt, op.Gives a.val b.val c.val ∧ value = .bigint c) ∧
    (∀ error, op.operator.apply (.bigint a) (.bigint b) = .error error ↔
      ∃ cause, op.Fails a.val b.val cause ∧ error = .range cause) ∧
    ((∃ cause, op.operator.apply (.bigint a) (.bigint b) = .error (.range cause)) ↔
      ¬∃ c : BigInt, op.Gives a.val b.val c.val) := by
  rw [op.apply_operator]
  simp only [BigInt.toValue_eq_ok_iff, BigInt.toValue_eq_error_iff, Arithmetic.operation_eq_ok_iff,
    Arithmetic.operation_eq_error_iff, implies_true, true_and]
  simp only [← Arithmetic.operation_eq_ok_iff, ← Arithmetic.operation_eq_error_iff]
  cases op.operation a b with
  | ok c => simp
  | error cause => simp

-- The lower bound has no opposite, but leaves nothing by minus one; and it is a power, though its opposite is none.
example :
    let low : BigInt := ⟨-bigIntBound, by decide, by decide⟩
    let minusOne : BigInt := ⟨-1, by decide, by decide⟩
    let minusTwo : BigInt := ⟨-2, by decide, by decide⟩
    let exponent : BigInt := ⟨127, by decide, by decide⟩
    low.div minusOne = .error .outOfRange ∧ low.rem minusOne = .ok ⟨0, by decide, by decide⟩ ∧
      minusTwo.pow exponent = .ok low := by
  decide

end ScriptTree

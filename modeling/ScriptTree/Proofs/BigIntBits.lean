import Mathlib.Data.Int.Bitwise
import ScriptTree.Proofs.BigIntArithmetic

/-!
# BigInt bit operations

A BigInt is kept as a pattern of 128 bits, and an integer has infinitely many, in two's complement. The integers of the range
are those whose bits repeat from the sign of the pattern on (`testBit_of_inRange`, `inRange_of_testBit`), so a bitwise
operation on patterns is the one on integers (`BigInt.ofBits_bitwise`). A shift to the left may lose bits; that it has lost
none is seen by shifting back (`BigInt.shiftUp_eq`). `bigint_bits_are_unbounded` says that the operators give what they give
for integers of any size, or a range error where that is no BigInt.
-/

namespace ScriptTree

/-! ## Patterns of integers -/

section Pattern

variable {n : ℤ} {w i : ℕ}

/-- The bits of a pattern are the lower bits of the integer that it was made of. -/
theorem getLsbD_ofInt (hi : i < w) : (BitVec.ofInt w n).getLsbD i = n.testBit i := by
  cases n with
  | ofNat m =>
    rw [Int.ofNat_eq_natCast, BitVec.ofInt_natCast, BitVec.getLsbD_ofNat, decide_eq_true hi, Bool.true_and]
    rfl
  | negSucc m =>
    rw [BitVec.ofInt_negSucc_eq_not_ofNat, BitVec.getLsbD_not, BitVec.getLsbD_ofNat, decide_eq_true hi, Bool.true_and,
      Bool.true_and]
    rfl

/-- A pattern that is shifted to the left is the pattern of the multiple. -/
theorem shiftLeft_eq_ofInt (x : BitVec w) (k : ℕ) : x <<< k = BitVec.ofInt w (x.toInt * 2 ^ k) := by
  have hpow : (2 : ℤ) ^ k = (2 ^ k : ℕ) := by push_cast; rfl
  rw [BitVec.ofInt_mul, BitVec.ofInt_toInt, hpow, BitVec.ofInt_natCast]
  apply BitVec.eq_of_toNat_eq
  rw [BitVec.toNat_shiftLeft, BitVec.toNat_mul, BitVec.toNat_ofNat, Nat.shiftLeft_eq, Nat.mul_mod_mod]

end Pattern

/-! ## The bits of an integer of the range -/

section Bits

variable {n : ℤ} {i : ℕ}

/-- From its sign bit on, all bits of an integer in range are that of the sign. -/
theorem testBit_of_inRange (h : InRange n) (hi : 127 ≤ i) : n.testBit i = decide (n < 0) := by
  have hpow : 2 ^ 127 ≤ 2 ^ i := Nat.pow_le_pow_right (by decide) hi
  unfold InRange bigIntBound at h
  cases n with
  | ofNat m =>
    rw [Int.ofNat_eq_natCast] at h
    rw [Int.testBit, Nat.testBit_lt_two_pow (by omega)]
    exact (decide_eq_false (Int.not_lt.mpr (Int.natCast_nonneg m))).symm
  | negSucc m =>
    rw [Int.testBit, Nat.testBit_lt_two_pow (by omega)]
    exact (decide_eq_true (Int.negSucc_lt_zero m)).symm

/-- A natural number has no bit that repeats for ever but zero. -/
theorem lt_of_testBit {m : ℕ} (bit : Bool) (h : ∀ i, 127 ≤ i → m.testBit i = bit) : m < 2 ^ 127 := by
  have hzero : m.testBit (127 + m) = false :=
    Nat.testBit_lt_two_pow (Nat.lt_of_lt_of_le Nat.lt_two_pow_self (Nat.pow_le_pow_right (by decide) (by omega)))
  rw [h _ (by omega)] at hzero
  subst hzero
  exact Nat.lt_pow_two_of_testBit m h

/-- An integer whose bits are all alike from the sign bit on is in range. -/
theorem inRange_of_testBit (sign : Bool) (h : ∀ i, 127 ≤ i → n.testBit i = sign) : InRange n := by
  unfold InRange bigIntBound
  cases n with
  | ofNat m =>
    have hlt : m < 2 ^ 127 := lt_of_testBit sign h
    rw [Int.ofNat_eq_natCast]
    omega
  | negSucc m =>
    have hlt : m < 2 ^ 127 := by
      refine lt_of_testBit (!sign) fun i hi => ?_
      rw [← h i hi, Int.testBit, Bool.not_not]
    omega

end Bits

namespace BigInt

variable {n : ℤ}

/-- The pattern of a BigInt, read with its sign, is the BigInt. -/
theorem toInt_toBits (b : BigInt) : b.toBits.toInt = b.val :=
  BitVec.toInt_ofInt_eq_self (by decide) b.lower b.upper

/-- The pattern of an integer of the range is the pattern of that BigInt. -/
theorem ofBits_ofInt (h : InRange n) : (ofBits (BitVec.ofInt 128 n)).val = n :=
  BitVec.toInt_ofInt_eq_self (by decide) h.1 h.2

/-! ## Bitwise operations -/

/-- An operation on patterns that works bit by bit gives the integer that has these bits. -/
theorem ofBits_bitwise (f : Bool → Bool → Bool) (operation : BitVec 128 → BitVec 128 → BitVec 128)
    (hbits : ∀ x y i, i < 128 → (operation x y).getLsbD i = f (x.getLsbD i) (y.getLsbD i)) (a b : BigInt) :
    (ofBits (operation a.toBits b.toBits)).val = Int.bitwise f a.val b.val := by
  have hrange : InRange (Int.bitwise f a.val b.val) := by
    refine inRange_of_testBit (f (decide (a.val < 0)) (decide (b.val < 0))) fun i hi => ?_
    rw [Int.testBit_bitwise, testBit_of_inRange (.of_bigint a) hi, testBit_of_inRange (.of_bigint b) hi]
  have hpattern : operation a.toBits b.toBits = BitVec.ofInt 128 (Int.bitwise f a.val b.val) := by
    refine BitVec.eq_of_getLsbD_eq fun i hi => ?_
    rw [hbits _ _ i hi, toBits, toBits, getLsbD_ofInt hi, getLsbD_ofInt hi, getLsbD_ofInt hi, Int.testBit_bitwise]
  rw [hpattern, ofBits_ofInt hrange]

/-- Conjunction of the patterns is that of the integers. -/
theorem and_val (a b : BigInt) : (a.and b).val = a.val.land b.val := by
  rw [← Int.bitwise_and]
  exact ofBits_bitwise (· && ·) _ (fun _ _ _ _ => BitVec.getLsbD_and) a b

theorem or_val (a b : BigInt) : (a.or b).val = a.val.lor b.val := by
  rw [← Int.bitwise_or]
  exact ofBits_bitwise (· || ·) _ (fun _ _ _ _ => BitVec.getLsbD_or) a b

theorem xor_val (a b : BigInt) : (a.xor b).val = a.val.xor b.val := by
  rw [← Int.bitwise_xor]
  exact ofBits_bitwise (· ^^ ·) _ (fun _ _ _ _ => BitVec.getLsbD_xor) a b

/-! ## Shifts -/

/-- The pattern of a multiple, shifted back, is that of the factor exactly if the multiple is in range. -/
theorem shifted_back_iff (a : ℤ) {k : ℕ} (hk : k ≤ 128) :
    (BitVec.ofInt 128 (a * 2 ^ k)).toInt >>> k = a ↔ InRange (a * 2 ^ k) := by
  have hpow : (2 : ℤ) ^ k ≠ 0 := pow_ne_zero k two_ne_zero
  rw [Int.shiftRight_eq_div_pow, Nat.cast_pow, Nat.cast_ofNat]
  constructor
  · intro h
    -- the last places are empty, so that what was shifted back is a quotient without remainder
    have hdvd : (2 : ℤ) ^ k ∣ (BitVec.ofInt 128 (a * 2 ^ k)).toInt := by
      rw [BitVec.toInt_ofInt, Int.bmod_eq_self_sub_mul_bdiv, Nat.cast_pow, Nat.cast_ofNat]
      exact dvd_sub (Dvd.intro_left a rfl) (Dvd.dvd.mul_right (pow_dvd_pow 2 hk) _)
    have hsame : (BitVec.ofInt 128 (a * 2 ^ k)).toInt = a * 2 ^ k := by
      rw [← Int.ediv_mul_cancel hdvd, h]
    rw [← hsame]
    exact .of_bigint (ofBits _)
  · intro h
    rw [show (BitVec.ofInt 128 (a * 2 ^ k)).toInt = a * 2 ^ k from ofBits_ofInt h, Int.mul_ediv_cancel a hpow]

/-- The multiple by a power of two is refused exactly if it is out of range, whatever the power. -/
theorem shiftUp_eq (a : BigInt) (k : ℕ) : a.shiftUp k = ofResult (a.val * 2 ^ k) := by
  unfold shiftUp
  split
  case isTrue hzero => rw [hzero, zero_mul, ← hzero, ofResult_val]
  split
  case isTrue hne hlarge =>
    refine (ofResult_of_not_inRange ?_).symm
    have hpow : 2 ^ 128 ≤ (a.val * 2 ^ k).natAbs := by
      rw [Int.natAbs_mul, Int.natAbs_pow]
      exact Nat.le_trans (Nat.pow_le_pow_right (by decide) hlarge) (Nat.le_mul_of_pos_left _ (Int.natAbs_pos.mpr hne))
    unfold InRange bigIntBound
    omega
  case isFalse hne hsmall =>
    have hshifted : a.toBits <<< k = BitVec.ofInt 128 (a.val * 2 ^ k) := by rw [shiftLeft_eq_ofInt, toInt_toBits]
    simp only [hshifted, ← BitVec.toInt_inj, BitVec.toInt_sshiftRight, toInt_toBits,
      shifted_back_iff a.val (Nat.le_of_not_le hsmall)]
    split
    case isTrue hrange => exact (ofResult_eq_ok_iff.mpr (ofBits_ofInt hrange).symm).symm
    case isFalse hrange => exact (ofResult_of_not_inRange hrange).symm

/-- The quotient by a power of two is rounded down, whatever the power. -/
theorem shiftDown_val (a : BigInt) (k : ℕ) : (a.shiftDown k).val = ⌊(a.val : ℚ) / 2 ^ k⌋ := by
  rw [floor_div_two_pow]
  unfold shiftDown
  split
  case isTrue hlarge =>
    have hpow : 2 ^ 128 ≤ 2 ^ k := Nat.pow_le_pow_right (by decide) hlarge
    obtain ⟨hlower, hupper⟩ := InRange.of_bigint a
    unfold bigIntBound at hlower hupper
    split
    case isTrue hneg =>
      show (-1 : ℤ) = _
      rw [Int.shiftRight_eq_div_pow, eq_comm, Int.ediv_eq_iff_of_pos (by omega)]
      omega
    case isFalse hnonneg =>
      rw [Int.shiftRight_eq_div_pow]
      exact (Int.ediv_eq_zero_of_lt (by omega) (by omega)).symm
  case isFalse hsmall =>
    show (a.toBits.sshiftRight k).toInt = _
    rw [BitVec.toInt_sshiftRight, toInt_toBits]

end BigInt

/-! ## The operators -/

/-- A result is the BigInt of an integer. -/
def IsBigInt (result : Except OperationError Value) (n : ℤ) : Prop := ∃ c : BigInt, result = .ok (.bigint c) ∧ c.val = n

/-- A result is the BigInt of an integer if that is in range, and a range error if not. -/
def IsBigIntInRange (result : Except OperationError Value) (n : ℤ) : Prop :=
  (∀ c : BigInt, result = .ok (.bigint c) ↔ c.val = n) ∧ (result = .error (.range .outOfRange) ↔ ¬InRange n)

/-- An exact result becomes a BigInt where it is in range, and a range error elsewhere. -/
theorem isBigIntInRange_ofResult (n : ℤ) :
    IsBigIntInRange (((BigInt.ofResult n).map .bigint).mapError .range) n := by
  unfold IsBigIntInRange
  simp only [BigInt.toValue_eq_ok_iff, BigInt.toValue_eq_error_iff, BigInt.ofResult_eq_ok_iff, BigInt.ofResult_eq_error_iff]
  constructor
  · intro c
    constructor
    · rintro ⟨_, rfl, ⟨⟩⟩
      rfl
    · rintro rfl
      exact ⟨c, rfl, rfl⟩
  · constructor
    · rintro ⟨_, ⟨-, h⟩, -⟩
      exact h
    · intro h
      exact ⟨_, ⟨rfl, h⟩, rfl⟩

/-- Bit operations on BigInts are those on integers with infinitely many bits. Bitwise operators always have a result. A shift
multiplies by a power of two where it goes to the left, with a range error if the multiple is out of range, and where it goes
to the right it always gives the quotient, rounded down; a negative count turns the direction round. The shift that fills up
with zeros is refused. -/
theorem bigint_bits_are_unbounded (a b : BigInt) :
    IsBigInt (BinaryOperator.bitAnd.apply (.bigint a) (.bigint b)) (a.val.land b.val) ∧
    IsBigInt (BinaryOperator.bitOr.apply (.bigint a) (.bigint b)) (a.val.lor b.val) ∧
    IsBigInt (BinaryOperator.bitXor.apply (.bigint a) (.bigint b)) (a.val.xor b.val) ∧
    (0 ≤ b.val →
      IsBigIntInRange (BinaryOperator.shiftLeft.apply (.bigint a) (.bigint b)) (a.val * 2 ^ b.val.natAbs) ∧
      IsBigInt (BinaryOperator.shiftRight.apply (.bigint a) (.bigint b)) ⌊(a.val : ℚ) / 2 ^ b.val.natAbs⌋) ∧
    (b.val < 0 →
      IsBigInt (BinaryOperator.shiftLeft.apply (.bigint a) (.bigint b)) ⌊(a.val : ℚ) / 2 ^ b.val.natAbs⌋ ∧
      IsBigIntInRange (BinaryOperator.shiftRight.apply (.bigint a) (.bigint b)) (a.val * 2 ^ b.val.natAbs)) ∧
    BinaryOperator.shiftRightUnsigned.apply (.bigint a) (.bigint b) =
      .error (.unsupported .shiftRightUnsigned .bigint .bigint) := by
  have hleft : BinaryOperator.shiftLeft.apply (.bigint a) (.bigint b) =
      ((a.shiftLeft b).map .bigint).mapError .range := rfl
  have hright : BinaryOperator.shiftRight.apply (.bigint a) (.bigint b) =
      ((a.shiftRight b).map .bigint).mapError .range := rfl
  have hdown : IsBigInt (.ok (.bigint (a.shiftDown b.val.natAbs))) ⌊(a.val : ℚ) / 2 ^ b.val.natAbs⌋ :=
    ⟨_, rfl, a.shiftDown_val b.val.natAbs⟩
  rw [hleft, hright, BigInt.shiftLeft, BigInt.shiftRight, BigInt.shiftUp_eq]
  refine ⟨⟨_, rfl, a.and_val b⟩, ⟨_, rfl, a.or_val b⟩, ⟨_, rfl, a.xor_val b⟩, ?_, ?_, rfl⟩
  · intro h
    rw [if_pos h, if_pos h]
    exact ⟨isBigIntInRange_ofResult _, hdown⟩
  · intro h
    rw [if_neg (Int.not_le.mpr h), if_neg (Int.not_le.mpr h)]
    exact ⟨hdown, isBigIntInRange_ofResult _⟩

/-- The lower bound of the range is minus one, shifted by 127 places, and one is out of range there; shifted by 200 places to
the right minus one stays what it is. -/
theorem shifts_around_the_width :
    let one : BigInt := ⟨1, by decide, by decide⟩
    let minusOne : BigInt := ⟨-1, by decide, by decide⟩
    let low : BigInt := ⟨-bigIntBound, by decide, by decide⟩
    let places : BigInt := ⟨127, by decide, by decide⟩
    let back : BigInt := ⟨-200, by decide, by decide⟩
    (0 ≤ places.val ∧ BinaryOperator.shiftLeft.apply (.bigint minusOne) (.bigint places) = .ok (.bigint low) ∧
      BinaryOperator.shiftLeft.apply (.bigint one) (.bigint places) = .error (.range .outOfRange)) ∧
    (back.val < 0 ∧ IsBigInt (BinaryOperator.shiftLeft.apply (.bigint minusOne) (.bigint back)) (-1) ∧
      BinaryOperator.shiftRight.apply (.bigint one) (.bigint back) = .error (.range .outOfRange)) := by
  intro one minusOne low places back
  obtain ⟨-, -, -, hlow, -, -⟩ := bigint_bits_are_unbounded minusOne places
  obtain ⟨-, -, -, hone, -, -⟩ := bigint_bits_are_unbounded one places
  obtain ⟨-, -, -, -, hdown, -⟩ := bigint_bits_are_unbounded minusOne back
  obtain ⟨-, -, -, -, hup, -⟩ := bigint_bits_are_unbounded one back
  have hfloor : ⌊((-1 : ℤ) : ℚ) / 2 ^ 200⌋ = -1 := by
    rw [Int.floor_eq_iff]
    norm_num
  refine ⟨⟨by decide, ((hlow (by decide)).1.1 low).mpr (by decide), (hone (by decide)).1.2.mpr (by decide)⟩,
    by decide, ?_, (hup (by decide)).2.2.mpr (by decide)⟩
  rw [← hfloor]
  exact (hdown (by decide)).1

end ScriptTree

import ScriptTree.Operation.Apply
import ScriptTree.Proofs.BigIntBits
import ScriptTree.Proofs.ExactOrder
import ScriptTree.Proofs.OperatorDomain

/-!
# Words of numbers

Bitwise operators take numbers for words of 32 bits: the whole part modulo `2 ^ 32`, read with a sign or without one
(`Double.signedWord`, `Double.unsignedWord`). `word_operators_are_exact` says that their results are the integers that these
words give, exactly.

The word of a number is found with operations on doubles, and none of them rounds: the whole part of a double is a double,
the remainder of a division is exact, and the modulus is added to it below `2 ^ 53` (`Double.toWord_eq`).
-/

namespace ScriptTree

/-- The integer from `-2 ^ 31` on, below `2 ^ 31`, that is congruent to an integer modulo `2 ^ 32`. -/
def signedRepresentative (n : ℤ) : ℤ := n.bmod (2 ^ 32)

namespace Double

/-- The whole part of a number; zero for NaN and the infinities. -/
def wholeValue : Double → ℤ
  | .finite negative units _ => wholePart (rationalOfUnits (signed negative units))
  | _ => 0

/-- The word of a number, read without a sign. -/
def unsignedWord (x : Double) : ℕ := (x.wholeValue % 2 ^ 32).toNat

/-- The word of a number, read with a sign. -/
def signedWord (x : Double) : ℤ := signedRepresentative x.unsignedWord

/-- A number that is an integer, exactly; zero is the positive one. -/
def IsInteger (x : Double) (n : ℤ) : Prop := ∃ fits, x = .finite (decide (n < 0)) (n.natAbs * unitsPerOne) fits

end Double

/-- The operators that work on words. -/
inductive WordOperation where
  | and | or | xor | shiftLeft | shiftRight | shiftRightUnsigned

namespace WordOperation

/-- The operator of a script. -/
def operator : WordOperation → BinaryOperator
  | and => .bitAnd
  | or => .bitOr
  | xor => .bitXor
  | shiftLeft => .shiftLeft
  | shiftRight => .shiftRight
  | shiftRightUnsigned => .shiftRightUnsigned

/-- The integer that an operator gives for the words of two numbers. A shift goes by as many places as the last five bits of
the second word say. -/
def integer (op : WordOperation) (x y : Double) : ℤ :=
  match op with
  | and => signedRepresentative (x.unsignedWord &&& y.unsignedWord : ℕ)
  | or => signedRepresentative (x.unsignedWord ||| y.unsignedWord : ℕ)
  | xor => signedRepresentative (x.unsignedWord ^^^ y.unsignedWord : ℕ)
  | shiftLeft => signedRepresentative (x.signedWord * 2 ^ (y.unsignedWord % 32))
  | shiftRight => ⌊(x.signedWord : ℚ) / 2 ^ (y.unsignedWord % 32)⌋
  | shiftRightUnsigned => ⌊(x.unsignedWord : ℚ) / 2 ^ (y.unsignedWord % 32)⌋

end WordOperation

namespace Double

/-! ## The word of a number -/

/-- The whole value of a finite number is that of its units, with its sign. -/
theorem wholeValue_finite (negative : Bool) (units : ℕ) (fits : Representable units) :
    (finite negative units fits).wholeValue = signed negative (units / unitsPerOne) := by
  have hunits : (2 : ℚ) ^ unitExponent = (unitsPerOne : ℕ) := by
    rw [unitsPerOne_eq]
    push_cast
    rfl
  rw [wholeValue, rationalOfUnits, hunits, wholePart_signed]

/-- The remainder of whole numbers is exact. -/
theorem rem_whole (negative : Bool) {m k : ℕ} (fits : Representable (m * unitsPerOne))
    (fits' : Representable (k * unitsPerOne)) (hpos : 0 < k) (hlt : m % k < 2 ^ 53) :
    (finite negative (m * unitsPerOne) fits).rem (finite false (k * unitsPerOne) fits') =
      finite negative (m % k * unitsPerOne) (representable_of_whole hlt) := by
  have hne : k * unitsPerOne ≠ 0 := Nat.mul_ne_zero (by omega) (by decide)
  rw [rem, if_neg hne, Nat.mul_mod_mul_right, ofRatio_of_whole negative hlt]

/-- The sum with the opposite of a smaller whole number is exact. -/
theorem add_whole {m k : ℕ} (fits : Representable (m * unitsPerOne)) (fits' : Representable (k * unitsPerOne))
    (hlt : m < k) (hk : k - m < 2 ^ 53) :
    (finite true (m * unitsPerOne) fits).add (finite false (k * unitsPerOne) fits') =
      finite false ((k - m) * unitsPerOne) (representable_of_whole hk) := by
  have hpos : 0 < (k - m) * unitsPerOne := Nat.mul_pos (by omega) (by decide)
  have hsum : signed true (m * unitsPerOne) + signed false (k * unitsPerOne) = ((k - m) * unitsPerOne : ℕ) := by
    rw [signed_true, signed_false, Nat.sub_mul, Nat.cast_sub (Nat.mul_le_mul_right _ (Nat.le_of_lt hlt))]
    ring
  rw [add, hsum, if_neg (by omega), decide_eq_false (by omega), Int.natAbs_natCast, ofRatio_of_whole false hk]

/-- A finite number compares with zero as its units do. -/
theorem compare?_zero (negative : Bool) (units : ℕ) (fits : Representable units) :
    (finite negative units fits).compare? (zero false) = some (compare (signed negative units) 0) := rfl

/-- The remainder that is not negative is that of the integers. Only a zero may keep the sign. -/
theorem remEuclid_whole (negative : Bool) {m : ℕ} (fits : Representable (m * unitsPerOne)) :
    ∃ sign r fits', (finite negative (m * unitsPerOne) fits).remEuclid (ofNat 0x100000000) =
      finite sign (r * unitsPerOne) fits' ∧ (r : ℤ) = signed negative m % 2 ^ 32 ∧ (sign = true → r = 0) := by
  obtain ⟨fits', hmodulus⟩ := ofNat_of_lt (n := 0x100000000) (by decide)
  have hpos : 0 < unitsPerOne := by decide
  have hrem := rem_whole negative fits fits' (by decide) (by omega)
  rw [hmodulus, remEuclid, hrem]
  simp only [compare?_zero, Option.some.injEq, compare_lt_iff_lt]
  cases negative with
  | false =>
    refine ⟨false, m % 0x100000000, representable_of_whole (by omega), if_neg ?_, ?_, fun h => absurd h Bool.false_ne_true⟩
    · exact Int.not_lt.mpr (Int.natCast_nonneg _)
    · rw [signed_false]
      omega
  | true =>
    -- the remainder has the dividend's sign, and the modulus is added to it unless it is zero
    rcases Nat.eq_zero_or_pos (m % 0x100000000) with hzero | hne
    · refine ⟨true, m % 0x100000000, representable_of_whole (by omega), if_neg ?_, ?_, fun _ => hzero⟩
      · rw [hzero, Nat.zero_mul]
        decide
      · rw [signed_true]
        omega
    · refine ⟨false, 0x100000000 - m % 0x100000000, representable_of_whole (by omega), ?_, ?_,
        fun h => absurd h Bool.false_ne_true⟩
      · have hunits : 0 < m % 0x100000000 * unitsPerOne := Nat.mul_pos hne hpos
        rw [if_pos (by rw [signed_true]; omega), abs, add_whole _ _ (Nat.mod_lt m (by decide)) (by omega)]
      · rw [signed_true]
        omega

/-- A number from zero to the largest word is the word of the same number. -/
theorem saturate_whole {sign : Bool} {r : ℕ} (fits : Representable (r * unitsPerOne)) (hlt : r < 2 ^ 32)
    (hsign : sign = true → r = 0) : (finite sign (r * unitsPerOne) fits).saturate = BitVec.ofNat 32 r := by
  have hpos : 0 < unitsPerOne := by decide
  rw [saturate, Nat.mul_div_cancel r hpos, Nat.min_eq_left (by omega)]
  cases sign with
  | false => rfl
  | true => rw [hsign rfl]; rfl

/-- The word of a number is the pattern of its whole part. -/
theorem toWord_eq (x : Double) : x.toWord = BitVec.ofInt 32 x.wholeValue := by
  cases x with
  | nan signaling => rfl
  | infinite negative => rfl
  | finite negative units fits =>
    obtain ⟨sign, r, fits', hrem, hr, hsign⟩ := remEuclid_whole negative (representable_whole fits)
    have hlt : (r : ℤ) < 2 ^ 32 := by rw [hr]; exact Int.emod_lt_of_pos _ (by decide)
    rw [toWord, if_neg (by simp [isNan, isInfinite]), trunc, hrem, saturate_whole fits' (by omega) hsign,
      wholeValue_finite, ← BitVec.ofInt_natCast, hr]
    apply BitVec.eq_of_toInt_eq
    rw [BitVec.toInt_ofInt, BitVec.toInt_ofInt]
    exact Int.emod_bmod _ (2 ^ 32)

/-- The word of a number, without a sign, is the specified one. -/
theorem toNat_toWord (x : Double) : x.toWord.toNat = x.unsignedWord := by
  rw [toWord_eq, BitVec.toNat_ofInt]
  rfl

/-- The word of a number, with its sign, is the specified one. -/
theorem toInt_toWord (x : Double) : x.toWord.toInt = x.signedWord := by
  rw [BitVec.toInt_eq_toNat_bmod, toNat_toWord]
  rfl

/-! ## The results -/

theorem ofInt_isInteger {n : ℤ} (h : n.natAbs < 2 ^ 53) : (ofInt n).IsInteger n :=
  ⟨representable_of_whole h, ofRatio_of_whole _ h⟩

theorem ofNat_isInteger {n : ℕ} (h : n < 2 ^ 53) : (ofNat n).IsInteger n := by
  have hsame : ofNat n = ofInt n := by
    rw [ofInt, decide_eq_false (Int.not_lt.mpr (Int.natCast_nonneg n)), Int.natAbs_natCast]
    rfl
  rw [hsame]
  exact ofInt_isInteger (by rwa [Int.natAbs_natCast])

/-- The signed value of a word is a double. -/
theorem onWords_isInteger (operation : BitVec 32 → BitVec 32 → BitVec 32) {x y : Double} {n : ℤ}
    (h : (operation x.toWord y.toWord).toInt = n) : (onWords operation x y).IsInteger n := by
  subst h
  apply ofInt_isInteger
  have hlower := (operation x.toWord y.toWord).le_toInt
  have hupper := (operation x.toWord y.toWord).toInt_lt
  omega

end Double

/-- A primitive that is no BigInt is an operand as the number that it converts to. -/
theorem Value.toNumeric?_of_number {v : Value} (hprimitive : v.isObjectLike = false) (hbigint : v.isBigInt = false) :
    ∃ x, v.toNumber? = some x ∧ v.toNumeric? = some (.number x) := by
  cases v with
  | regex | callable | object => nomatch hprimitive
  | bigint => nomatch hbigint
  | _ => exact ⟨_, rfl, rfl⟩

namespace WordOperation

open Double

/-- The operation on numbers behind an operator. -/
def onNumbers : WordOperation → Double → Double → Double
  | and => onWords (· &&& ·)
  | or => onWords (· ||| ·)
  | xor => onWords (· ^^^ ·)
  | shiftLeft => onWords fun v w => v <<< shiftCount w
  | shiftRight => onWords fun v w => v.sshiftRight (shiftCount w)
  | shiftRightUnsigned => Double.shiftRightUnsigned

/-- On numbers the operator table works on their words. -/
theorem apply_eq_ok (op : WordOperation) {left right : Value} {x y : Double}
    (hleft : left.toNumeric? = some (.number x)) (hright : right.toNumeric? = some (.number y)) :
    op.operator.apply left right = .ok (.number (op.onNumbers x y)) := by
  cases op <;> simp only [operator, BinaryOperator.apply, Value.onNumerics, hleft, hright, onNumbers]

/-- The result is the specified integer, exactly. -/
theorem onNumbers_isInteger (op : WordOperation) (x y : Double) : (op.onNumbers x y).IsInteger (op.integer x y) := by
  have hcount : shiftCount y.toWord = y.unsignedWord % 32 := by rw [shiftCount, toNat_toWord]
  cases op with
  | and =>
    refine onWords_isInteger (· &&& ·) ?_
    rw [BitVec.toInt_and, toNat_toWord, toNat_toWord, integer, signedRepresentative]
  | or =>
    refine onWords_isInteger (· ||| ·) ?_
    rw [BitVec.toInt_or, toNat_toWord, toNat_toWord, integer, signedRepresentative]
  | xor =>
    refine onWords_isInteger (· ^^^ ·) ?_
    rw [BitVec.toInt_xor, toNat_toWord, toNat_toWord, integer, signedRepresentative]
  | shiftLeft =>
    refine onWords_isInteger (fun v w => v <<< shiftCount w) ?_
    rw [shiftLeft_eq_ofInt, BitVec.toInt_ofInt, toInt_toWord, hcount, integer, signedRepresentative]
  | shiftRight =>
    refine onWords_isInteger (fun v w => v.sshiftRight (shiftCount w)) ?_
    rw [BitVec.toInt_sshiftRight, toInt_toWord, hcount, integer, floor_div_two_pow]
  | shiftRightUnsigned =>
    have hword : ((x.toWord >>> shiftCount y.toWord).toNat : ℤ) = integer shiftRightUnsigned x y := by
      rw [BitVec.toNat_ushiftRight, toNat_toWord, hcount, integer, Int.natCast_shiftRight, ← floor_div_two_pow,
        Int.cast_natCast]
    rw [← hword]
    exact ofNat_isInteger (Nat.lt_trans (x.toWord >>> shiftCount y.toWord).isLt (by decide))

end WordOperation

/-- The bitwise operators on primitives that are no BigInts give integers: those of the words of the numbers
that the operands convert to. -/
theorem word_operators_are_exact (op : WordOperation) (left right : Value)
    (hleft : left.isObjectLike = false ∧ left.isBigInt = false)
    (hright : right.isObjectLike = false ∧ right.isBigInt = false) :
    ∃ x y, left.toNumber? = some x ∧ right.toNumber? = some y ∧
      ∃ z, op.operator.apply left right = .ok (.number z) ∧ z.IsInteger (op.integer x y) := by
  obtain ⟨x, hx, hleft⟩ := left.toNumeric?_of_number hleft.1 hleft.2
  obtain ⟨y, hy, hright⟩ := right.toNumeric?_of_number hright.1 hright.2
  exact ⟨x, y, hx, hy, _, op.apply_eq_ok hleft hright, op.onNumbers_isInteger x y⟩

/-- The text of minus five and a half has the word of minus five. Shifted by one place that is minus three, and filled up with a
zero it is two less than half the modulus. -/
theorem words_of_a_fraction :
    let text : Value := .string "-5.5e0"
    let count : Value := .boolean true
    (text.isObjectLike = false ∧ text.isBigInt = false) ∧ (count.isObjectLike = false ∧ count.isBigInt = false) ∧
      (∃ z, BinaryOperator.shiftRight.apply text count = .ok (.number z) ∧ z.IsInteger (-3)) ∧
      ∃ z, BinaryOperator.shiftRightUnsigned.apply text count = .ok (.number z) ∧ z.IsInteger 2147483645 := by
  intro text count
  have htext (x : Double) (hx : text.toNumber? = some x) : x.unsignedWord = 4294967291 := by
    obtain ⟨fits, hnumber⟩ : ∃ fits, text.toNumber? = some (.finite true (11 <<< 1073) fits) :=
      ⟨⟨by decide +kernel, by decide +kernel⟩, by decide +kernel⟩
    obtain rfl := Option.some.inj (hnumber.symm.trans hx)
    rw [Double.unsignedWord, Double.wholeValue_finite]
    decide +kernel
  have hcount (y : Double) (hy : count.toNumber? = some y) : y.unsignedWord % 32 = 1 := by
    obtain ⟨fits, hnumber⟩ : ∃ fits, count.toNumber? = some (.finite false unitsPerOne fits) :=
      ⟨⟨by decide +kernel, by decide +kernel⟩, by decide +kernel⟩
    obtain rfl := Option.some.inj (hnumber.symm.trans hy)
    rw [Double.unsignedWord, Double.wholeValue_finite]
    decide +kernel
  refine ⟨⟨rfl, rfl⟩, ⟨rfl, rfl⟩, ?_, ?_⟩
  · obtain ⟨x, y, hx, hy, hz⟩ := word_operators_are_exact .shiftRight text count ⟨rfl, rfl⟩ ⟨rfl, rfl⟩
    have hinteger : WordOperation.shiftRight.integer x y = -3 := by
      rw [WordOperation.integer, floor_div_two_pow, Double.signedWord, htext x hx, hcount y hy]
      decide +kernel
    rwa [hinteger] at hz
  · obtain ⟨x, y, hx, hy, hz⟩ := word_operators_are_exact .shiftRightUnsigned text count ⟨rfl, rfl⟩ ⟨rfl, rfl⟩
    have hinteger : WordOperation.shiftRightUnsigned.integer x y = 2147483645 := by
      rw [WordOperation.integer, htext x hx, hcount y hy]
      norm_num
    rwa [hinteger] at hz

end ScriptTree

import Mathlib.Data.Rat.Floor
import ScriptTree.Proofs.Rounding

/-!
# Whole parts

The whole part of a rational is what is left when its fraction is dropped. Truncated division of integers gives the whole part
of the exact quotient (`wholePart_intCast_div`).
-/

namespace ScriptTree

/-- The integer that is left of a rational without its fraction: the next one toward zero. -/
def wholePart (q : ℚ) : ℤ := if 0 ≤ q then ⌊q⌋ else ⌈q⌉

/-- The whole part of the opposite is the opposite. -/
theorem wholePart_neg (q : ℚ) : wholePart (-q) = -wholePart q := by
  unfold wholePart
  rcases lt_trichotomy q 0 with h | rfl | h
  · rw [if_pos (by linarith), if_neg (by linarith), Int.floor_neg]
  · simp
  · rw [if_neg (by linarith), if_pos (by linarith), Int.ceil_neg]

/-- Of a quotient of natural numbers it is the quotient without remainder. -/
theorem wholePart_natCast_div (m n : ℕ) : wholePart ((m : ℚ) / n) = (m / n : ℕ) := by
  rw [wholePart, if_pos (by positivity)]
  exact Rat.floor_intCast_div_natCast m n

/-- With a sign it is the same, with that sign. -/
theorem wholePart_signed (negative : Bool) (m n : ℕ) :
    wholePart ((signed negative m : ℚ) / n) = signed negative (m / n) := by
  cases negative with
  | false => simpa using wholePart_natCast_div m n
  | true =>
    rw [signed_true, signed_true, Int.cast_neg, neg_div, wholePart_neg]
    exact congrArg _ (wholePart_natCast_div m n)

/-- The quotient that is truncated toward zero is the whole part of the exact one. -/
theorem wholePart_intCast_div (a b : ℤ) : wholePart ((a : ℚ) / b) = a.tdiv b := by
  obtain ⟨m, rfl | rfl⟩ := a.eq_nat_or_neg <;> obtain ⟨n, rfl | rfl⟩ := b.eq_nat_or_neg
  · exact wholePart_natCast_div m n
  · rw [Int.cast_neg, div_neg, wholePart_neg, Int.tdiv_neg]
    exact congrArg _ (wholePart_natCast_div m n)
  · rw [Int.cast_neg, neg_div, wholePart_neg, Int.neg_tdiv]
    exact congrArg _ (wholePart_natCast_div m n)
  · rw [Int.cast_neg, Int.cast_neg, neg_div_neg_eq, Int.neg_tdiv_neg]
    exact wholePart_natCast_div m n

/-- A shift to the right rounds down. -/
theorem floor_div_two_pow (n : ℤ) (k : ℕ) : ⌊(n : ℚ) / 2 ^ k⌋ = n >>> k := by
  rw [Int.shiftRight_eq_div_pow, ← Rat.floor_intCast_div_natCast, Nat.cast_pow, Nat.cast_ofNat]

end ScriptTree

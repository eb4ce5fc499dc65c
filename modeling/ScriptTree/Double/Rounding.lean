import ScriptTree.Double.Basic

/-!
# Rounding to the nearest double

`Double.ofRatio` is the one place where a double is made from an exact value: the double nearest to a quotient of
natural numbers, counted in units of `2 ^ -1074`, a tie going to the even significand, and an infinity once the rounded
magnitude reaches the overflow bound. Every operation whose exact result may not be a double goes through it.
-/

namespace ScriptTree

/-- The integer nearest to `num / den`, a tie going to the even one. -/
def roundQuotient (num den : Nat) : Nat :=
  let quotient := num / den
  let remainder := num % den
  if 2 * remainder < den then quotient
  else if den < 2 * remainder then quotient + 1
  else quotient + quotient % 2

/-- The count of units nearest to `num / den` among those with at most 53 significant bits. -/
def roundUnits (num den : Nat) : Nat :=
  let shift := spacingExponent (num / den)
  roundQuotient num (den <<< shift) <<< shift

/-- Rounding goes up by one at most. -/
theorem roundQuotient_le (num den : Nat) : roundQuotient num den ≤ num / den + 1 := by
  simp only [roundQuotient]
  split
  · omega
  · split <;> omega

/-- The quotient of a number by its own spacing has at most 53 bits. -/
theorem shiftRight_spacingExponent_lt (n : Nat) : n >>> spacingExponent n < 1 <<< 53 := by
  rw [Nat.shiftRight_eq_div_pow, Nat.one_shiftLeft, Nat.div_lt_iff_lt_mul (Nat.two_pow_pos _), ← Nat.pow_add]
  by_cases h0 : n = 0
  · simp [h0, spacingExponent]
  · rw [← Nat.log2_lt h0, spacingExponent]
    omega

/-- A rounded count of units is a multiple of the spacing of its size. -/
theorem spacing_dvd_roundUnits (num den : Nat) : spacing (roundUnits num den) ∣ roundUnits num den := by
  refine spacing_dvd_shiftLeft ?_ _
  have hq := roundQuotient_le num (den <<< spacingExponent (num / den))
  rw [Nat.shiftLeft_eq, ← Nat.div_div_eq_div_mul, ← Nat.shiftRight_eq_div_pow] at hq
  rw [Nat.shiftLeft_eq]
  have := shiftRight_spacingExponent_lt (num / den)
  omega

namespace Double

/-- The double nearest to `num / den` units of `2 ^ -1074` with the given sign. -/
def ofRatio (negative : Bool) (num den : Nat) : Double :=
  if h : roundUnits num den < overflowUnits then
    .finite negative (roundUnits num den) ⟨h, spacing_dvd_roundUnits num den⟩
  else .infinite negative

/-- The double nearest to an integer; zero is positive. -/
def ofInt (n : Int) : Double := ofRatio (decide (n < 0)) (n.natAbs * unitsPerOne) 1

/-- The double nearest to a natural number. -/
def ofNat (n : Nat) : Double := ofRatio false (n * unitsPerOne) 1

end Double

end ScriptTree

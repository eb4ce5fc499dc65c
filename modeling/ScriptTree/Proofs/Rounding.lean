import Mathlib.Tactic.Linarith
import Mathlib.Tactic.Ring
import ScriptTree.Double.Arithmetic

/-!
# Rounding to nearest

What `roundUnits` does to an exact quotient. A quotient that lies nearer to a representable count of units than to any
other is rounded to it (`roundUnits_of_near`), a representable count to itself (`roundUnits_self`); the result depends on
the value of the quotient alone (`roundUnits_congr`); and a quotient beyond the format overflows.
-/

namespace ScriptTree

@[simp] theorem signed_false (n : Nat) : signed false n = n := rfl

@[simp] theorem signed_true (n : Nat) : signed true n = -n := rfl

/-- An integer is its magnitude with its sign. -/
theorem signed_natAbs (n : Int) : signed (decide (n < 0)) n.natAbs = n := by
  unfold signed
  split
  case isTrue h => have := of_decide_eq_true h; omega
  case isFalse h => have := of_decide_eq_false (Bool.eq_false_of_not_eq_true h); omega

theorem unitsPerOne_eq : unitsPerOne = 2 ^ unitExponent := Nat.one_shiftLeft _

/-! ## Rounding to an integer -/

/-- A quotient is rounded by its remainder, to an even integer at one half. -/
theorem roundQuotient_of_eq {num den : Nat} (quotient remainder : Nat) (h : num = quotient * den + remainder)
    (hlt : remainder < den) :
    roundQuotient num den =
      if 2 * remainder < den then quotient
      else if den < 2 * remainder then quotient + 1
      else quotient + quotient % 2 := by
  have hdiv : num / den = quotient := by
    rw [h, Nat.mul_comm, Nat.mul_add_div (Nat.zero_lt_of_lt hlt), Nat.div_eq_of_lt hlt, Nat.add_zero]
  have hmod : num % den = remainder := by
    rw [h, Nat.mul_comm, Nat.mul_add_mod, Nat.mod_eq_of_lt hlt]
  simp only [roundQuotient, hdiv, hmod]

/-- An integer at most half away from a quotient is what the quotient is rounded to, an odd one only if it is nearer. -/
theorem roundQuotient_of_near {num den m : Nat} (hden : 0 < den) (hlow : 2 * (m * den) ≤ 2 * num + den)
    (hhigh : 2 * num ≤ 2 * (m * den) + den)
    (htie : m % 2 = 0 ∨ (2 * (m * den) < 2 * num + den ∧ 2 * num < 2 * (m * den) + den)) :
    roundQuotient num den = m := by
  rcases Nat.lt_or_ge num (m * den) with hlt | hge
  · -- the quotient lies below `m`, in the upper half of the gap
    obtain ⟨k, rfl⟩ : ∃ k, m = k + 1 := by
      cases m with
      | zero => simp at hlt
      | succ k => exact ⟨k, rfl⟩
    have hsucc : (k + 1) * den = k * den + den := Nat.succ_mul k den
    rw [roundQuotient_of_eq k (num - k * den) (by omega) (by omega)]
    split
    · omega
    · split <;> omega
  · rw [roundQuotient_of_eq m (num - m * den) (by omega) (by omega)]
    split
    · rfl
    · split <;> omega

/-- Rounding does not go below the whole part. -/
theorem le_roundQuotient (num den : Nat) : num / den ≤ roundQuotient num den := by
  simp only [roundQuotient]
  split
  · exact Nat.le_refl _
  · split <;> omega

/-- A common factor does not matter to rounding. -/
theorem roundQuotient_scale {k : Nat} (hk : 0 < k) (num den : Nat) :
    roundQuotient (k * num) (k * den) = roundQuotient num den := by
  have hscale (a b : Nat) : k * a < k * b ↔ a < b := Nat.mul_lt_mul_left hk
  simp only [roundQuotient, Nat.mul_div_mul_left _ _ hk, Nat.mul_mod_mul_left, Nat.mul_left_comm 2 k, hscale]

/-! ## The spacing of doubles -/

/-- The spacing at a number of the binade of a significand, or below all binades. -/
theorem spacingExponent_eq {n e : Nat} (hlt : n < 2 ^ (53 + e)) (hge : e = 0 ∨ 2 ^ (52 + e) ≤ n) :
    spacingExponent n = e := by
  unfold spacingExponent
  rcases Nat.eq_zero_or_pos n with rfl | hpos
  · rcases hge with rfl | hge
    · rfl
    · have := Nat.two_pow_pos (52 + e)
      omega
  · have hup : n.log2 < 53 + e := (Nat.log2_lt (Nat.ne_of_gt hpos)).mpr hlt
    rcases hge with rfl | hge
    · omega
    · have hlow : 52 + e ≤ n.log2 := (Nat.le_log2 (Nat.ne_of_gt hpos)).mpr hge
      omega

/-- A count of units that a double can hold is a significand at an exponent: of 53 bits, or of fewer at the lowest one. -/
theorem exists_significand {units : Nat} (h : spacing units ∣ units) :
    ∃ m, units = m * 2 ^ spacingExponent units ∧ m < 2 ^ 53 ∧ (spacingExponent units = 0 ∨ 2 ^ 52 ≤ m) := by
  rw [spacing, Nat.one_shiftLeft] at h
  obtain ⟨m, hm⟩ := h
  have hpos := Nat.two_pow_pos (spacingExponent units)
  have hquot : units / 2 ^ spacingExponent units = m := Nat.div_eq_of_eq_mul_right hpos hm
  refine ⟨m, by rw [Nat.mul_comm]; exact hm, ?_, ?_⟩
  · have := shiftRight_spacingExponent_lt units
    rwa [Nat.shiftRight_eq_div_pow, Nat.one_shiftLeft, hquot] at this
  · rcases Nat.eq_zero_or_pos (spacingExponent units) with h0 | h0
    · exact .inl h0
    · right
      have hne : units ≠ 0 := by
        rintro rfl
        simp [spacingExponent] at h0
      rw [← hquot, Nat.le_div_iff_mul_le hpos, ← Nat.pow_add, ← Nat.le_log2 hne]
      unfold spacingExponent at h0 ⊢
      omega

/-! ## Rounding to a count of units -/

section RoundUnits

variable {num den m e : Nat}

/-- A count is rounded to a multiple of the spacing at its whole part. -/
theorem roundUnits_of_spacing (he : spacingExponent (num / den) = e) :
    roundUnits num den = roundQuotient num (den * 2 ^ e) * 2 ^ e := by
  simp only [roundUnits, he, Nat.shiftLeft_eq]

/-- A quotient is rounded to a significand at an exponent if it lies in the binade of that exponent and is at most half the
spacing away, or less if the significand is odd. -/
theorem roundUnits_of_near (hden : 0 < den) (hspacing : spacingExponent (num / den) = e)
    (hlow : 2 * (m * 2 ^ e * den) ≤ 2 * num + 2 ^ e * den) (hhigh : 2 * num ≤ 2 * (m * 2 ^ e * den) + 2 ^ e * den)
    (htie : m % 2 = 0 ∨
      (2 * (m * 2 ^ e * den) < 2 * num + 2 ^ e * den ∧ 2 * num < 2 * (m * 2 ^ e * den) + 2 ^ e * den)) :
    roundUnits num den = m * 2 ^ e := by
  rw [roundUnits_of_spacing hspacing]
  have hprod : m * (den * 2 ^ e) = m * 2 ^ e * den := by ring
  rw [roundQuotient_of_near (Nat.mul_pos hden (Nat.two_pow_pos e)) (m := m)] <;> rw [hprod, Nat.mul_comm den]
  · exact hlow
  · exact hhigh
  · exact htie

/-- A representable count of units is rounded to itself. -/
theorem roundUnits_self {units : Nat} (hden : 0 < den) (h : spacing units ∣ units) :
    roundUnits (units * den) den = units := by
  obtain ⟨m, hm, -, -⟩ := exists_significand h
  have hpos : 0 < 2 ^ spacingExponent units * den := Nat.mul_pos (Nat.two_pow_pos _) hden
  conv_rhs => rw [hm]
  apply roundUnits_of_near hden
  · rw [Nat.mul_div_cancel _ hden]
  all_goals rw [← hm]
  · omega
  · omega
  · exact .inr (by omega)

/-- A common factor does not matter to the rounding of counts. -/
theorem roundUnits_scale {k : Nat} (hk : 0 < k) (num den : Nat) : roundUnits (k * num) (k * den) = roundUnits num den := by
  simp only [roundUnits, Nat.mul_div_mul_left _ _ hk, Nat.shiftLeft_eq, Nat.mul_assoc, roundQuotient_scale hk]

/-- Rounding depends on the value of a quotient alone. -/
theorem roundUnits_congr {num' den' : Nat} (hden : 0 < den) (hden' : 0 < den') (h : num * den' = num' * den) :
    roundUnits num den = roundUnits num' den' := by
  rw [← roundUnits_scale hden' num den, ← roundUnits_scale hden num' den', Nat.mul_comm den' num, h, Nat.mul_comm num',
    Nat.mul_comm den' den]

/-- A quotient below one half is rounded to zero. -/
theorem roundUnits_eq_zero (h : 2 * num < den) : roundUnits num den = 0 := by
  have hquot : num / den = 0 := Nat.div_eq_of_lt (by omega)
  rw [roundUnits_of_spacing (e := 0) (by rw [hquot]; rfl), Nat.pow_zero, Nat.mul_one, Nat.mul_one,
    roundQuotient_of_eq 0 num (by omega) (by omega), if_pos h]

/-- A quotient that reaches a power of two is rounded to no less. -/
theorem two_pow_le_roundUnits {p : Nat} (h : 2 ^ p ≤ num / den) : 2 ^ p ≤ roundUnits num den := by
  have hne : num / den ≠ 0 := Nat.ne_of_gt (Nat.lt_of_lt_of_le (Nat.two_pow_pos _) h)
  have hbits : p ≤ (num / den).log2 := (Nat.le_log2 hne).mpr h
  rw [roundUnits_of_spacing rfl]
  have hexp : spacingExponent (num / den) ≤ (num / den).log2 := Nat.sub_le _ _
  calc 2 ^ p
      ≤ 2 ^ (num / den).log2 := Nat.pow_le_pow_right (by decide) hbits
    _ = 2 ^ ((num / den).log2 - spacingExponent (num / den)) * 2 ^ spacingExponent (num / den) := by
        rw [← Nat.pow_add, Nat.sub_add_cancel hexp]
    _ ≤ roundQuotient num (den * 2 ^ spacingExponent (num / den)) * 2 ^ spacingExponent (num / den) := by
        apply Nat.mul_le_mul_right
        refine Nat.le_trans ?_ (le_roundQuotient _ _)
        rw [← Nat.div_div_eq_div_mul, Nat.le_div_iff_mul_le (Nat.two_pow_pos _), ← Nat.pow_add, Nat.sub_add_cancel hexp]
        exact Nat.log2_self_le hne

/-- A quotient that reaches the overflow bound is rounded to no less. -/
theorem overflowUnits_le_roundUnits (h : overflowUnits ≤ num / den) : overflowUnits ≤ roundUnits num den := by
  rw [overflowUnits, Nat.one_shiftLeft] at *
  exact two_pow_le_roundUnits h

end RoundUnits

namespace Double

variable {num den units : Nat}

/-- A quotient is the double of the count that it is rounded to. -/
theorem ofRatio_of_roundUnits (negative : Bool) (fits : Representable units) (h : roundUnits num den = units) :
    ofRatio negative num den = .finite negative units fits := by
  subst h
  exact dif_pos fits.1

/-- A representable count of units is the double that it is rounded to. -/
theorem ofRatio_self (negative : Bool) (fits : Representable units) (hden : 0 < den) :
    ofRatio negative (units * den) den = .finite negative units fits :=
  ofRatio_of_roundUnits negative fits (roundUnits_self hden fits.2)

/-- The double nearest to a quotient depends on its value alone. -/
theorem ofRatio_congr (negative : Bool) {num' den' : Nat} (hden : 0 < den) (hden' : 0 < den')
    (h : num * den' = num' * den) : ofRatio negative num den = ofRatio negative num' den' := by
  unfold ofRatio
  simp only [roundUnits_congr hden hden' h]

/-- A quotient at the overflow bound or beyond it is infinite. -/
theorem ofRatio_of_overflow (negative : Bool) (h : overflowUnits ≤ num / den) :
    ofRatio negative num den = .infinite negative :=
  dif_neg (Nat.not_lt.mpr (overflowUnits_le_roundUnits h))

/-- A quotient below half a unit is zero. -/
theorem ofRatio_of_tiny (negative : Bool) (h : 2 * num < den) : ofRatio negative num den = zero negative :=
  ofRatio_of_roundUnits negative _ (roundUnits_eq_zero h)

/-- A whole number of at most 53 bits is representable. -/
theorem representable_of_whole {n : Nat} (h : n < 2 ^ 53) : Representable (n * unitsPerOne) := by
  have := representable_shiftLeft (m := n) (e := unitExponent) (by rwa [Nat.one_shiftLeft]) (by decide)
  rwa [Nat.shiftLeft_eq, ← Nat.one_shiftLeft] at this

/-- A natural number of at most 53 bits is a double as it is. -/
theorem ofRatio_of_whole (negative : Bool) {n : Nat} (h : n < 2 ^ 53) :
    ofRatio negative (n * unitsPerOne) 1 = .finite negative (n * unitsPerOne) (representable_of_whole h) := by
  have hself := ofRatio_self negative (representable_of_whole h) Nat.one_pos
  rwa [Nat.mul_one] at hself

/-- A natural number of at most 53 bits is a double. -/
theorem ofNat_of_lt {n : Nat} (h : n < 2 ^ 53) :
    ∃ fits, ofNat n = .finite false (n * unitsPerOne) fits :=
  ⟨representable_of_whole h, ofRatio_of_whole false h⟩

/-- The position of such a number is exact. -/
theorem position_ofNat {n : Nat} (h : n < 2 ^ 53) : (ofNat n).position = some (n * unitsPerOne : Nat) := by
  obtain ⟨fits, hn⟩ := ofNat_of_lt h
  rw [hn]
  rfl

/-! ## Sums -/

theorem zero_eq_ofRatio : zero false = ofRatio false 0 1 :=
  (ofRatio_self false (representable_of_lt (by decide)) Nat.one_pos).symm

/-- The sum of two positive numbers is the exact one, rounded. -/
theorem finite_add_finite {a b : Nat} (ha : Representable a) (hb : Representable b) :
    (finite false a ha).add (finite false b hb) = ofRatio false (a + b) 1 := by
  have habs : ((a : Int) + b).natAbs = a + b := by omega
  simp only [add, signed_false, habs]
  by_cases hsum : (a : Int) + b = 0
  · have hzero : a + b = 0 := by omega
    rw [if_pos hsum, hzero]
    exact zero_eq_ofRatio
  · rw [if_neg hsum]
    congr 1

/-- A sum of natural numbers that has at most 53 bits is exact. -/
theorem add_ofNat {m n : Nat} (h : m + n < 2 ^ 53) : (ofNat m).add (ofNat n) = ofNat (m + n) := by
  obtain ⟨fits, hm⟩ := ofNat_of_lt (n := m) (by omega)
  obtain ⟨fits', hn⟩ := ofNat_of_lt (n := n) (by omega)
  rw [hm, hn, finite_add_finite, ← Nat.add_mul]
  rfl

end Double

end ScriptTree

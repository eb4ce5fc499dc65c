import Mathlib.Data.Nat.Dist
import ScriptTree.Proofs.Rounding

/-!
# The nearest double

What it means to be the double nearest to a quotient, said without the rounding: no count of units that a magnitude may be
rounded to is closer (`NearestCount.closest`), and of two that are as close it is the one with the even significand
(`NearestCount.even_of_tie`). There is exactly one, and `Double.ofRatio` finds it (`Double.isNearest_iff`).

That the rounded count is nearest goes by the multiples of the spacing at the quotient: a count that is none of them lies
below the binade of the quotient, and the start of the binade is closer. That it is the only one goes by neighbours: two
counts at the same distance have none between them, so that one of their significands is odd.
-/

namespace ScriptTree

/-- The counts of units that a magnitude may be rounded to: those of the finite doubles, and the overflow bound, which
stands for an infinity. -/
def IsTarget (n : Nat) : Prop := n ≤ overflowUnits ∧ spacing n ∣ n

/-- The distance of a quotient from a count, times the denominator. -/
def offset (num den count : Nat) : Nat := Nat.dist (count * den) num

/-- A count is the nearest one to a quotient, and has an even significand if another one is as near. -/
structure NearestCount (num den count : Nat) : Prop where
  target : IsTarget count
  closest : ∀ other, IsTarget other → offset num den count ≤ offset num den other
  even_of_tie : ∀ other, IsTarget other → other ≠ count → offset num den other = offset num den count →
    count / spacing count % 2 = 0

/-! ## The nearest integer -/

section Offset

variable {num den m k : Nat}

/-- Moving a quotient down moves the counts beside it up. -/
theorem offset_scale (num den m e : Nat) : offset num (den * 2 ^ e) m = offset num den (m * 2 ^ e) := by
  rw [offset, offset, Nat.mul_comm den, Nat.mul_assoc]

/-- Two counts are no further apart than both together from the quotient. -/
theorem dist_mul_le_offset (num den m k : Nat) : Nat.dist m k * den ≤ offset num den m + offset num den k := by
  rw [← Nat.dist_mul_right, offset, offset, Nat.dist_comm (k * den)]
  exact Nat.dist.triangle_inequality _ _ _

/-- A quotient is rounded to an integer at most one half away, and to an even one at one half. -/
theorem roundQuotient_within (num : Nat) (hden : 0 < den) :
    2 * offset num den (roundQuotient num den) ≤ den ∧
      (2 * offset num den (roundQuotient num den) = den → roundQuotient num den % 2 = 0) := by
  have hsplit : num = num / den * den + num % den := (Nat.div_add_mod' num den).symm
  have hlt : num % den < den := Nat.mod_lt num hden
  rw [roundQuotient_of_eq _ _ hsplit hlt]
  unfold offset Nat.dist
  generalize num / den = q at *
  generalize num % den = r at *
  have hsucc : (q + 1) * den = q * den + den := Nat.succ_mul q den
  split
  · omega
  · split
    · omega
    · rcases Nat.mod_two_eq_zero_or_one q with hq | hq
      · rw [hq, Nat.add_zero]
        omega
      · rw [hq]
        omega

/-- An integer at most one half away is as near as any other. -/
theorem offset_le_of_within (h : 2 * offset num den m ≤ den) : offset num den m ≤ offset num den k := by
  by_cases hmk : m = k
  · rw [hmk]
  · have hone : 1 * den ≤ Nat.dist m k * den := Nat.mul_le_mul_right den (Nat.dist_pos_of_ne hmk)
    have hapart := dist_mul_le_offset num den m k
    omega

/-- Only a half is as near to another integer. -/
theorem offset_eq_of_tie (h : 2 * offset num den m ≤ den) (hne : k ≠ m) (htie : offset num den k = offset num den m) :
    2 * offset num den m = den := by
  have hone : 1 * den ≤ Nat.dist m k * den := Nat.mul_le_mul_right den (Nat.dist_pos_of_ne hne.symm)
  have hapart := dist_mul_le_offset num den m k
  omega

end Offset

/-! ## The targets of rounding -/

section Target

variable {num den n m k e : Nat}

/-- A target is a multiple of the spacing of a binade, or lies below the binade. -/
theorem IsTarget.dvd_or_lt (h : IsTarget n) (e : Nat) : 2 ^ e ∣ n ∨ (0 < e ∧ n < 2 ^ (52 + e)) := by
  rcases Nat.lt_or_ge n (2 ^ (52 + e)) with hlt | hge
  · rcases Nat.eq_zero_or_pos e with rfl | he
    · exact .inl (Nat.one_dvd n)
    · exact .inr ⟨he, hlt⟩
  · left
    have hne : n ≠ 0 := by
      have := Nat.two_pow_pos (52 + e)
      omega
    have hlog : 52 + e ≤ n.log2 := (Nat.le_log2 hne).mpr hge
    have hdvd := h.2
    rw [spacing, Nat.one_shiftLeft] at hdvd
    refine Nat.dvd_trans (Nat.pow_dvd_pow 2 ?_) hdvd
    unfold spacingExponent
    omega

/-- The spacing at a count is given by its significand, which has 53 bits unless the count is in the lowest binade. -/
theorem spacing_of_significand (hlt : m < 2 ^ 53) (hge : e = 0 ∨ 2 ^ 52 ≤ m) : spacing (m * 2 ^ e) = 2 ^ e := by
  rw [spacing, Nat.one_shiftLeft, spacingExponent_eq]
  · rw [Nat.pow_add]
    exact Nat.mul_lt_mul_of_pos_right hlt (Nat.two_pow_pos e)
  · refine hge.imp_right fun h => ?_
    rw [Nat.pow_add]
    exact Nat.mul_le_mul_right _ h

/-- The significand of a count in a binade, or at its end, is even if its multiple of the spacing is. -/
theorem significand_mod_two (hle : m ≤ 2 ^ 53) (hge : e = 0 ∨ 2 ^ 52 ≤ m) :
    m * 2 ^ e / spacing (m * 2 ^ e) % 2 = m % 2 := by
  rcases Nat.lt_or_eq_of_le hle with hlt | rfl
  · rw [spacing_of_significand hlt hge, Nat.mul_div_cancel _ (Nat.two_pow_pos e)]
  · -- the end of a binade is the start of the next one, with twice the spacing
    have hnext : 2 ^ 53 * 2 ^ e = 2 ^ 52 * 2 ^ (e + 1) := by ring
    rw [hnext, spacing_of_significand (by decide) (.inr (Nat.le_refl _)), Nat.mul_div_cancel _ (Nat.two_pow_pos _)]
    decide

/-- The overflow bound is the end of the highest binade. -/
theorem overflowUnits_eq : overflowUnits = 2 ^ 53 * 2 ^ (magnitudeBits - 53) := by
  have hbits : 53 + (magnitudeBits - 53) = magnitudeBits := by decide
  rw [← Nat.pow_add, hbits, overflowUnits, Nat.one_shiftLeft]

/-- A significand that is moved up is a target unless it goes beyond the overflow bound. -/
theorem isTarget_of_significand (hm : m ≤ 2 ^ 53) (hfit : m * 2 ^ e ≤ overflowUnits) : IsTarget (m * 2 ^ e) := by
  have hdvd := spacing_dvd_shiftLeft (m := m) (by rwa [Nat.one_shiftLeft]) e
  rw [Nat.shiftLeft_eq] at hdvd
  exact ⟨hfit, hdvd⟩

/-- The overflow bound is a target itself, which stands for the infinity. -/
theorem isTarget_overflowUnits : IsTarget overflowUnits := by
  have h : IsTarget (2 ^ 53 * 2 ^ (magnitudeBits - 53)) := isTarget_of_significand (Nat.le_refl _) overflowUnits_eq.ge
  rwa [← overflowUnits_eq] at h

/-- The binade of a quotient: it is where the significands of 53 bits are. -/
theorem binade_of_spacingExponent (num den : Nat) :
    num / den < 2 ^ (53 + spacingExponent (num / den)) ∧
      (spacingExponent (num / den) = 0 ∨ 2 ^ (52 + spacingExponent (num / den)) ≤ num / den) := by
  generalize num / den = q
  by_cases h0 : q = 0
  · rw [h0]
    decide
  · constructor
    · rw [← Nat.log2_lt h0]
      unfold spacingExponent
      omega
    · by_cases he : spacingExponent q = 0
      · exact .inl he
      · right
        rw [← Nat.le_log2 h0]
        unfold spacingExponent at he ⊢
        omega

/-- The multiple of the spacing that a quotient is rounded to lies in the binade of the quotient, or at its end. -/
theorem roundQuotient_binade (num den : Nat) :
    let e := spacingExponent (num / den)
    roundQuotient num (den * 2 ^ e) ≤ 2 ^ 53 ∧ (e = 0 ∨ 2 ^ 52 ≤ roundQuotient num (den * 2 ^ e)) := by
  intro e
  obtain ⟨hlt, hge⟩ := binade_of_spacingExponent num den
  have hpos := Nat.two_pow_pos e
  have hlow := le_roundQuotient num (den * 2 ^ e)
  have hhigh := roundQuotient_le num (den * 2 ^ e)
  rw [← Nat.div_div_eq_div_mul] at hlow hhigh
  constructor
  · have hquot : num / den / 2 ^ e < 2 ^ 53 := by rwa [Nat.div_lt_iff_lt_mul hpos, ← Nat.pow_add]
    omega
  · refine hge.imp_right fun h => Nat.le_trans ?_ hlow
    rwa [Nat.le_div_iff_mul_le hpos, ← Nat.pow_add]

end Target

/-! ## The nearest count -/

section Nearest

variable {num den m m' : Nat}

/-- A count that is rounded to is the nearest one, unless it is too large. -/
theorem nearestCount_roundUnits (hden : 0 < den) (hfit : roundUnits num den ≤ overflowUnits) :
    NearestCount num den (roundUnits num den) := by
  obtain ⟨hle, hge⟩ := roundQuotient_binade num den
  obtain ⟨-, hbinade⟩ := binade_of_spacingExponent num den
  obtain ⟨hwithin, heven⟩ := roundQuotient_within num (Nat.mul_pos hden (Nat.two_pow_pos (spacingExponent (num / den))))
  rw [roundUnits_of_spacing rfl] at hfit ⊢
  generalize spacingExponent (num / den) = e at *
  generalize roundQuotient num (den * 2 ^ e) = q at *
  -- another target is a multiple of the spacing, or further away than the start of the binade
  have hother (n : Nat) (hn : IsTarget n) :
      (∃ k, n = k * 2 ^ e) ∨ offset num den (q * 2 ^ e) < offset num den n := by
    rcases hn.dvd_or_lt e with ⟨k, hk⟩ | ⟨he, hlt⟩
    · exact .inl ⟨k, by rw [hk, Nat.mul_comm]⟩
    · right
      have hstart : 2 ^ 52 * 2 ^ e ≤ num / den := by
        rw [← Nat.pow_add]
        exact hbinade.resolve_left (Nat.ne_of_gt he)
      have hnum : 2 ^ 52 * 2 ^ e * den ≤ num := (Nat.le_div_iff_mul_le hden).mp hstart
      have hbelow : n * den < 2 ^ 52 * 2 ^ e * den := Nat.mul_lt_mul_of_pos_right (by rwa [← Nat.pow_add]) hden
      have hnear := offset_le_of_within (k := 2 ^ 52) hwithin
      rw [offset_scale, offset_scale] at hnear
      refine Nat.lt_of_le_of_lt hnear ?_
      unfold offset Nat.dist
      omega
  refine ⟨isTarget_of_significand hle hfit, ?_, ?_⟩
  · intro n hn
    rcases hother n hn with ⟨k, rfl⟩ | hlt
    · rw [← offset_scale, ← offset_scale]
      exact offset_le_of_within hwithin
    · exact hlt.le
  · intro n hn hne htie
    rcases hother n hn with ⟨k, rfl⟩ | hlt
    · rw [significand_mod_two hle hge]
      rw [← offset_scale, ← offset_scale] at htie
      refine heven (offset_eq_of_tie hwithin ?_ htie)
      rintro rfl
      exact hne rfl
    · omega

/-- Only a quotient beyond the overflow bound is rounded to a count beyond it. -/
theorem overflowUnits_le_of_lt_roundUnits (h : overflowUnits < roundUnits num den) :
    overflowUnits ≤ num / den := by
  obtain ⟨hle, -⟩ := roundQuotient_binade num den
  by_contra hlt
  rw [Nat.not_le, overflowUnits, Nat.one_shiftLeft] at hlt
  have hexp : spacingExponent (num / den) ≤ magnitudeBits - 53 := by
    by_cases h0 : num / den = 0
    · rw [h0]
      decide
    · have hlog : (num / den).log2 < magnitudeBits := (Nat.log2_lt h0).mpr hlt
      unfold spacingExponent
      omega
  refine absurd h (Nat.not_lt.mpr ?_)
  rw [roundUnits_of_spacing rfl, overflowUnits_eq]
  exact Nat.mul_le_mul hle (Nat.pow_le_pow_right (by decide) hexp)

/-- Beyond the overflow bound no target is as near as that one. -/
theorem nearestCount_overflow (hden : 0 < den) (h : overflowUnits ≤ num / den) : NearestCount num den overflowUnits := by
  have hnum : overflowUnits * den ≤ num := (Nat.le_div_iff_mul_le hden).mp h
  refine ⟨isTarget_overflowUnits, ?_, ?_⟩
  · intro n hn
    have hle : n * den ≤ overflowUnits * den := Nat.mul_le_mul_right den hn.1
    unfold offset Nat.dist
    omega
  · intro n hn hne htie
    have hlt : n * den < overflowUnits * den :=
      Nat.mul_lt_mul_of_pos_right (Nat.lt_of_le_of_ne hn.1 hne) hden
    unfold offset Nat.dist at htie
    omega

/-- Every quotient has a nearest count: the one that it is rounded to, cut off at the overflow bound. -/
theorem nearestCount_min (num : Nat) (hden : 0 < den) : NearestCount num den (min (roundUnits num den) overflowUnits) := by
  rcases Nat.lt_or_ge overflowUnits (roundUnits num den) with hover | hfit
  · rw [Nat.min_eq_right hover.le]
    exact nearestCount_overflow hden (overflowUnits_le_of_lt_roundUnits hover)
  · rw [Nat.min_eq_left hfit]
    exact nearestCount_roundUnits hden hfit

/-- Of two counts that are both nearest none is smaller: its upper neighbour would be nearer, or odd. -/
theorem NearestCount.not_lt (hden : 0 < den) (h : NearestCount num den m) (h' : NearestCount num den m') : ¬m < m' := by
  intro hlt
  have htie : offset num den m = offset num den m' := Nat.le_antisymm (h.closest m' h'.target) (h'.closest m h.target)
  have heven := h.even_of_tie m' h'.target (Nat.ne_of_gt hlt) htie.symm
  have heven' := h'.even_of_tie m h.target (Nat.ne_of_lt hlt) htie
  obtain ⟨k, hm, hk, hge⟩ := exists_significand h.target.2
  generalize spacingExponent m = e at *
  have hpos := Nat.two_pow_pos e
  -- the larger count is a multiple of the spacing at the smaller one too
  obtain ⟨k', rfl⟩ : ∃ k', m' = k' * 2 ^ e := by
    rcases h'.target.dvd_or_lt e with ⟨k', hk'⟩ | ⟨he, hlow⟩
    · exact ⟨k', by rw [hk', Nat.mul_comm]⟩
    · have hbinade : 2 ^ 52 * 2 ^ e ≤ k * 2 ^ e := Nat.mul_le_mul_right _ (hge.resolve_left (Nat.ne_of_gt he))
      rw [Nat.pow_add] at hlow
      omega
  subst hm
  have hkk : k + 1 ≤ k' := Nat.lt_of_mul_lt_mul_right hlt
  rw [significand_mod_two hk.le hge] at heven
  have hge' : e = 0 ∨ 2 ^ 52 ≤ k + 1 := hge.imp_right fun h => Nat.le_succ_of_le h
  rcases Nat.lt_or_eq_of_le hkk with hfar | rfl
  · -- the upper neighbour lies between the two
    have hlow : k * 2 ^ e * den < (k + 1) * 2 ^ e * den :=
      Nat.mul_lt_mul_of_pos_right (Nat.mul_lt_mul_of_pos_right (Nat.lt_succ_self k) hpos) hden
    have hhigh : (k + 1) * 2 ^ e * den < k' * 2 ^ e * den :=
      Nat.mul_lt_mul_of_pos_right (Nat.mul_lt_mul_of_pos_right hfar hpos) hden
    have hfit : (k + 1) * 2 ^ e ≤ overflowUnits :=
      Nat.le_trans (Nat.mul_le_mul_right _ hfar.le) h'.target.1
    have hnear := h.closest ((k + 1) * 2 ^ e) (isTarget_of_significand hk hfit)
    unfold offset Nat.dist at htie hnear
    omega
  · rw [significand_mod_two hk hge'] at heven'
    omega

/-- Two counts that are both nearest are the same, since a tie goes to one of them. -/
theorem NearestCount.unique (hden : 0 < den) (h : NearestCount num den m) (h' : NearestCount num den m') : m = m' :=
  Nat.le_antisymm (Nat.not_lt.mp (h'.not_lt hden h)) (Nat.not_lt.mp (h.not_lt hden h'))

end Nearest

namespace Double

/-- A number is the double nearest to `num / den`, a tie going to the even significand: infinity takes the place of the count
that is too large for a finite one. -/
inductive IsNearest (num den : Nat) : Double → Prop
  | infinite (h : NearestCount (num * unitsPerOne) den overflowUnits) : IsNearest num den (.infinite false)
  | finite {units : Nat} (fits : Representable units) (h : NearestCount (num * unitsPerOne) den units) :
    IsNearest num den (.finite false units fits)

/-- There is one nearest double, and it is the one that a quotient is rounded to. -/
theorem isNearest_iff {x : Double} {num den : Nat} (hden : 0 < den) :
    IsNearest num den x ↔ x = ofRatio false (num * unitsPerOne) den := by
  have hnearest := nearestCount_min (num * unitsPerOne) hden
  have hunique {count : Nat} :
      NearestCount (num * unitsPerOne) den count ↔ count = min (roundUnits (num * unitsPerOne) den) overflowUnits := by
    constructor
    · intro h
      exact h.unique hden hnearest
    · rintro rfl
      exact hnearest
  rcases Nat.lt_or_ge (roundUnits (num * unitsPerOne) den) overflowUnits with hfinite | hover
  · have hfits : Representable (roundUnits (num * unitsPerOne) den) := ⟨hfinite, spacing_dvd_roundUnits _ _⟩
    rw [Nat.min_eq_left hfinite.le] at hunique
    rw [ofRatio_of_roundUnits false hfits rfl]
    constructor
    · rintro (h | ⟨fits, h⟩)
      · exact absurd (hunique.mp h) (Nat.ne_of_gt hfinite)
      · rw [finite.injEq]
        exact ⟨rfl, hunique.mp h⟩
    · rintro rfl
      exact .finite hfits (hunique.mpr rfl)
  · rw [Nat.min_eq_right hover] at hunique
    rw [ofRatio, dif_neg (Nat.not_lt.mpr hover)]
    constructor
    · rintro (h | ⟨fits, h⟩)
      · rfl
      · exact absurd (hunique.mp h) (Nat.ne_of_lt fits.1)
    · rintro rfl
      exact .infinite (hunique.mpr rfl)

end Double

end ScriptTree

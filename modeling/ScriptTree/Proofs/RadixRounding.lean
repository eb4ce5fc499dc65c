import Mathlib.Data.Nat.Log
import ScriptTree.Double.OfText
import ScriptTree.Proofs.IntegerTexts
import ScriptTree.Proofs.NearestDouble

/-!
# Radix numerals as doubles

The number of a radix numeral is accumulated in doubles, digit by digit. All goes well up to the first prefix of more than
53 bits, which is rounded once; a digit behind it is less than half the spacing that is left and is dropped. So the result is
the rounding of that prefix, moved to its place (`ofDigits_eq`). It is the nearest double unless the prefix is half-way
between two doubles, goes to the lower one as the even one, and a digit that is dropped is not zero
(`radix_text_nearest_iff`).
-/

namespace ScriptTree

namespace Double

variable {num den n k d : Nat}

theorem ofNat_eq_ofRatio (n : Nat) : ofNat n = ofRatio false (n * unitsPerOne) 1 := rfl

/-- A quotient in a full binade may be doubled before it is rounded or after. -/
theorem roundUnits_mul_two_pow (h : 2 ^ 52 ≤ num / den) (k : Nat) :
    roundUnits (num * 2 ^ k) den = roundUnits num den * 2 ^ k := by
  have hden : 0 < den := by
    rcases Nat.eq_zero_or_pos den with rfl | hpos
    · simp at h
    · exact hpos
  have hpos := Nat.two_pow_pos k
  obtain ⟨hlt, hge⟩ := binade_of_spacingExponent num den
  have hfull : 2 ^ (52 + spacingExponent (num / den)) ≤ num / den := by
    rcases hge with he | hge
    · rw [he]
      exact h
    · exact hge
  have hround : roundUnits num den = _ := roundUnits_of_spacing rfl
  rw [hround]
  generalize spacingExponent (num / den) = e at *
  have hspacing : spacingExponent (num * 2 ^ k / den) = e + k := by
    refine spacingExponent_eq ?_ (.inr ?_)
    · rw [Nat.div_lt_iff_lt_mul hden] at hlt ⊢
      calc num * 2 ^ k < 2 ^ (53 + e) * den * 2 ^ k := Nat.mul_lt_mul_of_pos_right hlt hpos
        _ = 2 ^ (53 + (e + k)) * den := by rw [← Nat.add_assoc, Nat.pow_add 2 (53 + e)]; ring
    · rw [Nat.le_div_iff_mul_le hden] at hfull ⊢
      calc 2 ^ (52 + (e + k)) * den = 2 ^ (52 + e) * den * 2 ^ k := by
            rw [← Nat.add_assoc, Nat.pow_add 2 (52 + e)]; ring
        _ ≤ num * 2 ^ k := Nat.mul_le_mul_right _ hfull
  have hscale : roundQuotient (num * 2 ^ k) (den * 2 ^ (e + k)) = roundQuotient num (den * 2 ^ e) := by
    rw [← roundQuotient_scale hpos num, Nat.mul_comm num, Nat.pow_add]
    congr 1
    ring
  rw [roundUnits_of_spacing hspacing, hscale, Nat.pow_add, Nat.mul_assoc]

/-- Quotients that are rounded to the same count are the same double. -/
theorem ofRatio_congr_roundUnits (negative : Bool) {num' den' : Nat} (h : roundUnits num den = roundUnits num' den') :
    ofRatio negative num den = ofRatio negative num' den' := by
  unfold ofRatio
  simp only [h]

/-! ## One step of the accumulation -/

/-- A product with a power of two is the exact one, rounded. -/
theorem finite_mul_two_pow {a : Nat} (ha : Representable a) (hk : 2 ^ k < 2 ^ 53) :
    (finite false a ha).mul (ofNat (2 ^ k)) = ofRatio false (a * 2 ^ k) 1 := by
  obtain ⟨fits, hpower⟩ := ofNat_of_lt hk
  rw [hpower]
  show ofRatio false (a * (2 ^ k * unitsPerOne)) unitsPerOne = _
  refine ofRatio_congr false ?_ Nat.one_pos ?_
  · rw [unitsPerOne_eq]
    exact Nat.two_pow_pos _
  · ring

/-- Infinity stays what it is when the accumulation goes on. -/
theorem infinite_mul_add (hk : 2 ^ k < 2 ^ 53) (hd : d < 2 ^ 53) :
    ((infinite false).mul (ofNat (2 ^ k))).add (ofNat d) = infinite false := by
  obtain ⟨fits, hpower⟩ := ofNat_of_lt hk
  obtain ⟨dfits, hdigit⟩ := ofNat_of_lt hd
  have hne : 2 ^ k * unitsPerOne ≠ 0 := by
    rw [unitsPerOne_eq, ← Nat.pow_add]
    exact Nat.ne_of_gt (Nat.two_pow_pos _)
  rw [hpower, hdigit, mul, if_neg hne]
  rfl

/-- A number of more than 53 bits and a power of two times it are rounded alike. -/
theorem roundUnits_ofNat_mul (h : 2 ^ 53 ≤ n) (k : Nat) :
    roundUnits (n * 2 ^ k * unitsPerOne) 1 = roundUnits (n * unitsPerOne) 1 * 2 ^ k := by
  rw [Nat.mul_right_comm]
  apply roundUnits_mul_two_pow
  rw [Nat.div_one, unitsPerOne_eq]
  have hn : 2 ^ 52 ≤ n := Nat.le_trans (Nat.pow_le_pow_right (by decide) (by decide)) h
  exact Nat.le_trans hn (Nat.le_mul_of_pos_right n (Nat.two_pow_pos _))

/-- A digit is less than half the spacing at a number of more than 53 bits, once that has made room for it. -/
theorem roundUnits_add_digit {units : Nat} (hspacing : spacing units ∣ units) (hlarge : 2 ^ (53 + unitExponent) ≤ units)
    (hd : d < 2 ^ k) : roundUnits (units * 2 ^ k + d * unitsPerOne) 1 = units * 2 ^ k := by
  obtain ⟨m, hm, hlt, hge⟩ := exists_significand hspacing
  generalize spacingExponent units = e at *
  subst hm
  have he : unitExponent < e := by
    by_contra hle
    have hsmall : m * 2 ^ e < 2 ^ 53 * 2 ^ e := Nat.mul_lt_mul_of_pos_right hlt (Nat.two_pow_pos e)
    have hmono : 2 ^ 53 * 2 ^ e ≤ 2 ^ (53 + unitExponent) := by
      rw [← Nat.pow_add]
      exact Nat.pow_le_pow_right (by decide) (by omega)
    omega
  have hfull : 2 ^ 52 ≤ m := hge.resolve_left (by omega)
  have hdigit : 2 * (d * unitsPerOne) < 2 ^ (e + k) := by
    calc 2 * (d * unitsPerOne) < 2 * (2 ^ k * unitsPerOne) := by
          have hpos : 0 < unitsPerOne := by rw [unitsPerOne_eq]; exact Nat.two_pow_pos _
          exact Nat.mul_lt_mul_of_pos_left (Nat.mul_lt_mul_of_pos_right hd hpos) Nat.two_pos
      _ = 2 ^ (unitExponent + 1 + k) := by rw [unitsPerOne_eq]; ring
      _ ≤ 2 ^ (e + k) := Nat.pow_le_pow_right (by decide) (by omega)
  have hsplit : m * 2 ^ e * 2 ^ k = m * 2 ^ (e + k) := by rw [Nat.mul_assoc, ← Nat.pow_add]
  rw [hsplit]
  have hend : m * 2 ^ (e + k) + 2 ^ (e + k) ≤ 2 ^ (53 + (e + k)) := by
    calc m * 2 ^ (e + k) + 2 ^ (e + k) = (m + 1) * 2 ^ (e + k) := (Nat.succ_mul m _).symm
      _ ≤ 2 ^ 53 * 2 ^ (e + k) := Nat.mul_le_mul_right _ hlt
      _ = 2 ^ (53 + (e + k)) := (Nat.pow_add 2 53 _).symm
  have hstart : 2 ^ (52 + (e + k)) ≤ m * 2 ^ (e + k) := by
    rw [Nat.pow_add]
    exact Nat.mul_le_mul_right _ hfull
  apply roundUnits_of_near Nat.one_pos
  · rw [Nat.div_one]
    exact spacingExponent_eq (by omega) (.inr (by omega))
  all_goals rw [Nat.mul_one]
  · omega
  · omega
  · exact .inr (by omega)

/-- A digit that is added to a number of more than 53 bits is lost, once that has made room for it. -/
theorem ofRatio_add_digit {units : Nat} (hspacing : spacing units ∣ units) (hlarge : 2 ^ (53 + unitExponent) ≤ units)
    (hk : 2 ^ k < 2 ^ 53) (hd : d < 2 ^ k) :
    (ofRatio false (units * 2 ^ k) 1).add (ofNat d) = ofRatio false (units * 2 ^ k) 1 := by
  obtain ⟨dfits, hdigit⟩ := ofNat_of_lt (Nat.lt_trans hd hk)
  have hround := roundUnits_add_digit hspacing hlarge hd
  have hself : roundUnits (units * 2 ^ k) 1 = units * 2 ^ k := by
    have hzero := roundUnits_add_digit hspacing hlarge (Nat.two_pow_pos k)
    rwa [Nat.zero_mul, Nat.add_zero] at hzero
  rw [hdigit]
  rcases Nat.lt_or_ge (units * 2 ^ k) overflowUnits with hfinite | hover
  · have fits : Representable (units * 2 ^ k) := ⟨hfinite, by rw [← hself]; exact spacing_dvd_roundUnits _ _⟩
    rw [ofRatio_of_roundUnits false fits hself, finite_add_finite, ofRatio_of_roundUnits false fits hround]
  · rw [ofRatio_of_overflow false (by rwa [Nat.div_one])]
    rfl

/-- Beyond 53 bits a multiplication by a power of two is exact, and a digit that is added is lost. -/
theorem ofNat_mul_add (h : 2 ^ 53 ≤ n) (hk : 2 ^ k < 2 ^ 53) (hd : d < 2 ^ k) :
    ((ofNat n).mul (ofNat (2 ^ k))).add (ofNat d) = ofNat (n * 2 ^ k) := by
  have hspacing := spacing_dvd_roundUnits (n * unitsPerOne) 1
  have hlarge : 2 ^ (53 + unitExponent) ≤ roundUnits (n * unitsPerOne) 1 := by
    apply two_pow_le_roundUnits
    rw [Nat.div_one, unitsPerOne_eq, Nat.pow_add]
    exact Nat.mul_le_mul_right _ h
  -- a product rounds to the product of what its factor rounds to
  have hproduct : ofNat (n * 2 ^ k) = ofRatio false (roundUnits (n * unitsPerOne) 1 * 2 ^ k) 1 := by
    refine ofRatio_congr_roundUnits false ?_
    have hself := roundUnits_add_digit hspacing hlarge (Nat.two_pow_pos k)
    rw [Nat.zero_mul, Nat.add_zero] at hself
    rw [roundUnits_ofNat_mul h, hself]
  rw [hproduct]
  rcases Nat.lt_or_ge (roundUnits (n * unitsPerOne) 1) overflowUnits with hfinite | hover
  · have fits : Representable (roundUnits (n * unitsPerOne) 1) := ⟨hfinite, hspacing⟩
    rw [ofNat_eq_ofRatio n, ofRatio_of_roundUnits false fits rfl, finite_mul_two_pow fits hk]
    exact ofRatio_add_digit hspacing hlarge hk hd
  · have hn : ofNat n = infinite false := dif_neg (Nat.not_lt.mpr hover)
    have hlarger : overflowUnits ≤ roundUnits (n * unitsPerOne) 1 * 2 ^ k / 1 := by
      rw [Nat.div_one]
      exact Nat.le_trans hover (Nat.le_mul_of_pos_right _ (Nat.two_pow_pos k))
    rw [hn, infinite_mul_add hk (Nat.lt_trans hd hk), ofRatio_of_overflow false hlarger]

/-- A number of at most 53 bits is multiplied exactly, and the sum with a digit is rounded. -/
theorem ofNat_mul_add_of_lt (h : n < 2 ^ 53) (hk : k ≤ 52) (hd : d < 2 ^ k) :
    ((ofNat n).mul (ofNat (2 ^ k))).add (ofNat d) = ofNat (n * 2 ^ k + d) := by
  have hk' : 2 ^ k < 2 ^ 53 := Nat.pow_lt_pow_right (by decide) (by omega)
  obtain ⟨fits, hn⟩ := ofNat_of_lt h
  obtain ⟨dfits, hdigit⟩ := ofNat_of_lt (Nat.lt_trans hd hk')
  have hexact : Representable (n * unitsPerOne * 2 ^ k) := by
    have hshift := representable_shiftLeft (m := n) (e := unitExponent + k) (by rwa [Nat.one_shiftLeft])
      (by unfold unitExponent; omega)
    rwa [Nat.shiftLeft_eq, Nat.pow_add, ← Nat.mul_assoc, ← unitsPerOne_eq] at hshift
  have hself := ofRatio_self false hexact Nat.one_pos
  rw [Nat.mul_one] at hself
  rw [hn, hdigit, finite_mul_two_pow fits hk', hself, finite_add_finite, ofNat_eq_ofRatio, Nat.add_mul, Nat.mul_right_comm]

end Double

/-! ## The whole accumulation -/

namespace Radix

variable {radix v n d k : Nat}

/-- How many of the last digits of a number have no influence on its rounding: those behind the first prefix of more than 53
bits. -/
def droppedDigits (radix v : Nat) : Nat := Nat.log radix (v / 2 ^ 53)

/-- What the other digits stand for. -/
def keptValue (radix v : Nat) : Nat := v / radix ^ droppedDigits radix v

/-- The number with zeros for the digits that have no influence. -/
def cutValue (radix v : Nat) : Nat := keptValue radix v * radix ^ droppedDigits radix v

/-- A number of at most 53 bits before its last digit keeps all its digits. -/
theorem droppedDigits_of_lt (h : v < radix * 2 ^ 53) : droppedDigits radix v = 0 := by
  rw [droppedDigits, Nat.log_eq_zero_iff]
  exact .inl ((Nat.div_lt_iff_lt_mul (Nat.two_pow_pos 53)).mpr h)

/-- A number of at most 53 bits before its last digit is not cut. -/
theorem cutValue_of_lt (h : v < radix * 2 ^ 53) : cutValue radix v = v := by
  rw [cutValue, keptValue, droppedDigits_of_lt h, Nat.pow_zero, Nat.div_one, Nat.mul_one]

/-- A number of more than 53 bits loses every digit that follows. -/
theorem droppedDigits_append (hr : 1 < radix) (hn : 2 ^ 53 ≤ n) (hd : d < radix) :
    droppedDigits radix (n * radix + d) = droppedDigits radix n + 1 := by
  have hquot : (n * radix + d) / radix = n := by
    rw [Nat.mul_comm, Nat.mul_add_div (by omega), Nat.div_eq_of_lt hd, Nat.add_zero]
  have hle : radix ≤ (n * radix + d) / 2 ^ 53 := by
    rw [Nat.le_div_iff_mul_le (Nat.two_pow_pos 53), Nat.mul_comm]
    exact Nat.le_add_right_of_le (Nat.mul_le_mul_right radix hn)
  rw [droppedDigits, Nat.log_of_one_lt_of_le hr hle, Nat.div_div_eq_div_mul, Nat.mul_comm (2 ^ 53),
    ← Nat.div_div_eq_div_mul, hquot, droppedDigits]

/-- The digits that are kept stay the same from there on. -/
theorem keptValue_append (hr : 1 < radix) (hn : 2 ^ 53 ≤ n) (hd : d < radix) :
    keptValue radix (n * radix + d) = keptValue radix n := by
  have hquot : (n * radix + d) / radix = n := by
    rw [Nat.mul_comm, Nat.mul_add_div (by omega), Nat.div_eq_of_lt hd, Nat.add_zero]
  rw [keptValue, droppedDigits_append hr hn hd, Nat.pow_succ', ← Nat.div_div_eq_div_mul, hquot, keptValue]

/-- Only zeros come after them. -/
theorem cutValue_append (hr : 1 < radix) (hn : 2 ^ 53 ≤ n) (hd : d < radix) :
    cutValue radix (n * radix + d) = cutValue radix n * radix := by
  rw [cutValue, keptValue_append hr hn hd, droppedDigits_append hr hn hd, Nat.pow_succ, ← Nat.mul_assoc, cutValue]

/-- The digits that are kept have more than 53 bits. -/
theorem le_keptValue (hr : 0 < radix) (hn : 2 ^ 53 ≤ n) : 2 ^ 53 ≤ keptValue radix n := by
  have hne : n / 2 ^ 53 ≠ 0 := Nat.ne_of_gt (Nat.div_pos hn (Nat.two_pow_pos 53))
  have hpow : radix ^ droppedDigits radix n ≤ n / 2 ^ 53 := Nat.pow_log_le_self radix hne
  rw [keptValue, Nat.le_div_iff_mul_le (Nat.pow_pos hr), Nat.mul_comm]
  exact (Nat.le_div_iff_mul_le (Nat.two_pow_pos 53)).mp hpow

/-- One more digit is multiplied in and added, or lost. -/
theorem accumulate_digit (hk : 0 < k ∧ k ≤ 52) (hd : d < 2 ^ k) :
    ((Double.ofNat (cutValue (2 ^ k) n)).mul (.ofNat (2 ^ k))).add (.ofNat d) =
      .ofNat (cutValue (2 ^ k) (n * 2 ^ k + d)) := by
  have hr : 1 < 2 ^ k := Nat.one_lt_two_pow (by omega)
  rcases Nat.lt_or_ge n (2 ^ 53) with hlt | hge
  · have hn : n < 2 ^ k * 2 ^ 53 := Nat.lt_of_lt_of_le hlt (Nat.le_mul_of_pos_left _ (Nat.two_pow_pos k))
    have hsum : n * 2 ^ k + d < 2 ^ k * 2 ^ 53 := by
      calc n * 2 ^ k + d < n * 2 ^ k + 2 ^ k := Nat.add_lt_add_left hd _
        _ = (n + 1) * 2 ^ k := (Nat.succ_mul n _).symm
        _ ≤ 2 ^ 53 * 2 ^ k := Nat.mul_le_mul_right _ hlt
        _ = 2 ^ k * 2 ^ 53 := Nat.mul_comm _ _
    rw [cutValue_of_lt hn, cutValue_of_lt hsum]
    exact Double.ofNat_mul_add_of_lt hlt hk.2 hd
  · have hcut : 2 ^ 53 ≤ cutValue (2 ^ k) n :=
      Nat.le_trans (le_keptValue (by omega) hge) (Nat.le_mul_of_pos_right _ (Nat.pow_pos (by omega)))
    rw [cutValue_append hr hge hd]
    exact Double.ofNat_mul_add hcut (Nat.pow_lt_pow_right (by decide) (by omega)) hd

/-- Digits are accumulated to the rounding of the number without the digits that have no influence. -/
theorem accumulate_digits (hk : 0 < k ∧ k ≤ 52) (ds : List Nat) (hds : ∀ d ∈ ds, d < 2 ^ k) :
    ds.foldl (fun sum digit => (sum.mul (.ofNat (2 ^ k))).add (.ofNat digit)) (Double.ofNat (cutValue (2 ^ k) n)) =
      .ofNat (cutValue (2 ^ k) (ds.foldl (fun n digit => n * 2 ^ k + digit) n)) := by
  induction ds generalizing n with
  | nil => rw [List.foldl_nil, List.foldl_nil]
  | cons d ds ih =>
    rw [List.forall_mem_cons] at hds
    rw [List.foldl_cons, List.foldl_cons, accumulate_digit hk hds.1, ih hds.2]

/-- Accumulating digits rounds the cut number, and this is its only rounding. -/
theorem ofDigits_eq (hk : 0 < k ∧ k ≤ 52) (ds : List Nat) (hds : ∀ d ∈ ds, d < 2 ^ k) :
    Double.ofDigits (2 ^ k) ds = .ofNat (cutValue (2 ^ k) (value (2 ^ k) ds)) := by
  have hzero : Double.zero false = .ofNat (cutValue (2 ^ k) 0) := by
    rw [cutValue_of_lt (Nat.mul_pos (Nat.two_pow_pos k) (Nat.two_pow_pos 53)), Double.ofNat_eq_ofRatio, Nat.zero_mul,
      ← Double.zero_eq_ofRatio]
  rw [Double.ofDigits, hzero, accumulate_digits hk ds hds, value]

end Radix

/-! ## The half-way case -/

/-- Of a number whose last digits are cut off, only one that the cut brings down to a half, and the rounding down to an even
quotient, is rounded to another quotient than before. -/
theorem roundQuotient_cut {a r R D : Nat} (hD : D % 2 = 0) (hpos : 0 < D) (hr : r < R) :
    roundQuotient (a * R + r) (R * D) =
      if 2 * (a % (2 * D)) = D ∧ r ≠ 0 then roundQuotient a D + 1 else roundQuotient a D := by
  have hsplit : a = a / D * D + a % D := (Nat.div_add_mod' a D).symm
  have hlt : a % D < D := Nat.mod_lt a hpos
  have hmod : a % (2 * D) = a % D + D * (a / D % 2) := by rw [Nat.mul_comm 2, Nat.mod_mul]
  have hodd : D * (a / D % 2) = if a / D % 2 = 0 then 0 else D := by
    rcases Nat.mod_two_eq_zero_or_one (a / D) with h | h <;> simp [h]
  rw [hmod, hodd]
  generalize a / D = q at *
  generalize a % D = t at *
  have hscaled : a * R + r = q * (R * D) + (t * R + r) := by rw [hsplit]; ring
  have hsmall : t * R + r < R * D := by
    calc t * R + r < t * R + R := Nat.add_lt_add_left hr _
      _ = (t + 1) * R := (Nat.succ_mul t R).symm
      _ ≤ D * R := Nat.mul_le_mul_right R hlt
      _ = R * D := Nat.mul_comm D R
  rw [roundQuotient_of_eq q (t * R + r) hscaled hsmall, roundQuotient_of_eq q t hsplit hlt]
  rcases Nat.lt_trichotomy (2 * t) D with hbelow | hhalf | habove
  · -- below the half nothing that is cut off reaches it
    have hgap : (2 * t + 2) * R ≤ R * D := by rw [Nat.mul_comm R]; exact Nat.mul_le_mul_right R (by omega)
    rw [Nat.add_mul, Nat.mul_assoc] at hgap
    have hnot : ¬(2 * (t + if q % 2 = 0 then 0 else D) = D ∧ r ≠ 0) := by split <;> omega
    rw [if_neg hnot, if_pos hbelow, if_pos (by omega)]
  · -- at the half what is cut off decides, where the quotient does not go up anyway
    have hexact : 2 * (t * R) = R * D := by rw [← hhalf]; ring
    rw [if_neg (by omega : ¬2 * t < D), if_neg (by omega : ¬D < 2 * t)]
    rcases Nat.eq_zero_or_pos r with rfl | hr0
    · rw [if_neg (by omega), if_neg (by omega), if_neg (by omega)]
    · rw [if_neg (by omega), if_pos (by omega)]
      rcases Nat.mod_two_eq_zero_or_one q with hq | hq
      · rw [if_pos ⟨by rw [if_pos hq]; omega, by omega⟩, hq]
      · rw [if_neg (by rw [if_neg (by omega)]; omega), hq]
  · -- above the half so is what was cut off
    have hgap : (D + 1) * R ≤ 2 * t * R := Nat.mul_le_mul_right R habove
    rw [Nat.add_mul, Nat.mul_assoc, Nat.mul_comm D] at hgap
    have hnot : ¬(2 * (t + if q % 2 = 0 then 0 else D) = D ∧ r ≠ 0) := by split <;> omega
    rw [if_neg hnot, if_neg (by omega), if_pos (by omega), if_neg (by omega), if_pos habove]

/-- A half of an odd multiple, above an even one, goes down to that. -/
theorem roundQuotient_of_tie {a D : Nat} (hpos : 0 < D) (h : 2 * (a % (2 * D)) = D) :
    roundQuotient a D = a / D ∧ a / D % 2 = 0 := by
  have hsplit : a = a / D * D + a % D := (Nat.div_add_mod' a D).symm
  have hlt : a % D < D := Nat.mod_lt a hpos
  rw [Nat.mul_comm 2 D, Nat.mod_mul] at h
  rcases Nat.mod_two_eq_zero_or_one (a / D) with heven | hodd
  · rw [heven, Nat.mul_zero, Nat.add_zero] at h
    rw [roundQuotient_of_eq _ _ hsplit hlt, if_neg (by omega), if_neg (by omega), heven]
    exact ⟨rfl, rfl⟩
  · rw [hodd, Nat.mul_one] at h
    omega

/-! ## The rounding of a number and of a prefix of it -/

section Prefix

variable {v j : Nat}

/-- The rounding of a number is decided at the spacing of any prefix of 53 bits or more. -/
theorem roundUnits_of_kept (h : 2 ^ 52 ≤ v / 2 ^ j) :
    roundUnits (v * unitsPerOne) 1 =
      roundQuotient v (2 ^ j * spacing (v / 2 ^ j)) * (spacing (v / 2 ^ j) * 2 ^ (j + unitExponent)) := by
  have hmoved : roundUnits (v * unitsPerOne) 1 = roundUnits (v * 2 ^ (j + unitExponent)) (2 ^ j) := by
    refine roundUnits_congr Nat.one_pos (Nat.two_pow_pos j) ?_
    rw [unitsPerOne_eq, Nat.pow_add, Nat.mul_one, Nat.mul_right_comm, Nat.mul_assoc]
  rw [hmoved, Double.roundUnits_mul_two_pow h, roundUnits_of_spacing rfl, spacing, Nat.one_shiftLeft, Nat.mul_assoc]

/-- The rounding of the cut number is decided at the same spacing. -/
theorem roundUnits_cut (h : 2 ^ 52 ≤ v / 2 ^ j) :
    roundUnits (v / 2 ^ j * 2 ^ j * unitsPerOne) 1 =
      roundQuotient (v / 2 ^ j) (spacing (v / 2 ^ j)) * (spacing (v / 2 ^ j) * 2 ^ (j + unitExponent)) := by
  have hpos := Nat.two_pow_pos j
  have hkept : v / 2 ^ j * 2 ^ j / 2 ^ j = v / 2 ^ j := Nat.mul_div_cancel _ hpos
  rw [roundUnits_of_kept (by rwa [hkept]), hkept, Nat.mul_comm (v / 2 ^ j), roundQuotient_scale hpos]

theorem spacing_pos (n : Nat) : 0 < spacing n := by
  rw [spacing, Nat.one_shiftLeft]
  exact Nat.two_pow_pos _

/-- Above 53 bits the spacing is even. -/
theorem spacing_mod_two {n : Nat} (h : 2 ^ 53 ≤ n) : spacing n % 2 = 0 := by
  have hne : n ≠ 0 := Nat.ne_of_gt (Nat.lt_of_lt_of_le (Nat.two_pow_pos 53) h)
  have hlog : 53 ≤ n.log2 := (Nat.le_log2 hne).mpr h
  obtain ⟨e, he⟩ : ∃ e, spacingExponent n = e + 1 := ⟨n.log2 - 53, by unfold spacingExponent; omega⟩
  rw [spacing, Nat.one_shiftLeft, he, Nat.pow_succ]
  exact Nat.mul_mod_left _ _

/-- The significand of a number of 53 bits or more. -/
theorem div_spacing_bounds {n : Nat} (h : 2 ^ 52 ≤ n) : 2 ^ 52 ≤ n / spacing n ∧ n / spacing n < 2 ^ 53 := by
  obtain ⟨hlt, hge⟩ := binade_of_spacingExponent n 1
  have hpos := Nat.two_pow_pos (spacingExponent n)
  rw [Nat.div_one] at hlt hge
  rw [spacing, Nat.one_shiftLeft, Nat.le_div_iff_mul_le hpos, Nat.div_lt_iff_lt_mul hpos, ← Nat.pow_add, ← Nat.pow_add]
  refine ⟨?_, hlt⟩
  rcases hge with he | hge
  · rwa [he]
  · exact hge

/-- A number is rounded like its prefix of more than 53 bits with zeros behind it, but for the half-way case: there it goes up
if anything follows the prefix, where the prefix goes down to the even neighbour. -/
theorem roundUnits_uncut (h : 2 ^ 53 ≤ v / 2 ^ j) :
    roundUnits (v * unitsPerOne) 1 =
      (if 2 * (v / 2 ^ j % (2 * spacing (v / 2 ^ j))) = spacing (v / 2 ^ j) ∧ v % 2 ^ j ≠ 0 then
          roundQuotient (v / 2 ^ j) (spacing (v / 2 ^ j)) + 1
        else roundQuotient (v / 2 ^ j) (spacing (v / 2 ^ j))) *
        (spacing (v / 2 ^ j) * 2 ^ (j + unitExponent)) := by
  have hlarge : 2 ^ 52 ≤ v / 2 ^ j := Nat.le_trans (Nat.pow_le_pow_right (by decide) (by decide)) h
  have hrest : v % 2 ^ j < 2 ^ j := Nat.mod_lt v (Nat.two_pow_pos j)
  have hcut := roundQuotient_cut (a := v / 2 ^ j) (spacing_mod_two h) (spacing_pos _) hrest
  rw [Nat.div_add_mod'] at hcut
  rw [roundUnits_of_kept hlarge, hcut]

/-- A power of two that a number reaches is reached by its prefix with zeros behind it. -/
theorem two_pow_le_cut {p : Nat} (hp : 2 ^ p ≤ v) (hj : 2 ^ j ≤ v) : 2 ^ p ≤ v / 2 ^ j * 2 ^ j := by
  rcases Nat.le_total p j with hle | hle
  · have hone : 1 ≤ v / 2 ^ j := Nat.div_pos hj (Nat.two_pow_pos j)
    calc 2 ^ p ≤ 2 ^ j := Nat.pow_le_pow_right Nat.two_pos hle
      _ = 1 * 2 ^ j := (Nat.one_mul _).symm
      _ ≤ v / 2 ^ j * 2 ^ j := Nat.mul_le_mul_right _ hone
  · have hsplit : 2 ^ p = 2 ^ (p - j) * 2 ^ j := by rw [← Nat.pow_add, Nat.sub_add_cancel hle]
    rw [hsplit] at hp ⊢
    exact Nat.mul_le_mul_right _ ((Nat.le_div_iff_mul_le (Nat.two_pow_pos j)).mpr hp)

/-- The count above an even one that is not too large is not too large either. -/
theorem succ_mul_lt_overflowUnits {q w : Nat} (hq : 2 ^ 52 ≤ q) (hq' : q < 2 ^ 53) (heven : q % 2 = 0)
    (h : q * 2 ^ w < overflowUnits) : (q + 1) * 2 ^ w < overflowUnits := by
  rw [overflowUnits_eq] at h ⊢
  generalize magnitudeBits - 53 = t at *
  have hw : w ≤ t := by
    by_contra hlt
    have hle : 2 ^ 52 * 2 ^ (t + 1) ≤ q * 2 ^ w := Nat.mul_le_mul hq (Nat.pow_le_pow_right Nat.two_pos (by omega))
    have hsplit : 2 ^ 52 * 2 ^ (t + 1) = 2 ^ 53 * 2 ^ t := by ring
    omega
  calc (q + 1) * 2 ^ w < 2 ^ 53 * 2 ^ w := Nat.mul_lt_mul_of_pos_right (by omega) (Nat.two_pow_pos w)
    _ ≤ 2 ^ 53 * 2 ^ t := Nat.mul_le_mul_left _ (Nat.pow_le_pow_right Nat.two_pos hw)

namespace Double

/-- But for the half-way case the digits behind a prefix of more than 53 bits have no influence. -/
theorem ofNat_cut (h : 2 ^ 53 ≤ v / 2 ^ j)
    (hnot : ¬(2 * (v / 2 ^ j % (2 * spacing (v / 2 ^ j))) = spacing (v / 2 ^ j) ∧ v % 2 ^ j ≠ 0)) :
    ofNat (v / 2 ^ j * 2 ^ j) = ofNat v := by
  refine ofRatio_congr_roundUnits false ?_
  rw [roundUnits_uncut h, if_neg hnot,
    roundUnits_cut (Nat.le_trans (Nat.pow_le_pow_right (by decide) (by decide)) h)]

/-- A number at the overflow bound or beyond it is infinite. -/
theorem ofNat_of_overflow {n : Nat} (h : overflowUnits ≤ n * unitsPerOne) : ofNat n = infinite false :=
  ofRatio_of_overflow false (by rwa [Nat.div_one])

/-- The last digits have no influence either if the number is too large. -/
theorem ofNat_cut_of_overflow (h : 2 ^ 53 ≤ v / 2 ^ j) (hover : overflowUnits ≤ v * unitsPerOne) :
    ofNat (v / 2 ^ j * 2 ^ j) = ofNat v := by
  have hbits : magnitudeBits - unitExponent + unitExponent = magnitudeBits := by decide
  have hsplit : overflowUnits = 2 ^ (magnitudeBits - unitExponent) * unitsPerOne := by
    rw [unitsPerOne_eq, ← Nat.pow_add, hbits, overflowUnits, Nat.one_shiftLeft]
  have hv : 2 ^ (magnitudeBits - unitExponent) ≤ v := by
    rw [hsplit, unitsPerOne_eq] at hover
    exact Nat.le_of_mul_le_mul_right hover (Nat.two_pow_pos _)
  have hj : 2 ^ j ≤ v := by
    by_contra hlt
    rw [Nat.div_eq_of_lt (Nat.not_le.mp hlt)] at h
    exact absurd h (by decide)
  have hcut : overflowUnits ≤ v / 2 ^ j * 2 ^ j * unitsPerOne := by
    rw [hsplit]
    exact Nat.mul_le_mul_right _ (two_pow_le_cut hv hj)
  rw [ofNat_of_overflow hcut, ofNat_of_overflow hover]

/-- In the half-way case the prefix and the whole number are two different finite doubles. -/
theorem ofNat_cut_of_tie (h : 2 ^ 53 ≤ v / 2 ^ j) (hfinite : v * unitsPerOne < overflowUnits)
    (htie : 2 * (v / 2 ^ j % (2 * spacing (v / 2 ^ j))) = spacing (v / 2 ^ j)) (hrest : v % 2 ^ j ≠ 0) :
    ∃ low high lowFits highFits, ofNat (v / 2 ^ j * 2 ^ j) = .finite false low lowFits ∧
      ofNat v = .finite false high highFits ∧ low < high := by
  have hlarge : 2 ^ 52 ≤ v / 2 ^ j := Nat.le_trans (Nat.pow_le_pow_right (by decide) (by decide)) h
  have hlow := roundUnits_cut hlarge
  have hhigh := roundUnits_uncut h
  obtain ⟨hquot, heven⟩ := roundQuotient_of_tie (spacing_pos _) htie
  obtain ⟨hfull, hsmall⟩ := div_spacing_bounds hlarge
  rw [if_pos ⟨htie, hrest⟩] at hhigh
  rw [hquot] at hlow hhigh
  have hbelow : v / 2 ^ j / spacing (v / 2 ^ j) * (spacing (v / 2 ^ j) * 2 ^ (j + unitExponent)) < overflowUnits := by
    refine Nat.lt_of_le_of_lt ?_ hfinite
    rw [Nat.pow_add, ← unitsPerOne_eq, ← Nat.mul_assoc, ← Nat.mul_assoc]
    refine Nat.mul_le_mul_right _ (Nat.le_trans ?_ (Nat.div_mul_le_self v (2 ^ j)))
    exact Nat.mul_le_mul_right _ (Nat.div_mul_le_self _ _)
  have hpower : spacing (v / 2 ^ j) * 2 ^ (j + unitExponent) =
      2 ^ (spacingExponent (v / 2 ^ j) + (j + unitExponent)) := by
    rw [spacing, Nat.one_shiftLeft, ← Nat.pow_add]
  rw [hpower] at hlow hhigh hbelow
  have habove := succ_mul_lt_overflowUnits hfull hsmall heven hbelow
  have lowFits : Representable _ := ⟨hbelow, by rw [← hlow]; exact spacing_dvd_roundUnits _ _⟩
  have highFits : Representable _ := ⟨habove, by rw [← hhigh]; exact spacing_dvd_roundUnits _ _⟩
  exact ⟨_, _, lowFits, highFits, ofRatio_of_roundUnits false lowFits hlow, ofRatio_of_roundUnits false highFits hhigh,
    Nat.mul_lt_mul_of_pos_right (Nat.lt_succ_self _) (Nat.two_pow_pos _)⟩

end Double

end Prefix

namespace Radix

variable {radix v k : Nat}

/-- A number is one whose conversion goes wrong: it is not too large, the digits that are kept are half-way between two
doubles, of which the lower one is the even one, and the digits that are dropped are not all zero. -/
structure TieDropped (radix v : Nat) : Prop where
  finite : v * unitsPerOne < overflowUnits
  tie : 2 * (keptValue radix v % (2 * spacing (keptValue radix v))) = spacing (keptValue radix v)
  dropped : v % radix ^ droppedDigits radix v ≠ 0

instance (radix v : Nat) : Decidable (TieDropped radix v) :=
  decidable_of_iff (v * unitsPerOne < overflowUnits ∧
      2 * (keptValue radix v % (2 * spacing (keptValue radix v))) = spacing (keptValue radix v) ∧
      v % radix ^ droppedDigits radix v ≠ 0)
    ⟨fun ⟨h, h', h''⟩ => ⟨h, h', h''⟩, fun ⟨h, h', h''⟩ => ⟨h, h', h''⟩⟩

/-- The digits that are dropped change the rounding in the half-way case, between finite doubles, and in no other. -/
theorem ofNat_cutValue_cases (k v : Nat) :
    (¬TieDropped (2 ^ k) v ∧ Double.ofNat (cutValue (2 ^ k) v) = .ofNat v) ∨
    (TieDropped (2 ^ k) v ∧ ∃ low high lowFits highFits,
      Double.ofNat (cutValue (2 ^ k) v) = .finite false low lowFits ∧ Double.ofNat v = .finite false high highFits ∧
        low < high) := by
  have hpower : (2 ^ k) ^ droppedDigits (2 ^ k) v = 2 ^ (k * droppedDigits (2 ^ k) v) := (Nat.pow_mul 2 k _).symm
  rcases Nat.lt_or_ge v (2 ^ 53) with hlt | hge
  · have hsmall : v < 2 ^ k * 2 ^ 53 := Nat.lt_of_lt_of_le hlt (Nat.le_mul_of_pos_left _ (Nat.two_pow_pos k))
    refine .inl ⟨?_, by rw [cutValue_of_lt hsmall]⟩
    intro h
    have hdropped := h.dropped
    rw [droppedDigits_of_lt hsmall, Nat.pow_zero, Nat.mod_one] at hdropped
    exact hdropped rfl
  · have hkept : 2 ^ 53 ≤ v / 2 ^ (k * droppedDigits (2 ^ k) v) := by
      have hle := le_keptValue (Nat.two_pow_pos k) hge
      rwa [keptValue, hpower] at hle
    have hcut : cutValue (2 ^ k) v =
        v / 2 ^ (k * droppedDigits (2 ^ k) v) * 2 ^ (k * droppedDigits (2 ^ k) v) := by
      rw [cutValue, keptValue, hpower]
    rw [hcut]
    by_cases htie : TieDropped (2 ^ k) v
    · obtain ⟨hfinite, hhalf, hrest⟩ := id htie
      rw [keptValue, hpower] at hhalf
      rw [hpower] at hrest
      exact .inr ⟨htie, Double.ofNat_cut_of_tie hkept hfinite hhalf hrest⟩
    · refine .inl ⟨htie, ?_⟩
      rcases Nat.lt_or_ge (v * unitsPerOne) overflowUnits with hfinite | hover
      · refine Double.ofNat_cut hkept ?_
        rintro ⟨hhalf, hrest⟩
        rw [← hpower] at hhalf hrest
        exact htie ⟨hfinite, hhalf, hrest⟩
      · exact Double.ofNat_cut_of_overflow hkept hover

/-- A radix that has a mark is a power of two, and a small one. -/
theorem Announces.exists_power {mark : Char} (h : Announces mark radix) : ∃ k, radix = 2 ^ k ∧ 0 < k ∧ k ≤ 52 := by
  simp only [Announces, List.mem_cons, Prod.mk.injEq, List.not_mem_nil, or_false] at h
  rcases h with ⟨-, rfl⟩ | ⟨-, rfl⟩ | ⟨-, rfl⟩ | ⟨-, rfl⟩ | ⟨-, rfl⟩ | ⟨-, rfl⟩
  · exact ⟨4, by decide⟩
  · exact ⟨4, by decide⟩
  · exact ⟨3, by decide⟩
  · exact ⟨3, by decide⟩
  · exact ⟨1, by decide⟩
  · exact ⟨1, by decide⟩

end Radix

open Radix

/-- A radix numeral is converted to the rounding of its value without the digits that have no influence. -/
theorem Double.ofText_of_radix_text {s : String} {mark : Char} {radix v : Nat} {digits : List Char}
    (htext : Text.trim s.toList = '0' :: mark :: digits) (hmark : Announces mark radix) (hv : Denotes radix digits v) :
    ofText s = ofNat (cutValue radix v) := by
  obtain ⟨k, rfl, hk⟩ := hmark.exists_power
  obtain ⟨hne, ds, hds, hvalue⟩ := hv
  have hsplit : split? ('0' :: mark :: digits) = some (2 ^ k, digits) := split?_eq_some_iff.mpr ⟨mark, hmark, rfl⟩
  have hdigits : digits? (2 ^ k) digits = some ds := by
    rw [digits?, if_neg hne]
    exact (mapM_digit?_eq_some_iff hmark.le.2).mpr hds
  have hhead {text : List Char} (h : text.head? ≠ some '0') : '0' :: mark :: digits ≠ text := by
    rintro rfl
    exact h rfl
  have hplus : ¬('0' :: mark :: digits = "Infinity".toList ∨ '0' :: mark :: digits = "+Infinity".toList) :=
    not_or.mpr ⟨hhead (by decide), hhead (by decide)⟩
  have hminus : '0' :: mark :: digits ≠ "-Infinity".toList := hhead (by decide)
  rw [ofText, htext, ofNumeral, if_neg (List.cons_ne_nil _ _), if_neg hplus, if_neg hminus, hsplit]
  simp only [hdigits, Option.map_some, Option.getD_some]
  rw [ofDigits_eq hk ds (lt_of_mem_digits hds), hvalue, value_eq_ofDigits]

/-- A radix numeral of any length is converted to the nearest double, a tie going to the even significand, unless it is one of
those whose conversion goes wrong; and to infinity exactly if that is nearest. -/
theorem radix_text_nearest_iff (s : String) (mark : Char) (radix v : Nat) (digits : List Char)
    (htext : Text.trim s.toList = '0' :: mark :: digits) (hmark : Announces mark radix) (hv : Denotes radix digits v) :
    Double.ofText s = .ofNat (cutValue radix v) ∧
    (Double.IsNearest v 1 (.ofText s) ↔ ¬TieDropped radix v) ∧
    (Double.ofText s = .infinite false ↔ Double.IsNearest v 1 (.infinite false)) := by
  have htext := Double.ofText_of_radix_text htext hmark hv
  refine ⟨htext, ?_⟩
  rw [htext, Double.isNearest_iff Nat.one_pos, Double.isNearest_iff Nat.one_pos, ← Double.ofNat_eq_ofRatio]
  obtain ⟨k, rfl, -, -⟩ := hmark.exists_power
  rcases ofNat_cutValue_cases k v with ⟨hnot, hsame⟩ | ⟨htie, low, high, lowFits, highFits, hlow, hhigh, hlt⟩
  · rw [hsame]
    exact ⟨iff_of_true rfl hnot, eq_comm⟩
  · rw [hlow, hhigh]
    refine ⟨iff_of_false ?_ (not_not_intro htie), iff_of_false nofun nofun⟩
    intro h
    rw [Double.finite.injEq] at h
    exact Nat.ne_of_lt hlt h.2

/-- Two numerals of 58 bits, half-way between two doubles and one more than that: the first goes down to the even double as it
should, and so does the second, which should go up. -/
theorem radix_text_half_way :
    Double.IsNearest 0x200000000000010 1 (.ofText "0x200000000000010") ∧
      ¬Double.IsNearest 0x200000000000011 1 (.ofText " 0X200000000000011\n") := by
  have htie : Text.trim "0x200000000000010".toList = '0' :: 'x' :: "200000000000010".toList := by decide
  have habove : Text.trim " 0X200000000000011\n".toList = '0' :: 'X' :: "200000000000011".toList := by decide
  have hvalue : Denotes 16 "200000000000010".toList 0x200000000000010 :=
    (denotes_iff (by decide)).mpr (by decide +kernel)
  have hvalue' : Denotes 16 "200000000000011".toList 0x200000000000011 :=
    (denotes_iff (by decide)).mpr (by decide +kernel)
  have hnot : ¬TieDropped 16 0x200000000000010 := by decide +kernel
  have hdropped : TieDropped 16 0x200000000000011 := by decide +kernel
  obtain ⟨-, hnearest, -⟩ := radix_text_nearest_iff _ _ _ _ _ htie (by decide) hvalue
  obtain ⟨-, hnearest', -⟩ := radix_text_nearest_iff _ _ _ _ _ habove (by decide) hvalue'
  refine ⟨hnearest.mpr hnot, ?_⟩
  intro h
  exact hnearest'.mp h hdropped

/-- The numeral of `2 ^ 57 + 17` is converted to `2 ^ 57`; the nearest double is `2 ^ 57 + 32`. -/
theorem radix_text_rounded_twice :
    let text := "0x200000000000011"
    Text.trim text.toList = '0' :: 'x' :: "200000000000011".toList ∧ Denotes 16 "200000000000011".toList (2 ^ 57 + 17) ∧
      Double.ofText text = .ofNat (2 ^ 57) ∧ Double.IsNearest (2 ^ 57 + 17) 1 (.ofNat (2 ^ 57 + 32)) ∧
      ¬Double.IsNearest (2 ^ 57 + 17) 1 (.ofText text) := by
  intro text
  have hvalue : Denotes 16 "200000000000011".toList (2 ^ 57 + 17) := (denotes_iff (by decide)).mpr (by decide +kernel)
  have hcode : Double.ofText text = .ofNat (2 ^ 57) := by decide +kernel
  refine ⟨by decide, hvalue, hcode, ?_, ?_⟩
  · rw [Double.isNearest_iff Nat.one_pos]
    decide +kernel
  · rw [hcode, Double.isNearest_iff Nat.one_pos]
    decide +kernel

end ScriptTree

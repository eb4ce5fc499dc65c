import Mathlib.Data.List.DropRight
import ScriptTree.Double.Shortest
import ScriptTree.Proofs.Decimals

/-!
# The shortest decimal reads back

Every quotient in the rounding interval of a magnitude is rounded to it (`roundUnits_of_contains`). The grids are searched
for a point in that interval, so the decimal that is found has the magnitude as its double, whichever grid it is on
(`toDouble_shortest`), and so has every decimal of the value that the digits have which are left of it without the zeros at
the end (`toDouble_of_magnitude`).
-/

namespace ScriptTree

namespace Double

/-! ## The rounding interval -/

/-- Whether the quotient `num / den` lies in a rounding interval. -/
def Interval.Contains (interval : Interval) (num den : Nat) : Prop :=
  (interval.low * den ≤ 4 * num ∧ 4 * num ≤ interval.high * den) ∧
    (interval.closed = true ∨ (interval.low * den < 4 * num ∧ 4 * num < interval.high * den))

section RoundUnits

variable {units num den m e : Nat}

/-- A quotient in the binade of an exponent is rounded to a significand there if it is at most half the spacing away, or
less if the significand is odd. -/
theorem roundUnits_of_binade (hden : 0 < den) (hlt : num < 2 ^ 53 * (2 ^ e * den))
    (hge : e = 0 ∨ 2 ^ 52 * (2 ^ e * den) ≤ num) (hlow : 2 * (m * (2 ^ e * den)) ≤ 2 * num + 2 ^ e * den)
    (hhigh : 2 * num ≤ 2 * (m * (2 ^ e * den)) + 2 ^ e * den)
    (htie : m % 2 = 0 ∨
      (2 * (m * (2 ^ e * den)) < 2 * num + 2 ^ e * den ∧ 2 * num < 2 * (m * (2 ^ e * den)) + 2 ^ e * den)) :
    roundUnits num den = m * 2 ^ e := by
  rw [← Nat.mul_assoc] at hlt hge
  rw [← Nat.mul_assoc m] at hlow hhigh htie
  refine roundUnits_of_near hden (spacingExponent_eq ?_ ?_) hlow hhigh htie
  · rwa [Nat.div_lt_iff_lt_mul hden, pow_add]
  · rwa [Nat.le_div_iff_mul_le hden, pow_add]

/-- A quotient at most a quarter of the spacing below the least number of a binade is rounded to it: in the binade below,
where the spacing is half as wide, that number counts as the significand `2 ^ 53`. -/
theorem roundUnits_below_binade (hden : 0 < den) (he : 0 < e) (hbelow : num < 2 ^ 52 * (2 ^ e * den))
    (hlow : 4 * (2 ^ 52 * (2 ^ e * den)) ≤ 4 * num + 2 ^ e * den) : roundUnits num den = 2 ^ 52 * 2 ^ e := by
  obtain ⟨e, rfl⟩ := Nat.exists_eq_add_of_lt he
  rw [Nat.zero_add] at *
  have hhalf : 2 ^ (e + 1) * den = 2 * (2 ^ e * den) := by rw [pow_succ, Nat.mul_comm _ 2, Nat.mul_assoc]
  have hround : roundUnits num den = 2 ^ 53 * 2 ^ e :=
    roundUnits_of_binade hden (by omega) (by omega) (by omega) (by omega) (.inl (by decide))
  rw [hround, pow_succ 2 e]
  ring

/-- Everything in the rounding interval of a magnitude is rounded to it. -/
theorem roundUnits_of_contains (hpos : 0 < units) (hfits : spacing units ∣ units) (hden : 0 < den)
    (h : (Interval.ofUnits units).Contains num den) : roundUnits num den = units := by
  obtain ⟨m, hm, hbits, hnormal⟩ := exists_significand hfits
  have hquot : units / 2 ^ spacingExponent units = m := Nat.div_eq_of_eq_mul_left (Nat.two_pow_pos _) hm
  obtain ⟨⟨hlow, hhigh⟩, htie⟩ := h
  simp only [Interval.ofUnits, spacing, Nat.one_shiftLeft, hquot, Nat.sub_mul, Nat.add_mul, Nat.mul_assoc,
    decide_eq_true_eq] at hlow hhigh htie
  generalize spacingExponent units = e at *
  -- everything in terms of the spacing and the magnitude, both times the denominator
  have hunits : units * den = m * (2 ^ e * den) := by rw [hm, Nat.mul_assoc]
  have hspacing : 0 < 2 ^ e * den := Nat.mul_pos (Nat.two_pow_pos e) hden
  have hone : 1 * (2 ^ e * den) ≤ m * (2 ^ e * den) :=
    Nat.mul_le_mul_right _ (Nat.pos_of_ne_zero (by rintro rfl; omega))
  have hsucc : (m + 1) * (2 ^ e * den) ≤ 2 ^ 53 * (2 ^ e * den) := Nat.mul_le_mul_right _ hbits
  rw [Nat.add_mul, Nat.one_mul] at hsucc
  rw [hm]
  by_cases hnarrow : m = 2 ^ 52 ∧ 1 < 2 ^ e
  · -- the gap below is half as wide as the one above
    simp only [hnarrow, and_self, if_true] at hlow htie
    obtain ⟨rfl, hstep⟩ := hnarrow
    rcases Nat.lt_or_ge num (units * den) with hbelow | habove
    · have he : 0 < e := Nat.pos_of_ne_zero (by rintro rfl; exact absurd hstep (by decide))
      exact roundUnits_below_binade hden he (by omega) (by omega)
    · exact roundUnits_of_binade hden (by omega) (by omega) (by omega) (by omega) (.inl (by decide))
  · simp only [hnarrow, if_false] at hlow htie
    have hge : e = 0 ∨ (2 ^ 52 + 1) * (2 ^ e * den) ≤ m * (2 ^ e * den) := by
      rcases Nat.eq_zero_or_pos e with h0 | h0
      · exact .inl h0
      · have hstep : 1 < 2 ^ e := Nat.one_lt_two_pow (Nat.ne_of_gt h0)
        exact .inr (Nat.mul_le_mul_right _ (by omega))
    rw [Nat.add_mul, Nat.one_mul] at hge
    rw [Nat.mul_assoc] at hlow htie
    exact roundUnits_of_binade hden (by omega) (by omega) (by omega) (by omega) (by omega)

end RoundUnits

/-! ## The search -/

/-- A point that is found on a grid lies in the interval of the number. -/
theorem contains_of_onGrid? {tie : Tie} {units point : Nat} {exponent : Int} (h : onGrid? tie units exponent = some point) :
    (Interval.ofUnits units).Contains (point * (unitsPerOne * 10 ^ exponent.toNat)) (10 ^ (-exponent).toNat) := by
  unfold onGrid? at h
  extract_lets interval up down lower inside below above at h
  have hinside (candidate : Nat) (hin : inside candidate = true) : interval.Contains (candidate * down) up := by
    simp only [inside, Nat.mul_assoc] at hin
    split at hin
    case isTrue hclosed => exact ⟨of_decide_eq_true hin, .inl hclosed⟩
    case isFalse hopen =>
      have hstrict := of_decide_eq_true hin
      exact ⟨⟨hstrict.1.le, hstrict.2.le⟩, .inr hstrict⟩
  have hpoint : inside point = true := by
    split at h
    case h_1 hlower hupper =>
      split at h
      · exact Option.some.inj h ▸ hlower
      · split at h
        · exact Option.some.inj h ▸ hupper
        · split at h
          · exact Option.some.inj h ▸ hlower
          · exact Option.some.inj h ▸ hupper
    case h_2 hlower hupper => exact Option.some.inj h ▸ hlower
    case h_3 hlower hupper => exact Option.some.inj h ▸ hupper
    case h_4 => nomatch h
  exact hinside point hpoint

variable (tie : Tie) {units : Nat}

/-- The decimal that the search ends with has the magnitude as its double, on whatever grids it looks. -/
theorem toDouble_firstGrid (negative : Bool) (hpos : 0 < units) (fits : Representable units) (leading : Int)
    (counts : List Nat) :
    Decimal.toDouble ⟨negative, (firstGrid tie units leading counts).1, (firstGrid tie units leading counts).2⟩ =
      .finite negative units fits := by
  rw [Decimal.toDouble_eq_ofRatio]
  induction counts with
  | nil =>
    -- the exact decimal: `5 ^ 1074 * 10 ^ -1074` is one unit
    have hten : 10 ^ unitExponent = 5 ^ unitExponent * unitsPerOne := by
      rw [unitsPerOne_eq, ← Nat.mul_pow]
    have hexact : units * 5 ^ unitExponent * unitsPerOne = units * 10 ^ unitExponent := by rw [hten, Nat.mul_assoc]
    simp only [firstGrid, Decimal.numerator, Decimal.denominator, Int.toNat_neg_natCast, neg_neg, Int.toNat_natCast,
      Nat.pow_eq, pow_zero, Nat.mul_one, hexact]
    exact ofRatio_self negative fits (Nat.pow_pos (by decide))
  | cons count more ih =>
    unfold firstGrid
    simp only
    split
    case h_1 point hpoint =>
      refine ofRatio_of_roundUnits negative fits ?_
      have hcontains := contains_of_onGrid? hpoint
      rw [Nat.mul_comm unitsPerOne, ← Nat.mul_assoc] at hcontains
      exact roundUnits_of_contains hpos fits.2 (Nat.pow_pos (by decide)) hcontains
    case h_2 => exact ih

/-- The shortest decimal of a magnitude has it as its double. -/
theorem toDouble_shortest (negative : Bool) (hpos : 0 < units) (fits : Representable units) :
    Decimal.toDouble ⟨negative, (shortest tie units).1, (shortest tie units).2⟩ = .finite negative units fits :=
  toDouble_firstGrid tie negative hpos fits _ _

/-- The shortest digits of a positive number are not zero. -/
theorem shortest_ne_zero (hpos : 0 < units) (fits : Representable units) : (shortest tie units).1 ≠ 0 := by
  intro hzero
  have hdouble := toDouble_shortest tie false hpos fits
  rw [hzero, Decimal.toDouble, if_pos rfl] at hdouble
  cases hdouble
  omega

/-! ## The digits -/

/-- The digits are those of the shortest decimal, without zeros at the end. -/
theorem shortestDigits_fst (units : Nat) :
    (shortestDigits tie units).1 = (Nat.toDigits 10 (shortest tie units).1).rdropWhile (· = '0') :=
  rfl

/-- Only zeros are missing from the digits. -/
theorem toDigits_shortest (units : Nat) :
    ∃ count, Nat.toDigits 10 (shortest tie units).1 = (shortestDigits tie units).1 ++ List.replicate count '0' := by
  have hzeros : ∀ c ∈ (Nat.toDigits 10 (shortest tie units).1).rtakeWhile (· = '0'), c = '0' :=
    fun _ hc => of_decide_eq_true (List.mem_rtakeWhile_imp (p := (· = '0')) hc)
  refine ⟨((Nat.toDigits 10 (shortest tie units).1).rtakeWhile (· = '0')).length, ?_⟩
  rw [shortestDigits_fst, ← List.eq_replicate_of_mem hzeros, List.rdropWhile_append_rtakeWhile]

/-- The shortest digits of a number are decimal digits. -/
theorem isDigit_of_mem_shortestDigits (units : Nat) : ∀ c ∈ (shortestDigits tie units).1, c.isDigit = true := by
  intro c hc
  obtain ⟨count, hdigits⟩ := toDigits_shortest tie units
  refine Nat.isDigit_of_mem_toDigits (b := 10) (n := (shortest tie units).1) (by decide) (by decide) ?_
  rw [hdigits]
  exact List.mem_append_left _ hc

/-- There is at least one digit. -/
theorem shortestDigits_ne_nil (hpos : 0 < units) (fits : Representable units) : (shortestDigits tie units).1 ≠ [] := by
  intro hnil
  obtain ⟨count, hdigits⟩ := toDigits_shortest tie units
  refine shortest_ne_zero tie hpos fits ?_
  rw [← Nat.ofDigitChars_ten_toDigits (n := (shortest tie units).1), hdigits, hnil, List.nil_append,
    Nat.ofDigitChars_replicate_zero, Nat.mul_zero]

/-- The digits around their point have the value of the shortest decimal. -/
theorem digitsValue_shortestDigits (units : Nat) (negative : Bool) :
    Decimal.digitsValue (shortestDigits tie units).1 (shortestDigits tie units).2 =
      Decimal.magnitude ⟨negative, (shortest tie units).1, (shortest tie units).2⟩ := by
  obtain ⟨count, hdigits⟩ := toDigits_shortest tie units
  have hpoint : (shortestDigits tie units).2 =
      (Nat.toDigits 10 (shortest tie units).1).length + (shortest tie units).2 := rfl
  rw [← Decimal.digitsValue_append_zeros _ count, ← hdigits, Decimal.digitsValue, Nat.ofDigitChars_ten_toDigits, hpoint,
    add_sub_cancel_left, Decimal.magnitude]

/-- Whatever decimal has the value of the digits has the number as its double. -/
theorem toDouble_of_magnitude {d : Decimal} (hpos : 0 < units) (fits : Representable units)
    (h : d.magnitude = Decimal.digitsValue (shortestDigits tie units).1 (shortestDigits tie units).2) :
    d.toDouble = .finite d.negative units fits := by
  rw [← toDouble_shortest tie d.negative hpos fits]
  exact Decimal.toDouble_congr rfl (h.trans (digitsValue_shortestDigits tie units d.negative))

end Double

end ScriptTree

import ScriptTree.Proofs.Rounding

/-!
# The interchange format

A number is the one of its bits (`ofBits_toBits`), so no two numbers have the same bits; and a pattern of bits is the one of
its number unless that is NaN (`toBits_ofBits`). So nothing is lost in taking a double for a sign and a count of units, and
what is proved of all doubles is proved of all patterns of bits.
-/

namespace ScriptTree.Double

variable {negative : Bool} {exponent fraction : Nat} {bits : UInt64}

/-! ## The fields of a word -/

/-- The word that is put together from a sign, eleven exponent bits and 52 fraction bits. -/
def wordOfFields (negative : Bool) (exponent fraction : Nat) : Nat := signBit negative + (exponent <<< 52) + fraction

/-- The fields of a pattern of bits. -/
structure HasFields (bits : UInt64) (negative : Bool) (exponent fraction : Nat) : Prop where
  sign : decide (1 <<< 63 ≤ bits.toNat) = negative
  exponent : (bits.toNat >>> 52) % 2048 = exponent
  fraction : bits.toNat % (1 <<< 52) = fraction

/-- Without a sign a word is its exponent and its fraction. -/
theorem wordOfFields_false : wordOfFields false exponent fraction = (exponent <<< 52) + fraction := by
  rw [wordOfFields, signBit, if_neg Bool.false_ne_true, Nat.zero_add]

theorem wordOfFields_true : wordOfFields true exponent fraction = (1 <<< 63) + (exponent <<< 52) + fraction := rfl

/-- A word has the fields that it is put together from. -/
theorem hasFields_ofNat (negative : Bool) (he : exponent < 2048) (hf : fraction < 1 <<< 52) :
    HasFields (UInt64.ofNat (wordOfFields negative exponent fraction)) negative exponent fraction := by
  have hsize : UInt64.size = 2 ^ 64 := rfl
  rw [Nat.one_shiftLeft] at hf
  cases negative with
  | false =>
    have hword : (UInt64.ofNat (wordOfFields false exponent fraction)).toNat = (exponent <<< 52) + fraction := by
      rw [UInt64.toNat_ofNat_of_lt', wordOfFields_false]
      rw [wordOfFields_false, hsize]
      omega
    refine ⟨?_, ?_, ?_⟩
    · rw [hword, decide_eq_false_iff_not, Nat.one_shiftLeft]
      omega
    · rw [hword]
      omega
    · rw [hword, Nat.one_shiftLeft]
      omega
  | true =>
    have hword : (UInt64.ofNat (wordOfFields true exponent fraction)).toNat = 2 ^ 63 + (exponent <<< 52) + fraction := by
      rw [UInt64.toNat_ofNat_of_lt', wordOfFields_true, Nat.one_shiftLeft]
      rw [wordOfFields_true, hsize, Nat.one_shiftLeft]
      omega
    refine ⟨?_, ?_, ?_⟩
    · rw [hword, decide_eq_true_eq, Nat.one_shiftLeft]
      omega
    · rw [hword]
      omega
    · rw [hword, Nat.one_shiftLeft]
      omega

namespace HasFields

variable (h : HasFields bits negative exponent fraction)
include h

theorem exponent_lt : exponent < 2048 := by
  have := h.exponent
  omega

theorem fraction_lt : fraction < 1 <<< 52 := by
  rw [← h.fraction]
  exact Nat.mod_lt _ (by decide)

/-- A pattern of bits is put together from its fields. -/
theorem ofNat_wordOfFields : UInt64.ofNat (wordOfFields negative exponent fraction) = bits := by
  have hword : wordOfFields negative exponent fraction = bits.toNat := by
    have hlt := bits.toNat_lt
    have hexponent := h.exponent
    have hfraction := h.fraction
    have hsign := h.sign
    rw [Nat.one_shiftLeft] at hfraction hsign
    cases negative with
    | false =>
      rw [decide_eq_false_iff_not] at hsign
      rw [wordOfFields_false]
      omega
    | true =>
      rw [decide_eq_true_eq] at hsign
      rw [wordOfFields_true, Nat.one_shiftLeft]
      omega
  rw [hword, UInt64.ofNat_toNat]

/-! ## The number of a word -/

/-- With the highest exponent a word is an infinity or a NaN. -/
theorem ofBits_special (he : exponent = 2047) :
    ofBits bits = if fraction = 0 then .infinite negative else .nan (decide (fraction < 1 <<< 51)) := by
  unfold ofBits
  rw [dif_pos (h.exponent.trans he), h.fraction, h.sign]

/-- With exponent zero a word counts units by its fraction. -/
theorem ofBits_small (he : exponent = 0) : ∃ fits, ofBits bits = .finite negative fraction fits := by
  obtain ⟨rfl, rfl, rfl⟩ := h
  unfold ofBits
  rw [dif_neg (by omega), if_pos he]
  exact ⟨_, rfl⟩

/-- With any other exponent the fraction has a leading one before it and is moved up. -/
theorem ofBits_normal (hpos : 0 < exponent) (he : exponent < 2047) :
    ∃ fits, ofBits bits = .finite negative (((1 <<< 52) + fraction) <<< (exponent - 1)) fits := by
  obtain ⟨rfl, rfl, rfl⟩ := h
  unfold ofBits
  rw [dif_neg (by omega), if_neg (by omega)]
  exact ⟨_, rfl⟩

end HasFields

/-! ## There and back -/

/-- A number below the first binade is its fraction with exponent zero. -/
theorem toBits_small {fits : Representable fraction} (hf : fraction < 1 <<< 52) :
    (finite negative fraction fits).toBits = UInt64.ofNat (wordOfFields negative 0 fraction) :=
  if_pos hf

/-- Any other finite number is the fraction behind its leading one, with its binade for the exponent. -/
theorem toBits_normal {e : Nat} {fits : Representable (((1 <<< 52) + fraction) <<< e)} (hf : fraction < 1 <<< 52) :
    (finite negative (((1 <<< 52) + fraction) <<< e) fits).toBits =
      UInt64.ofNat (wordOfFields negative (e + 1) fraction) := by
  have hpos := Nat.two_pow_pos e
  have hspacing : spacingExponent (((1 <<< 52) + fraction) <<< e) = e := by
    rw [Nat.one_shiftLeft] at hf
    rw [Nat.one_shiftLeft, Nat.shiftLeft_eq]
    refine spacingExponent_eq ?_ (.inr ?_)
    · rw [pow_add]
      exact Nat.mul_lt_mul_of_pos_right (by omega) hpos
    · rw [pow_add]
      exact Nat.mul_le_mul_right _ (by omega)
  have hlarge : ¬((1 <<< 52) + fraction) <<< e < 1 <<< 52 := by
    rw [Nat.shiftLeft_eq _ e, Nat.not_lt]
    exact Nat.le_trans (Nat.le_add_right _ fraction) (Nat.le_mul_of_pos_right _ hpos)
  simp only [toBits, if_neg hlarge, hspacing, Nat.shiftLeft_shiftRight, Nat.add_sub_cancel_left, wordOfFields]

/-- A magnitude above all small ones is a significand of 53 bits, shifted. -/
theorem exists_fields {units : Nat} (fits : Representable units) (h : 1 <<< 52 ≤ units) :
    ∃ fraction e, fraction < 1 <<< 52 ∧ e ≤ 2045 ∧ units = ((1 <<< 52) + fraction) <<< e := by
  obtain ⟨m, hm, hbits, hnormal⟩ := exists_significand fits.2
  have hpos : 0 < units := Nat.lt_of_lt_of_le (by decide) h
  have hlog : units.log2 < magnitudeBits := by
    rw [Nat.log2_lt (Nat.ne_of_gt hpos), ← Nat.one_shiftLeft]
    exact fits.1
  have hsignificand : 2 ^ 52 ≤ m := by
    rcases hnormal with h0 | hnormal
    · rw [h0, pow_zero, Nat.mul_one] at hm
      rw [← hm]
      exact h
    · exact hnormal
  refine ⟨m - 2 ^ 52, spacingExponent units, ?_, ?_, ?_⟩
  · rw [Nat.one_shiftLeft]
    omega
  · unfold spacingExponent
    have : magnitudeBits = 2098 := rfl
    omega
  · rw [Nat.one_shiftLeft, Nat.add_sub_cancel' hsignificand, Nat.shiftLeft_eq]
    exact hm

/-- A number is the one of its bits. -/
theorem ofBits_toBits (x : Double) : ofBits x.toBits = x := by
  cases x with
  | nan signaling => cases signaling <;> rfl
  | infinite negative => cases negative <;> rfl
  | finite negative units fits =>
    rcases Nat.lt_or_ge units (1 <<< 52) with hsmall | hlarge
    · obtain ⟨_, h⟩ := (hasFields_ofNat negative (by decide) hsmall).ofBits_small rfl
      rw [toBits_small hsmall, h]
    · obtain ⟨fraction, e, hf, he, rfl⟩ := exists_fields fits hlarge
      obtain ⟨_, h⟩ := (hasFields_ofNat negative (by omega : e + 1 < 2048) hf).ofBits_normal (by omega) (by omega)
      rw [toBits_normal hf, h]
      rfl

/-- A pattern of bits is the one of its number, unless that is NaN. -/
theorem toBits_ofBits (h : (ofBits bits).isNan = false) : (ofBits bits).toBits = bits := by
  obtain ⟨negative, exponent, fraction, hfields⟩ :
      ∃ negative exponent fraction, HasFields bits negative exponent fraction := ⟨_, _, _, rfl, rfl, rfl⟩
  have hexponent := hfields.exponent_lt
  have hfraction := hfields.fraction_lt
  rcases Nat.eq_zero_or_pos exponent with rfl | hpos
  · obtain ⟨_, hnumber⟩ := hfields.ofBits_small rfl
    rw [hnumber, toBits_small hfraction, hfields.ofNat_wordOfFields]
  · rcases Nat.lt_or_ge exponent 2047 with hnormal | hspecial
    · obtain ⟨_, hnumber⟩ := hfields.ofBits_normal hpos hnormal
      rw [hnumber, toBits_normal hfraction, Nat.sub_add_cancel hpos, hfields.ofNat_wordOfFields]
    · have hnumber := hfields.ofBits_special (by omega)
      split at hnumber
      case isTrue hinfinite =>
        obtain rfl : exponent = 2047 := by omega
        rw [hnumber, ← hfields.ofNat_wordOfFields, hinfinite]
        rfl
      case isFalse =>
        rw [hnumber] at h
        nomatch h

end ScriptTree.Double

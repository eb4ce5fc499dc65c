import Mathlib.Algebra.Order.Field.Power
import Mathlib.Algebra.Order.Field.Rat
import Mathlib.Tactic.FieldSimp
import Mathlib.Tactic.Positivity
import ScriptTree.Double.OfText
import ScriptTree.Proofs.Beginnings
import ScriptTree.Proofs.Rounding

/-!
# Decimals and their values

A decimal numeral stands for a rational number. `Decimal.toDouble` gives the double nearest to it, whatever shortcut it
takes (`toDouble_eq_ofRatio`), so that only the sign and the value of a decimal matter (`toDouble_congr`). A text whose
digits are given is read as the value that these digits have around the point (`denotes_whole`, `denotes_point`). What can be
read is also what the scanner passes over (`isNumeral_iff`), and the conversion of strings takes no decimal numeral for
anything else (`Double.ofText_of_read?`).
-/

namespace ScriptTree

namespace Decimal

/-! ## The double of a decimal -/

/-- The value of a decimal, its sign dropped. -/
def magnitude (d : Decimal) : ℚ := d.coefficient * 10 ^ d.exponent

/-- The magnitude of a decimal is counted in units as a quotient; this is what is divided. -/
def numerator (d : Decimal) : Nat := d.coefficient * 10 ^ d.exponent.toNat * unitsPerOne

/-- What the numerator is divided by. -/
def denominator (d : Decimal) : Nat := 10 ^ (-d.exponent).toNat

theorem denominator_pos (d : Decimal) : 0 < d.denominator := by
  unfold denominator
  positivity

/-- Numerator and denominator are those of the magnitude, counted in units. -/
theorem numerator_div_denominator (d : Decimal) : (d.numerator : ℚ) / d.denominator = d.magnitude * unitsPerOne := by
  unfold numerator denominator magnitude
  push_cast
  rcases Int.le_total 0 d.exponent with h | h
  · obtain ⟨n, hn⟩ := Int.eq_ofNat_of_zero_le h
    simp [hn]
  · obtain ⟨n, hn⟩ := Int.eq_ofNat_of_zero_le (Int.neg_nonneg.mpr h)
    have hexponent : d.exponent = -n := by omega
    simp only [hexponent, Int.toNat_neg_natCast, pow_zero, mul_one, neg_neg, Int.toNat_natCast, zpow_neg, zpow_natCast]
    field_simp

/-- A power of ten is more than the power of two with three times the exponent, as eight is less than ten. -/
theorem two_pow_le_ten_pow {n k : Nat} (h : n ≤ 3 * k) : 2 ^ n ≤ 10 ^ k :=
  calc 2 ^ n ≤ 2 ^ (3 * k) := Nat.pow_le_pow_right (by decide) h
    _ = (2 ^ 3) ^ k := Nat.pow_mul 2 3 k
    _ ≤ 10 ^ k := Nat.pow_le_pow_left (by decide) k

/-- The double of a decimal is the nearest one, also where that is decided without writing the power of ten out. -/
theorem toDouble_eq_ofRatio (d : Decimal) : d.toDouble = .ofRatio d.negative d.numerator d.denominator := by
  unfold toDouble
  split
  case isTrue hzero =>
    refine (Double.ofRatio_of_tiny _ ?_).symm
    simp only [numerator, hzero, Nat.zero_mul, Nat.mul_zero]
    exact d.denominator_pos
  split
  case isTrue hzero hlarge =>
    refine (Double.ofRatio_of_overflow _ ?_).symm
    have hden : d.denominator = 1 := by rw [denominator, Int.toNat_of_nonpos (by omega), pow_zero]
    rw [hden, Nat.div_one, numerator, unitsPerOne_eq, overflowUnits, Nat.one_shiftLeft]
    calc 2 ^ magnitudeBits
        = 1 * 2 ^ 1024 * 2 ^ unitExponent := by
          rw [Nat.one_mul, ← pow_add]
          exact congrArg (2 ^ ·) (by decide : magnitudeBits = 1024 + unitExponent)
      _ ≤ d.coefficient * 10 ^ d.exponent.toNat * 2 ^ unitExponent := by
          refine Nat.mul_le_mul_right _ (Nat.mul_le_mul (Nat.pos_of_ne_zero hzero) (two_pow_le_ten_pow ?_))
          omega
  split
  case isTrue hzero hlarge htiny =>
    refine (Double.ofRatio_of_tiny _ ?_).symm
    have hnum : d.numerator = d.coefficient * 2 ^ unitExponent := by
      rw [numerator, Int.toNat_of_nonpos (by omega), pow_zero, Nat.mul_one, unitsPerOne_eq]
    rw [hnum, denominator]
    calc 2 * (d.coefficient * 2 ^ unitExponent)
        = d.coefficient * 2 ^ (unitExponent + 1) := by ring
      _ < 2 ^ (d.coefficient.log2 + 1) * 2 ^ (unitExponent + 1) :=
          Nat.mul_lt_mul_of_pos_right Nat.lt_log2_self (by positivity)
      _ = 2 ^ (d.coefficient.log2 + 1 + (unitExponent + 1)) := (pow_add _ _ _).symm
      _ ≤ 10 ^ (-d.exponent).toNat := by
          refine two_pow_le_ten_pow ?_
          rw [unitExponent]
          omega
  rfl

/-- The double of a decimal, from its value in lowest terms. -/
theorem toDouble_of_magnitude_eq {d : Decimal} {q : ℚ} (h : d.magnitude = q) :
    d.toDouble = .ofRatio d.negative (q.num.toNat * unitsPerOne) q.den := by
  have hden := d.denominator_pos
  have hq : (q.num.toNat : ℚ) / q.den = q := by
    have hpos : 0 ≤ q := by
      rw [← h, magnitude]
      positivity
    conv_rhs => rw [← Rat.num_div_den q, ← Int.toNat_of_nonneg (Rat.num_nonneg.mpr hpos)]
    rw [Int.cast_natCast]
  have hquot : (d.numerator : ℚ) / d.denominator = (q.num.toNat * unitsPerOne : ℕ) / q.den := by
    rw [d.numerator_div_denominator, h, Nat.cast_mul, mul_div_right_comm, hq]
  rw [div_eq_div_iff (by positivity) (Nat.cast_ne_zero.mpr q.den_nz)] at hquot
  rw [d.toDouble_eq_ofRatio]
  exact Double.ofRatio_congr _ hden q.pos (by exact_mod_cast hquot)

/-- Decimals of one sign and value have one double. -/
theorem toDouble_congr {d d' : Decimal} (hsign : d.negative = d'.negative) (h : d.magnitude = d'.magnitude) :
    d.toDouble = d'.toDouble := by
  rw [toDouble_of_magnitude_eq h, toDouble_of_magnitude_eq rfl, hsign]

/-! ## The value of digits -/

/-- The rational that digits stand for if the decimal point stands before the digit of index `point`. -/
def digitsValue (digits : List Char) (point : Int) : ℚ := Nat.ofDigitChars 10 digits 0 * 10 ^ (point - digits.length)

/-- Zeros at the end do not count. -/
theorem digitsValue_append_zeros (digits : List Char) (count : Nat) (point : Int) :
    digitsValue (digits ++ List.replicate count '0') point = digitsValue digits point := by
  unfold digitsValue
  rw [Nat.ofDigitChars_append, Nat.ofDigitChars_replicate_zero, List.length_append, List.length_replicate]
  have hexponent : point - digits.length = (count : Int) + (point - (digits.length + count : Nat)) := by omega
  rw [hexponent, zpow_add₀ (by decide), zpow_natCast]
  push_cast
  ring

/-- Zeros in front move the point. -/
theorem digitsValue_zeros_append (digits : List Char) (count : Nat) (point : Int) :
    digitsValue (List.replicate count '0' ++ digits) point = digitsValue digits (point - count) := by
  unfold digitsValue
  rw [Nat.ofDigitChars_append, Nat.ofDigitChars_replicate_zero, Nat.mul_zero, List.length_append, List.length_replicate]
  congr 2
  omega

/-! ## Reading digits -/

/-- The sign that a negative numeral starts with. -/
def minus (negative : Bool) : List Char := if negative then ['-'] else []

/-- Whether a text is a decimal numeral of the given magnitude, with a minus sign before it or without one. -/
def Denotes (text : List Char) (magnitude : ℚ) : Prop :=
  ∀ negative, ∃ d, read? (minus negative ++ text) = some d ∧ d.negative = negative ∧ d.magnitude = magnitude

section Reading

variable {whole fraction rest tail : List Char} {exponent : Int}

/-- What may follow the digits of a numeral starts with the mark of an exponent, if with anything. -/
theorem head_of_readExponent? (h : readExponent? tail = some exponent) : ∀ c ∈ tail.head?, c = 'e' ∨ c = 'E' := by
  cases tail with
  | nil => nofun
  | cons mark rest =>
    rintro c ⟨⟩
    by_contra hmark
    simp [readExponent?, hmark] at h

/-- An exponent begins with its mark, not with a digit, or there is none. -/
theorem isDigit_head_of_readExponent? (h : readExponent? tail = some exponent) :
    ∀ c ∈ tail.head?, c.isDigit = false := by
  intro c hc
  rcases head_of_readExponent? h c hc with rfl | rfl <;> rfl

variable (hwhole : ∀ c ∈ whole, c.isDigit = true) (hne : whole ≠ [])
include hwhole hne

/-- A sign before digits is split off, and no digit is. -/
theorem splitSign_minus_append (negative : Bool) :
    splitSign (minus negative ++ (whole ++ rest)) = (negative, whole ++ rest) := by
  cases negative with
  | true => rfl
  | false =>
    cases whole with
    | nil => exact absurd rfl hne
    | cons c whole =>
      have hdigit := hwhole c List.mem_cons_self
      unfold splitSign
      split
      case h_1 heq => cases heq; nomatch hdigit
      case h_2 heq => cases heq; nomatch hdigit
      case h_3 => rfl

/-- Digits, and what splits into a fraction and an exponent, make a numeral of the value that all the digits have. -/
theorem denotes_of_parts (hrest : ∀ c ∈ rest.head?, c.isDigit = false) (hsplit : splitFraction rest = (fraction, tail))
    (htail : readExponent? tail = some exponent) :
    Denotes (whole ++ rest) (digitsValue (whole ++ fraction) (whole.length + exponent)) := by
  intro negative
  refine ⟨⟨negative, Nat.ofDigitChars 10 (whole ++ fraction) 0, exponent - fraction.length⟩, ?_, rfl, ?_⟩
  · unfold read?
    simp only [splitSign_minus_append hwhole hne negative, takeWhile_append_of_head hwhole hrest,
      dropWhile_append_of_head hwhole hrest, hsplit, htail, Option.map_some]
    rw [if_neg (fun h => hne h.1)]
  · unfold magnitude digitsValue
    congr 2
    show exponent - fraction.length = _
    rw [List.length_append]
    omega

/-- Digits without a point. -/
theorem denotes_whole (htail : readExponent? tail = some exponent) :
    Denotes (whole ++ tail) (digitsValue whole (whole.length + exponent)) := by
  have hsplit : splitFraction tail = ([], tail) := by
    unfold splitFraction
    split
    · exact absurd (head_of_readExponent? htail '.' rfl) (by decide)
    · rfl
  have := denotes_of_parts hwhole hne (isDigit_head_of_readExponent? htail) hsplit htail
  rwa [List.append_nil] at this

/-- Digits around a point. -/
theorem denotes_point (hfraction : ∀ c ∈ fraction, c.isDigit = true) (htail : readExponent? tail = some exponent) :
    Denotes (whole ++ '.' :: (fraction ++ tail)) (digitsValue (whole ++ fraction) (whole.length + exponent)) := by
  have hhead := isDigit_head_of_readExponent? htail
  refine denotes_of_parts hwhole hne (fun c hc => by cases hc; rfl) ?_ htail
  show ((fraction ++ tail).takeWhile Char.isDigit, (fraction ++ tail).dropWhile Char.isDigit) = _
  rw [takeWhile_append_of_head hfraction hhead, dropWhile_append_of_head hfraction hhead]

end Reading

/-- Digits behind a point, with none before it. -/
theorem denotes_fraction {fraction tail : List Char} {exponent : Int} (hfraction : ∀ c ∈ fraction, c.isDigit = true)
    (hne : fraction ≠ []) (htail : readExponent? tail = some exponent) :
    Denotes ('.' :: (fraction ++ tail)) (digitsValue fraction exponent) := by
  have hhead := isDigit_head_of_readExponent? htail
  intro negative
  refine ⟨⟨negative, Nat.ofDigitChars 10 fraction 0, exponent - fraction.length⟩, ?_, rfl, rfl⟩
  have hsign : splitSign (minus negative ++ '.' :: (fraction ++ tail)) = (negative, '.' :: (fraction ++ tail)) := by
    cases negative <;> rfl
  have hpoint : splitFraction ('.' :: (fraction ++ tail)) = (fraction, tail) := by
    rw [splitFraction, takeWhile_append_of_head hfraction hhead, dropWhile_append_of_head hfraction hhead]
  have hnone : ('.' :: (fraction ++ tail)).takeWhile Char.isDigit = [] := rfl
  have hrest : ('.' :: (fraction ++ tail)).dropWhile Char.isDigit = '.' :: (fraction ++ tail) := rfl
  unfold read?
  simp only [hsign, hnone, hrest, hpoint, htail, Option.map_some, List.nil_append]
  rw [if_neg fun h => hne h.2]

/-- An exponent of any size with its sign is read back. -/
theorem readExponent?_toDigits (exponent : Int) :
    readExponent? ('e' :: (if exponent < 0 then '-' else '+') :: Nat.toDigits 10 exponent.natAbs) = some exponent := by
  have hdigits : (Nat.toDigits 10 exponent.natAbs).all Char.isDigit = true :=
    List.all_eq_true.mpr fun c hc => Nat.isDigit_of_mem_toDigits (by decide) (by decide) hc
  have hsign : splitSign ((if exponent < 0 then '-' else '+') :: Nat.toDigits 10 exponent.natAbs) =
      (decide (exponent < 0), Nat.toDigits 10 exponent.natAbs) := by
    split
    case isTrue h => simp [splitSign, h]
    case isFalse h => simp [splitSign, h]
  simp only [readExponent?, hsign, hdigits, Nat.ofDigitChars_ten_toDigits, signed_natAbs]
  simp [Nat.toDigits_ne_nil]

/-! ## The characters of a numeral -/

/-- The characters that decimal numerals are made of. -/
def isNumeralChar (c : Char) : Bool := c.isDigit || c = '.' || c = 'e' || c = 'E' || c = '+' || c = '-'

/-- A character of a text is its sign or stands behind it. -/
theorem mem_splitSign {text : List Char} {c : Char} (h : c ∈ text) : c = '-' ∨ c = '+' ∨ c ∈ (splitSign text).2 := by
  unfold splitSign
  split
  · rcases List.mem_cons.mp h with rfl | h
    · exact .inl rfl
    · exact .inr (.inr h)
  · rcases List.mem_cons.mp h with rfl | h
    · exact .inr (.inl rfl)
    · exact .inr (.inr h)
  · exact .inr (.inr h)

/-- A character of a text is the point or a digit before the rest, or stands in the rest. -/
theorem mem_splitFraction {text : List Char} {c : Char} (h : c ∈ text) :
    c = '.' ∨ c.isDigit = true ∨ c ∈ (splitFraction text).2 := by
  unfold splitFraction
  split
  case h_1 rest =>
    rcases List.mem_cons.mp h with rfl | h
    · exact .inl rfl
    · rw [← rest.takeWhile_append_dropWhile (p := Char.isDigit), List.mem_append] at h
      exact .inr (h.imp_left List.mem_takeWhile_imp)
  case h_2 => exact .inr (.inr h)

/-- An exponent is made of characters of numerals. -/
theorem isNumeralChar_of_readExponent? {text : List Char} {exponent : Int} (h : readExponent? text = some exponent) :
    ∀ c ∈ text, isNumeralChar c = true := by
  intro c hc
  cases text with
  | nil => nomatch hc
  | cons mark rest =>
    have hmark := head_of_readExponent? h mark rfl
    have hdigits : (splitSign rest).2.all Char.isDigit = true := by
      by_contra hdigits
      simp [readExponent?, hmark, hdigits] at h
    rcases List.mem_cons.mp hc with rfl | hc
    · rcases hmark with rfl | rfl <;> rfl
    · rcases mem_splitSign hc with rfl | rfl | hc
      · rfl
      · rfl
      · simp [isNumeralChar, List.all_eq_true.mp hdigits c hc]

/-- What is read as a decimal numeral has no other characters. -/
theorem isNumeralChar_of_read? {text : List Char} {d : Decimal} (h : read? text = some d) :
    ∀ c ∈ text, isNumeralChar c = true := by
  intro c hc
  unfold read? at h
  simp only at h
  split at h
  · nomatch h
  · obtain ⟨exponent, hexponent, -⟩ := Option.map_eq_some_iff.mp h
    rcases mem_splitSign hc with rfl | rfl | hc
    · rfl
    · rfl
    · rw [← (splitSign text).2.takeWhile_append_dropWhile (p := Char.isDigit), List.mem_append] at hc
      rcases hc with hc | hc
      · simp [isNumeralChar, List.mem_takeWhile_imp hc]
      · rcases mem_splitFraction hc with rfl | hdigit | hc
        · rfl
        · simp [isNumeralChar, hdigit]
        · exact isNumeralChar_of_readExponent? hexponent c hc

end Decimal

/-! ## Taking a text for a numeral -/

namespace Text

/-- No visible ASCII character is blank. -/
theorem isBlank_eq_false {c : Char} (hlow : 32 < c.toNat) (hhigh : c.toNat < 160) : isBlank c = false := by
  have hne (b : Char) (hb : b.toNat ≤ 32 ∨ 160 ≤ b.toNat) : c ≠ b := by
    rintro rfl
    omega
  have hrange : ¬ '\u2000' ≤ c := by
    intro h
    have hnat : 0x2000 ≤ c.toNat := h
    omega
  simp only [isBlank, hrange, decide_false, Bool.false_and, Bool.or_false, Bool.or_eq_false_iff, decide_eq_false_iff_not]
  and_intros
  all_goals exact hne _ (by decide)

/-- A text without blanks is trimmed to itself. -/
theorem trim_eq_self {text : List Char} (h : ∀ c ∈ text, isBlank c = false) : trim text = text := by
  have hdrop (l : List Char) (hl : ∀ c ∈ l, isBlank c = false) : l.dropWhile isBlank = l := by
    cases l with
    | nil => rfl
    | cons c rest => exact List.dropWhile_cons_of_neg (by simp [hl c])
  rw [trim, hdrop text h, hdrop text.reverse (fun c hc => h c (List.mem_reverse.mp hc)), List.reverse_reverse]

end Text

namespace Decimal

/-- The characters of numerals lie between the space and the blanks beyond ASCII. -/
theorem toNat_of_isNumeralChar {c : Char} (h : isNumeralChar c = true) : 32 < c.toNat ∧ c.toNat < 160 := by
  simp only [isNumeralChar, Bool.or_eq_true, decide_eq_true_eq] at h
  rcases h with ((((h | rfl) | rfl) | rfl) | rfl) | rfl
  case inl.inl.inl.inl.inl =>
    obtain ⟨hlow, hhigh⟩ := Char.isDigit_iff_toNat.mp h
    exact ⟨Nat.lt_of_lt_of_le (by decide) hlow, Nat.lt_of_le_of_lt hhigh (by decide)⟩
  all_goals decide

/-- There is nothing to trim about a numeral. -/
theorem trim_of_numeral {text : List Char} (h : ∀ c ∈ text, isNumeralChar c = true) : Text.trim text = text := by
  refine Text.trim_eq_self fun c hc => ?_
  obtain ⟨hlow, hhigh⟩ := toNat_of_isNumeralChar (h c hc)
  exact Text.isBlank_eq_false hlow hhigh

/-- No letter that announces a radix occurs in a decimal numeral. -/
theorem split?_of_numeral {text : List Char} (h : ∀ c ∈ text, isNumeralChar c = true) : Radix.split? text = none := by
  unfold Radix.split?
  split
  case h_1 mark rest =>
    have hmark := h mark (by simp)
    have hne {c : Char} (hc : isNumeralChar c = false) : mark ≠ c := by
      rintro rfl
      rw [hc] at hmark
      nomatch hmark
    simp [Radix.ofMark?, hne (c := 'x') rfl, hne (c := 'X') rfl, hne (c := 'o') rfl, hne (c := 'O') rfl,
      hne (c := 'b') rfl, hne (c := 'B') rfl]
  case h_2 => rfl

end Decimal

/-! ## Passing over numerals -/

namespace Decimal

/-- The scanner passes over as many digits as the reader takes, and stops at the same rest. -/
theorem skipFraction_eq (text : List Char) :
    skipFraction text = ((splitFraction text).1.length, (splitFraction text).2) := by
  unfold skipFraction splitFraction
  split <;> rfl

/-- A text is passed over as digits up to its end, and is not empty, if it is made of digits. -/
theorem skipDigits_iff {text : List Char} :
    (skipDigits text).1 ≠ 0 ∧ (skipDigits text).2 = [] ↔ text ≠ [] ∧ text.all Char.isDigit = true := by
  simp only [skipDigits, List.dropWhile_eq_nil_iff, List.all_eq_true, ne_eq, List.length_eq_zero_iff]
  refine and_congr_left fun hall => ?_
  rw [List.takeWhile_eq_self_iff.mpr hall]

/-- What is passed over as an exponent, up to the end, is what is read as one. -/
theorem skipExponent?_eq_some_nil_iff {text : List Char} :
    skipExponent? text = some [] ↔ ∃ exponent, readExponent? text = some exponent := by
  cases text with
  | nil => exact iff_of_true rfl ⟨0, rfl⟩
  | cons mark rest =>
    rw [skipExponent?, readExponent?]
    split_ifs with hmark
    · obtain ⟨negative, digits⟩ := splitSign rest
      simp only
      split_ifs with hcount hdigits hdigits
      · exact absurd hcount (skipDigits_iff.mpr hdigits).1
      · exact iff_of_false nofun nofun
      · exact iff_of_true (congrArg some (skipDigits_iff.mpr hdigits).2) ⟨_, rfl⟩
      · refine iff_of_false (fun hrest => hdigits (skipDigits_iff.mp ⟨hcount, Option.some.inj hrest⟩)) nofun
    · exact iff_of_false nofun nofun

/-- The texts that are passed over as numerals are those that are read as one. -/
theorem isNumeral_iff {text : List Char} : isNumeral text = true ↔ ∃ d, read? text = some d := by
  simp only [isNumeral, read?, skipFraction_eq, skipDigits]
  generalize (splitSign text).2 = body
  generalize splitFraction (body.dropWhile Char.isDigit) = parts
  have hnone : (body.takeWhile Char.isDigit).length + parts.1.length = 0 ↔
      body.takeWhile Char.isDigit = [] ∧ parts.1 = [] := by
    rw [Nat.add_eq_zero_iff, List.length_eq_zero_iff, List.length_eq_zero_iff]
  split_ifs with hdigits
  · rw [hnone.mpr hdigits]
    exact iff_of_false nofun nofun
  · rw [Bool.and_eq_true, decide_eq_true_eq, decide_eq_true_eq, and_iff_right (mt hnone.mp hdigits),
      skipExponent?_eq_some_nil_iff]
    simp only [Option.map_eq_some_iff, exists_comm, exists_and_left, exists_eq', and_true]

end Decimal

/-! ## Reading numerals -/

namespace Double

/-- There is no `n` of either case among the characters of numerals. -/
theorem toLower_ne_of_isNumeralChar {c : Char} (h : Decimal.isNumeralChar c = true) : c.toLower ≠ 'n' := by
  simp only [Decimal.isNumeralChar, Bool.or_eq_true, decide_eq_true_eq] at h
  rcases h with ((((h | rfl) | rfl) | rfl) | rfl) | rfl
  case inl.inl.inl.inl.inl =>
    have hdigit : c.toNat ≤ 57 := (Char.isDigit_iff_toNat.mp h).2
    unfold Char.toLower
    split
    case isTrue hupper =>
      have hletter : 65 ≤ c.toNat := hupper.1
      omega
    case isFalse =>
      rintro rfl
      exact absurd hdigit (by decide)
  all_goals decide

/-- No decimal numeral is a word for infinity or NaN, since these have an `n` in them. -/
theorem ofWord?_of_read? {text : List Char} {d : Decimal} (h : Decimal.read? text = some d) : ofWord? text = none := by
  have hword {word : List Char} (hn : 'n' ∈ word) : (splitSign text).2.map Char.toLower ≠ word := by
    rintro rfl
    obtain ⟨c, hc, hlower⟩ := List.mem_map.mp hn
    have hmem : c ∈ text := by
      unfold splitSign at hc
      split at hc
      · exact List.mem_cons_of_mem _ hc
      · exact List.mem_cons_of_mem _ hc
      · exact hc
    exact toLower_ne_of_isNumeralChar (Decimal.isNumeralChar_of_read? h c hmem) hlower
  simp only [ofWord?]
  rw [if_neg (not_or.mpr ⟨hword (by decide), hword (by decide)⟩), if_neg (hword (by decide))]

/-- A decimal numeral is read as its double. -/
theorem parse?_of_read? {text : List Char} {d : Decimal} (h : Decimal.read? text = some d) :
    parse? text = some d.toDouble := by
  rw [parse?, ofWord?_of_read? h, h]
  rfl

end Double

namespace Double

open Decimal

/-- A decimal numeral denotes its double. -/
theorem ofNumeral_of_read? {text : List Char} {d : Decimal} (h : Decimal.read? text = some d) :
    ofNumeral text = d.toDouble := by
  have hchars := isNumeralChar_of_read? h
  have hletter {word : List Char} (hi : 'I' ∈ word) : text ≠ word := by
    rintro rfl
    nomatch hchars 'I' hi
  have hne : text ≠ [] := by
    rintro rfl
    nomatch h
  rw [ofNumeral, if_neg hne, if_neg (not_or.mpr ⟨hletter (by decide), hletter (by decide)⟩), if_neg (hletter (by decide)),
    split?_of_numeral hchars]
  simp only [isNumeral_iff.mpr ⟨d, h⟩, parse?_of_read? h, if_true, Option.getD_some]

/-- A decimal numeral converts to its double. -/
theorem ofText_of_read? {s : String} {d : Decimal} (h : Decimal.read? s.toList = some d) : ofText s = d.toDouble := by
  rw [ofText, trim_of_numeral (isNumeralChar_of_read? h), ofNumeral_of_read? h]

end Double

end ScriptTree

import Mathlib.Data.List.DropRight
import ScriptTree.Proofs.Decimals
import ScriptTree.Proofs.IntegerTexts
import ScriptTree.Proofs.NearestDouble
import ScriptTree.Proofs.RadixRounding

/-!
# Texts of numbers

Which strings convert to a number, and which to a BigInt. `NumberText` is the grammar of the texts that a string may hold
between its blanks (`Text.Strips`) to be a number: nothing, infinity, digits behind a radix prefix, or a decimal numeral
(`DecimalText`). A string with any other text is NaN, and none of these is (`number_text_domain`).

A decimal numeral is passed over before it is read. Both ways follow the grammar (`isNumeral_iff_decimalText`,
`decimalText_iff_read?`), so the reader never refuses what was passed on to it. A BigInt is read from the texts of integers,
all of which are numbers too (`bigint_text_domain`).
-/

namespace ScriptTree

/-! ## Blanks at the ends -/

namespace Text

/-- A text is another one with blanks around it, and that one has no blank at its own ends. -/
structure Strips (text core : List Char) : Prop where
  between : ∃ before after, (∀ c ∈ before, isBlank c = true) ∧ (∀ c ∈ after, isBlank c = true) ∧
    text = before ++ (core ++ after)
  first : ∀ c ∈ core.head?, isBlank c = false
  last : ∀ c ∈ core.getLast?, isBlank c = false

/-- What is left of a trimmed text stands between blanks. -/
theorem strips_trim (text : List Char) : Strips text (trim text) := by
  have htext := List.takeWhile_append_dropWhile (p := isBlank) (l := text)
  have hrest : trim text ++ (text.dropWhile isBlank).rtakeWhile isBlank = text.dropWhile isBlank :=
    List.rdropWhile_append_rtakeWhile
  refine ⟨⟨text.takeWhile isBlank, (text.dropWhile isBlank).rtakeWhile isBlank, ?_, ?_, ?_⟩, ?_, ?_⟩
  · exact fun c hc => List.mem_takeWhile_imp hc
  · exact fun c hc => List.mem_rtakeWhile_imp hc
  · rw [hrest, htext]
  · intro c hc
    obtain ⟨tail, htrim⟩ := List.head?_eq_some_iff.mp hc
    have hhead : (text.dropWhile isBlank).head? = some c := by
      rw [← hrest, htrim]
      rfl
    have hnot := List.head?_dropWhile_not isBlank text
    rwa [hhead] at hnot
  · intro c hc
    obtain ⟨hne, rfl⟩ := List.mem_getLast?_eq_getLast hc
    exact Bool.eq_false_of_not_eq_true (List.rdropWhile_last_not isBlank (text.dropWhile isBlank) hne)

/-- What trimming leaves of a text is what stands between the blanks. -/
theorem strips_iff {text core : List Char} : Strips text core ↔ core = trim text := by
  constructor
  · rintro ⟨⟨before, after, hbefore, hafter, rfl⟩, hfirst, hlast⟩
    cases core with
    | nil =>
      have hall : ∀ c ∈ before ++ after, isBlank c = true := List.forall_mem_append.mpr ⟨hbefore, hafter⟩
      have hdrop : (before ++ after).dropWhile isBlank = [] := List.dropWhile_eq_nil_iff.mpr hall
      rw [List.nil_append, trim, hdrop]
      rfl
    | cons c rest =>
      have hdrop : (before ++ (c :: rest ++ after)).dropWhile isBlank = c :: rest ++ after :=
        dropWhile_append_of_head hbefore hfirst
      have hreverse : (c :: rest ++ after).reverse.dropWhile isBlank = (c :: rest).reverse := by
        rw [List.reverse_append]
        refine dropWhile_append_of_head (fun c hc => hafter c (List.mem_reverse.mp hc)) ?_
        rwa [List.head?_reverse]
      rw [trim, hdrop, hreverse, List.reverse_reverse]
  · rintro rfl
    exact strips_trim text

end Text

/-! ## The grammar -/

/-- What may stand for the sign before digits, and whether it is a minus. -/
inductive SignText : List Char → Bool → Prop
  | absent : SignText [] false
  | plus : SignText ['+'] false
  | minus : SignText ['-'] true

/-- A point and the digits behind it, all of which may be absent. -/
inductive PointText : List Char → List Char → Prop
  | absent : PointText [] []
  | present {digits : List Char} (h : ∀ c ∈ digits, c.isDigit = true) : PointText ('.' :: digits) digits

open Radix in
/-- The exponent of a decimal numeral, which may be absent, and its value. -/
inductive PowerText : List Char → ℤ → Prop
  | absent : PowerText [] 0
  | present {mark : Char} {sign digits : List Char} {negative : Bool} {n : ℕ} (hmark : mark = 'e' ∨ mark = 'E')
      (hsign : SignText sign negative) (hn : Denotes 10 digits n) : PowerText (mark :: (sign ++ digits)) (signed negative n)

open Radix in
/-- Decimal numerals, their sign and their magnitude: digits before or behind a point, or on both sides, and an exponent that
moves it. -/
inductive DecimalText : List Char → Bool → ℚ → Prop
  | mk {sign whole point fraction tail : List Char} {negative : Bool} {n : ℕ} {exponent : ℤ}
      (hsign : SignText sign negative) (hpoint : PointText point fraction) (hn : Denotes 10 (whole ++ fraction) n)
      (hpower : PowerText tail exponent) :
      DecimalText (sign ++ (whole ++ (point ++ tail))) negative (n * 10 ^ (exponent - fraction.length))

open Radix in
/-- The texts of numbers. -/
inductive NumberText : List Char → Prop
  | empty : NumberText []
  | infinity {sign : List Char} {negative : Bool} (hsign : SignText sign negative) :
      NumberText (sign ++ "Infinity".toList)
  | prefixed {mark : Char} {radix n : ℕ} {digits : List Char} (hmark : Announces mark radix) (hn : Denotes radix digits n) :
      NumberText ('0' :: mark :: digits)
  | decimal {text : List Char} {negative : Bool} {q : ℚ} (h : DecimalText text negative q) : NumberText text

/-! ## Decimal numerals -/

section Decimals

variable {text sign digits whole point fraction tail : List Char} {negative : Bool} {n : ℕ} {exponent : ℤ} {q : ℚ}

/-- Whatever a text begins with, its sign is split off. -/
theorem signText_splitSign (text : List Char) :
    ∃ sign, SignText sign (splitSign text).1 ∧ text = sign ++ (splitSign text).2 := by
  unfold splitSign
  split
  · exact ⟨['-'], .minus, rfl⟩
  · exact ⟨['+'], .plus, rfl⟩
  · exact ⟨[], .absent, rfl⟩

/-- A sign is split off digits, and no digit is. -/
theorem SignText.splitSign_append (hsign : SignText sign negative) (hn : Radix.Denotes 10 digits n) :
    splitSign (sign ++ digits) = (negative, digits) := by
  cases hsign with
  | absent => exact BigInt.splitSign_of_denotes (by decide) hn
  | plus | minus => rfl

/-- What the reader splits off behind the digits is a point with digits, or nothing. -/
theorem pointText_splitFraction (text : List Char) :
    ∃ point, PointText point (Decimal.splitFraction text).1 ∧ text = point ++ (Decimal.splitFraction text).2 := by
  unfold Decimal.splitFraction
  split
  case h_1 rest =>
    refine ⟨'.' :: rest.takeWhile Char.isDigit, .present fun c hc => List.mem_takeWhile_imp hc, ?_⟩
    rw [List.cons_append, List.takeWhile_append_dropWhile]
  case h_2 => exact ⟨[], .absent, rfl⟩

/-- What is read as an exponent is one. -/
theorem readExponent?_eq_some_iff : Decimal.readExponent? tail = some exponent ↔ PowerText tail exponent := by
  constructor
  · intro h
    cases tail with
    | nil =>
      cases h
      exact .absent
    | cons mark rest =>
      obtain ⟨sign, hsign, hrest⟩ := signText_splitSign rest
      simp only [Decimal.readExponent?] at h
      split_ifs at h with hmark hdigits
      obtain rfl := Option.some.inj h
      have hpower := PowerText.present hmark hsign (Radix.denotes_ten_iff.mpr ⟨hdigits, rfl⟩)
      rwa [← hrest] at hpower
  · rintro (_ | ⟨hmark, hsign, hn⟩)
    · rfl
    · obtain ⟨hdigits, hvalue⟩ := Radix.denotes_ten_iff.mp hn
      simp only [Decimal.readExponent?, if_pos hmark, hsign.splitSign_append hn, if_pos hdigits, hvalue]

/-- There are only digits behind a point. -/
theorem PointText.isDigit (h : PointText point fraction) : ∀ c ∈ fraction, c.isDigit = true := by
  cases h with
  | absent => exact List.forall_mem_nil _
  | present h => exact h

/-- The value of digits around a point. -/
theorem digitsValue_of_denotes (whole : List Char) {fraction : List Char} (hn : Radix.Denotes 10 (whole ++ fraction) n)
    (exponent : ℤ) :
    Decimal.digitsValue (whole ++ fraction) (whole.length + exponent) = n * 10 ^ (exponent - fraction.length) := by
  have hpoint : (whole.length : ℤ) + exponent - (whole ++ fraction).length = exponent - fraction.length := by
    rw [List.length_append]
    omega
  rw [Decimal.digitsValue, hpoint, (Radix.denotes_ten_iff.mp hn).2]

/-- Digits around a point and an exponent are a numeral, also if the digits are all on one side. -/
theorem denotes_of_pointText (hpoint : PointText point fraction) (hn : Radix.Denotes 10 (whole ++ fraction) n)
    (hpower : PowerText tail exponent) :
    Decimal.Denotes (whole ++ (point ++ tail)) (n * 10 ^ (exponent - fraction.length)) := by
  have hdigits := Radix.isDigit_of_denotes hn
  rw [List.forall_mem_append] at hdigits
  have htail := readExponent?_eq_some_iff.mpr hpower
  rw [← digitsValue_of_denotes whole hn]
  by_cases hwhole : whole = []
  · subst hwhole
    cases hpoint with
    | absent => exact absurd rfl hn.1
    | present => simpa using Decimal.denotes_fraction hdigits.2 hn.1 htail
  · cases hpoint with
    | absent =>
      rw [List.append_nil]
      exact Decimal.denotes_whole hdigits.1 hwhole htail
    | present => exact Decimal.denotes_point hdigits.1 hwhole hdigits.2 htail

/-- A plus differs from a minus in the sign alone. -/
theorem read?_plus (text : List Char) :
    Decimal.read? ('+' :: text) = (Decimal.read? ('-' :: text)).map fun d => { d with negative := false } := by
  simp only [Decimal.read?, splitSign]
  split_ifs
  · rfl
  · rw [Option.map_map]
    rfl

/-- A numeral is read behind any sign. -/
theorem SignText.read?_append (hsign : SignText sign negative) (h : Decimal.Denotes text q) :
    ∃ d, Decimal.read? (sign ++ text) = some d ∧ d.negative = negative ∧ d.magnitude = q := by
  cases hsign with
  | absent => exact h false
  | minus => exact h true
  | plus =>
    obtain ⟨d, hread, -, hvalue⟩ := h true
    have hplus := read?_plus text
    rw [show Decimal.read? ('-' :: text) = some d from hread] at hplus
    exact ⟨_, hplus, rfl, hvalue⟩

/-- The texts that are read as decimals are the decimal numerals, with their signs and magnitudes. -/
theorem decimalText_iff_read? :
    DecimalText text negative q ↔ ∃ d, Decimal.read? text = some d ∧ d.negative = negative ∧ d.magnitude = q := by
  constructor
  · rintro ⟨hsign, hpoint, hn, hpower⟩
    exact hsign.read?_append (denotes_of_pointText hpoint hn hpower)
  · rintro ⟨d, hread, rfl, rfl⟩
    obtain ⟨sign, hsign, htext⟩ := signText_splitSign text
    simp only [Decimal.read?] at hread
    generalize (splitSign text).2 = body at *
    obtain ⟨point, hpoint, hrest⟩ := pointText_splitFraction (body.dropWhile Char.isDigit)
    split_ifs at hread with hnone
    obtain ⟨exponent, hexponent, rfl⟩ := Option.map_eq_some_iff.mp hread
    have hdigits : ∀ c ∈ body.takeWhile Char.isDigit ++ (Decimal.splitFraction (body.dropWhile Char.isDigit)).1,
        c.isDigit = true :=
      List.forall_mem_append.mpr ⟨fun c hc => List.mem_takeWhile_imp hc, hpoint.isDigit⟩
    have hne := mt List.append_eq_nil_iff.mp hnone
    have hn := Radix.denotes_ten_iff.mpr ⟨⟨hne, List.all_eq_true.mpr hdigits⟩, rfl⟩
    have hdecimal := DecimalText.mk hsign hpoint hn (readExponent?_eq_some_iff.mp hexponent)
    rwa [← hrest, List.takeWhile_append_dropWhile, ← htext] at hdecimal

/-- The texts that are passed over as numerals are the decimal ones. -/
theorem isNumeral_iff_decimalText : Decimal.isNumeral text = true ↔ ∃ negative q, DecimalText text negative q := by
  rw [Decimal.isNumeral_iff]
  constructor
  · rintro ⟨d, hread⟩
    exact ⟨_, _, decimalText_iff_read?.mpr ⟨d, hread, rfl, rfl⟩⟩
  · rintro ⟨negative, q, h⟩
    obtain ⟨d, hread, -⟩ := decimalText_iff_read?.mp h
    exact ⟨d, hread⟩

end Decimals

/-! ## Conversion -/

namespace Double

variable {text sign : List Char} {negative : Bool} {q : ℚ}

/-- A number with another sign. -/
def withSign (negative : Bool) : Double → Double
  | .nan signaling => .nan signaling
  | .infinite _ => .infinite negative
  | .finite _ units fits => .finite negative units fits

/-- A sign can be put to a quotient before or after it is rounded. -/
theorem withSign_ofRatio (negative : Bool) (num den : ℕ) :
    (ofRatio false num den).withSign negative = ofRatio negative num den := by
  unfold ofRatio
  split <;> rfl

/-- No quotient is rounded to NaN. -/
theorem isNan_ofRatio (negative : Bool) (num den : ℕ) : (ofRatio negative num den).isNan = false := by
  unfold ofRatio
  split <;> rfl

/-- A decimal numeral is read as the double nearest to its magnitude, with its sign, and converts to what is read. -/
theorem exists_nearest_of_decimalText (h : DecimalText text negative q) :
    ∃ x, IsNearest q.num.toNat q.den x ∧ parse? text = some (x.withSign negative) ∧
      ofNumeral text = x.withSign negative := by
  obtain ⟨d, hread, rfl, hvalue⟩ := decimalText_iff_read?.mp h
  refine ⟨ofRatio false (q.num.toNat * unitsPerOne) q.den, (isNearest_iff q.pos).mpr rfl, ?_⟩
  rw [withSign_ofRatio, ← Decimal.toDouble_of_magnitude_eq hvalue]
  exact ⟨parse?_of_read? hread, ofNumeral_of_read? hread⟩

/-- The word for infinity is read with its sign. -/
theorem ofNumeral_infinity (hsign : SignText sign negative) :
    ofNumeral (sign ++ "Infinity".toList) = .infinite negative := by
  cases hsign <;> rfl

/-- What is no number in the grammar does not convert to one. -/
theorem numberText_of_ofNumeral (h : (ofNumeral text).isNan = false) : NumberText text := by
  unfold ofNumeral at h
  split at h
  case isTrue hempty => exact hempty ▸ .empty
  split at h
  case isTrue hplus =>
    rcases hplus with rfl | rfl
    · exact .infinity .absent
    · exact .infinity .plus
  split at h
  case isTrue hminus => exact hminus ▸ .infinity .minus
  split at h
  case h_1 radix digits hsplit =>
    obtain ⟨mark, hmark, rfl⟩ := Radix.split?_eq_some_iff.mp hsplit
    cases hdigits : Radix.digits? radix digits with
    | some ds => exact .prefixed hmark ((Radix.denotes_iff hmark.le.2).mpr (congrArg (Option.map _) hdigits))
    | none =>
      rw [hdigits] at h
      nomatch h
  case h_2 =>
    split at h
    case isTrue hnumeral =>
      obtain ⟨negative, q, hdecimal⟩ := isNumeral_iff_decimalText.mp hnumeral
      exact .decimal hdecimal
    case isFalse => nomatch h

/-- No text of the grammar converts to NaN. -/
theorem isNan_ofText_of_numberText {s : String} (h : NumberText (Text.trim s.toList)) : (ofText s).isNan = false := by
  generalize htext : Text.trim s.toList = text at h
  cases h with
  | empty =>
    rw [ofText, htext]
    rfl
  | infinity hsign =>
    rw [ofText, htext, ofNumeral_infinity hsign]
    rfl
  | prefixed hmark hn =>
    rw [ofText_of_radix_text htext hmark hn]
    exact isNan_ofRatio _ _ _
  | decimal h =>
    obtain ⟨d, hread, -⟩ := decimalText_iff_read?.mp h
    rw [ofText, htext, ofNumeral_of_read? hread, d.toDouble_eq_ofRatio]
    exact isNan_ofRatio _ _ _

end Double

/-- A string converts to a number other than NaN exactly if the text between its blanks is one of the grammar. No text gives
the positive zero, infinity the one of its sign, and a decimal numeral the nearest double with its sign: those are the texts
that are passed on to the reader of doubles, and it reads every one of them. -/
theorem number_text_domain (s : String) (text : List Char) (h : Text.Strips s.toList text) :
    ((Double.ofText s).isNan = false ↔ NumberText text) ∧
    (text = [] → Double.ofText s = .zero false) ∧
    (∀ sign negative, SignText sign negative → text = sign ++ "Infinity".toList →
      Double.ofText s = .infinite negative) ∧
    (Decimal.isNumeral text = true ↔ ∃ negative q, DecimalText text negative q) ∧
    (∀ negative q, DecimalText text negative q →
      ∃ x, Double.IsNearest q.num.toNat q.den x ∧ Double.parse? text = some (x.withSign negative) ∧
        Double.ofText s = x.withSign negative) := by
  obtain rfl := Text.strips_iff.mp h
  refine ⟨⟨Double.numberText_of_ofNumeral, Double.isNan_ofText_of_numberText⟩, ?_, ?_, isNumeral_iff_decimalText,
    fun negative q hdecimal => Double.exists_nearest_of_decimalText hdecimal⟩
  · intro hempty
    rw [Double.ofText, hempty]
    rfl
  · intro sign negative hsign htext
    rw [Double.ofText, htext, Double.ofNumeral_infinity hsign]

/-- A numeral without a digit before its point, between blanks beyond ASCII. -/
theorem fraction_between_blanks :
    let s := "\u00a0\t-.5e+1\u2029"
    let text := "-.5e+1".toList
    Text.Strips s.toList text ∧ DecimalText text true 5 ∧ (Double.ofText s).isNan = false ∧
      ∃ x, Double.IsNearest 5 1 x ∧ Double.ofText s = x.withSign true := by
  intro s text
  have hstrips : Text.Strips s.toList text := Text.strips_iff.mpr (by decide)
  have hdecimal : DecimalText text true 5 := by
    have hn : Radix.Denotes 10 ([] ++ ['5']) 5 := Radix.denotes_ten_iff.mpr (by decide)
    have hone : Radix.Denotes 10 ['1'] 1 := Radix.denotes_ten_iff.mpr (by decide)
    have hpoint : PointText ['.', '5'] ['5'] := .present (List.forall_mem_singleton.mpr rfl)
    have hpower : PowerText ['e', '+', '1'] (signed false 1) := .present (.inl rfl) .plus hone
    have h := DecimalText.mk .minus hpoint hn hpower
    norm_num at h
    exact h
  obtain ⟨hdomain, -, -, -, hvalue⟩ := number_text_domain s text hstrips
  obtain ⟨x, hnearest, -, hx⟩ := hvalue true 5 hdecimal
  exact ⟨hstrips, hdecimal, hdomain.mpr (.decimal hdecimal), x, hnearest, hx⟩

/-! ## BigInts -/

/-- Every text of an integer is one of a number. -/
theorem IntegerText.numberText {text : List Char} {v : ℤ} (h : IntegerText text v) : NumberText text := by
  have hsigned {sign digits : List Char} {negative : Bool} {n : ℕ} (hsign : SignText sign negative)
      (hn : Radix.Denotes 10 digits n) : NumberText (sign ++ digits) := by
    have hdecimal := DecimalText.mk hsign .absent (by rwa [List.append_nil]) .absent
    rw [List.append_nil, List.append_nil] at hdecimal
    exact .decimal hdecimal
  cases h with
  | empty => exact .empty
  | unsigned hn => exact hsigned .absent hn
  | plus hn => exact hsigned .plus hn
  | minus hn => exact hsigned .minus hn
  | prefixed hmark hn => exact .prefixed hmark hn

/-- A string converts to a BigInt exactly if the text between its blanks denotes that integer, with any number of leading
zeros and up to the ends of the range. Whatever converts to a BigInt converts to a number as well. -/
theorem bigint_text_domain (s : String) (text : List Char) (h : Text.Strips s.toList text) :
    (∀ b : BigInt, BigInt.ofText? s = some b ↔ IntegerText text b.val) ∧
    (∀ b : BigInt, BigInt.ofText? s = some b → (Double.ofText s).isNan = false) := by
  obtain rfl := Text.strips_iff.mp h
  refine ⟨fun b => BigInt.ofText?_eq_some_iff, fun b hb => ?_⟩
  exact Double.isNan_ofText_of_numberText (BigInt.ofText?_eq_some_iff.mp hb).numberText

/-- The least BigInt, with zeros in front; the first product that leaves the range is already too large for its opposite. -/
theorem least_bigint_between_blanks :
    let s := "\ufeff-00170141183460469231731687303715884105728\n"
    let text := "-00170141183460469231731687303715884105728".toList
    let least : BigInt := ⟨-bigIntBound, by decide, by decide⟩
    Text.Strips s.toList text ∧ IntegerText text least.val ∧ BigInt.ofText? s = some least ∧
      (Double.ofText s).isNan = false := by
  intro s text least
  have hstrips : Text.Strips s.toList text := Text.strips_iff.mpr (by decide)
  have hinteger : IntegerText text least.val := .minus (Radix.denotes_ten_iff.mpr (by decide +kernel))
  obtain ⟨hread, hnumber⟩ := bigint_text_domain s text hstrips
  have hleast := (hread least).mpr hinteger
  exact ⟨hstrips, hinteger, hleast, hnumber least hleast⟩

end ScriptTree

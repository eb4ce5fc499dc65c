import ScriptTree.Operation.Apply
import ScriptTree.Proofs.Comparison
import ScriptTree.Proofs.Interchange
import ScriptTree.Proofs.IntegerTexts
import ScriptTree.Proofs.PureExpressions
import ScriptTree.Proofs.ShortestDecimal

/-!
# Texts read back

The text of a number is laid out in one of several ways, and each of them is a decimal numeral with the value of the
shortest digits (`Layout.denotes_place`). So numbers and BigInts survive the way into a text and back, and are loosely equal
to what they give when they are joined with the empty text (`text_round_trip`).
-/

namespace ScriptTree

/-! ## Laying out -/

namespace Double

open Decimal

theorem isDigit_of_mem_zeros (count : Nat) : ∀ c ∈ List.replicate count '0', c.isDigit = true := fun c hc => by
  rw [List.eq_of_mem_replicate hc]
  rfl

section Layouts

variable {digits : List Char} (hdigits : ∀ c ∈ digits, c.isDigit = true) (hne : digits ≠ [])
include hdigits hne

/-- A whole number, padded with zeros, with nothing or a fraction of zero behind it. -/
theorem denotes_padded {wholeEnd : List Char} (hend : wholeEnd = [] ∨ wholeEnd = ['.', '0']) {point : Int}
    (hpoint : digits.length ≤ point) :
    Denotes (digits ++ (List.replicate (point - digits.length).toNat '0' ++ wholeEnd)) (digitsValue digits point) := by
  obtain ⟨count, hcount⟩ := Int.eq_ofNat_of_zero_le (Int.sub_nonneg.mpr hpoint)
  have hwhole : ∀ c ∈ digits ++ List.replicate count '0', c.isDigit = true := fun c hc =>
    (List.mem_append.mp hc).elim (hdigits c) (isDigit_of_mem_zeros count c)
  have hwholeNe : digits ++ List.replicate count '0' ≠ [] := List.append_ne_nil_of_left_ne_nil hne _
  have hlength : ((digits ++ List.replicate count '0').length : Int) + 0 = point := by
    rw [List.length_append, List.length_replicate]
    omega
  rw [hcount, Int.toNat_natCast, ← List.append_assoc]
  rcases hend with rfl | rfl
  · have hnumeral := denotes_whole hwhole hwholeNe (rfl : readExponent? [] = some 0)
    rwa [hlength, digitsValue_append_zeros] at hnumeral
  · have hnumeral := denotes_point hwhole hwholeNe (isDigit_of_mem_zeros 1) (rfl : readExponent? [] = some 0)
    rwa [hlength, digitsValue_append_zeros, digitsValue_append_zeros, List.append_nil] at hnumeral

omit hne in
/-- The point among the digits. -/
theorem denotes_inner {point : Int} (hpos : 0 < point) (hlt : point < digits.length) :
    Denotes (digits.take point.toNat ++ '.' :: digits.drop point.toNat) (digitsValue digits point) := by
  obtain ⟨count, rfl⟩ := Int.eq_ofNat_of_zero_le hpos.le
  have hlength : (digits.take count).length = count := by
    rw [List.length_take]
    omega
  have hwhole : ∀ c ∈ digits.take count, c.isDigit = true := fun c hc => hdigits c (List.mem_of_mem_take hc)
  have hfraction : ∀ c ∈ digits.drop count, c.isDigit = true := fun c hc => hdigits c (List.mem_of_mem_drop hc)
  have hnumeral := denotes_point hwhole (List.ne_nil_of_length_pos (by omega)) hfraction
    (rfl : readExponent? [] = some 0)
  rwa [List.append_nil, List.take_append_drop, hlength, Int.add_zero] at hnumeral

omit hne in
/-- The digits behind the point, and zeros between. -/
theorem denotes_below_one {point : Int} (hpoint : point ≤ 0) :
    Denotes ('0' :: '.' :: (List.replicate (-point).toNat '0' ++ digits)) (digitsValue digits point) := by
  obtain ⟨count, hcount⟩ := Int.eq_ofNat_of_zero_le (Int.neg_nonneg.mpr hpoint)
  have hfraction : ∀ c ∈ List.replicate count '0' ++ digits, c.isDigit = true := fun c hc =>
    (List.mem_append.mp hc).elim (isDigit_of_mem_zeros count c) (hdigits c)
  have hnumeral := denotes_point (isDigit_of_mem_zeros 1) (by decide) hfraction (rfl : readExponent? [] = some 0)
  rw [digitsValue_zeros_append, digitsValue_zeros_append, List.append_nil] at hnumeral
  have hvalue : ((List.replicate 1 '0').length : Int) + 0 - (1 : Nat) - count = point := by
    rw [List.length_replicate]
    omega
  rwa [hvalue, ← Int.toNat_natCast count, ← hcount] at hnumeral

omit hdigits hne in
/-- One digit before the point, if there are more, and an exponent. -/
theorem denotes_scientific {digit : Char} {rest : List Char} (hdigits : ∀ c ∈ digit :: rest, c.isDigit = true)
    (point : Int) :
    let tail := 'e' :: (if point - 1 < 0 then '-' else '+') :: Nat.toDigits 10 (point - 1).natAbs
    Denotes (digit :: ((if rest = [] then [] else '.' :: rest) ++ tail)) (digitsValue (digit :: rest) point) := by
  intro tail
  have htail : readExponent? tail = some (point - 1) := readExponent?_toDigits (point - 1)
  obtain ⟨hdigit, hrest⟩ := List.forall_mem_cons.mp hdigits
  have hwhole : ∀ c ∈ [digit], c.isDigit = true := List.forall_mem_singleton.mpr hdigit
  have hlength : (([digit].length : Nat) : Int) + (point - 1) = point := by
    rw [List.length_singleton]
    omega
  split
  case isTrue hnil =>
    subst hnil
    have hnumeral := denotes_whole hwhole (List.cons_ne_nil _ _) htail
    rwa [hlength] at hnumeral
  case isFalse =>
    have hnumeral := denotes_point hwhole (List.cons_ne_nil _ _) hrest htail
    rwa [hlength] at hnumeral

/-- Digits that are laid out around a point are a numeral of the value that they have around that point. -/
theorem Layout.denotes_place (layout : Layout) (hend : layout.wholeEnd = [] ∨ layout.wholeEnd = ['.', '0'])
    (point : Int) : Denotes (layout.place digits point) (digitsValue digits point) := by
  unfold Layout.place
  simp only
  split
  case isTrue hwhole => exact denotes_padded hdigits hne hend hwhole.1
  case isFalse hwhole =>
    split
    case isTrue hinner => exact denotes_inner hdigits hinner.1 (by omega)
    case isFalse =>
      split
      case isTrue hbelow => exact denotes_below_one hdigits hbelow.2
      case isFalse =>
        split
        case h_1 digit => exact denotes_scientific hdigits point
        case h_2 digit rest hrest =>
          have hnumeral := denotes_scientific hdigits point
          rw [if_neg hrest] at hnumeral
          exact hnumeral
        case h_3 => exact absurd rfl hne

end Layouts

/-- The text of a positive magnitude is a numeral of the value of its shortest digits. -/
theorem Layout.denotes_chars (layout : Layout) (hend : layout.wholeEnd = [] ∨ layout.wholeEnd = ['.', '0']) {units : Nat}
    (hpos : 0 < units) (fits : Representable units) :
    Denotes (layout.chars units)
      (digitsValue (shortestDigits layout.tie units).1 (shortestDigits layout.tie units).2) := by
  unfold Layout.chars
  rw [if_neg (Nat.ne_of_gt hpos)]
  exact layout.denotes_place (isDigit_of_mem_shortestDigits layout.tie units)
    (shortestDigits_ne_nil layout.tie hpos fits) hend _

end Double

/-! ## Numbers -/

namespace Double

open Decimal

/-- The characters of a finite number are its sign and the layout of its magnitude. -/
theorem toChars_finite (negative : Bool) {units : Nat} (fits : Representable units) (hpos : 0 < units) :
    (finite negative units fits).toChars = minus negative ++ scriptLayout.chars units := by
  simp [toChars, minus, Nat.ne_of_gt hpos]

/-- Zero is written without a sign. -/
theorem toText_zero (negative : Bool) (fits : Representable 0) : (finite negative 0 fits).toText = "0" := by
  cases negative <;> rfl

/-- The text of a number that is neither NaN, infinite nor zero is a decimal numeral of its sign and of the
value of its shortest digits. -/
theorem read?_toText (negative : Bool) {units : Nat} (fits : Representable units) (hpos : 0 < units) :
    ∃ d, Decimal.read? (finite negative units fits).toText.toList = some d ∧ d.negative = negative ∧
      d.magnitude = digitsValue (shortestDigits .up units).1 (shortestDigits .up units).2 := by
  rw [toText, String.toList_ofList, toChars_finite negative fits hpos]
  exact scriptLayout.denotes_chars (.inl rfl) hpos fits negative

/-- A number is read back from its text; zero loses its sign. -/
theorem ofText_toText {x : Double} (h : x.isNan = false) :
    ofText x.toText = if x = zero true then zero false else x := by
  cases x with
  | nan signaling => nomatch h
  | infinite negative =>
    rw [if_neg nofun]
    cases negative <;> decide
  | finite negative units fits =>
    rcases Nat.eq_zero_or_pos units with rfl | hpos
    · have hzero : ofText "0" = zero false := by decide
      rw [toText_zero, hzero]
      cases negative <;> rfl
    · obtain ⟨d, hread, hsign, hvalue⟩ := read?_toText negative fits hpos
      rw [ofText_of_read? hread, toDouble_of_magnitude .up hpos fits hvalue, hsign, if_neg]
      intro hzero
      cases hzero
      omega

/-- A number is read back to the last bit, but for the sign bit of zero. -/
theorem toBits_ofText_toText {bits : UInt64} (h : (ofBits bits).isNan = false) :
    (ofText (ofBits bits).toText).toBits = if bits = 0x8000000000000000 then 0 else bits := by
  have hzero : ofBits bits = zero true ↔ bits = 0x8000000000000000 := by
    constructor
    · intro hnumber
      rw [← toBits_ofBits h, hnumber]
      rfl
    · rintro rfl
      rfl
  rw [ofText_toText h]
  by_cases hbits : bits = 0x8000000000000000
  · rw [if_pos (hzero.mpr hbits), if_pos hbits]
    rfl
  · rw [if_neg (mt hzero.mp hbits), if_neg hbits, toBits_ofBits h]

end Double

/-! ## BigInts -/

namespace BigInt

open Decimal

/-- The characters of a BigInt are its sign and the decimal digits of its magnitude. -/
theorem toList_toText (b : BigInt) :
    b.toText.toList = minus (decide (b.val < 0)) ++ Nat.toDigits 10 b.val.natAbs := by
  unfold toText
  cases hn : b.val with
  | ofNat n => simp [Int.repr, minus, Nat.repr_eq_ofList_toDigits]
  | negSucc n => simp [Int.repr, minus, Nat.repr_eq_ofList_toDigits]

theorem isDigit_of_mem_digits (b : BigInt) : ∀ c ∈ Nat.toDigits 10 b.val.natAbs, c.isDigit = true :=
  fun _ hc => Nat.isDigit_of_mem_toDigits (by decide) (by decide) hc

/-- The text of a BigInt is a sign, if it is negative, and then its digits. -/
theorem splitSign_toText (b : BigInt) :
    splitSign b.toText.toList = (decide (b.val < 0), Nat.toDigits 10 b.val.natAbs) := by
  have hsign : splitSign (minus (decide (b.val < 0)) ++ (Nat.toDigits 10 b.val.natAbs ++ [])) = _ :=
    splitSign_minus_append b.isDigit_of_mem_digits Nat.toDigits_ne_nil (decide (b.val < 0))
  rwa [List.append_nil, ← toList_toText] at hsign

/-- The text of a BigInt reads as a decimal numeral. -/
theorem read?_toText (b : BigInt) : ∃ d, Decimal.read? b.toText.toList = some d := by
  obtain ⟨d, hread, -⟩ := denotes_whole b.isDigit_of_mem_digits Nat.toDigits_ne_nil
    (rfl : readExponent? [] = some 0) (decide (b.val < 0))
  rw [List.append_nil, ← toList_toText] at hread
  exact ⟨d, hread⟩

/-- A BigInt is read back from its text. -/
theorem ofText?_toText (b : BigInt) : ofText? b.toText = some b := by
  obtain ⟨d, hread⟩ := b.read?_toText
  have hchars := isNumeralChar_of_read? hread
  have htext : b.toText.toList ≠ [] := by
    intro hnil
    rw [hnil] at hread
    nomatch hread
  have hinteger : integerOfNumeral? b.toText.toList = some b.val := by
    rw [integerOfNumeral?, if_neg htext, split?_of_numeral hchars]
    simp only [splitSign_toText]
    rw [if_pos ⟨Nat.toDigits_ne_nil, List.all_eq_true.mpr b.isDigit_of_mem_digits⟩, Nat.ofDigitChars_ten_toDigits,
      signed_natAbs]
  rw [ofText?, trim_of_numeral hchars, ofNumeral?_eq, hinteger]
  exact ofInt?_eq_some_iff.mpr rfl

end BigInt

/-! ## Values and their texts -/

namespace Double

/-- A number other than NaN equals what its text is read as. -/
theorem equals_ofText_toText {x : Double} (h : x.isNan = false) : x.equals (ofText x.toText) = true := by
  rw [ofText_toText h]
  split
  case isTrue hzero =>
    rw [hzero]
    decide
  case isFalse => exact equals_self h

end Double

namespace Value

/-- The values that equal themselves and have a numeral for a text: the numbers other than NaN, and the BigInts. -/
def isNumeral : Value → Bool
  | .number x => !x.isNan
  | .bigint _ => true
  | _ => false

/-- A number or BigInt is loosely equal to what is left of it when it is joined with the empty text. -/
theorem equals_joined {v : Value} (h : v.isNumeral = true) :
    ∃ text, BinaryOperator.add.apply (.string "") v = .ok (.string text) ∧
      BinaryOperator.looseEqual.apply (.string text) v = .ok (.boolean true) := by
  cases v with
  | number x =>
    have hequal : x.equals (.ofText x.toText) = true := Double.equals_ofText_toText (by simpa [isNumeral] using h)
    refine ⟨x.toText, congrArg (Except.ok ∘ Value.string) (String.empty_append), ?_⟩
    exact congrArg (Except.ok ∘ Value.boolean) hequal
  | bigint b =>
    refine ⟨b.toText, congrArg (Except.ok ∘ Value.string) (String.empty_append), ?_⟩
    refine congrArg (Except.ok ∘ Value.boolean) ?_
    rw [b.ofText?_toText]
    exact beq_self_eq_true _
  | _ => nomatch h

end Value

/-- The expression `("" + name) == name`. -/
def Node.equalsJoined (outer inner empty first second : Span) (name : String) : Node :=
  .binary outer (.binary inner (.literal empty (.string "")) .add (.identifier first name)) .looseEqual
    (.identifier second name)

/-- The comparison of a value with itself as a text yields `true`, and has no effect. -/
theorem Node.yields_equalsJoined {cx : Context} {s : State} {name : String} {v : Value} (hv : v.isNumeral = true)
    (hroom : s.HasRoom cx 3) (hget : s.environment.get name = .ok v) (outer inner empty first second : Span) :
    Yields cx s (equalsJoined outer inner empty first second name) (.boolean true) := by
  obtain ⟨text, hjoined, hequal⟩ := Value.equals_joined hv
  have hinner := hroom.inside (equalsJoined outer inner empty first second name)
  have hliteral := hinner.inside (.binary inner (.literal empty (.string "")) .add (.identifier first name))
  refine Yields.binary outer hroom ?_ (Yields.identifier second hinner hget) hequal
  exact Yields.binary inner hinner (Yields.literal empty hliteral rfl) (Yields.identifier first hliteral hget) hjoined

/-- Texts read back. A number is read back from its text, and to the last bit, except that zero loses its sign; the text of
one that is neither infinite nor zero is a decimal numeral of its sign and of the value of its shortest digits around their
point.
A BigInt is read back from its text. So a number other than NaN and a BigInt is loosely equal to what it gives when it is
joined with the empty text, and a script that compares the two finds that out. -/
theorem text_round_trip :
    (∀ x : Double, x.isNan = false → Double.ofText x.toText = if x = .zero true then .zero false else x) ∧
    (∀ bits, (Double.ofBits bits).isNan = false →
      (Double.ofText (Double.ofBits bits).toText).toBits = if bits = 0x8000000000000000 then 0 else bits) ∧
    (∀ negative units fits, 0 < units →
      ∃ d, Decimal.read? (Double.finite negative units fits).toText.toList = some d ∧ d.negative = negative ∧
        d.magnitude = Decimal.digitsValue (Double.shortestDigits .up units).1 (Double.shortestDigits .up units).2) ∧
    (∀ b : BigInt, BigInt.ofText? b.toText = some b) ∧
    (∀ v : Value, v.isNumeral = true →
      ∃ text, BinaryOperator.add.apply (.string "") v = .ok (.string text) ∧
        BinaryOperator.looseEqual.apply (.string text) v = .ok (.boolean true)) ∧
    ∀ (cx : Context) (s : State) (name : String) (v : Value) (outer inner empty first second : Span),
      v.isNumeral = true → s.HasRoom cx 3 → s.environment.get name = .ok v →
      Yields cx s (.equalsJoined outer inner empty first second name) (.boolean true) :=
  ⟨fun _ => Double.ofText_toText, fun _ => Double.toBits_ofText_toText,
    fun negative _ fits => Double.read?_toText negative fits, BigInt.ofText?_toText, fun _ => Value.equals_joined,
    fun _ _ _ _ outer inner empty first second hv hroom hget =>
      Node.yields_equalsJoined hv hroom hget outer inner empty first second⟩

/-- The number `-1e21`, the first on its side of zero that is written with an exponent. -/
theorem exponent_reads_back :
    let x : Double := .ofBits 0xc44b1ae4d6e2ef50
    let units := 1000000000000000000000 * unitsPerOne
    let s := State.empty.afterBound ⟨"v", .number x, .const⟩
    let script : Node := .equalsJoined default default default default default "v"
    x.toText = "-1e+21" ∧ x.isNan = false ∧ Double.ofText x.toText = x ∧ (Double.ofText x.toText).toBits = 0xc44b1ae4d6e2ef50 ∧
      0 < units ∧
      (∃ d, Decimal.read? x.toText.toList = some d ∧ d.negative = true ∧
        d.magnitude = Decimal.digitsValue (Double.shortestDigits .up units).1 (Double.shortestDigits .up units).2) ∧
      (Value.number x).isNumeral = true ∧ s.HasRoom ⟨3, .silent⟩ 3 ∧ s.environment.get "v" = .ok (.number x) ∧
      (script.evaluate ⟨3, .silent⟩).outcome s = .ok (.boolean true) := by
  intro x units s script
  obtain ⟨hnumbers, hbits, hnumerals, -, -, hscripts⟩ := text_round_trip
  have fits : Representable units := ⟨by decide +kernel, by decide +kernel⟩
  have hx : x = .finite true units fits := by rfl
  have hnan : x.isNan = false := by rfl
  have hzero : x ≠ .zero true := by decide +kernel
  have hpos : 0 < units := by decide +kernel
  have hnumeral : (Value.number x).isNumeral = true := by rfl
  have hroom : s.HasRoom ⟨3, .silent⟩ 3 := ⟨rfl, Nat.le_refl 3⟩
  have hget : s.environment.get "v" = .ok (.number x) := by rfl
  have hread := hnumbers x hnan
  have hreadBits := hbits 0xc44b1ae4d6e2ef50 hnan
  have hdecimal := hnumerals true units fits hpos
  rw [if_neg hzero] at hread
  rw [if_neg (by decide)] at hreadBits
  rw [← hx] at hdecimal
  exact ⟨by decide +kernel, hnan, hread, hreadBits, hpos, hdecimal, hnumeral, hroom, hget,
    (hscripts _ _ _ _ _ _ _ _ _ hnumeral hroom hget).1⟩

end ScriptTree

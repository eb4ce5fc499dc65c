import ScriptTree.Proofs.LiteralObjects
import ScriptTree.Proofs.NumberTexts

/-!
# Numeric literals

The source texts of numeric literals and their values: a decimal one has whole digits, a fraction and an exponent
(`DecimalLiteral`), one of another radix has digits behind a prefix (`PrefixedLiteral`), and digits may be set apart by
single separators. A number that JSON has no value for is decoded from its source text. A decimal text of any length gives the
nearest double (`Double.ofLiteral?_of_decimal`), but the decoder does not know the other notation
(`Double.ofLiteral?_of_prefixed`): of the literals beyond every double just the decimal ones are infinity, and the others are
refused (`overflowing_literal_iff`).
-/

namespace ScriptTree

/-! ## The grammar -/

/-- A text is made of digits, with single separators between some of them. -/
inductive Separated : List Char → List Char → Prop
  | last (c : Char) : Separated [c] [c]
  | next (c : Char) {text digits : List Char} (h : Separated text digits) : Separated (c :: text) (c :: digits)
  | apart (c : Char) {text digits : List Char} (h : Separated text digits) : Separated (c :: '_' :: text) (c :: digits)

/-- The digits before the point of a decimal literal: a zero alone, digits that begin with another one, or digits behind a
zero that are not all octal, without separators. -/
inductive WholeDigits : List Char → List Char → Prop
  | zero : WholeDigits ['0'] ['0']
  | separated {text digits : List Char} (h : Separated text digits) (hlead : digits.head? ≠ some '0') :
      WholeDigits text digits
  | notOctal {digits : List Char} (h : '8' ∈ digits ∨ '9' ∈ digits) : WholeDigits ('0' :: digits) ('0' :: digits)

/-- The point of a decimal literal and the digits behind it, all of which may be absent. -/
inductive FractionText : List Char → List Char → Prop
  | absent : FractionText [] []
  | point : FractionText ['.'] []
  | digits {text digits : List Char} (h : Separated text digits) : FractionText ('.' :: text) digits

open Radix in
/-- The exponent of a decimal literal and its value. -/
inductive ExponentText : List Char → ℤ → Prop
  | absent : ExponentText [] 0
  | unsigned {mark : Char} {text digits : List Char} {n : ℕ} (hmark : mark = 'e' ∨ mark = 'E') (h : Separated text digits)
      (hn : Denotes 10 digits n) : ExponentText (mark :: text) n
  | plus {mark : Char} {text digits : List Char} {n : ℕ} (hmark : mark = 'e' ∨ mark = 'E') (h : Separated text digits)
      (hn : Denotes 10 digits n) : ExponentText (mark :: '+' :: text) n
  | minus {mark : Char} {text digits : List Char} {n : ℕ} (hmark : mark = 'e' ∨ mark = 'E') (h : Separated text digits)
      (hn : Denotes 10 digits n) : ExponentText (mark :: '-' :: text) (-n)

open Radix in
/-- Decimal literals and their values: all the digits together, with the point moved by the exponent. -/
inductive DecimalLiteral : List Char → ℚ → Prop
  | whole {text digits point fraction tail : List Char} {n : ℕ} {exponent : ℤ} (hwhole : WholeDigits text digits)
      (hfraction : FractionText point fraction) (hn : Denotes 10 (digits ++ fraction) n)
      (hexponent : ExponentText tail exponent) :
      DecimalLiteral (text ++ (point ++ tail)) (n * 10 ^ (exponent - fraction.length))
  | fraction {text digits tail : List Char} {n : ℕ} {exponent : ℤ} (h : Separated text digits) (hn : Denotes 10 digits n)
      (hexponent : ExponentText tail exponent) :
      DecimalLiteral ('.' :: (text ++ tail)) (n * 10 ^ (exponent - digits.length))

open Radix in
/-- Literals of another radix and their values. -/
inductive PrefixedLiteral : List Char → ℚ → Prop
  | mk {mark : Char} {radix : ℕ} {text digits : List Char} {n : ℕ} (hmark : Announces mark radix)
      (h : Separated text digits) (hn : Denotes radix digits n) : PrefixedLiteral ('0' :: mark :: text) n

/-! ## Dropping separators -/

/-- A text without its separators. -/
def dropSeparators (text : List Char) : List Char := text.filter (· ≠ '_')

section Separators

variable {text digits point tail : List Char} {c : Char} {n : ℕ} {exponent : ℤ}

/-- A character that is no separator stays. -/
theorem dropSeparators_cons (h : c ≠ '_') : dropSeparators (c :: text) = c :: dropSeparators text :=
  List.filter_cons_of_pos (decide_eq_true h)

theorem dropSeparators_append : dropSeparators (text ++ tail) = dropSeparators text ++ dropSeparators tail :=
  List.filter_append _ _

/-- No digit of any radix is a separator. -/
theorem Radix.IsDigit.ne_separator {radix d : ℕ} (hradix : radix ≤ 16) (h : Radix.IsDigit radix c d) : c ≠ '_' := by
  rintro rfl
  obtain ⟨hd, hchar⟩ := h
  have hd : d < 16 := Nat.lt_of_lt_of_le hd hradix
  interval_cases d <;> revert hchar <;> decide

/-- There is no separator among digits that denote a number. -/
theorem Radix.Denotes.ne_separator {radix : ℕ} (hradix : radix ≤ 16) (h : Radix.Denotes radix digits n) :
    ∀ c ∈ digits, c ≠ '_' := by
  obtain ⟨-, ds, hds, -⟩ := h
  induction hds with
  | nil => exact List.forall_mem_nil _
  | cons hdigit _ ih => exact List.forall_mem_cons.mpr ⟨hdigit.ne_separator hradix, ih⟩

/-- Without its separators the text of some digits is these digits. -/
theorem Separated.dropSeparators_eq (h : Separated text digits) (hdigits : ∀ c ∈ digits, c ≠ '_') :
    dropSeparators text = digits := by
  induction h with
  | last c =>
    rw [dropSeparators_cons (hdigits c List.mem_cons_self)]
    rfl
  | next c h ih =>
    rw [List.forall_mem_cons] at hdigits
    rw [dropSeparators_cons hdigits.1, ih hdigits.2]
  | @apart c text digits h ih =>
    rw [List.forall_mem_cons] at hdigits
    rw [dropSeparators_cons hdigits.1, ← ih hdigits.2]
    rfl

/-- Digits need no separators. -/
theorem Separated.self (h : digits ≠ []) : Separated digits digits := by
  induction digits with
  | nil => exact absurd rfl h
  | cons c rest ih =>
    cases rest with
    | nil => exact .last c
    | cons _ _ => exact .next c (ih (List.cons_ne_nil _ _))

/-- Without its separators the text before the point is its digits. -/
theorem WholeDigits.dropSeparators_eq (h : WholeDigits text digits) (hdigits : ∀ c ∈ digits, c ≠ '_') :
    dropSeparators text = digits := by
  cases h with
  | separated h _ => exact h.dropSeparators_eq hdigits
  | zero => rfl
  | notOctal => exact List.filter_eq_self.mpr fun c hc => decide_eq_true (hdigits c hc)

/-- The exponent of a literal is that of a numeral, its separators dropped. -/
theorem ExponentText.powerText (h : ExponentText tail exponent) : PowerText (dropSeparators tail) exponent := by
  have hmarked {mark : Char} (hmark : mark = 'e' ∨ mark = 'E') : mark ≠ '_' := by
    rcases hmark with rfl | rfl <;> decide
  cases h with
  | absent => exact .absent
  | unsigned hmark h hn =>
    rw [dropSeparators_cons (hmarked hmark), h.dropSeparators_eq (hn.ne_separator (by decide))]
    exact .present hmark .absent hn
  | plus hmark h hn =>
    rw [dropSeparators_cons (hmarked hmark), dropSeparators_cons (by decide),
      h.dropSeparators_eq (hn.ne_separator (by decide))]
    exact .present hmark .plus hn
  | minus hmark h hn =>
    rw [dropSeparators_cons (hmarked hmark), dropSeparators_cons (by decide),
      h.dropSeparators_eq (hn.ne_separator (by decide))]
    exact .present hmark .minus hn

/-- So is what stands behind the point. -/
theorem FractionText.pointText {fraction : List Char} (h : FractionText point fraction)
    (hdigits : ∀ c ∈ fraction, c.isDigit = true) : PointText (dropSeparators point) fraction := by
  cases h with
  | absent => exact .absent
  | point => exact .present (List.forall_mem_nil _)
  | digits h =>
    have hseparator : ∀ c ∈ fraction, c ≠ '_' := by
      rintro c hc rfl
      nomatch hdigits '_' hc
    rw [dropSeparators_cons (by decide), h.dropSeparators_eq hseparator]
    exact .present hdigits

/-- A decimal literal is a numeral of its value, its separators dropped. -/
theorem DecimalLiteral.decimalText {q : ℚ} (h : DecimalLiteral text q) : DecimalText (dropSeparators text) false q := by
  cases h with
  | whole hwhole hfraction hn hexponent =>
    have hdigits := Radix.isDigit_of_denotes hn
    have hseparator := hn.ne_separator (by decide)
    rw [List.forall_mem_append] at hdigits hseparator
    rw [dropSeparators_append, dropSeparators_append, hwhole.dropSeparators_eq hseparator.1]
    exact .mk .absent (hfraction.pointText hdigits.2) hn hexponent.powerText
  | @fraction text digits tail n exponent h hn hexponent =>
    have hbehind : Radix.Denotes 10 ([] ++ digits) n := hn
    rw [dropSeparators_cons (by decide), dropSeparators_append, h.dropSeparators_eq (hn.ne_separator (by decide))]
    exact .mk .absent (.present (Radix.isDigit_of_denotes hn)) hbehind hexponent.powerText

end Separators

/-! ## Reading literals -/

namespace Double

/-- A decimal literal of any length is read as the double nearest to its value. -/
theorem ofLiteral?_of_decimal {raw : String} {q : ℚ} (h : DecimalLiteral raw.toList q) :
    ∃ x, ofLiteral? raw = some x ∧ IsNearest q.num.toNat q.den x := by
  obtain ⟨x, hnearest, hread, -⟩ := exists_nearest_of_decimalText h.decimalText
  have hpositive : x.withSign false = x := by cases hnearest <;> rfl
  rw [hpositive] at hread
  exact ⟨x, hread, hnearest⟩

/-- A literal behind a radix prefix is not read at all. -/
theorem ofLiteral?_of_prefixed {raw : String} {q : ℚ} (h : PrefixedLiteral raw.toList q) : ofLiteral? raw = none := by
  generalize htext : raw.toList = text at h
  obtain @⟨mark, radix, text, digits, n, hmark, -, -⟩ := h
  have hdrop : raw.toList.filter (· ≠ '_') = '0' :: dropSeparators (mark :: text) := by
    rw [htext]
    exact dropSeparators_cons (by decide)
  have hword (rest : List Char) : ofWord? ('0' :: rest) = none := rfl
  have hread : Decimal.read? ('0' :: dropSeparators (mark :: text)) = none := by
    simp only [Radix.Announces, List.mem_cons, Prod.mk.injEq, List.not_mem_nil, or_false] at hmark
    rcases hmark with ⟨rfl, -⟩ | ⟨rfl, -⟩ | ⟨rfl, -⟩ | ⟨rfl, -⟩ | ⟨rfl, -⟩ | ⟨rfl, -⟩ <;> rfl
  simp only [ofLiteral?, parse?, hdrop, hword, hread, Option.map_none]

end Double

/-! ## The objects of literals -/

/-- An object is a literal that has no value in JSON and is given by its source text. It may hold anything that is no field of
a literal; offsets of its span that are there have to be offsets. -/
structure GivenBySource (members : List (String × Json)) (span : Span) (raw : String) : Prop where
  type : (members.filter fun member => member.1 = "type") = [("type", .string "Literal")]
  offsets : decodeSpan members = .ok span
  fields : (members.filter fun member => member.1 ∈ ["value", "raw", "regex", "bigint"]).Perm
    [("value", .null), ("raw", .string raw)]

section Source

variable {members : List (String × Json)} {span : Span} {raw : String}

/-- Of the fields that make up a literal, such an object has no value and a source text, and nothing else. -/
theorem GivenBySource.cases_of_mem (h : GivenBySource members span raw) {name : String} {value : Json}
    (hname : name ∈ valueFields) (hm : (name, value) ∈ members) :
    name = "value" ∧ value = .null ∨ name = "raw" ∧ value = .string raw := by
  have hfield := h.fields.mem_iff.mp (List.mem_filter.mpr ⟨hm, decide_eq_true hname⟩)
  simpa only [List.mem_cons, Prod.mk.injEq, List.not_mem_nil, or_false] using hfield

/-- Such an object is one of a literal, whatever else it holds. -/
theorem GivenBySource.literalObject (h : GivenBySource members span raw) : LiteralObject members span where
  kind := kindOf_eq_ok_iff.mpr ⟨_, h.type, rfl⟩
  offsets := h.offsets
  once := by
    rw [List.filter_map]
    exact (h.fields.map Prod.fst).nodup_iff.mpr (by decide : ["value", "raw"].Nodup)
  raw := by
    intro value hm
    rcases h.cases_of_mem (by decide) hm with ⟨hname, -⟩ | ⟨-, hvalue⟩
    · exact absurd hname (by decide)
    · exact .inr ⟨raw, hvalue⟩
  regex := by
    intro value hm
    rcases h.cases_of_mem (by decide) hm with ⟨hname, -⟩ | ⟨hname, -⟩ <;> exact absurd hname (by decide)
  bigint := by
    intro value hm
    rcases h.cases_of_mem (by decide) hm with ⟨hname, -⟩ | ⟨hname, -⟩ <;> exact absurd hname (by decide)

/-- Of the fields of a literal it has nothing but the source. -/
theorem GivenBySource.ofMembers_eq (h : GivenBySource members span raw) :
    LiteralFields.ofMembers members = ⟨.null, some raw, none, none⟩ := by
  have hlookup (name : String) (hname : name ∈ valueFields) :
      members.lookup name = [("value", Json.null), ("raw", .string raw)].lookup name := by
    rw [← lookup_filter (p := fun name => name ∈ valueFields) (decide_eq_true hname) members]
    exact lookup_eq_of_perm h.fields ((h.fields.map Prod.fst).nodup_iff.mpr (by decide : ["value", "raw"].Nodup)) name
  rw [LiteralFields.ofMembers, hlookup "value" (by decide), hlookup "raw" (by decide), hlookup "regex" (by decide),
    hlookup "bigint" (by decide)]
  rfl

/-- Such a literal is what its source text stands for. -/
theorem GivenBySource.ofJson (h : GivenBySource members span raw) :
    Node.ofJson (.object members) =
      (LiteralFields.literal ⟨.null, some raw, none, none⟩).map fun value => .literal span value := by
  rw [h.literalObject.ofJson, h.ofMembers_eq]

/-- Fields with nothing but a source are the number that is read from it, or are refused. -/
theorem literal_of_source (h : raw ≠ "null") :
    LiteralFields.literal ⟨.null, some raw, none, none⟩ =
      ((Double.ofLiteral? raw).elim (.error (.undecodableNumber raw)) fun x => .ok (.number x)) := by
  simp only [LiteralFields.literal, LiteralFields.plainValue, if_neg h]
  cases Double.ofLiteral? raw <;> rfl

/-- A literal beyond every double, given by its source text, is infinity exactly if it is a decimal one.
One of another radix is refused. -/
theorem overflowing_literal_iff (members : List (String × Json)) (span : Span) (raw : String) (q : ℚ)
    (hobject : GivenBySource members span raw) (hliteral : DecimalLiteral raw.toList q ∨ PrefixedLiteral raw.toList q)
    (hnearest : Double.IsNearest q.num.toNat q.den (.infinite false)) :
    (Node.ofJson (.object members) = .ok (.literal span (.number (.infinite false))) ↔ DecimalLiteral raw.toList q) ∧
    (Node.ofJson (.object members) = .error (.undecodableNumber raw) ↔ PrefixedLiteral raw.toList q) := by
  rw [hobject.ofJson]
  rcases hliteral with hdecimal | hprefixed
  · obtain ⟨x, hx, hnear⟩ := Double.ofLiteral?_of_decimal hdecimal
    obtain rfl : x = .infinite false := by
      rw [Double.isNearest_iff q.pos] at hnear hnearest
      rw [hnear, hnearest]
    have hplain : raw ≠ "null" := by
      rintro rfl
      nomatch hx
    have hother : ¬PrefixedLiteral raw.toList q := by
      intro hprefixed
      rw [Double.ofLiteral?_of_prefixed hprefixed] at hx
      nomatch hx
    rw [literal_of_source hplain, hx]
    exact ⟨iff_of_true rfl hdecimal, iff_of_false nofun hother⟩
  · have hnone := Double.ofLiteral?_of_prefixed hprefixed
    have hplain : raw ≠ "null" := by
      rintro rfl
      nomatch hprefixed
    have hother : ¬DecimalLiteral raw.toList q := by
      intro hdecimal
      obtain ⟨x, hx, -⟩ := Double.ofLiteral?_of_decimal hdecimal
      rw [hnone] at hx
      nomatch hx
    rw [literal_of_source hplain, hnone]
    exact ⟨iff_of_false nofun hother, iff_of_true rfl hprefixed⟩

end Source

/-- The members of a literal that is given by its source text. -/
def sourceMembers (raw : String) : List (String × Json) :=
  [("type", .string "Literal"), ("start", .integer 0), ("end", .integer raw.length), ("value", .null), ("raw", .string raw)]

/-- The members with a source and nothing else that counts. -/
theorem givenBySource_sourceMembers (raw : String) : GivenBySource (sourceMembers raw) ⟨0, raw.length⟩ raw :=
  ⟨rfl, rfl, .of_eq rfl⟩

/-- Separators in the digits and in the exponent do not keep a decimal literal from being infinity. -/
theorem separated_literal_infinite :
    let raw := "1_0e4_00"
    DecimalLiteral raw.toList (10 ^ 401 : ℕ) ∧ Double.IsNearest (10 ^ 401) 1 (.infinite false) ∧
      Node.ofJson (.object (sourceMembers raw)) = .ok (.literal ⟨0, raw.length⟩ (.number (.infinite false))) := by
  intro raw
  have hdecimal : DecimalLiteral raw.toList (10 ^ 401 : ℕ) := by
    have hwhole : WholeDigits ['1', '_', '0'] ['1', '0'] := .separated (.apart '1' (.last '0')) (by decide)
    have hdigits : Radix.Denotes 10 ['1', '0'] 10 := Radix.denotes_ten_iff.mpr (by decide)
    have hexponent : ExponentText ['e', '4', '_', '0', '0'] (400 : ℕ) :=
      .unsigned (.inl rfl) (.apart '4' (.next '0' (.last '0'))) (Radix.denotes_ten_iff.mpr (by decide))
    have hvalue : ((10 ^ 401 : ℕ) : ℚ) = (10 : ℕ) * 10 ^ (((400 : ℕ) : ℤ) - ([] : List Char).length) := by
      rw [List.length_nil, Nat.cast_zero, sub_zero, zpow_natCast, Nat.cast_pow, Nat.cast_ofNat, pow_succ']
    have htext : raw.toList = ['1', '_', '0'] ++ ([] ++ ['e', '4', '_', '0', '0']) := by decide
    rw [hvalue, htext]
    exact .whole hwhole .absent hdigits hexponent
  have hnearest : Double.IsNearest (10 ^ 401) 1 (.infinite false) := by
    rw [Double.isNearest_iff Nat.one_pos]
    decide +kernel
  refine ⟨hdecimal, hnearest, ?_⟩
  obtain ⟨hinfinite, -⟩ := overflowing_literal_iff _ _ _ _ (givenBySource_sourceMembers raw) (.inl hdecimal)
    (by rwa [Rat.num_natCast, Rat.den_natCast, Int.toNat_natCast])
  exact hinfinite.mpr hdecimal

/-- The hexadecimal literal of `2 ^ 1024` should be infinity and is refused. -/
theorem hexadecimal_literal_refused :
    let raw := String.ofList ('0' :: 'x' :: '1' :: List.replicate 256 '0')
    PrefixedLiteral raw.toList (2 ^ 1024 : ℕ) ∧ Double.IsNearest (2 ^ 1024) 1 (.infinite false) ∧
      GivenBySource (sourceMembers raw) ⟨0, raw.length⟩ raw ∧
      Node.ofJson (.object (sourceMembers raw)) ≠ .ok (.literal ⟨0, raw.length⟩ (.number (.infinite false))) ∧
      Node.ofJson (.object (sourceMembers raw)) = .error (.undecodableNumber raw) := by
  intro raw
  have hprefixed : PrefixedLiteral raw.toList (2 ^ 1024 : ℕ) := by
    have hdigits : Radix.Denotes 16 ('1' :: List.replicate 256 '0') (2 ^ 1024) :=
      (Radix.denotes_iff (by decide)).mpr (by decide +kernel)
    rw [String.toList_ofList]
    exact .mk (by decide) (.self (List.cons_ne_nil _ _)) hdigits
  have hnearest : Double.IsNearest (2 ^ 1024) 1 (.infinite false) := by
    rw [Double.isNearest_iff Nat.one_pos]
    decide +kernel
  have hobject := givenBySource_sourceMembers raw
  have hplain : raw ≠ "null" := by decide +kernel
  have hrefused : Node.ofJson (.object (sourceMembers raw)) = .error (.undecodableNumber raw) := by
    rw [hobject.ofJson, literal_of_source hplain, Double.ofLiteral?_of_prefixed hprefixed]
    rfl
  refine ⟨hprefixed, hnearest, hobject, ?_, hrefused⟩
  rw [hrefused]
  exact nofun

end ScriptTree

import Mathlib.Data.List.Forall2
import Mathlib.Data.Nat.Digits.Defs
import Mathlib.Tactic.IntervalCases
import ScriptTree.BigInt.OfText
import ScriptTree.Proofs.Rounding

/-!
# Texts of integers

Which texts denote an integer, and which one. `Radix.Denotes` is the meaning of a row of digits: digit by digit the value
in the positional system of the radix. `IntegerText` is the grammar of the texts that a script may convert to an integer:
nothing, a decimal numeral with or without a sign, or a numeral of another radix behind its prefix. `integerOfNumeral?` finds
the integer of any size that a text denotes (`integerOfNumeral?_eq_some_iff`).

The reader of BigInts checks the range at every digit. As each digit leads away from zero, that comes to one check at the end
(`parse?_eq`), so it reads exactly the texts whose integer is in range (`BigInt.ofText?_eq_some_iff`).
-/

namespace ScriptTree

namespace Radix

/-- A character is the digit of a value in a radix: the value is below the radix, and the character the usual one for it, a
letter in either case. -/
def IsDigit (radix : Nat) (c : Char) (d : Nat) : Prop :=
  d < radix ∧ (c = Nat.digitChar d ∨ c = (Nat.digitChar d).toUpper)

instance (radix : Nat) (c : Char) (d : Nat) : Decidable (IsDigit radix c d) := inferInstanceAs (Decidable (_ ∧ _))

/-- A nonempty text of digits of a radix denotes the number that has these digits in the positional system. -/
def Denotes (radix : Nat) (text : List Char) (n : Nat) : Prop :=
  text ≠ [] ∧ ∃ ds, List.Forall₂ (IsDigit radix) text ds ∧ n = Nat.ofDigits radix ds.reverse

/-- The letters that announce a radix, behind a zero. -/
def Announces (mark : Char) (radix : Nat) : Prop :=
  (mark, radix) ∈ [('x', 16), ('X', 16), ('o', 8), ('O', 8), ('b', 2), ('B', 2)]

instance (mark : Char) (radix : Nat) : Decidable (Announces mark radix) := inferInstanceAs (Decidable (_ ∈ _))

variable {radix : Nat} {text digits : List Char} {c mark : Char} {d n : Nat}

/-- The radixes that have a mark lie between two and sixteen. -/
theorem Announces.le (h : Announces mark radix) : 2 ≤ radix ∧ radix ≤ 16 := by
  simp only [Announces, List.mem_cons, Prod.mk.injEq, List.not_mem_nil, or_false] at h
  omega

/-! ## Digits -/

/-- The values that the characters of the three ranges have as digits. -/
theorem digit?_eq_some_iff_toNat :
    digit? radix c = some d ↔
      d < radix ∧
        ((48 ≤ c.toNat ∧ c.toNat ≤ 57 ∧ d + 48 = c.toNat) ∨ (97 ≤ c.toNat ∧ c.toNat ≤ 122 ∧ d + 87 = c.toNat) ∨
          (65 ≤ c.toNat ∧ c.toNat ≤ 90 ∧ d + 55 = c.toNat)) := by
  have hrange (a b : Char) : (a ≤ c ∧ c ≤ b) ↔ (a.toNat ≤ c.toNat ∧ c.toNat ≤ b.toNat) := Iff.rfl
  have h0 : '0'.toNat = 48 := rfl
  have h9 : '9'.toNat = 57 := rfl
  have ha : 'a'.toNat = 97 := rfl
  have hz : 'z'.toNat = 122 := rfl
  have hA : 'A'.toNat = 65 := rfl
  have hZ : 'Z'.toNat = 90 := rfl
  simp only [digit?, hrange, h0, h9, ha, hz, hA, hZ]
  split_ifs <;> simp only [Option.some.injEq, false_iff] <;> omega

/-- A digit is read exactly if it is one, as the value that it has. -/
theorem digit?_eq_some_iff (h : radix ≤ 16) : digit? radix c = some d ↔ IsDigit radix c d := by
  rw [digit?_eq_some_iff_toNat, IsDigit]
  refine and_congr_right fun hd => ?_
  have hlower : (Nat.digitChar d).toNat = if d < 10 then d + 48 else d + 87 := by
    have : d < 16 := by omega
    interval_cases d <;> rfl
  have hupper : (Nat.digitChar d).toUpper.toNat = if d < 10 then d + 48 else d + 55 := by
    have : d < 16 := by omega
    interval_cases d <;> rfl
  rw [← Char.toNat_inj, ← Char.toNat_inj, hlower, hupper]
  split_ifs <;> omega

/-! ## Rows of digits -/

/-- Digits in a row are read exactly if each of them is a digit. -/
theorem mapM_digit?_eq_some_iff (h : radix ≤ 16) {ds : List Nat} :
    text.mapM (digit? radix) = some ds ↔ List.Forall₂ (IsDigit radix) text ds := by
  induction text generalizing ds with
  | nil => cases ds <;> simp
  | cons c rest ih =>
    cases ds with
    | nil => simp [Option.bind_eq_some_iff]
    | cons d ds => simp [Option.bind_eq_some_iff, digit?_eq_some_iff h, ih]

/-- A text is a row of digits if it is not empty and each of its characters is a digit. -/
theorem isSome_digits?_iff :
    (digits? radix text).isSome = true ↔ text ≠ [] ∧ (text.all fun c => (digit? radix c).isSome) = true := by
  unfold digits?
  split
  case isTrue hnil => simp [hnil]
  case isFalse hnil =>
    rw [and_iff_right hnil]
    clear hnil
    induction text with
    | nil => simp
    | cons c rest ih =>
      rw [List.mapM_cons, List.all_cons, Bool.and_eq_true, ← ih]
      cases digit? radix c <;> cases rest.mapM (digit? radix) <;> simp

/-- A row of digits does not begin with a sign. -/
theorem splitSign_of_digits? (h : (digits? radix text).isSome = true) : splitSign text = (false, text) := by
  have hall := List.all_eq_true.mp (isSome_digits?_iff.mp h).2
  unfold splitSign
  split
  · exact absurd (hall '-' List.mem_cons_self) (by simp [digit?])
  · exact absurd (hall '+' List.mem_cons_self) (by simp [digit?])
  · rfl

/-- The values of digits are less than the radix. -/
theorem lt_of_mem_digits {ds : List Nat} (h : List.Forall₂ (IsDigit radix) text ds) : ∀ d ∈ ds, d < radix := by
  induction h with
  | nil => exact List.forall_mem_nil _
  | cons hdigit _ ih => exact List.forall_mem_cons.mpr ⟨hdigit.1, ih⟩

/-- The value of digits in a row is the positional one. -/
theorem value_eq_ofDigits (radix : Nat) (ds : List Nat) : value radix ds = Nat.ofDigits radix ds.reverse := by
  rw [Nat.ofDigits_eq_foldr, List.foldr_reverse, value]
  simp only [Nat.cast_id, Nat.add_comm, Nat.mul_comm]

/-- The digits of a text give the number that it denotes. -/
theorem denotes_iff (h : radix ≤ 16) : Denotes radix text n ↔ (digits? radix text).map (value radix) = some n := by
  unfold Denotes digits?
  by_cases hnil : text = []
  · simp [hnil]
  · simp only [hnil, if_false, Option.map_eq_some_iff, mapM_digit?_eq_some_iff h, value_eq_ofDigits, ne_eq,
      not_false_eq_true, true_and]
    exact exists_congr fun ds => and_congr_right fun _ => eq_comm

/-- A mark is known exactly if it announces a radix. -/
theorem ofMark?_eq_some_iff : ofMark? mark = some radix ↔ Announces mark radix := by
  unfold ofMark? Announces
  simp only [List.mem_cons, Prod.mk.injEq, List.not_mem_nil, or_false]
  split_ifs with hx ho hb
  · rcases hx with rfl | rfl <;> simp [eq_comm]
  · rcases ho with rfl | rfl <;> simp [eq_comm]
  · rcases hb with rfl | rfl <;> simp [eq_comm]
  · rw [not_or] at hx ho hb
    simp [hx.1, hx.2, ho.1, ho.2, hb.1, hb.2]

/-- A text is split exactly if it begins with a zero and a mark. -/
theorem split?_eq_some_iff :
    split? text = some (radix, digits) ↔ ∃ mark, Announces mark radix ∧ text = '0' :: mark :: digits := by
  unfold split?
  split
  case h_1 mark rest =>
    simp only [Option.map_eq_some_iff, ofMark?_eq_some_iff, Prod.mk.injEq, List.cons.injEq, true_and]
    constructor
    · rintro ⟨r, hmark, rfl, rfl⟩
      exact ⟨mark, hmark, rfl, rfl⟩
    · rintro ⟨m, hmark, rfl, rfl⟩
      exact ⟨radix, hmark, rfl, rfl⟩
  case h_2 hnot =>
    refine iff_of_false nofun ?_
    rintro ⟨mark, -, htext⟩
    exact hnot mark digits htext

/-- A letter that announces a radix is no decimal digit. -/
theorem Announces.isDigit_eq_false (h : Announces mark radix) : mark.isDigit = false := by
  simp only [Announces, List.mem_cons, Prod.mk.injEq, List.not_mem_nil, or_false] at h
  rcases h with ⟨rfl, -⟩ | ⟨rfl, -⟩ | ⟨rfl, -⟩ | ⟨rfl, -⟩ | ⟨rfl, -⟩ | ⟨rfl, -⟩ <;> rfl

/-! ## Decimal digits -/

/-- A digit of radix ten is a decimal digit. -/
theorem isDigit_of_isDigit_ten (h : IsDigit 10 c d) : c.isDigit = true := by
  obtain ⟨hd, rfl | rfl⟩ := h <;> interval_cases d <;> decide

/-- Digits of radix ten are decimal digits. -/
theorem all_isDigit_of_digits_ten {ds : List Nat} (h : List.Forall₂ (IsDigit 10) text ds) :
    ∀ c ∈ text, c.isDigit = true := by
  induction h with
  | nil => exact List.forall_mem_nil _
  | cons hdigit _ ih => exact List.forall_mem_cons.mpr ⟨isDigit_of_isDigit_ten hdigit, ih⟩

/-- A decimal digit is read as its distance from zero. -/
theorem digit?_ten {c : Char} (h : c.isDigit = true) : digit? 10 c = some (c.toNat - '0'.toNat) := by
  have hbounds : '0' ≤ c ∧ c ≤ '9' := by simpa [Char.isDigit, Char.le_def] using h
  have hvalue : c.toNat - '0'.toNat < 10 := by
    have : c.toNat ≤ '9'.toNat := hbounds.2
    have h9 : '9'.toNat = 57 := rfl
    have h0 : '0'.toNat = 48 := rfl
    omega
  simp only [digit?, if_pos hbounds, if_pos hvalue]

/-- Decimal digits are digits of the radix ten. -/
theorem digits?_ten {text : List Char} (hne : text ≠ []) (h : ∀ c ∈ text, c.isDigit = true) :
    digits? 10 text = some (text.map fun c => c.toNat - '0'.toNat) := by
  rw [digits?, if_neg hne]
  clear hne
  induction text with
  | nil => rfl
  | cons c rest ih =>
    rw [List.forall_mem_cons] at h
    rw [List.mapM_cons, digit?_ten h.1, ih h.2]
    rfl

/-- In radix ten the positional value is the one that decimal digits are read as. -/
theorem value_ten (text : List Char) :
    value 10 (text.map fun c => c.toNat - '0'.toNat) = Nat.ofDigitChars 10 text 0 := by
  rw [value, List.foldl_map, Nat.ofDigitChars]
  simp only [Nat.mul_comm]

/-- A text of decimal digits denotes the number that it is read as. -/
theorem denotes_ten_iff :
    Denotes 10 text n ↔ (text ≠ [] ∧ text.all Char.isDigit = true) ∧ Nat.ofDigitChars 10 text 0 = n := by
  constructor
  · intro h
    obtain ⟨hne, ds, hds, -⟩ := id h
    have hall := all_isDigit_of_digits_ten hds
    rw [denotes_iff (by decide), digits?_ten hne hall, Option.map_some, Option.some.injEq, value_ten] at h
    exact ⟨⟨hne, List.all_eq_true.mpr hall⟩, h⟩
  · rintro ⟨⟨hne, hall⟩, rfl⟩
    rw [denotes_iff (by decide), digits?_ten hne (List.all_eq_true.mp hall), Option.map_some, value_ten]

/-- What denotes a number in radix ten is made of decimal digits. -/
theorem isDigit_of_denotes (h : Denotes 10 text n) : ∀ c ∈ text, c.isDigit = true :=
  List.all_eq_true.mp (denotes_ten_iff.mp h).1.2

end Radix

/-! ## The grammar -/

open Radix in
/-- The texts that denote integers: nothing denotes zero, decimal digits may stand behind a sign, and digits of another radix
stand behind the zero and the letter that announce it. -/
inductive IntegerText : List Char → Int → Prop
  | empty : IntegerText [] 0
  | unsigned {digits : List Char} {n : Nat} (h : Denotes 10 digits n) : IntegerText digits n
  | plus {digits : List Char} {n : Nat} (h : Denotes 10 digits n) : IntegerText ('+' :: digits) n
  | minus {digits : List Char} {n : Nat} (h : Denotes 10 digits n) : IntegerText ('-' :: digits) (-n)
  | prefixed {mark : Char} {radix : Nat} {digits : List Char} {n : Nat} (hmark : Announces mark radix)
    (h : Denotes radix digits n) : IntegerText ('0' :: mark :: digits) n

namespace BigInt

/-- The integer that a trimmed text denotes, of any size. -/
def integerOfNumeral? (text : List Char) : Option Int :=
  if text = [] then some 0
  else
    match Radix.split? text with
    | some (radix, digits) => (Radix.digits? radix digits).map fun ds => (Radix.value radix ds : Int)
    | none =>
      let (negative, digits) := splitSign text
      if digits ≠ [] ∧ digits.all Char.isDigit then
        some (signed negative (Nat.ofDigitChars 10 digits 0))
      else none

open Radix

variable {text digits : List Char} {n : Nat} {v : Int}

/-- A text behind no announced radix is read as a decimal numeral behind its sign. -/
theorem integerOfNumeral?_of_split?_eq_none (hne : text ≠ []) (h : split? text = none) :
    integerOfNumeral? text = some v ↔ ∃ n, Denotes 10 (splitSign text).2 n ∧ signed (splitSign text).1 n = v := by
  simp only [integerOfNumeral?, if_neg hne, h, denotes_ten_iff]
  split_ifs with hdigits
  · simp [hdigits]
  · refine iff_of_false nofun ?_
    rintro ⟨n, ⟨hall, -⟩, -⟩
    exact hdigits hall

/-- Behind a prefix there are digits of its radix and no sign. -/
theorem integerOfNumeral?_of_split?_eq_some {radix : Nat} (h : split? text = some (radix, digits)) :
    integerOfNumeral? text = some v ↔ ∃ n, Denotes radix digits n ∧ (n : Int) = v := by
  obtain ⟨mark, hmark, rfl⟩ := split?_eq_some_iff.mp h
  simp only [integerOfNumeral?, if_neg (List.cons_ne_nil _ _), h, denotes_iff hmark.le.2, Option.map_eq_some_iff]
  constructor
  · rintro ⟨ds, hds, rfl⟩
    exact ⟨_, ⟨ds, hds, rfl⟩, rfl⟩
  · rintro ⟨_, ⟨ds, hds, rfl⟩, rfl⟩
    exact ⟨ds, hds, rfl⟩

/-- Decimal digits, behind a sign or not, are taken for no announced radix. -/
theorem split?_of_denotes_ten (h : Denotes 10 digits n) : split? digits = none := by
  rw [Option.eq_none_iff_forall_ne_some]
  rintro ⟨radix, rest⟩ hsplit
  obtain ⟨mark, hmark, rfl⟩ := split?_eq_some_iff.mp hsplit
  have hall := isDigit_of_denotes h
  exact absurd (hall mark (by simp)) (by simp [hmark.isDigit_eq_false])

/-- No digits begin with a sign. -/
theorem splitSign_of_denotes {radix : Nat} (hradix : radix ≤ 16) (h : Denotes radix digits n) :
    splitSign digits = (false, digits) := by
  obtain ⟨ds, hds, -⟩ := Option.map_eq_some_iff.mp ((denotes_iff hradix).mp h)
  exact splitSign_of_digits? (by rw [hds]; rfl)

/-- The reader of integers knows exactly the texts of the grammar, and reads what they denote. -/
theorem integerOfNumeral?_eq_some_iff : integerOfNumeral? text = some v ↔ IntegerText text v := by
  constructor
  · intro h
    by_cases hne : text = []
    · rw [integerOfNumeral?, if_pos hne, Option.some.injEq] at h
      rw [hne, ← h]
      exact .empty
    · cases hsplit : split? text with
      | some parts =>
        obtain ⟨mark, hmark, htext⟩ := split?_eq_some_iff.mp hsplit
        obtain ⟨n, hn, rfl⟩ := (integerOfNumeral?_of_split?_eq_some hsplit).mp h
        rw [htext]
        exact .prefixed hmark hn
      | none =>
        obtain ⟨n, hn, rfl⟩ := (integerOfNumeral?_of_split?_eq_none hne hsplit).mp h
        unfold splitSign at hn ⊢
        split at hn
        · exact .minus hn
        · exact .plus hn
        · exact .unsigned hn
  · rintro (_ | hn | hn | hn | ⟨hmark, hn⟩)
    · rfl
    · rw [integerOfNumeral?_of_split?_eq_none hn.1 (split?_of_denotes_ten hn), splitSign_of_denotes (by decide) hn]
      exact ⟨_, hn, rfl⟩
    · exact (integerOfNumeral?_of_split?_eq_none (List.cons_ne_nil _ _) rfl).mpr ⟨_, hn, rfl⟩
    · exact (integerOfNumeral?_of_split?_eq_none (List.cons_ne_nil _ _) rfl).mpr ⟨_, hn, rfl⟩
    · exact (integerOfNumeral?_of_split?_eq_some (split?_eq_some_iff.mpr ⟨_, hmark, rfl⟩)).mpr ⟨_, hn, rfl⟩

/-! ## Reading digit by digit -/

section Parse

variable {radix m n d : Nat} {negative : Bool} {b : BigInt} {c : Char} {text : List Char}

/-- On one side of zero, what lies nearer to it than a BigInt is one too. -/
theorem exists_ofInt?_of_le (h : m ≤ n) (hb : ofInt? (signed negative n) = some b) :
    ∃ a, ofInt? (signed negative m) = some a := by
  have hval := ofInt?_eq_some_iff.mp hb
  have hlower := b.lower
  have hupper := b.upper
  have hrange : -bigIntBound ≤ signed negative m ∧ signed negative m < bigIntBound := by
    cases negative with
    | false =>
      rw [signed_false] at hval ⊢
      omega
    | true =>
      rw [signed_true] at hval ⊢
      omega
  exact ⟨⟨_, hrange.1, hrange.2⟩, ofInt?_eq_some_iff.mpr rfl⟩

/-- A step checks its result; the product alone, which is nearer to zero, would pass. -/
theorem appendDigit?_eq (hb : b.val = signed negative m) (hd : Radix.digit? radix c = some d) :
    appendDigit? radix negative b c = ofInt? (signed negative (m * radix + d)) := by
  have hproduct : b.val * radix = signed negative (m * radix) := by
    cases negative <;> simp [hb]
  have hsum : signed negative (m * radix) + signed negative d = signed negative (m * radix + d) := by
    cases negative with
    | false => simp
    | true =>
      simp only [signed_true]
      omega
  rw [appendDigit?, hproduct, hd]
  cases hp : ofInt? (signed negative (m * radix)) with
  | some product =>
    show ofInt? (product.val + signed negative d) = _
    rw [← ofInt?_eq_some_iff.mp hp, hsum]
  | none =>
    show none = _
    cases hs : ofInt? (signed negative (m * radix + d)) with
    | none => rfl
    | some sum =>
      obtain ⟨product, hproduct⟩ := exists_ofInt?_of_le (Nat.le_add_right _ _) hs
      rw [hp] at hproduct
      nomatch hproduct

/-- Reading on never makes a number smaller, so what has got out of range stays there. -/
theorem le_foldl_digits (hradix : 0 < radix) (ds : List Nat) (m : Nat) :
    m ≤ ds.foldl (fun n d => n * radix + d) m := by
  induction ds generalizing m with
  | nil => exact Nat.le_refl m
  | cons d ds ih =>
    calc m ≤ m * radix := Nat.le_mul_of_pos_right m hradix
      _ ≤ m * radix + d := Nat.le_add_right _ _
      _ ≤ (d :: ds).foldl (fun n d => n * radix + d) m := ih _

/-- The steps go through to the end exactly if the value that they end with is in range. -/
theorem foldlM_appendDigit? (hradix : 0 < radix) (hb : b.val = signed negative m) :
    text.foldlM (appendDigit? radix negative) b =
      (text.mapM (Radix.digit? radix)).bind fun ds => ofInt? (signed negative (ds.foldl (fun n d => n * radix + d) m)) := by
  induction text generalizing b m with
  | nil => exact (ofInt?_eq_some_iff.mpr hb.symm).symm
  | cons c rest ih =>
    rw [List.foldlM_cons, List.mapM_cons]
    cases hd : Radix.digit? radix c with
    | none =>
      rw [appendDigit?, hd]
      cases ofInt? (b.val * radix) <;> rfl
    | some d =>
      rw [appendDigit?_eq hb hd]
      cases hstep : ofInt? (signed negative (m * radix + d)) with
      | some next =>
        show rest.foldlM (appendDigit? radix negative) next = _
        rw [ih (ofInt?_eq_some_iff.mp hstep).symm]
        cases rest.mapM (Radix.digit? radix) <;> rfl
      | none =>
        show none = _
        cases rest.mapM (Radix.digit? radix) with
        | none => rfl
        | some ds =>
          show none = ofInt? (signed negative (ds.foldl (fun n d => n * radix + d) (m * radix + d)))
          cases hend : ofInt? (signed negative (ds.foldl (fun n d => n * radix + d) (m * radix + d))) with
          | none => rfl
          | some last =>
            obtain ⟨next, hnext⟩ := exists_ofInt?_of_le (le_foldl_digits hradix ds _) hend
            rw [hstep] at hnext
            nomatch hnext

/-- Digits behind an optional sign are read as the integer that they have, if it is in range. -/
theorem parse?_eq (hradix : 0 < radix) (text : List Char) :
    parse? radix text =
      ((Radix.digits? radix (splitSign text).2).map fun ds => signed (splitSign text).1 (Radix.value radix ds)).bind
        ofInt? := by
  rcases hsplit : splitSign text with ⟨negative, digits⟩
  have hzero : (0 : Int) = signed negative 0 := by cases negative <;> rfl
  simp only [parse?, hsplit, Radix.digits?]
  split
  case isTrue => rfl
  case isFalse =>
    rw [foldlM_appendDigit? hradix hzero]
    cases digits.mapM (Radix.digit? radix) <;> rfl

end Parse

/-! ## BigInts -/

/-- A trimmed text is read as the integer that it denotes, if it is in range. -/
theorem ofNumeral?_eq (text : List Char) : ofNumeral? text = (integerOfNumeral? text).bind ofInt? := by
  rw [ofNumeral?, integerOfNumeral?]
  split_ifs with hnil
  · rfl
  · cases hsplit : split? text with
    | some parts =>
      obtain ⟨radix, digits⟩ := parts
      obtain ⟨mark, hmark, -⟩ := split?_eq_some_iff.mp hsplit
      simp only
      split_ifs with hguard
      · rw [parse?_eq (Nat.lt_of_lt_of_le Nat.zero_lt_two hmark.le.1),
          splitSign_of_digits? (isSome_digits?_iff.mpr hguard)]
        rfl
      · rw [← isSome_digits?_iff, Bool.not_eq_true, Option.isSome_eq_false_iff, Option.isNone_iff_eq_none] at hguard
        rw [hguard]
        rfl
    | none =>
      simp only
      split_ifs with hguard
      · rw [parse?_eq (by decide), digits?_ten hguard.1 (List.all_eq_true.mp hguard.2), Option.map_some, value_ten]
      · rfl

/-- A string is read as a BigInt exactly if its text denotes the integer and that is in range. -/
theorem ofText?_eq_some_iff {s : String} {b : BigInt} :
    ofText? s = some b ↔ IntegerText (Text.trim s.toList) b.val := by
  simp only [ofText?, ofNumeral?_eq, Option.bind_eq_some_iff, ofInt?_eq_some_iff, integerOfNumeral?_eq_some_iff]
  constructor
  · rintro ⟨v, hv, rfl⟩
    exact hv
  · intro hv
    exact ⟨b.val, hv, rfl⟩

end BigInt

/-- A text denotes at most one integer. -/
theorem IntegerText.unique {text : List Char} {v w : Int} (hv : IntegerText text v) (hw : IntegerText text w) : v = w :=
  Option.some.inj ((BigInt.integerOfNumeral?_eq_some_iff.mpr hv).symm.trans (BigInt.integerOfNumeral?_eq_some_iff.mpr hw))

end ScriptTree

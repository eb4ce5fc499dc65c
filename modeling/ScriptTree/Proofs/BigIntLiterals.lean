import ScriptTree.Proofs.NumericLiterals

/-!
# BigInt literals

The digits of a BigInt literal, in any notation and of any length, are read exactly or refused. There are two readers of
them: the decoder of documents, which drops separators and looks at the digits while it reads them, and the conversion of
strings, which trims the text and looks at the digits before. A text of an integer is read alike by both
(`BigInt.ofLiteral?_of_integerText`), so a literal is decoded exactly if the string of its digits converts
(`bigint_literal_exact`).
-/

namespace ScriptTree

open Radix

/-- The texts of BigInt literals, without the `n` at the end, and their values: decimal digits, or digits of another radix
behind its prefix, with separators between digits. Zeros may lead. -/
inductive BigIntLiteral : List Char → ℕ → Prop
  | decimal {text digits : List Char} {n : ℕ} (h : Separated text digits) (hn : Denotes 10 digits n) : BigIntLiteral text n
  | prefixed {mark : Char} {radix : ℕ} {text digits : List Char} {n : ℕ} (hmark : Announces mark radix)
    (h : Separated text digits) (hn : Denotes radix digits n) : BigIntLiteral ('0' :: mark :: text) n

/-! ## The text without separators -/

/-- No mark of a radix is a separator. -/
theorem Radix.Announces.ne_separator {mark : Char} {radix : ℕ} (h : Announces mark radix) : mark ≠ '_' := by
  rintro rfl
  revert h
  simp [Announces]

/-- Without its separators a literal is the text of an integer. -/
theorem BigIntLiteral.integerText {text : List Char} {n : ℕ} (h : BigIntLiteral text n) :
    IntegerText (dropSeparators text) n := by
  cases h with
  | decimal h hn =>
    rw [h.dropSeparators_eq (hn.ne_separator (by decide))]
    exact .unsigned hn
  | prefixed hmark h hn =>
    rw [dropSeparators_cons (by decide), dropSeparators_cons hmark.ne_separator,
      h.dropSeparators_eq (hn.ne_separator hmark.le.2)]
    exact .prefixed hmark hn

/-- There is something left of a literal without its separators. -/
theorem BigIntLiteral.dropSeparators_ne_nil {text : List Char} {n : ℕ} (h : BigIntLiteral text n) :
    dropSeparators text ≠ [] := by
  cases h with
  | decimal h hn =>
    rw [h.dropSeparators_eq (hn.ne_separator (by decide))]
    exact hn.1
  | prefixed =>
    rw [dropSeparators_cons (by decide)]
    exact List.cons_ne_nil _ _

/-! ## The two readers -/

/-- No digit is blank. -/
theorem Radix.IsDigit.isBlank_eq_false {radix d : ℕ} {c : Char} (hradix : radix ≤ 16) (h : IsDigit radix c d) :
    Text.isBlank c = false := by
  have hdigit := digit?_eq_some_iff_toNat.mp ((digit?_eq_some_iff hradix).mpr h)
  exact Text.isBlank_eq_false (by omega) (by omega)

/-- No mark of a radix is blank. -/
theorem Radix.Announces.isBlank_eq_false {mark : Char} {radix : ℕ} (h : Announces mark radix) :
    Text.isBlank mark = false := by
  simp only [Announces, List.mem_cons, Prod.mk.injEq, List.not_mem_nil, or_false] at h
  rcases h with ⟨rfl, -⟩ | ⟨rfl, -⟩ | ⟨rfl, -⟩ | ⟨rfl, -⟩ | ⟨rfl, -⟩ | ⟨rfl, -⟩ <;> decide

/-- There is no blank in the text of an integer. -/
theorem IntegerText.isBlank_eq_false {text : List Char} {v : ℤ} (h : IntegerText text v) :
    ∀ c ∈ text, Text.isBlank c = false := by
  have hdigits {radix n : ℕ} {digits : List Char} (hradix : radix ≤ 16) (hn : Denotes radix digits n) :
      ∀ c ∈ digits, Text.isBlank c = false := by
    obtain ⟨-, ds, hds, -⟩ := hn
    induction hds with
    | nil => exact List.forall_mem_nil _
    | cons hdigit _ ih => exact List.forall_mem_cons.mpr ⟨hdigit.isBlank_eq_false hradix, ih⟩
  cases h with
  | empty => exact List.forall_mem_nil _
  | unsigned hn => exact hdigits (by decide) hn
  | plus hn => exact List.forall_mem_cons.mpr ⟨by decide, hdigits (by decide) hn⟩
  | minus hn => exact List.forall_mem_cons.mpr ⟨by decide, hdigits (by decide) hn⟩
  | prefixed hmark hn =>
    exact List.forall_mem_cons.mpr ⟨by decide, List.forall_mem_cons.mpr ⟨hmark.isBlank_eq_false, hdigits hmark.le.2 hn⟩⟩

namespace BigInt

/-- Digits behind an optional sign are read as what they denote, if that is in range. -/
theorem parse?_of_denotes {radix n : ℕ} {negative : Bool} {text digits : List Char} (hradix : 2 ≤ radix ∧ radix ≤ 16)
    (hsign : splitSign text = (negative, digits)) (hn : Denotes radix digits n) :
    parse? radix text = ofInt? (signed negative n) := by
  obtain ⟨ds, hds, hvalue⟩ := Option.map_eq_some_iff.mp ((denotes_iff hradix.2).mp hn)
  rw [parse?_eq (Nat.lt_of_lt_of_le Nat.zero_lt_two hradix.1), hsign, hds, Option.map_some, hvalue]
  rfl

/-- The decoder of documents reads the text of an integer, its separators dropped. -/
theorem ofLiteral?_of_integerText {s : String} {v : ℤ} (h : IntegerText (dropSeparators s.toList) v)
    (hne : dropSeparators s.toList ≠ []) : ofLiteral? s = ofInt? v := by
  have hplain (hsplit : split? (dropSeparators s.toList) = none) :
      ofLiteral? s = parse? 10 (dropSeparators s.toList) := by
    rw [dropSeparators] at hsplit
    rw [ofLiteral?, dropSeparators, hsplit]
  generalize htext : dropSeparators s.toList = text at h hne hplain
  cases h with
  | empty => exact absurd rfl hne
  | unsigned hn =>
    rw [hplain (split?_of_denotes_ten hn),
      parse?_of_denotes (by decide) (splitSign_of_denotes (by decide) hn) hn, signed_false]
  | @plus digits _ hn =>
    have hsign : splitSign ('+' :: digits) = (false, digits) := rfl
    rw [hplain rfl, parse?_of_denotes (by decide) hsign hn, signed_false]
  | @minus digits _ hn =>
    have hsign : splitSign ('-' :: digits) = (true, digits) := rfl
    rw [hplain rfl, parse?_of_denotes (by decide) hsign hn, signed_true]
  | @prefixed mark radix digits n hmark hn =>
    have hsplit : split? (dropSeparators s.toList) = some (radix, digits) :=
      split?_eq_some_iff.mpr ⟨mark, hmark, htext⟩
    rw [dropSeparators] at hsplit
    rw [ofLiteral?, hsplit]
    show parse? radix digits = _
    rw [parse?_of_denotes hmark.le (splitSign_of_denotes hmark.le.2 hn) hn, signed_false]

/-- The conversion of strings reads it too. -/
theorem ofText?_of_integerText {text : List Char} {v : ℤ} (h : IntegerText text v) :
    ofText? (String.ofList text) = ofInt? v := by
  rw [ofText?, String.toList_ofList, Text.trim_eq_self h.isBlank_eq_false, ofNumeral?_eq,
    integerOfNumeral?_eq_some_iff.mpr h]
  rfl

/-- A natural number is in range exactly if it is below the bound. -/
theorem ofInt?_natCast (n : ℕ) :
    (n < 2 ^ 127 → ∃ b : BigInt, b.val = n ∧ ofInt? n = some b) ∧ (2 ^ 127 ≤ n → ofInt? n = none) := by
  have hbound : bigIntBound = (2 ^ 127 : ℕ) := by decide
  constructor
  · intro hlt
    have hrange : -bigIntBound ≤ (n : ℤ) ∧ (n : ℤ) < bigIntBound := by
      rw [hbound]
      omega
    exact ⟨⟨n, hrange.1, hrange.2⟩, rfl, ofInt?_eq_some_iff.mpr rfl⟩
  · intro hle
    rw [Option.eq_none_iff_forall_ne_some]
    intro b hb
    have hupper := b.upper
    rw [← ofInt?_eq_some_iff.mp hb, hbound] at hupper
    omega

end BigInt

/-- The digits of a BigInt count before all other fields of a literal. -/
theorem LiteralFields.literal_of_bigint {fields : LiteralFields} {digits : String} (h : fields.bigint = some digits) :
    fields.literal =
      (BigInt.ofLiteral? digits).elim (.error (.bigintOutOfRange digits)) fun b => .ok (.bigint b) := by
  simp only [literal, h]
  cases BigInt.ofLiteral? digits <;> rfl

/-- The digits of a BigInt literal that an object of a literal gives are what the object is,
whatever its other fields hold. -/
theorem LiteralObject.ofJson_of_bigint {members : List (String × Json)} {span : Span} {digits : String}
    (h : LiteralObject members span) (hdigits : ("bigint", .string digits) ∈ members) :
    Node.ofJson (.object members) =
      (BigInt.ofLiteral? digits).elim (.error (.bigintOutOfRange digits)) fun b => .ok (.literal span (.bigint b)) := by
  have hlookup : members.lookup "bigint" = some (.string digits) := by
    have hfield : "bigint" ∈ valueFields := by decide
    rw [← lookup_filter (p := fun name => name ∈ valueFields) (decide_eq_true hfield) members]
    refine (lookup_eq_some_iff_mem ?_).mpr (List.mem_filter.mpr ⟨hdigits, decide_eq_true hfield⟩)
    have honce := h.once
    rwa [List.filter_map] at honce
  have hbigint : (LiteralFields.ofMembers members).bigint = some digits := by
    rw [LiteralFields.ofMembers, hlookup]
    rfl
  rw [h.ofJson, LiteralFields.literal_of_bigint hbigint]
  cases BigInt.ofLiteral? digits <;> rfl

/-- BigInt literals are read exactly. An object of a literal that gives the digits of a BigInt, in any notation, is the BigInt
of their value if that is below `2 ^ 127` and refused otherwise, whatever its other fields hold; and the string of the digits
without separators converts to the same BigInt, or to none. -/
theorem bigint_literal_exact (members : List (String × Json)) (span : Span) (digits : String) (n : ℕ)
    (hobject : LiteralObject members span) (hdigits : ("bigint", .string digits) ∈ members)
    (hliteral : BigIntLiteral digits.toList n) :
    let text := String.ofList (dropSeparators digits.toList)
    (n < 2 ^ 127 → ∃ b : BigInt, b.val = n ∧ Node.ofJson (.object members) = .ok (.literal span (.bigint b)) ∧
      BigInt.ofText? text = some b) ∧
    (2 ^ 127 ≤ n → Node.ofJson (.object members) = .error (.bigintOutOfRange digits) ∧ BigInt.ofText? text = none) := by
  intro text
  have hdecoded := hobject.ofJson_of_bigint hdigits
  have hconverted : BigInt.ofText? text = BigInt.ofInt? n := BigInt.ofText?_of_integerText hliteral.integerText
  rw [BigInt.ofLiteral?_of_integerText hliteral.integerText hliteral.dropSeparators_ne_nil] at hdecoded
  rw [hdecoded, hconverted]
  obtain ⟨hbelow, hbeyond⟩ := BigInt.ofInt?_natCast n
  constructor
  · intro hlt
    obtain ⟨b, hval, hb⟩ := hbelow hlt
    exact ⟨b, hval, by rw [hb]; rfl, hb⟩
  · intro hle
    exact ⟨by rw [hbeyond hle]; rfl, hbeyond hle⟩

/-- Digits of both cases with a separator among them, beside a regular expression and a number, are the BigInt that they
denote; the hexadecimal digits of `2 ^ 127` in their place are refused. -/
theorem hexadecimal_bigint_decoded :
    let members (digits : String) : List (String × Json) :=
      [("bigint", .string digits), ("type", .string "Literal"), ("raw", .null),
        ("regex", .object [("pattern", .string "a")]), ("value", .integer 7), ("start", .integer 3), ("end", .integer 11)]
    let bound := String.ofList ('0' :: 'x' :: '8' :: List.replicate 31 '0')
    (∃ b : BigInt, b.val = 65535 ∧
      Node.ofJson (.object (members "0XfF_Ff")) = .ok (.literal ⟨3, 11⟩ (.bigint b)) ∧ BigInt.ofText? "0XfFFf" = some b) ∧
    Node.ofJson (.object (members bound)) = .error (.bigintOutOfRange bound) := by
  intro members bound
  have hobject (digits : String) : LiteralObject (members digits) ⟨3, 11⟩ := by
    refine ⟨rfl, rfl, (by decide : ["bigint", "raw", "regex", "value"].Nodup), ?_, ?_, ?_⟩
    · intro value hm
      exact .inl (by simpa [members] using hm)
    · intro value hm
      obtain rfl : value = .object [("pattern", .string "a")] := by simpa [members] using hm
      exact .inr ⟨⟨"a", ""⟩, rfl⟩
    · intro value hm
      exact .inr ⟨digits, by simpa [members] using hm⟩
  constructor
  · have hliteral : BigIntLiteral "0XfF_Ff".toList 65535 := by
      have hdigits : Denotes 16 ['f', 'F', 'F', 'f'] 65535 := (denotes_iff (by decide)).mpr (by decide)
      exact .prefixed (by decide) (.next 'f' (.apart 'F' (.next 'F' (.last 'f')))) hdigits
    obtain ⟨hread, -⟩ := bigint_literal_exact _ _ _ _ (hobject "0XfF_Ff") List.mem_cons_self hliteral
    exact hread (by decide)
  · have hliteral : BigIntLiteral bound.toList (2 ^ 127) := by
      have hdigits : Denotes 16 ('8' :: List.replicate 31 '0') (2 ^ 127) :=
        (denotes_iff (by decide)).mpr (by decide +kernel)
      rw [String.toList_ofList]
      exact .prefixed (by decide) (.self (List.cons_ne_nil _ _)) hdigits
    obtain ⟨-, hrefused⟩ := bigint_literal_exact _ _ _ _ (hobject bound) List.mem_cons_self hliteral
    exact (hrefused (Nat.le_refl _)).1

end ScriptTree

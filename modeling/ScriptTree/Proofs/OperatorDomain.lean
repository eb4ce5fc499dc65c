import ScriptTree.Operation.Apply

/-!
# Which operands an operator takes

`BinaryOperator.Refuses` says for which operands an operator has no meaning, `BinaryOperator.mayExceed` which operators can
have a result that does not exist, and `BinaryOperator.resultType` what type a result has. All three go by the kinds of
the operands alone. `operator_domain` is the statement that the operator table has exactly this domain.

`BinaryOperator.Judges` puts the three together into one judgement of a result. Most operators are `Value.onNumerics` with
operations of their own, so there is one lemma about it (`judges_onNumerics`), and one about every other function that the
table is made of.
-/

namespace ScriptTree

namespace Value

/-- Whether a value is a BigInt. -/
def isBigInt : Value → Bool
  | .bigint _ => true
  | _ => false

/-- Operands that equality cannot compare: a value with an identity, and one that has none and is not nullish either. -/
def Incomparable (object other : Value) : Prop :=
  object.isObjectLike = true ∧ other.isObjectLike = false ∧ other.isNullish = false

/-- Operands that no arithmetic takes: one of them has an identity, or just one is a BigInt. -/
def Unmixable (left right : Value) : Prop :=
  left.isObjectLike = true ∨ right.isObjectLike = true ∨ left.isBigInt ≠ right.isBigInt

instance (object other : Value) : Decidable (object.Incomparable other) := inferInstanceAs (Decidable (_ ∧ _ ∧ _))

instance (left right : Value) : Decidable (left.Unmixable right) := inferInstanceAs (Decidable (_ ∨ _ ∨ _))

end Value

namespace BinaryOperator

/-- For which operands an operator has no meaning. -/
def Refuses (operator : BinaryOperator) (left right : Value) : Prop :=
  match operator with
  | .instanceOf => True
  | .strictEqual | .strictUnequal => False
  | .looseEqual | .looseUnequal => left.Incomparable right ∨ right.Incomparable left
  | .isIn => right.isObjectLike = false ∨ left.isObjectLike = true
  | .less | .lessEqual | .greater | .greaterEqual => left.isObjectLike = true ∨ right.isObjectLike = true
  | .add =>
    left.isObjectLike = true ∨ right.isObjectLike = true ∨
      (left.isBigInt ≠ right.isBigInt ∧ left.isString = false ∧ right.isString = false)
  | .shiftRightUnsigned => left.Unmixable right ∨ (left.isBigInt = true ∧ right.isBigInt = true)
  | _ => left.Unmixable right

instance (operator : BinaryOperator) (left right : Value) : Decidable (operator.Refuses left right) :=
  match operator with
  | .instanceOf => inferInstanceAs (Decidable True)
  | .strictEqual | .strictUnequal => inferInstanceAs (Decidable False)
  | .looseEqual | .looseUnequal => inferInstanceAs (Decidable (left.Incomparable right ∨ right.Incomparable left))
  | .isIn | .less | .lessEqual | .greater | .greaterEqual => inferInstanceAs (Decidable (_ ∨ _))
  | .add => inferInstanceAs (Decidable (_ ∨ _ ∨ _))
  | .shiftRightUnsigned => inferInstanceAs (Decidable (left.Unmixable right ∨ _))
  | .subtract | .multiply | .divide | .remainder | .power | .bitAnd | .bitOr | .bitXor | .shiftLeft | .shiftRight =>
    inferInstanceAs (Decidable (left.Unmixable right))

/-- Whether an operator on two BigInts can have a result that does not exist. -/
def mayExceed : BinaryOperator → Bool
  | .add | .subtract | .multiply | .divide | .remainder | .power | .shiftLeft | .shiftRight => true
  | _ => false

/-- The type of the results of arithmetic. -/
def arithmeticType (left right : Value) : TypeName :=
  if left.isBigInt && right.isBigInt then .bigint else .number

/-- The type of an operator's results. -/
def resultType (operator : BinaryOperator) (left right : Value) : TypeName :=
  match operator with
  | .looseEqual | .looseUnequal | .strictEqual | .strictUnequal | .less | .lessEqual | .greater | .greaterEqual
  | .isIn | .instanceOf => .boolean
  | .add => if left.isString || right.isString then .string else arithmeticType left right
  | _ => arithmeticType left right

/-- The judgement of a result: one that is there has the type of the results, a refusal is due, and a range error comes
of two BigInts whose result may not exist. -/
def Judges (operator : BinaryOperator) (left right : Value) : Except OperationError Value → Prop
  | .ok value => ¬operator.Refuses left right ∧ value.typeName = operator.resultType left right
  | .error (.unsupported ..) => operator.Refuses left right
  | .error (.range _) =>
    ¬operator.Refuses left right ∧ operator.mayExceed = true ∧ left.isBigInt = true ∧ right.isBigInt = true

end BinaryOperator

namespace Value

open BinaryOperator

variable {operator : BinaryOperator} {left right : Value}

/-! ## Kinds of values -/

/-- Objects are not nullish. -/
theorem isNullish_of_isObjectLike {v : Value} (h : v.isObjectLike = true) : v.isNullish = false := by
  cases v with
  | undefined | null => nomatch h
  | _ => rfl

/-- Every value but those with an identity has a text. -/
theorem toText?_of_isObjectLike {v : Value} (h : v.isObjectLike = true) : v.toText? = none := by
  cases v with
  | regex | callable | object => rfl
  | _ => nomatch h

/-- Every primitive has a text. -/
theorem exists_toText? {v : Value} (h : v.isObjectLike = false) : ∃ s, v.toText? = some s := by
  cases v with
  | regex | callable | object => nomatch h
  | _ => exact ⟨_, rfl⟩

/-- A value is an operand of arithmetic as a BigInt, as a number, or not at all. -/
theorem toNumeric?_cases (v : Value) :
    (v.isObjectLike = true ∧ v.isBigInt = false ∧ v.toNumeric? = none) ∨
    (v.isObjectLike = false ∧ v.isBigInt = true ∧ ∃ b, v.toNumeric? = some (.bigint b)) ∨
    (v.isObjectLike = false ∧ v.isBigInt = false ∧ ∃ x, v.toNumeric? = some (.number x)) := by
  cases v with
  | regex | callable | object => exact .inl ⟨rfl, rfl, rfl⟩
  | bigint b => exact .inr (.inl ⟨rfl, rfl, b, rfl⟩)
  | _ => exact .inr (.inr ⟨rfl, rfl, _, rfl⟩)

/-! ## The functions that the table is made of -/

/-- Arithmetic refuses operands that cannot be mixed, and BigInts if it has no operation for them; it gives a number for
numbers, and for BigInts what their operation gives. -/
theorem onNumerics_cases (operator : BinaryOperator) (numbers : Double → Double → Double)
    (bigints : Option (BigInt → BigInt → Except RangeCause BigInt)) (left right : Value) :
    let result := onNumerics operator numbers bigints left right
    ((left.Unmixable right ∨ (left.isBigInt = true ∧ right.isBigInt = true ∧ bigints = none)) ∧
      result = .error (.ofOperands operator left right)) ∨
    (¬left.Unmixable right ∧ left.isBigInt = false ∧ ∃ x, result = .ok (.number x)) ∨
    (¬left.Unmixable right ∧ left.isBigInt = true ∧ right.isBigInt = true ∧
      ∃ operation a b, bigints = some operation ∧ result = ((operation a b).map .bigint).mapError .range) := by
  unfold onNumerics Unmixable
  rcases left.toNumeric?_cases with ⟨hl, hlb, hln⟩ | ⟨hl, hlb, a, hln⟩ | ⟨hl, hlb, x, hln⟩
  · simp [hl, hln]
  · rcases right.toNumeric?_cases with ⟨hr, hrb, hrn⟩ | ⟨hr, hrb, b, hrn⟩ | ⟨hr, hrb, y, hrn⟩
    · simp [hr, hln, hrn]
    · cases bigints with
      | none => simp [hl, hr, hlb, hrb, hln, hrn]
      | some operation => exact .inr (.inr ⟨by simp [hl, hr, hlb, hrb], hlb, hrb, operation, a, b, rfl, by simp [hln, hrn]⟩)
    · simp [hlb, hrb, hln, hrn]
  · rcases right.toNumeric?_cases with ⟨hr, hrb, hrn⟩ | ⟨hr, hrb, b, hrn⟩ | ⟨hr, hrb, y, hrn⟩
    · simp [hr, hln, hrn]
    · simp [hlb, hrb, hln, hrn]
    · simp [hl, hr, hlb, hrb, hln, hrn]

/-- The judgement of arithmetic, for an operator that refuses just the operands that arithmetic refuses. -/
theorem judges_onNumerics (numbers : Double → Double → Double)
    (bigints : Option (BigInt → BigInt → Except RangeCause BigInt))
    (hrefuses : operator.Refuses left right ↔
      left.Unmixable right ∨ (left.isBigInt = true ∧ right.isBigInt = true ∧ bigints = none))
    (htype : operator.resultType left right = arithmeticType left right)
    (hexceed : ∀ operation, bigints = some operation → operator.mayExceed = true ∨ ∀ a b, ∃ c, operation a b = .ok c) :
    operator.Judges left right (onNumerics operator numbers bigints left right) := by
  rcases onNumerics_cases operator numbers bigints left right with
    ⟨hrefused, h⟩ | ⟨hmix, hlb, x, h⟩ | ⟨hmix, hlb, hrb, operation, a, b, hsome, h⟩
  · rw [h]
    exact hrefuses.mpr hrefused
  · rw [h]
    refine ⟨?_, ?_⟩
    · rw [hrefuses]
      simp [hmix, hlb]
    · rw [htype, arithmeticType, hlb]
      rfl
  · have hnot : ¬operator.Refuses left right := by
      rw [hrefuses]
      simp [hmix, hsome]
    rw [h]
    cases hab : operation a b with
    | ok c =>
      refine ⟨hnot, ?_⟩
      rw [htype, arithmeticType, hlb, hrb]
      rfl
    | error cause =>
      refine ⟨hnot, ?_, hlb, hrb⟩
      rcases hexceed operation hsome with hmay | htotal
      · exact hmay
      · obtain ⟨c, hc⟩ := htotal a b
        rw [hab] at hc
        nomatch hc

/-- The judgement of arithmetic with an operation on BigInts, for an operator that follows the common rule. -/
theorem judges_onNumerics_some (numbers : Double → Double → Double) (operation : BigInt → BigInt → Except RangeCause BigInt)
    (hrefuses : operator.Refuses left right = left.Unmixable right)
    (htype : operator.resultType left right = arithmeticType left right)
    (hexceed : operator.mayExceed = true ∨ ∀ a b, ∃ c, operation a b = .ok c) :
    operator.Judges left right (onNumerics operator numbers (some operation) left right) := by
  refine judges_onNumerics numbers _ ?_ htype ?_
  · rw [hrefuses]
    simp
  · rintro _ ⟨⟩
    exact hexceed

/-- The judgement of `+`: a string beside any primitive gives a string, and without one it is arithmetic. -/
theorem judges_add (left right : Value) : BinaryOperator.add.Judges left right (add left right) := by
  unfold add
  split
  case isTrue hobject =>
    rw [Bool.or_eq_true] at hobject
    exact hobject.elim .inl fun h => .inr (.inl h)
  case isFalse hobject =>
    rw [Bool.or_eq_true, not_or, Bool.not_eq_true, Bool.not_eq_true] at hobject
    obtain ⟨hl, hr⟩ := hobject
    split
    case isTrue hstring =>
      obtain ⟨s, hs⟩ := exists_toText? hl
      obtain ⟨t, ht⟩ := exists_toText? hr
      rw [hs, ht]
      refine ⟨?_, ?_⟩
      · rw [Bool.or_eq_true] at hstring
        rcases hstring with h | h <;> simp [Refuses, hl, hr, h]
      · rw [resultType, if_pos hstring]
        rfl
    case isFalse hstring =>
      refine judges_onNumerics_some _ _ ?_ (if_neg hstring) (.inl rfl)
      rw [Bool.or_eq_true, not_or, Bool.not_eq_true, Bool.not_eq_true] at hstring
      simp [Refuses, Unmixable, hstring]

/-- The judgement of an order operator: it has an answer on any two values without identities. -/
theorem judges_compareBy (accepts : Ordering → Bool)
    (hrefuses : operator.Refuses left right = (left.isObjectLike = true ∨ right.isObjectLike = true))
    (htype : operator.resultType left right = .boolean) :
    operator.Judges left right (compareBy operator accepts left right) := by
  unfold compareBy
  rw [← Bool.or_eq_true] at hrefuses
  split
  case isTrue h => exact hrefuses.mpr h
  case isFalse h => exact ⟨fun hr => h (hrefuses.mp hr), htype.symm⟩

/-- The judgement of `in`: it has an answer if the holder has properties and the key has a text. -/
theorem judges_isIn (key holder : Value) : BinaryOperator.isIn.Judges key holder (isIn key holder) := by
  unfold isIn
  split
  case isTrue hholder =>
    cases hkey : key.isObjectLike with
    | true =>
      rw [toText?_of_isObjectLike hkey]
      exact .inr hkey
    | false =>
      obtain ⟨name, hname⟩ := exists_toText? hkey
      rw [hname]
      refine ⟨?_, rfl⟩
      simp [Refuses, hholder, hkey]
  case isFalse hholder => exact .inl (Bool.not_eq_true _ ▸ hholder)

/-- Once booleans are converted, equality has an answer if both operands have identities or neither has. -/
theorem equalsConverting_cases (left right : Value) :
    (left.isObjectLike = right.isObjectLike ∧ ∃ equal, left.equalsConverting right = .ok equal) ∨
    (left.isObjectLike ≠ right.isObjectLike ∧
      ∃ l r, left.equalsConverting right = .error (.unsupported .looseEqual l r)) := by
  unfold equalsConverting
  split
  case h_7 =>
    split
    case isTrue h => exact .inl ⟨beq_iff_eq.mp h, _, rfl⟩
    case isFalse h => exact .inr ⟨fun he => h (beq_iff_eq.mpr he), _, _, rfl⟩
  all_goals exact .inl ⟨rfl, _, rfl⟩

/-- Loose equality refuses a value with an identity beside a primitive that is not nullish, and nothing else. -/
theorem looseEquals_cases (left right : Value) :
    (¬(left.Incomparable right ∨ right.Incomparable left) ∧ ∃ equal, left.looseEquals right = .ok equal) ∨
    ((left.Incomparable right ∨ right.Incomparable left) ∧
      ∃ l r, left.looseEquals right = .error (.unsupported .looseEqual l r)) := by
  cases hn : left.isNullish || right.isNullish with
  | true =>
    refine .inl ⟨?_, _, if_pos hn⟩
    rintro (⟨hl, -, hr⟩ | ⟨hr, -, hl⟩)
    · simp [isNullish_of_isObjectLike hl, hr] at hn
    · simp [isNullish_of_isObjectLike hr, hl] at hn
  | false =>
    obtain ⟨hl, hr⟩ := Bool.or_eq_false_iff.mp hn
    have hdiffer : left.Incomparable right ∨ right.Incomparable left ↔ left.isObjectLike ≠ right.isObjectLike := by
      unfold Incomparable
      cases left.isObjectLike <;> cases right.isObjectLike <;> simp [hl, hr]
    have hagree : ¬(left.Incomparable right ∨ right.Incomparable left) ↔ left.isObjectLike = right.isObjectLike := by
      rw [hdiffer, ne_eq, Decidable.not_not]
    rw [hagree, hdiffer]
    unfold looseEquals
    rw [hn, if_neg Bool.false_ne_true]
    -- a boolean and the number that it converts to are alike in having no identity
    split
    case h_1 => exact .inl ⟨rfl, _, rfl⟩
    case h_2 _ _ a _ => exact equalsConverting_cases (.number (.ofBool a)) right
    case h_3 _ _ b _ => exact equalsConverting_cases left (.number (.ofBool b))
    case h_4 => exact equalsConverting_cases left right

/-- The judgement of loose equality, for the operator and its opposite. -/
theorem judges_looseEquals (answer : Bool → Bool)
    (hrefuses : operator.Refuses left right = (left.Incomparable right ∨ right.Incomparable left))
    (htype : operator.resultType left right = .boolean) :
    operator.Judges left right ((left.looseEquals right).map fun equal => .boolean (answer equal)) := by
  rcases left.looseEquals_cases right with ⟨hnot, equal, h⟩ | ⟨hrefused, l, r, h⟩
  · rw [h]
    refine ⟨?_, htype.symm⟩
    rw [hrefuses]
    exact hnot
  · rw [h]
    exact hrefuses.mpr hrefused

end Value

/-! ## The table -/

open BinaryOperator Value in
/-- The operator table has the domain that goes by the kinds of the operands. -/
theorem judges_apply (operator : BinaryOperator) (left right : Value) :
    operator.Judges left right (operator.apply left right) := by
  cases operator with
  | looseEqual => exact judges_looseEquals id rfl rfl
  | looseUnequal => exact judges_looseEquals not rfl rfl
  | strictEqual | strictUnequal => exact ⟨id, rfl⟩
  | less | lessEqual | greater | greaterEqual => exact judges_compareBy _ rfl rfl
  | add => exact judges_add left right
  | subtract | multiply | divide | remainder | power | shiftLeft | shiftRight =>
    exact judges_onNumerics_some _ _ rfl rfl (.inl rfl)
  | bitAnd | bitOr | bitXor => exact judges_onNumerics_some _ _ rfl rfl (.inr fun _ _ => ⟨_, rfl⟩)
  | shiftRightUnsigned => exact judges_onNumerics _ none (by simp [Refuses]) rfl nofun
  | isIn => exact judges_isIn left right
  | instanceOf => exact True.intro

/-- Results are booleans, numbers, BigInts or strings. -/
theorem BinaryOperator.resultType_cases (operator : BinaryOperator) (l r : Value) :
    operator.resultType l r = .boolean ∨ operator.resultType l r = .number ∨ operator.resultType l r = .bigint ∨
      operator.resultType l r = .string := by
  have harithmetic : arithmeticType l r = .bigint ∨ arithmeticType l r = .number := by
    unfold arithmeticType
    split
    · exact Or.inl rfl
    · exact Or.inr rfl
  cases operator with
  | add =>
    by_cases hs : (l.isString || r.isString) = true
    · simp [resultType, hs]
    · rcases harithmetic with h | h <;> simp [resultType, hs, h]
  | subtract | multiply | divide | remainder | power | bitAnd | bitOr | bitXor | shiftLeft | shiftRight
  | shiftRightUnsigned => rcases harithmetic with h | h <;> simp [resultType, h]
  | _ => exact Or.inl rfl

/-- The result of an operator has no identity. -/
theorem BinaryOperator.isObjectLike_of_apply {operator : BinaryOperator} {l r v : Value}
    (h : operator.apply l r = .ok v) : v.isObjectLike = false := by
  have hj := judges_apply operator l r
  rw [h] at hj
  obtain ⟨-, htype⟩ := hj
  cases v with
  | regex | callable | object =>
    rcases operator.resultType_cases l r with hr | hr | hr | hr <;> exact absurd (htype.trans hr) nofun
  | _ => rfl

/-- The domain of the operator table. An operator is refused exactly for the operands for which it has no meaning; a range
error comes of two BigInts and of an operator whose result on them may not exist; there is no other error; and a result has
the type that goes with the operator and the kinds of the operands. -/
theorem operator_domain (operator : BinaryOperator) (left right : Value) :
    ((∃ o l r, operator.apply left right = .error (.unsupported o l r)) ↔ operator.Refuses left right) ∧
    (∀ cause, operator.apply left right = .error (.range cause) →
      operator.mayExceed = true ∧ left.isBigInt = true ∧ right.isBigInt = true) ∧
    (∀ error, operator.apply left right = .error error →
      (∃ o l r, error = .unsupported o l r) ∨ ∃ cause, error = .range cause) ∧
    ∀ value, operator.apply left right = .ok value → value.typeName = operator.resultType left right := by
  have hj := judges_apply operator left right
  cases h : operator.apply left right with
  | ok value =>
    rw [h] at hj
    refine ⟨iff_of_false ?_ hj.1, ?_, ?_, ?_⟩
    · rintro ⟨_, _, _, ⟨⟩⟩
    · rintro _ ⟨⟩
    · rintro _ ⟨⟩
    · rintro _ ⟨⟩
      exact hj.2
  | error error =>
    rw [h] at hj
    cases error with
    | unsupported o l r =>
      refine ⟨iff_of_true ⟨o, l, r, rfl⟩ hj, ?_, ?_, ?_⟩
      · rintro _ ⟨⟩
      · rintro _ ⟨⟩
        exact .inl ⟨o, l, r, rfl⟩
      · rintro _ ⟨⟩
    | range cause =>
      refine ⟨iff_of_false ?_ hj.1, ?_, ?_, ?_⟩
      · rintro ⟨_, _, _, ⟨⟩⟩
      · intro _ _
        exact hj.2
      · rintro _ ⟨⟩
        exact .inr ⟨cause, rfl⟩
      · rintro _ ⟨⟩

-- `+` does not mix a BigInt with a number, but joins one with a text.
example :
    let one : Value := .bigint ⟨1, by decide, by decide⟩
    BinaryOperator.add.Refuses one (.number (.zero false)) ∧ ¬BinaryOperator.add.Refuses one (.string "st") := by
  decide

/-- Powers of two: the one just above the BigInt range is a range error of two BigInts, and a small one is a BigInt. -/
theorem power_beyond_range :
    let two : Value := .bigint ⟨2, by decide, by decide⟩
    let four : Value := .bigint ⟨4, by decide, by decide⟩
    let exponent : Value := .bigint ⟨127, by decide, by decide⟩
    (BinaryOperator.power.apply two exponent = .error (.range .outOfRange) ∧
      BinaryOperator.power.mayExceed = true ∧ two.isBigInt = true ∧ exponent.isBigInt = true) ∧
    (BinaryOperator.power.apply two two = .ok four ∧ four.typeName = BinaryOperator.power.resultType two two) := by
  intro two four exponent
  have hexceeds : BinaryOperator.power.apply two exponent = .error (.range .outOfRange) := by rfl
  have hfits : BinaryOperator.power.apply two two = .ok four := by rfl
  obtain ⟨-, hrange, -, -⟩ := operator_domain .power two exponent
  obtain ⟨-, -, -, htype⟩ := operator_domain .power two two
  exact ⟨⟨hexceeds, hrange _ hexceeds⟩, hfits, htype _ hfits⟩

end ScriptTree

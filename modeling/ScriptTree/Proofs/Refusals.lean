import ScriptTree.Evaluation.Report
import ScriptTree.Proofs.Beginnings
import ScriptTree.Proofs.OperatorDomain

/-!
# What a refusal names

An operator that has no meaning for its operands is refused with its token and the types of the operands. All operators but
the two loose equalities name themselves and the operands that they were given. Loose equality does not know whether it was
asked for `==` or for `!=`, and converts a boolean before it looks at the other operand: an inequality is refused as an
equality, and a boolean as a number. `refusal_names_attempt_iff` says that these are the only refusals that do not name what
was attempted.
-/

namespace ScriptTree

namespace BinaryOperator

/-- The operator that a refusal names. -/
def named : BinaryOperator → BinaryOperator
  | .looseUnequal => .looseEqual
  | operator => operator

/-- The type under which a refusal names an operand. -/
def namedType (operator : BinaryOperator) (operand : Value) : TypeName :=
  if operator.named = .looseEqual ∧ operand.typeName = .boolean then .number else operand.typeName

/-- The operators and operands whose refusal names something else than what was attempted. -/
def Misnames (operator : BinaryOperator) (left right : Value) : Prop :=
  operator = .looseUnequal ∨ (operator = .looseEqual ∧ (left.typeName = .boolean ∨ right.typeName = .boolean))

instance (operator : BinaryOperator) (left right : Value) : Decidable (operator.Misnames left right) :=
  inferInstanceAs (Decidable (_ ∨ _))

/-- All operators but one are named as themselves. -/
theorem named_of_ne {operator : BinaryOperator} (h : operator ≠ .looseUnequal) : operator.named = operator := by
  cases operator with
  | looseUnequal => exact absurd rfl h
  | _ => rfl

/-- Unless an operator is named as loose equality, its operands are named by their types. -/
theorem namedType_of_ne {operator : BinaryOperator} (h : operator.named ≠ .looseEqual) (operand : Value) :
    operator.namedType operand = operand.typeName :=
  if_neg fun hb => h hb.1

/-- If it is, booleans are named wrongly, and nothing else is. -/
theorem namedType_eq_typeName_iff {operator : BinaryOperator} (h : operator.named = .looseEqual) (operand : Value) :
    operator.namedType operand = operand.typeName ↔ operand.typeName ≠ .boolean := by
  unfold namedType
  cases operand <;> simp [h, Value.typeName]

end BinaryOperator

/-- The refusal that an operator gives to its operands. -/
def OperationError.named (operator : BinaryOperator) (left right : Value) : OperationError :=
  .unsupported operator.named (operator.namedType left) (operator.namedType right)

/-- A refusal names what was attempted except where it misnames it. -/
theorem named_eq_ofOperands_iff (operator : BinaryOperator) (left right : Value) :
    OperationError.named operator left right = .ofOperands operator left right ↔ ¬operator.Misnames left right := by
  unfold OperationError.named OperationError.ofOperands BinaryOperator.Misnames
  rw [OperationError.unsupported.injEq]
  by_cases hequal : operator.named = .looseEqual
  · rw [BinaryOperator.namedType_eq_typeName_iff hequal, BinaryOperator.namedType_eq_typeName_iff hequal]
    cases operator with
    | looseEqual => simp [BinaryOperator.named]
    | looseUnequal => simp [BinaryOperator.named]
    | _ => nomatch hequal
  · have hne : operator ≠ .looseUnequal := by
      rintro rfl
      exact hequal rfl
    have hne' : operator ≠ .looseEqual := by
      rintro rfl
      exact hequal rfl
    rw [BinaryOperator.namedType_of_ne hequal, BinaryOperator.namedType_of_ne hequal, BinaryOperator.named_of_ne hne]
    simp [hne, hne']

namespace Value

variable {operator : BinaryOperator} {left right : Value} {o : BinaryOperator} {l r : TypeName}

/-! ## Refusals by the functions that the table is made of -/

/-- A range error is no refusal. -/
theorem mapError_range_ne_unsupported (result : Except RangeCause Value) :
    result.mapError OperationError.range ≠ .error (OperationError.unsupported o l r) := by
  intro h
  cases result with
  | ok value => nomatch h
  | error cause => nomatch h

/-- Arithmetic refuses its operands as they are. -/
theorem onNumerics_refusal {numbers : Double → Double → Double}
    {bigints : Option (BigInt → BigInt → Except RangeCause BigInt)}
    (h : onNumerics operator numbers bigints left right = .error (.unsupported o l r)) :
    OperationError.unsupported o l r = .ofOperands operator left right := by
  rcases onNumerics_cases operator numbers bigints left right with
    ⟨-, hresult⟩ | ⟨-, -, x, hresult⟩ | ⟨-, -, -, operation, a, b, -, hresult⟩
  · rw [hresult] at h
    exact (Except.error.inj h).symm
  · rw [hresult] at h
    nomatch h
  · rw [hresult] at h
    exact absurd h (mapError_range_ne_unsupported _)

theorem add_refusal (h : add left right = .error (.unsupported o l r)) :
    OperationError.unsupported o l r = .ofOperands .add left right := by
  unfold add at h
  split at h
  · exact (Except.error.inj h).symm
  · split at h
    · split at h
      · nomatch h
      · exact (Except.error.inj h).symm
    · exact onNumerics_refusal h

theorem compareBy_refusal {accepts : Ordering → Bool}
    (h : compareBy operator accepts left right = .error (.unsupported o l r)) :
    OperationError.unsupported o l r = .ofOperands operator left right := by
  unfold compareBy at h
  split at h
  · exact (Except.error.inj h).symm
  · nomatch h

theorem isIn_refusal (h : isIn left right = .error (.unsupported o l r)) :
    OperationError.unsupported o l r = .ofOperands .isIn left right := by
  unfold isIn at h
  split at h
  · split at h
    · nomatch h
    · exact (Except.error.inj h).symm
  · exact (Except.error.inj h).symm

/-! ## Refusals of loose equality -/

/-- Once booleans are converted, equality is refused for the operands as they are then. -/
theorem equalsConverting_refusal {error : OperationError} (h : left.equalsConverting right = .error error) :
    error = .ofOperands .looseEqual left right := by
  unfold equalsConverting at h
  split at h
  case h_7 =>
    split at h
    · nomatch h
    · exact (Except.error.inj h).symm
  all_goals nomatch h

/-- Loose equality names the types of operands other than booleans. -/
theorem namedType_looseEqual {operand : Value} (h : ∀ b, operand = .boolean b → False) :
    BinaryOperator.looseEqual.namedType operand = operand.typeName := by
  have hnamed : BinaryOperator.looseEqual.named = .looseEqual := rfl
  refine (BinaryOperator.namedType_eq_typeName_iff hnamed operand).mpr ?_
  cases operand with
  | boolean b => exact (h b rfl).elim
  | _ => simp [typeName]

/-- Loose equality names a boolean as the number that it has become. -/
theorem looseEquals_refusal {error : OperationError} (h : left.looseEquals right = .error error) :
    error = .named .looseEqual left right := by
  unfold looseEquals at h
  split at h
  · nomatch h
  · split at h
    case h_1 => nomatch h
    case h_2 _ _ a hr =>
      rw [equalsConverting_refusal h, OperationError.named, namedType_looseEqual hr]
      rfl
    case h_3 _ _ b hl _ =>
      rw [equalsConverting_refusal h, OperationError.named, namedType_looseEqual hl]
      rfl
    case h_4 hl hr _ =>
      rw [equalsConverting_refusal h, OperationError.named, namedType_looseEqual hl, namedType_looseEqual hr]
      rfl

/-- What becomes of its answer does not matter to a refusal of loose equality. -/
theorem map_looseEquals_refusal {answer : Bool → Value}
    (h : (left.looseEquals right).map answer = .error (.unsupported o l r)) :
    OperationError.unsupported o l r = .named .looseEqual left right := by
  cases hresult : left.looseEquals right with
  | ok equal =>
    rw [hresult] at h
    nomatch h
  | error error =>
    rw [hresult] at h
    rw [← looseEquals_refusal hresult]
    exact (Except.error.inj h).symm

end Value

open Value in
/-- Every refusal of the operator table is the one that the operator gives to its operands. -/
theorem refusal_of_apply {operator : BinaryOperator} {left right : Value} {o : BinaryOperator} {l r : TypeName}
    (h : operator.apply left right = .error (.unsupported o l r)) :
    OperationError.unsupported o l r = .named operator left right := by
  -- all but the loose equalities name the operator and the operands themselves
  have hself (hne : ¬operator.Misnames left right)
      (hattempt : OperationError.unsupported o l r = .ofOperands operator left right) :
      OperationError.unsupported o l r = .named operator left right :=
    hattempt.trans ((named_eq_ofOperands_iff operator left right).mpr hne).symm
  cases operator with
  | looseEqual => exact map_looseEquals_refusal h
  | looseUnequal => exact map_looseEquals_refusal h
  | strictEqual | strictUnequal => nomatch h
  | less | lessEqual | greater | greaterEqual => exact hself (by simp [BinaryOperator.Misnames]) (compareBy_refusal h)
  | add => exact hself (by simp [BinaryOperator.Misnames]) (add_refusal h)
  | isIn => exact hself (by simp [BinaryOperator.Misnames]) (isIn_refusal h)
  | instanceOf => exact hself (by simp [BinaryOperator.Misnames]) (Except.error.inj h).symm
  | _ => exact hself (by simp [BinaryOperator.Misnames]) (onNumerics_refusal h)

/-! ## The wording of a refusal -/

/-- Types have different texts. -/
theorem TypeName.text_injective {t t' : TypeName} (h : t.text.toList = t'.text.toList) : t = t' := by
  cases t <;> cases t' <;> first | rfl | exact absurd h (by decide)

/-- Operators have different tokens. -/
theorem BinaryOperator.token_injective {o o' : BinaryOperator} (h : o.token.toList = o'.token.toList) : o = o' := by
  have htoken := BinaryOperator.ofToken?_token o
  rw [String.toList_inj.mp h, BinaryOperator.ofToken?_token] at htoken
  exact (Option.some.inj htoken).symm

/-- There is no blank in the text of a type. -/
theorem TypeName.blank_notMem_text (t : TypeName) : ' ' ∉ t.text.toList := by
  cases t <;> decide

/-- There is neither a blank nor a backtick in a token. -/
theorem BinaryOperator.notMem_token (o : BinaryOperator) : ' ' ∉ o.token.toList ∧ '\x60' ∉ o.token.toList := by
  cases o <;> decide

namespace Fault

variable {o o' : BinaryOperator} {l l' r r' : TypeName}

/-- The message of a refusal, as the texts that it is put together from. -/
theorem message_refusal (o : BinaryOperator) (l r : TypeName) :
    (ofOperation (.unsupported o l r)).message.toList =
      "unsupported operation: ".toList ++ (l.text.toList ++ ' ' :: (o.token.toList ++ ' ' :: r.text.toList)) := by
  have hmessage : (ofOperation (.unsupported o l r)).message =
      "unsupported operation: " ++ l.text ++ " " ++ o.token ++ " " ++ r.text := rfl
  have hblank : " ".toList = [' '] := rfl
  rw [hmessage]
  simp only [String.toList_append, List.append_assoc, hblank, List.cons_append, List.nil_append]

/-- The report of a refusal, likewise. -/
theorem report_refusal (o : BinaryOperator) (l r : TypeName) :
    (ofOperation (.unsupported o l r)).report.toList =
      "TypeError: cannot apply `".toList ++ (o.token.toList ++ '\x60' :: (" to ".toList ++
        (l.text.toList ++ ' ' :: ("and ".toList ++ r.text.toList)))) := by
  have hreport : (ofOperation (.unsupported o l r)).report =
      "TypeError: cannot apply `" ++ o.token ++ "` to " ++ l.text ++ " and " ++ r.text := rfl
  have hquote : "` to ".toList = '\x60' :: " to ".toList := rfl
  have hand : " and ".toList = ' ' :: "and ".toList := rfl
  rw [hreport]
  simp only [String.toList_append, List.append_assoc, hquote, hand, List.cons_append]

/-- The short wording of a refusal tells the operator and both types. -/
theorem message_refusal_inj :
    (ofOperation (.unsupported o l r)).message = (ofOperation (.unsupported o' l' r')).message ↔
      OperationError.unsupported o l r = .unsupported o' l' r' := by
  refine ⟨fun h => ?_, fun h => by rw [h]⟩
  have hchars := congrArg String.toList h
  rw [message_refusal, message_refusal, List.append_cancel_left_eq] at hchars
  obtain ⟨hl, htail⟩ := append_cons_inj_of_notMem_left l.blank_notMem_text l'.blank_notMem_text hchars
  obtain ⟨ho, hr⟩ := append_cons_inj_of_notMem_left o.notMem_token.1 o'.notMem_token.1 htail
  rw [BinaryOperator.token_injective ho, TypeName.text_injective hl, TypeName.text_injective hr]

/-- So does what the user of a script reads. -/
theorem report_refusal_inj :
    (ofOperation (.unsupported o l r)).report = (ofOperation (.unsupported o' l' r')).report ↔
      OperationError.unsupported o l r = .unsupported o' l' r' := by
  refine ⟨fun h => ?_, fun h => by rw [h]⟩
  have hchars := congrArg String.toList h
  rw [report_refusal, report_refusal, List.append_cancel_left_eq] at hchars
  obtain ⟨ho, htail⟩ := append_cons_inj_of_notMem_left o.notMem_token.2 o'.notMem_token.2 hchars
  obtain ⟨hl, hr⟩ := append_cons_inj_of_notMem_left l.blank_notMem_text l'.blank_notMem_text
    (List.append_cancel_left htail)
  rw [BinaryOperator.token_injective ho, TypeName.text_injective hl,
    TypeName.text_injective (List.append_cancel_left hr)]

end Fault

/-- A refusal names the operator's token and the types of its operands, but for the loose equalities: an inequality is
refused as an equality, and a boolean as a number. So an error, its wording and what the user of a script reads name what
was attempted exactly if the operator is not `!=`, and not `==` with a boolean on one side. -/
theorem refusal_names_attempt_iff (operator : BinaryOperator) (left right : Value) (o : BinaryOperator) (l r : TypeName)
    (h : operator.apply left right = .error (.unsupported o l r)) :
    (o = operator.named ∧ l = operator.namedType left ∧ r = operator.namedType right) ∧
    (o = operator ∧ l = left.typeName ∧ r = right.typeName ↔ ¬operator.Misnames left right) ∧
    ((Fault.ofOperation (.unsupported o l r)).message =
        "unsupported operation: " ++ left.typeName.text ++ " " ++ operator.token ++ " " ++ right.typeName.text ↔
      ¬operator.Misnames left right) ∧
    ((Fault.ofOperation (.unsupported o l r)).report =
        "TypeError: cannot apply `" ++ operator.token ++ "` to " ++ left.typeName.text ++ " and " ++
          right.typeName.text ↔
      ¬operator.Misnames left right) := by
  have herror := refusal_of_apply h
  have hnames := named_eq_ofOperands_iff operator left right
  rw [← herror] at hnames
  have hmessage := Fault.message_refusal_inj.trans hnames
  have hreport := Fault.report_refusal_inj.trans hnames
  rw [OperationError.ofOperands, OperationError.unsupported.injEq] at hnames
  rw [OperationError.named, OperationError.unsupported.injEq] at herror
  exact ⟨herror, hnames, hmessage, hreport⟩

/-- A boolean is subtracted from under its own name, and compared with `==` under that of a number. -/
theorem boolean_minus_object_named :
    let object : Value := .object 0 []
    (BinaryOperator.subtract.apply (.boolean true) object = .error (.unsupported .subtract .boolean .object) ∧
      (Fault.ofOperation (.unsupported .subtract .boolean .object)).message =
        "unsupported operation: boolean - object") ∧
    (BinaryOperator.looseEqual.apply (.boolean true) object = .error (.unsupported .looseEqual .number .object) ∧
      (Fault.ofOperation (.unsupported .looseEqual .number .object)).message ≠
        "unsupported operation: boolean == object") := by
  intro object
  have hminus : BinaryOperator.subtract.apply (.boolean true) object =
      .error (.unsupported .subtract .boolean .object) := by rfl
  have hequal : BinaryOperator.looseEqual.apply (.boolean true) object =
      .error (.unsupported .looseEqual .number .object) := by rfl
  obtain ⟨-, -, hnamed, -⟩ := refusal_names_attempt_iff _ _ _ _ _ _ hminus
  obtain ⟨-, -, hmisnamed, -⟩ := refusal_names_attempt_iff _ _ _ _ _ _ hequal
  exact ⟨⟨hminus, hnamed.mpr (by decide)⟩, hequal, fun h => hmisnamed.mp h (by decide)⟩

/-- An inequality of a boolean and an object is refused as the equality of a number and an object. -/
theorem boolean_unequal_object_misnamed :
    ∃ o l r, BinaryOperator.looseUnequal.apply (.boolean true) (.object 0 []) = .error (.unsupported o l r) ∧
      o ≠ .looseUnequal ∧ l ≠ (Value.boolean true).typeName ∧
      (Fault.ofOperation (.unsupported o l r)).message = "unsupported operation: number == object" :=
  ⟨.looseEqual, .number, .object, rfl, by decide, by decide, by decide⟩

end ScriptTree

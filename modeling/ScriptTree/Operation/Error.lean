import ScriptTree.Syntax.Operator
import ScriptTree.Value.Basic

/-!
# Why an operation fails

An operator has no meaning for its operands, or it has one and a BigInt result does not exist.
-/

namespace ScriptTree

/-- Why an operation has no result. -/
inductive OperationError where
  | unsupported (operator : BinaryOperator) (left right : TypeName)
  | range (cause : RangeCause)
  deriving DecidableEq

/-- The refusal of an operator for operands of these types. -/
def OperationError.ofOperands (operator : BinaryOperator) (left right : Value) : OperationError :=
  .unsupported operator left.typeName right.typeName

end ScriptTree

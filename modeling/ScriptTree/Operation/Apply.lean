import ScriptTree.Operation.Arithmetic
import ScriptTree.Operation.Equality
import ScriptTree.Operation.Order

/-!
# The operator table

`BinaryOperator.apply` is the meaning of every binary operator on two values. `instanceof` has none.
-/

namespace ScriptTree

open Value in
/-- The result of `left operator right`. -/
def BinaryOperator.apply (operator : BinaryOperator) (left right : Value) : Except OperationError Value :=
  match operator with
  | .looseEqual => (left.looseEquals right).map .boolean
  | .looseUnequal => (left.looseEquals right).map fun equal => .boolean !equal
  | .strictEqual => .ok (.boolean (left.strictEquals right))
  | .strictUnequal => .ok (.boolean !(left.strictEquals right))
  | .less => compareBy operator (· == .lt) left right
  | .lessEqual => compareBy operator (· != .gt) left right
  | .greater => compareBy operator (· == .gt) left right
  | .greaterEqual => compareBy operator (· != .lt) left right
  | .add => Value.add left right
  | .subtract => onNumerics operator Double.sub (some BigInt.sub) left right
  | .multiply => onNumerics operator Double.mul (some BigInt.mul) left right
  | .divide => onNumerics operator Double.div (some BigInt.div) left right
  | .remainder => onNumerics operator Double.rem (some BigInt.rem) left right
  | .power => onNumerics operator Double.pow (some BigInt.pow) left right
  | .bitAnd => onNumerics operator (Double.onWords (· &&& ·)) (some fun a b => .ok (a.and b)) left right
  | .bitOr => onNumerics operator (Double.onWords (· ||| ·)) (some fun a b => .ok (a.or b)) left right
  | .bitXor => onNumerics operator (Double.onWords (· ^^^ ·)) (some fun a b => .ok (a.xor b)) left right
  | .shiftLeft =>
    onNumerics operator (Double.onWords fun x y => x <<< shiftCount y) (some BigInt.shiftLeft) left right
  | .shiftRight =>
    onNumerics operator (Double.onWords fun x y => x.sshiftRight (shiftCount y)) (some BigInt.shiftRight) left right
  | .shiftRightUnsigned => onNumerics operator Double.shiftRightUnsigned none left right
  | .isIn => left.isIn right
  | .instanceOf => .error (.ofOperands operator left right)

end ScriptTree

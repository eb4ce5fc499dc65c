import ScriptTree.Operation.Error
import ScriptTree.Value.Conversion

/-!
# Arithmetic and bitwise operators

Both operands are numbers or both are BigInts; a mixture is refused, and so is a value with an identity. `+` joins texts
as soon as one operand is a string. Bitwise operators work on the 32-bit patterns of numbers and on the unbounded two's
complement of BigInts.
-/

namespace ScriptTree

/-- A bitwise operation on the patterns of two numbers, its result read as a signed integer. -/
def Double.onWords (operation : BitVec 32 → BitVec 32 → BitVec 32) (x y : Double) : Double :=
  .ofInt (operation x.toWord y.toWord).toInt

/-- The shift count that a pattern stands for: its last five bits. -/
def shiftCount (word : BitVec 32) : Nat := word.toNat % 32

/-- The shift to the right that fills up with zeros; its result is read as an unsigned integer. -/
def Double.shiftRightUnsigned (x y : Double) : Double := .ofNat (x.toWord >>> shiftCount y.toWord).toNat

namespace Value

/-- Applies an operation to two numbers, or another to two BigInts. -/
def onNumerics (operator : BinaryOperator) (numbers : Double → Double → Double)
    (bigints : Option (BigInt → BigInt → Except RangeCause BigInt)) (left right : Value) : Except OperationError Value :=
  match left.toNumeric?, right.toNumeric?, bigints with
  | some (.number x), some (.number y), _ => .ok (.number (numbers x y))
  | some (.bigint a), some (.bigint b), some operation => ((operation a b).map .bigint).mapError .range
  | _, _, _ => .error (.ofOperands operator left right)

/-- Addition, or concatenation if an operand is a string. -/
def add (left right : Value) : Except OperationError Value :=
  if left.isObjectLike || right.isObjectLike then .error (.ofOperands .add left right)
  else if left.isString || right.isString then
    match left.toText?, right.toText? with
    | some s, some t => .ok (.string (s ++ t))
    | _, _ => .error (.ofOperands .add left right)
  else onNumerics .add Double.add (some BigInt.add) left right

end Value

end ScriptTree

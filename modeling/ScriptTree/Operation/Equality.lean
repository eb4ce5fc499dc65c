import ScriptTree.BigInt.OfText
import ScriptTree.Operation.Error
import ScriptTree.Value.Conversion

/-!
# Equality

Strict equality compares values of one kind by what they hold, or by identity. Loose equality identifies `null` with
`undefined`, converts booleans to numbers, compares a number with a string as numbers and a BigInt with a string as
BigInts, and a BigInt with a number exactly. An object-like value equals no other object-like value and cannot be compared
with a primitive.
-/

namespace ScriptTree

/-- How a BigInt compares with a number by value: not at all with NaN. The whole part of a finite number decides, at once if
it is no BigInt; between equals the fraction behind it does. -/
def BigInt.compareDouble? (b : BigInt) : Double → Option Ordering
  | .nan _ => none
  | .infinite negative => some (if negative then .gt else .lt)
  | .finite negative units _ =>
    let whole := signed negative (units / unitsPerOne)
    if bigIntBound ≤ whole then some .lt
    else if whole < -bigIntBound then some .gt
    else some ((compare b.val whole).then (compare (whole * unitsPerOne) (signed negative units)))

namespace Value

/-- Equality without conversions. -/
def strictEquals : Value → Value → Bool
  | .undefined, .undefined => true
  | .null, .null => true
  | .boolean a, .boolean b => a == b
  | .number x, .number y => x.equals y
  | .string s, .string t => s == t
  | .bigint a, .bigint b => a.val == b.val
  | .regex i _, .regex j _ => i == j
  | .callable i _, .callable j _ => i == j
  | .object i _, .object j _ => i == j
  | _, _ => false

/-- Loose equality of two values that are neither nullish nor booleans. -/
def equalsConverting : Value → Value → Except OperationError Bool
  | .number x, .string s => .ok (x.equals (.ofText s))
  | .string s, .number x => .ok (x.equals (.ofText s))
  | .bigint b, .string s => .ok (BigInt.ofText? s == some b)
  | .string s, .bigint b => .ok (BigInt.ofText? s == some b)
  | .bigint b, .number x => .ok (b.compareDouble? x == some .eq)
  | .number x, .bigint b => .ok (b.compareDouble? x == some .eq)
  | left, right =>
    if left.isObjectLike == right.isObjectLike then .ok (left.strictEquals right)
    else .error (.ofOperands .looseEqual left right)

/-- Loose equality. A refusal names the operands as they are once a boolean has become a number. -/
def looseEquals (left right : Value) : Except OperationError Bool :=
  if left.isNullish || right.isNullish then .ok (left.isNullish && right.isNullish)
  else
    match left, right with
    | .boolean a, .boolean b => .ok (a == b)
    | .boolean a, _ => equalsConverting (.number (.ofBool a)) right
    | _, .boolean b => equalsConverting left (.number (.ofBool b))
    | _, _ => equalsConverting left right

end Value

end ScriptTree

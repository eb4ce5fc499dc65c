import ScriptTree.Operation.Equality
import ScriptTree.Text.Units
import ScriptTree.Value.Property

/-!
# Order and membership

Two strings compare by code units, and any other two primitives as numbers, where a BigInt takes part exactly; a string
that meets a BigInt is read as one. Values that have no order, such as NaN, make all four comparisons false.
-/

namespace ScriptTree.Value

/-- How two primitives compare, if they do. -/
def order? : Value → Value → Option Ordering
  | .string s, .string t => some (Text.compareUnits s t)
  | .bigint a, .bigint b => some (compare a.val b.val)
  | .bigint a, .string s => (BigInt.ofText? s).map fun b => compare a.val b.val
  | .string s, .bigint b => (BigInt.ofText? s).map fun a => compare a.val b.val
  | .bigint a, right => right.toNumber?.bind a.compareDouble?
  | left, .bigint b => (left.toNumber?.bind b.compareDouble?).map Ordering.swap
  | left, right => do (← left.toNumber?).compare? (← right.toNumber?)

/-- The comparison by an order operator: `accepts` says for which orderings it holds. -/
def compareBy (operator : BinaryOperator) (accepts : Ordering → Bool) (left right : Value) :
    Except OperationError Value :=
  if left.isObjectLike || right.isObjectLike then .error (.ofOperands operator left right)
  else .ok (.boolean ((left.order? right).any accepts))

/-- Whether an object-like value has a property of the name that a primitive converts to. -/
def isIn (key holder : Value) : Except OperationError Value :=
  if holder.isObjectLike then
    match key.toText? with
    | some name => .ok (.boolean (holder.property? name).isSome)
    | none => .error (.ofOperands .isIn key holder)
  else .error (.ofOperands .isIn key holder)

end ScriptTree.Value

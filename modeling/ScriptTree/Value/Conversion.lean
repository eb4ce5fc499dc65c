import ScriptTree.Double.OfText
import ScriptTree.Double.Text
import ScriptTree.Value.Basic

/-!
# Conversions of primitives

Operators convert primitives to numbers and texts. Values with an identity never convert, and a BigInt converts to a text
only.
-/

namespace ScriptTree

/-- The number of a truth value. -/
def Double.ofBool (b : Bool) : Double := ofNat b.toNat

/-- An operand of an arithmetic operator. -/
inductive Numeric where
  | number (x : Double)
  | bigint (b : BigInt)
  deriving DecidableEq

namespace Value

/-- The number that a value converts to. -/
def toNumber? : Value → Option Double
  | .undefined => some .quietNan
  | .null => some (.zero false)
  | .boolean b => some (.ofBool b)
  | .number x => some x
  | .string s => some (.ofText s)
  | _ => none

/-- The text that a value converts to. -/
def toText? : Value → Option String
  | .undefined => some "undefined"
  | .null => some "null"
  | .boolean b => some (if b then "true" else "false")
  | .number x => some x.toText
  | .string s => some s
  | .bigint b => some b.toText
  | _ => none

/-- The operand that a value is to an arithmetic operator: a BigInt is itself, any other primitive its number. -/
def toNumeric? : Value → Option Numeric
  | .bigint b => some (.bigint b)
  | v => v.toNumber?.map .number

end Value

end ScriptTree

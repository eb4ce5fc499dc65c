import ScriptTree.BigInt.Basic
import ScriptTree.Numeral.Decimal
import ScriptTree.Numeral.Radix

/-!
# Reading BigInts

`BigInt.parse?` reads digits of a radix behind an optional sign. It does not see the integer as a whole: the value grows digit
by digit, and each product and each sum on the way has to stay in range.
-/

namespace ScriptTree.BigInt

/-- The value that a number gets when one more digit is read: away from zero, on the side of its sign. -/
def appendDigit? (radix : Nat) (negative : Bool) (b : BigInt) (c : Char) : Option BigInt := do
  let product ← ofInt? (b.val * radix)
  let digit ← Radix.digit? radix c
  ofInt? (product.val + signed negative digit)

/-- Reads a whole text as an integer: an optional sign and at least one digit of the radix. -/
def parse? (radix : Nat) (text : List Char) : Option BigInt :=
  let (negative, digits) := splitSign text
  if digits = [] then none else digits.foldlM (appendDigit? radix negative) zero

end ScriptTree.BigInt

import ScriptTree.BigInt.Parse
import ScriptTree.Text.Blank

/-!
# BigInts from text

`BigInt.ofText?` is the conversion of a string to a BigInt: an integer numeral, blanks around it aside, of a value in
range. The empty text is zero; a radix numeral has no sign, although the reader of its digits would take one.
-/

namespace ScriptTree.BigInt

/-- The BigInt that a trimmed text denotes. The digits are looked at before they are read. -/
def ofNumeral? (text : List Char) : Option BigInt :=
  if text = [] then some zero
  else
    match Radix.split? text with
    | some (radix, digits) =>
      if digits ≠ [] ∧ digits.all fun c => (Radix.digit? radix c).isSome then parse? radix digits else none
    | none =>
      let digits := (splitSign text).2
      if digits ≠ [] ∧ digits.all Char.isDigit then parse? 10 text else none

/-- The conversion of a string to a BigInt. -/
def ofText? (s : String) : Option BigInt := ofNumeral? (Text.trim s.toList)

end ScriptTree.BigInt

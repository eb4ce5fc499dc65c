import ScriptTree.Double.Arithmetic
import ScriptTree.Double.Parse
import ScriptTree.Numeral.Radix
import ScriptTree.Text.Blank

/-!
# Numbers from text

`Double.ofText` is the conversion of a string to a number: what the blank-trimmed text denotes as a numeral, with NaN for
anything else. The empty text is zero. The reader of doubles would take more words for a number than a script does, so only
numerals are passed on to it.
-/

namespace ScriptTree.Double

/-- The number of a radix numeral's digits, accumulated in doubles from the most significant digit on: every step rounds. -/
def ofDigits (radix : Nat) (digits : List Nat) : Double :=
  digits.foldl (fun sum digit => (sum.mul (ofNat radix)).add (ofNat digit)) (zero false)

/-- The number that a trimmed text denotes. -/
def ofNumeral (text : List Char) : Double :=
  if text = [] then zero false
  else if text = "Infinity".toList ∨ text = "+Infinity".toList then .infinite false
  else if text = "-Infinity".toList then .infinite true
  else
    match Radix.split? text with
    | some (radix, digits) => ((Radix.digits? radix digits).map (ofDigits radix)).getD .quietNan
    | none => if Decimal.isNumeral text then (parse? text).getD .quietNan else .quietNan

/-- The conversion of a string to a number. -/
def ofText (s : String) : Double := ofNumeral (Text.trim s.toList)

end ScriptTree.Double

import ScriptTree.Numeral.Decimal

/-!
# Reading doubles

`Double.parse?` reads the words for infinity and NaN and the decimal numerals. Who wants less than that has to look at the text
before.
-/

namespace ScriptTree.Double

/-- Reads the words for infinity and NaN, in either case and with an optional sign. -/
def ofWord? (text : List Char) : Option Double :=
  let (negative, word) := splitSign text
  let word := word.map Char.toLower
  if word = "inf".toList ∨ word = "infinity".toList then some (.infinite negative)
  else if word = "nan".toList then some .quietNan
  else none

/-- Reads a whole text as a word or as a decimal numeral, which gives the nearest double. -/
def parse? (text : List Char) : Option Double :=
  match ofWord? text with
  | some x => some x
  | none => (Decimal.read? text).map Decimal.toDouble

end ScriptTree.Double

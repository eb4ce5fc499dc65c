import ScriptTree.Double.Layout

/-!
# The text of a number

`Double.toText` writes a number as a script sees it: the shortest digits that read back, positional from `1e-6` up to
below `1e21`, and with an exponent outside. Both zeros are `0`; `Double.inspect` tells them apart.
-/

namespace ScriptTree.Double

/-- Numbers of a script have up to 21 digits before the point and five zeros after it; of two equally near decimals the
larger is written. -/
def scriptLayout : Layout := ⟨.up, 21, 5, []⟩

/-- The characters of a number's text. -/
def toChars : Double → List Char
  | .nan _ => "NaN".toList
  | .infinite negative => (if negative then ['-'] else []) ++ "Infinity".toList
  | .finite negative units _ => (if negative ∧ units ≠ 0 then ['-'] else []) ++ scriptLayout.chars units

/-- The text of a number. -/
def toText (x : Double) : String := String.ofList x.toChars

/-- The text of a number in inspected output, where the negative zero shows its sign. -/
def inspect (x : Double) : String := if x = zero true then "-0" else x.toText

end ScriptTree.Double

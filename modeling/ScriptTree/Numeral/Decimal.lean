import ScriptTree.Double.Rounding

/-!
# Decimal numerals

A decimal numeral is an integer coefficient times a power of ten. `Decimal.read?` reads one: an optional sign, digits with
an optional point among or around them, at least one digit in all, and an optional exponent. `Decimal.toDouble` gives the
nearest double. `Decimal.isNumeral` passes over a text without reading it, to find out whether it is a numeral.
-/

namespace ScriptTree

/-- The value `± coefficient * 10 ^ exponent`. -/
structure Decimal where
  negative : Bool
  coefficient : Nat
  exponent : Int
  deriving DecidableEq

/-- Takes one leading sign off a text; no sign counts as plus. -/
def splitSign : List Char → Bool × List Char
  | '-' :: rest => (true, rest)
  | '+' :: rest => (false, rest)
  | text => (false, text)

namespace Decimal

/-- Reads what may follow the digits of a numeral: nothing, or `e`, an optional sign and digits. -/
def readExponent? : List Char → Option Int
  | [] => some 0
  | mark :: rest =>
    if mark = 'e' ∨ mark = 'E' then
      let (negative, digits) := splitSign rest
      if digits ≠ [] ∧ digits.all Char.isDigit then
        some (signed negative (Nat.ofDigitChars 10 digits 0))
      else none
    else none

/-- Splits the rest of a numeral after its whole digits into the digits behind the point, if there is one, and what
follows them. -/
def splitFraction : List Char → List Char × List Char
  | '.' :: rest => (rest.takeWhile Char.isDigit, rest.dropWhile Char.isDigit)
  | rest => ([], rest)

/-- Reads a whole text as a decimal numeral. -/
def read? (text : List Char) : Option Decimal :=
  let (negative, body) := splitSign text
  let whole := body.takeWhile Char.isDigit
  let (fraction, rest) := splitFraction (body.dropWhile Char.isDigit)
  if whole = [] ∧ fraction = [] then none
  else (readExponent? rest).map fun exponent =>
    ⟨negative, Nat.ofDigitChars 10 (whole ++ fraction) 0, exponent - fraction.length⟩

/-- Passes over the digits that a text begins with: how many there are and what follows them. -/
def skipDigits (text : List Char) : Nat × List Char :=
  ((text.takeWhile Char.isDigit).length, text.dropWhile Char.isDigit)

/-- Passes over a point, if there is one, and the digits behind it, which are counted. -/
def skipFraction : List Char → Nat × List Char
  | '.' :: rest => skipDigits rest
  | rest => (0, rest)

/-- Passes over an exponent, if there is one: its mark, an optional sign and digits, of which there has to be one. -/
def skipExponent? : List Char → Option (List Char)
  | [] => some []
  | mark :: rest =>
    if mark = 'e' ∨ mark = 'E' then
      let (count, rest) := skipDigits (splitSign rest).2
      if count = 0 then none else some rest
    else some (mark :: rest)

/-- Whether a text is a decimal numeral: nothing is left of it, and there was a digit before or behind the point. -/
def isNumeral (text : List Char) : Bool :=
  let (whole, rest) := skipDigits (splitSign text).2
  let (fraction, rest) := skipFraction rest
  whole + fraction ≠ 0 && skipExponent? rest = some []

/-- The double nearest to a decimal. An exponent past every double is decided without writing the power out: above `400`
any nonzero coefficient overflows, and a value below `10 ^ -400` is nearest to zero. -/
def toDouble (d : Decimal) : Double :=
  if d.coefficient = 0 then .zero d.negative
  else if 400 < d.exponent then .infinite d.negative
  else if d.exponent + d.coefficient.log2 + 1 < -400 then .zero d.negative
  else .ofRatio d.negative (d.coefficient * Nat.pow 10 d.exponent.toNat * unitsPerOne) (Nat.pow 10 (-d.exponent).toNat)

end Decimal

end ScriptTree

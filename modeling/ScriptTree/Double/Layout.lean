import ScriptTree.Double.Shortest

/-!
# Laying out the shortest decimal

The digits of a magnitude's shortest decimal are written positionally while the point is near them, and with one digit
before the point and a signed exponent otherwise. A `Layout` says where the one ends and the other begins.
-/

namespace ScriptTree.Double

/-- A way of writing magnitudes in decimal. -/
structure Layout where
  /-- Which of two equally near decimals is written. -/
  tie : Tie
  /-- The most digits that positional notation has before the point. -/
  mostWhole : Nat
  /-- The most zeros that positional notation has between the point and the first digit. -/
  mostZeros : Nat
  /-- What follows the digits of a whole number in positional notation. -/
  wholeEnd : List Char

namespace Layout

/-- Lays digits out around a decimal point that stands before the digit of index `point`. -/
def place (layout : Layout) (digits : List Char) (point : Int) : List Char :=
  let count : Int := digits.length
  if count ≤ point ∧ point ≤ layout.mostWhole then
    digits ++ (List.replicate (point - count).toNat '0' ++ layout.wholeEnd)
  else if 0 < point ∧ point ≤ layout.mostWhole then digits.take point.toNat ++ '.' :: digits.drop point.toNat
  else if -layout.mostZeros ≤ point ∧ point ≤ 0 then '0' :: '.' :: (List.replicate (-point).toNat '0' ++ digits)
  else
    let exponent := point - 1
    let mark := if exponent < 0 then '-' else '+'
    let tail := 'e' :: mark :: Nat.toDigits 10 exponent.natAbs
    match digits with
    | [digit] => digit :: tail
    | digit :: rest => digit :: '.' :: (rest ++ tail)
    | [] => tail

/-- The characters of a magnitude. -/
def chars (layout : Layout) (units : Nat) : List Char :=
  if units = 0 then '0' :: layout.wholeEnd
  else
    let (digits, point) := shortestDigits layout.tie units
    layout.place digits point

end Layout

end ScriptTree.Double

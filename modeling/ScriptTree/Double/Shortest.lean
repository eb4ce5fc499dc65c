import ScriptTree.Numeral.Decimal

/-!
# The shortest decimal of a double

The shortest decimal of a positive double is the one with the fewest digits among those that round to it, and of several
the nearest. It is found on the grids of 1, 2, … 17 digits: a grid has a point in the rounding interval exactly if one of
the two neighbours of the double on that grid lies there, so the first grid with a hit decides.
-/

namespace ScriptTree.Double

/-- Which of two equally near decimals is taken. -/
inductive Tie where
  | up
  | even
  deriving DecidableEq

/-- How many decimal digits a positive number has. -/
def digitCount (n : Nat) : Nat := (Nat.toDigits 10 n).length

/-- The decimal exponent of the leading digit of a positive magnitude: `10 ^ e ≤ units / 2 ^ 1074 < 10 ^ (e + 1)`. Below
one it is found from the reciprocal, rounded up. -/
def leadingExponent (units : Nat) : Int :=
  if unitsPerOne ≤ units then digitCount (units / unitsPerOne) - 1
  else -(digitCount ((unitsPerOne + units - 1) / units - 1) : Nat)

/-- The decimals that round to a positive magnitude, as an interval of quarter units: the halves of the gaps to its two
neighbours, and whether these ends belong to it, which is so for an even significand. The gap below a power of two is
half as wide as the one above. -/
structure Interval where
  low : Nat
  high : Nat
  closed : Bool
  deriving DecidableEq

def Interval.ofUnits (units : Nat) : Interval :=
  let step := spacing units
  let significand := units / step
  let narrow := decide (significand = 1 <<< 52 ∧ 1 < step)
  ⟨4 * units - (if narrow then step else 2 * step), 4 * units + 2 * step, significand % 2 = 0⟩

/-- The best decimal on the grid of multiples of `10 ^ exponent`: the neighbour of the magnitude, of the two that there
are, that lies in its rounding interval, and if both do the nearer. -/
def onGrid? (tie : Tie) (units : Nat) (exponent : Int) : Option Nat :=
  let interval := Interval.ofUnits units
  let up := Nat.pow 10 (-exponent).toNat
  let down := unitsPerOne * Nat.pow 10 exponent.toNat
  let lower := units * up / down
  let inside (point : Nat) : Bool :=
    if interval.closed then interval.low * up ≤ 4 * point * down ∧ 4 * point * down ≤ interval.high * up
    else interval.low * up < 4 * point * down ∧ 4 * point * down < interval.high * up
  let below := units * up - lower * down
  let above := (lower + 1) * down - units * up
  match inside lower, inside (lower + 1) with
  | true, true =>
    if below < above then some lower
    else if above < below then some (lower + 1)
    else if tie = .even ∧ lower % 2 = 0 then some lower
    else some (lower + 1)
  | true, false => some lower
  | false, true => some (lower + 1)
  | false, false => none

/-- The best decimal on the first of the grids with the given numbers of digits that has one: its coefficient and its
exponent. The exact value is a decimal too, and the last resort. -/
def firstGrid (tie : Tie) (units : Nat) (leading : Int) : List Nat → Nat × Int
  | [] => (units * Nat.pow 5 unitExponent, -unitExponent)
  | count :: more =>
    let exponent := leading + 1 - count
    match onGrid? tie units exponent with
    | some point => (point, exponent)
    | none => firstGrid tie units leading more

/-- The shortest decimal of a positive magnitude. Its coefficient may end in zeros:
the upper neighbour of a run of nines is a power of ten. -/
def shortest (tie : Tie) (units : Nat) : Nat × Int := firstGrid tie units (leadingExponent units) (List.range' 1 17)

/-- The digits of the shortest decimal of a positive magnitude, without zeros at the end, and the index of the digit that
the decimal point stands before; it may lie outside of them. -/
def shortestDigits (tie : Tie) (units : Nat) : List Char × Int :=
  let (coefficient, exponent) := shortest tie units
  let digits := Nat.toDigits 10 coefficient
  ((digits.reverse.dropWhile (· = '0')).reverse, digits.length + exponent)

end ScriptTree.Double

import ScriptTree.Double.Rounding

/-!
# Arithmetic on doubles

Sum, product and quotient are the exact result rounded once. The remainder is exact and has the dividend's sign. The
power is the platform's, with the cases that are NaN whatever the platform put in front of it. A NaN that an operation
gives is a quiet one.
-/

namespace ScriptTree.Double

/-- The sum. Opposite numbers add up to the positive zero, two negative zeros to the negative one. -/
def add : Double → Double → Double
  | .nan _, _ => .quietNan
  | _, .nan _ => .quietNan
  | .infinite n, .infinite m => if n = m then .infinite n else .quietNan
  | .infinite n, .finite .. => .infinite n
  | .finite .., .infinite m => .infinite m
  | .finite n a _, .finite m b _ =>
    let sum := signed n a + signed m b
    if sum = 0 then zero (n && m) else ofRatio (decide (sum < 0)) sum.natAbs 1

/-- The number with the opposite sign. -/
def neg : Double → Double
  | .nan signaling => .nan signaling
  | .infinite n => .infinite (!n)
  | .finite n a fits => .finite (!n) a fits

/-- The difference. -/
def sub (x y : Double) : Double := x.add y.neg

/-- The product. Zero times an infinity is NaN. -/
def mul : Double → Double → Double
  | .nan _, _ => .quietNan
  | _, .nan _ => .quietNan
  | .infinite n, .infinite m => .infinite (n ^^ m)
  | .infinite n, .finite m b _ => if b = 0 then .quietNan else .infinite (n ^^ m)
  | .finite n a _, .infinite m => if a = 0 then .quietNan else .infinite (n ^^ m)
  | .finite n a _, .finite m b _ => ofRatio (n ^^ m) (a * b) unitsPerOne

/-- The quotient. A zero divisor gives an infinity, unless the dividend is zero too. -/
def div : Double → Double → Double
  | .nan _, _ => .quietNan
  | _, .nan _ => .quietNan
  | .infinite _, .infinite _ => .quietNan
  | .infinite n, .finite m _ _ => .infinite (n ^^ m)
  | .finite n _ _, .infinite m => zero (n ^^ m)
  | .finite n a _, .finite m b _ =>
    if b = 0 then if a = 0 then .quietNan else .infinite (n ^^ m)
    else ofRatio (n ^^ m) (a * unitsPerOne) b

/-- The remainder of the division that truncates toward zero; it has the sign of the dividend, zeros included. -/
def rem : Double → Double → Double
  | .nan _, _ => .quietNan
  | _, .nan _ => .quietNan
  | .infinite _, _ => .quietNan
  | x, .infinite _ => x
  | .finite n a _, .finite _ b _ => if b = 0 then .quietNan else ofRatio n (a % b) 1

/-- The power. A NaN exponent gives NaN whatever the base, and so does an infinite exponent of `1` or `-1`. A quiet NaN to
the power of zero is one, but a signaling NaN has no power at all. -/
def pow (base exponent : Double) : Double :=
  if exponent.isNan || base.isSignaling then .quietNan
  else if exponent.isInfinite && decide (base.abs = ofNat 1) then .quietNan
  else ofBits (Float.ofBits base.toBits ^ Float.ofBits exponent.toBits).toBits

/-- How two numbers compare by value: not at all if one is NaN; both zeros are equal. -/
def compare? (x y : Double) : Option Ordering := do
  let a ← x.position
  let b ← y.position
  return compare a b

/-- Equality by value: NaN differs from itself, and both zeros are equal. -/
def equals (x y : Double) : Bool := x.compare? y == some .eq

/-- The whole part of a representable count of units is representable. -/
theorem representable_whole {units : Nat} (fits : Representable units) :
    Representable (units / unitsPerOne * unitsPerOne) := by
  have hpos : 0 < unitsPerOne := by decide
  by_cases h : unitExponent ≤ spacingExponent units
  · -- numbers of this size are whole
    have hdvd : unitsPerOne ∣ units := by
      refine Nat.dvd_trans ?_ fits.2
      rw [unitsPerOne, spacing, Nat.one_shiftLeft, Nat.one_shiftLeft]
      exact Nat.pow_dvd_pow 2 h
    rwa [Nat.div_mul_cancel hdvd]
  · have hlt : units / unitsPerOne < 1 <<< 53 := by
      refine Nat.lt_of_le_of_lt ?_ (shiftRight_spacingExponent_lt units)
      rw [Nat.shiftRight_eq_div_pow, unitsPerOne, Nat.one_shiftLeft]
      exact Nat.div_le_div_left (Nat.pow_le_pow_right (by decide) (by omega)) (Nat.two_pow_pos _)
    have := representable_shiftLeft hlt (e := unitExponent) (by decide)
    rwa [Nat.shiftLeft_eq, ← Nat.one_shiftLeft] at this

/-- The whole part, truncated toward zero. -/
def trunc : Double → Double
  | .finite n a fits => .finite n (a / unitsPerOne * unitsPerOne) (representable_whole fits)
  | x => x

/-- The remainder that is not negative: where `rem` is, the divisor's magnitude is added. -/
def remEuclid (x y : Double) : Double :=
  let remainder := x.rem y
  if remainder.compare? (zero false) = some .lt then remainder.add y.abs else remainder

/-- The whole part as a word, cut off at the ends of the range of words; zero for NaN. -/
def saturate : Double → BitVec 32
  | .nan _ => 0
  | .infinite n => if n then 0 else .ofNat 32 0xffffffff
  | .finite n a _ => if n then 0 else .ofNat 32 (min (a / unitsPerOne) 0xffffffff)

/-- The 32-bit pattern that bitwise operators work on: the truncated value modulo `2 ^ 32`, zero for NaN and the
infinities. -/
def toWord (x : Double) : BitVec 32 :=
  if x.isNan || x.isInfinite then 0 else (x.trunc.remEuclid (ofNat 0x100000000)).saturate

end ScriptTree.Double

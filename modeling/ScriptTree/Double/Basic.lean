/-!
# Doubles

The numbers of a script are IEEE 754 binary64 values. A finite one is its sign and its magnitude, counted exactly in
units of `2 ^ -1074`, the smallest positive double; `Representable` says which counts a double can hold: below
`2 ^ 2098`, with at most 53 significant bits. Both zeros are kept apart, and quiet NaNs from signaling ones; all NaNs of
one of these two sorts are one value.

`Double.ofBits` and `Double.toBits` are the interchange format. `Double.position` is the place on the number line that
comparisons go by: `none` for NaN, and the infinities just beyond the finite numbers.
-/

namespace ScriptTree

/-- The exponent of the unit that magnitudes are counted in, its sign dropped. -/
def unitExponent : Nat := 1074

/-- How many units of `2 ^ -1074` there are in one. -/
def unitsPerOne : Nat := 1 <<< unitExponent

/-- How many bits the largest finite magnitude has, in units: 53 of significand, shifted by up to 2045. -/
def magnitudeBits : Nat := 53 + 2045

/-- The first count of units that is too large for a finite double. -/
def overflowUnits : Nat := 1 <<< magnitudeBits

/-- The exponent of the spacing between neighbouring doubles of the size of `n` units: 53 significant bits are kept. -/
def spacingExponent (n : Nat) : Nat := n.log2 - 52

/-- The spacing itself, in units. -/
def spacing (n : Nat) : Nat := 1 <<< spacingExponent n

/-- A count of units that a finite double can hold: below the overflow bound, and a multiple of the spacing there. -/
def Representable (n : Nat) : Prop := n < overflowUnits ∧ spacing n ∣ n

/-- An exact signed magnitude. -/
def signed (negative : Bool) (magnitude : Nat) : Int := if negative then -magnitude else magnitude

/-- A binary64 number. -/
inductive Double where
  | nan (signaling : Bool)
  | infinite (negative : Bool)
  | finite (negative : Bool) (units : Nat) (fits : Representable units)
  deriving DecidableEq

/-- A significand of at most 53 bits (or `2 ^ 53` itself), shifted, is a multiple of the spacing of its size. -/
theorem spacing_dvd_shiftLeft {m : Nat} (hm : m ≤ 1 <<< 53) (e : Nat) : spacing (m <<< e) ∣ m <<< e := by
  rw [Nat.one_shiftLeft] at hm
  rw [spacing, Nat.one_shiftLeft, Nat.shiftLeft_eq]
  rcases Nat.lt_or_eq_of_le hm with h | rfl
  · refine Nat.dvd_trans (Nat.pow_dvd_pow 2 ?_) (Nat.dvd_mul_left _ _)
    rcases Nat.eq_zero_or_pos (m * 2 ^ e) with h0 | h0
    · simp [spacingExponent, h0]
    · have : (m * 2 ^ e).log2 < 53 + e := by
        rw [Nat.log2_lt (Nat.ne_of_gt h0), Nat.pow_add]
        exact Nat.mul_lt_mul_of_pos_right h (Nat.two_pow_pos e)
      simp only [spacingExponent]
      omega
  · rw [← Nat.pow_add, spacingExponent, Nat.log2_two_pow]
    exact Nat.pow_dvd_pow 2 (by omega)

/-- Every significand below `2 ^ 53` at every exponent of the format is representable. -/
theorem representable_shiftLeft {m e : Nat} (hm : m < 1 <<< 53) (he : e ≤ 2045) : Representable (m <<< e) := by
  refine ⟨?_, spacing_dvd_shiftLeft (Nat.le_of_lt hm) e⟩
  rw [Nat.one_shiftLeft] at hm
  rw [Nat.shiftLeft_eq, overflowUnits, Nat.one_shiftLeft]
  have hlt := Nat.mul_lt_mul_of_pos_right hm (Nat.two_pow_pos e)
  rw [← Nat.pow_add] at hlt
  exact Nat.lt_of_lt_of_le hlt (Nat.pow_le_pow_right (by decide) (Nat.add_le_add_left he 53))

/-- A magnitude below `2 ^ 53` units is representable as it stands. -/
theorem representable_of_lt {n : Nat} (hn : n < 1 <<< 53) : Representable n := by
  have h := representable_shiftLeft hn (Nat.zero_le 2045)
  rwa [Nat.shiftLeft_zero] at h

namespace Double

/-- Zero of the given sign. -/
def zero (negative : Bool) : Double := .finite negative 0 (representable_of_lt (by decide))

instance : Inhabited Double := ⟨zero false⟩

/-- The NaN that operations give. -/
def quietNan : Double := .nan false

/-- The place of a number on the number line, in units of `2 ^ -1074`: none for NaN, and the infinities at the overflow
bound, which lies beyond every finite number. -/
def position : Double → Option Int
  | .nan _ => none
  | .infinite negative => some (signed negative overflowUnits)
  | .finite negative units _ => some (signed negative units)

/-- The number with a given interchange encoding: one sign bit, eleven exponent bits and 52 fraction bits. The first of the
fraction bits of a NaN is set if it is a quiet one. -/
def ofBits (bits : UInt64) : Double :=
  let word := bits.toNat
  let negative := decide (1 <<< 63 ≤ word)
  let exponent := (word >>> 52) % 2048
  let fraction := word % (1 <<< 52)
  have hf : fraction < 1 <<< 52 := Nat.mod_lt _ (by decide)
  if h : exponent = 2047 then
    if fraction = 0 then .infinite negative else .nan (decide (fraction < 1 <<< 51))
  else if exponent = 0 then
    .finite negative fraction (representable_of_lt (by omega))
  else
    have he : exponent < 2048 := Nat.mod_lt _ (by decide)
    .finite negative (((1 <<< 52) + fraction) <<< (exponent - 1)) (representable_shiftLeft (by omega) (by omega))

/-- The sign bit of the interchange encoding. -/
def signBit (negative : Bool) : Nat := if negative then 1 <<< 63 else 0

/-- The interchange encoding of a number. A NaN is written as positive and with one fraction bit: the first for a quiet one,
the last for a signaling one. -/
def toBits : Double → UInt64
  | .nan signaling => UInt64.ofNat ((2047 <<< 52) + (if signaling then 1 else 1 <<< 51))
  | .infinite negative => UInt64.ofNat (signBit negative + (2047 <<< 52))
  | .finite negative units _ =>
    if units < 1 <<< 52 then UInt64.ofNat (signBit negative + units)
    else
      let shift := spacingExponent units
      UInt64.ofNat (signBit negative + ((shift + 1) <<< 52) + ((units >>> shift) - (1 <<< 52)))

/-- Whether a number is NaN. -/
def isNan : Double → Bool
  | .nan _ => true
  | _ => false

/-- Whether a number is a signaling NaN. -/
def isSignaling : Double → Bool
  | .nan signaling => signaling
  | _ => false

/-- Whether a number is one of the two infinities. -/
def isInfinite : Double → Bool
  | .infinite _ => true
  | _ => false

/-- The magnitude of a number, its sign forgotten. -/
def abs : Double → Double
  | .nan signaling => .nan signaling
  | .infinite _ => .infinite false
  | .finite _ units fits => .finite false units fits

end Double

end ScriptTree

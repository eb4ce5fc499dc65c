/-!
# BigInts

A script's BigInt is an integer of the signed 128-bit range; an operation whose exact result lies outside is refused,
never wrapped. `BigInt.ofInt?` is the one way from an integer to a BigInt, and `RangeCause` says why an operation has no
result.
-/

namespace ScriptTree

/-- The first integer above the BigInt range, `2 ^ 127`; the range starts at its opposite. -/
def bigIntBound : Int := 0x80000000000000000000000000000000

/-- An integer of the signed 128-bit range. -/
structure BigInt where
  val : Int
  lower : -bigIntBound ≤ val
  upper : val < bigIntBound
  deriving DecidableEq

/-- Why a BigInt operation has no result. -/
inductive RangeCause where
  | outOfRange
  | divisionByZero
  | negativeExponent
  deriving DecidableEq

/-- The wording of a cause. -/
def RangeCause.message : RangeCause → String
  | .outOfRange => "BigInt value exceeds the supported 128-bit range"
  | .divisionByZero => "Division by zero"
  | .negativeExponent => "Exponent must be non-negative"

namespace BigInt

/-- Zero. -/
def zero : BigInt := ⟨0, by decide, by decide⟩

/-- The BigInt of an integer, if it is in range. -/
def ofInt? (n : Int) : Option BigInt :=
  if h : -bigIntBound ≤ n ∧ n < bigIntBound then some ⟨n, h.1, h.2⟩ else none

/-- An integer has a BigInt exactly if it is that BigInt's value. -/
theorem ofInt?_eq_some_iff {n : Int} {b : BigInt} : ofInt? n = some b ↔ n = b.val := by
  constructor
  · intro h
    unfold ofInt? at h
    split at h
    · exact congrArg val (Option.some.inj h)
    · nomatch h
  · rintro rfl
    simp [ofInt?, b.lower, b.upper]

/-- The BigInt of an exact result, or the refusal of one that is out of range. -/
def ofResult (n : Int) : Except RangeCause BigInt :=
  match ofInt? n with
  | some b => .ok b
  | none => .error .outOfRange

/-- The BigInt with a given two's complement pattern of 128 bits. -/
def ofBits (bits : BitVec 128) : BigInt where
  val := bits.toInt
  lower := by
    have := bits.le_two_mul_toInt
    simp only [bigIntBound]
    omega
  upper := by
    have := bits.two_mul_toInt_lt
    simp only [bigIntBound]
    omega

/-- The two's complement pattern of a BigInt. -/
def toBits (b : BigInt) : BitVec 128 := BitVec.ofInt 128 b.val

/-- The decimal text of a BigInt. -/
def toText (b : BigInt) : String := b.val.repr

/-! ## Arithmetic -/

def add (a b : BigInt) : Except RangeCause BigInt := ofResult (a.val + b.val)

def sub (a b : BigInt) : Except RangeCause BigInt := ofResult (a.val - b.val)

def mul (a b : BigInt) : Except RangeCause BigInt := ofResult (a.val * b.val)

/-- The quotient, truncated toward zero. -/
def div (a b : BigInt) : Except RangeCause BigInt :=
  if b.val = 0 then .error .divisionByZero else ofResult (a.val.tdiv b.val)

/-- What the truncated quotient leaves of the dividend; it has the dividend's sign and is no larger. -/
def remainder (a b : BigInt) : BigInt where
  val := a.val.tmod b.val
  lower := by
    have hle := Nat.mod_le a.val.natAbs b.val.natAbs
    rw [← Int.natAbs_tmod] at hle
    have := a.lower
    have := a.upper
    omega
  upper := by
    have hle := Nat.mod_le a.val.natAbs b.val.natAbs
    rw [← Int.natAbs_tmod] at hle
    have := a.lower
    have := a.upper
    rcases Int.le_total 0 a.val with ha | ha
    · omega
    · -- the lower bound has no opposite, but a negative dividend leaves nothing positive
      have hbound : 0 < bigIntBound := by decide
      have := Int.tmod_nonneg b.val (Int.neg_nonneg.mpr ha)
      rw [Int.neg_tmod] at this
      omega

/-- The remainder of `div`. Division by minus one leaves nothing, also where the quotient does not exist. -/
def rem (a b : BigInt) : Except RangeCause BigInt :=
  if b.val = 0 then .error .divisionByZero
  else if b.val = -1 then .ok ⟨0, by decide, by decide⟩
  else .ok (a.remainder b)

/-- The product, multiplied by the base if the exponent is odd. -/
def mulOdd (product base : BigInt) (exponent : Nat) : Except RangeCause BigInt :=
  if exponent % 2 = 1 then product.mul base else .ok product

/-- The product of `product` and a power of `base`, by repeated squaring: the base is squared as the exponent is halved, and
goes into the product where the exponent is odd. A product that leaves the range ends it; the base is not squared beyond
the last digit of the exponent. -/
@[semireducible]
def powFrom (product base : BigInt) (exponent : Nat) : Except RangeCause BigInt :=
  if exponent = 0 then .ok product
  else if exponent = 1 then product.mul base
  else do
    let product ← product.mulOdd base exponent
    let base ← base.mul base
    powFrom product base (exponent / 2)
termination_by exponent

/-- The power. An exponent of 32 bits is worked out; beyond that only the powers of zero, one and minus one are known to
exist. -/
def pow (base exponent : BigInt) : Except RangeCause BigInt :=
  if exponent.val < 0 then .error .negativeExponent
  else if exponent.val < 0x100000000 then powFrom ⟨1, by decide, by decide⟩ base exponent.val.toNat
  else if base.val = 0 ∨ base.val = 1 then .ok base
  else if base.val = -1 then
    .ok (if exponent.val % 2 = 0 then ⟨1, by decide, by decide⟩ else ⟨-1, by decide, by decide⟩)
  else .error .outOfRange

/-! ## Bits -/

def and (a b : BigInt) : BigInt := ofBits (a.toBits &&& b.toBits)

def or (a b : BigInt) : BigInt := ofBits (a.toBits ||| b.toBits)

def xor (a b : BigInt) : BigInt := ofBits (a.toBits ^^^ b.toBits)

/-- The multiple by a power of two. The pattern is shifted, and the result is refused if bits were lost: shifted back it is
another pattern. -/
def shiftUp (a : BigInt) (count : Nat) : Except RangeCause BigInt :=
  if a.val = 0 then .ok a
  else if 128 ≤ count then .error .outOfRange
  else
    let shifted := a.toBits <<< count
    if shifted.sshiftRight count = a.toBits then .ok (ofBits shifted) else .error .outOfRange

/-- The quotient by a power of two, rounded down: the pattern is shifted and filled up with its sign. From 128 places on only
the sign is left. -/
def shiftDown (a : BigInt) (count : Nat) : BigInt :=
  if 128 ≤ count then if a.val < 0 then ⟨-1, by decide, by decide⟩ else ⟨0, by decide, by decide⟩
  else ofBits (a.toBits.sshiftRight count)

/-- The left shift; a negative count shifts right. -/
def shiftLeft (a count : BigInt) : Except RangeCause BigInt :=
  if 0 ≤ count.val then a.shiftUp count.val.natAbs else .ok (a.shiftDown count.val.natAbs)

/-- The right shift; a negative count shifts left. -/
def shiftRight (a count : BigInt) : Except RangeCause BigInt :=
  if 0 ≤ count.val then .ok (a.shiftDown count.val.natAbs) else a.shiftUp count.val.natAbs

end BigInt

end ScriptTree

/-!
# Double precision numbers taken apart

A finite double is a signed whole significand times a power of two.  `Binary.ofFloat` decodes the
sixty-four bits into that form, where exact arithmetic is possible, and `Number.ofScaled` rounds a
scaled whole number back to the nearest double, a half going to the even neighbour.
-/

namespace Gait

/-- A double as sign, significand and power of two, or one of the values without that form. -/
inductive Binary where
  | nan
  | infinite (negative : Bool)
  | finite (negative : Bool) (significand : Nat) (exponent : Int)
  deriving DecidableEq, Repr

namespace Binary

/-- The exponent of the finest doubles. -/
def leastExponent : Int := -1074

/-- The significand that the doubles with the full number of digits begin at, two to the power
52. -/
def unit : Nat := 0x10000000000000

/-- The exponent field of infinity and of the values that are not numbers. -/
def reservedExponent : Nat := 0x7ff

/-- The value of a bit pattern: a sign bit, eleven bits of exponent and fifty-two of fraction. -/
def ofBits (bits : UInt64) : Binary :=
  let n := bits.toNat
  let negative := n.testBit 63
  let biased := n / unit % (reservedExponent + 1)
  let fraction := n % unit
  if biased = reservedExponent then
    if fraction = 0 then infinite negative else nan
  else if biased = 0 then finite negative fraction leastExponent
  else finite negative (unit + fraction) (leastExponent + (biased - 1 : Nat))

/-- The value of a double. -/
def ofFloat (x : Float) : Binary := ofBits x.toBits

/-- The magnitude `significand * 2 ^ exponent` without its fractional part. -/
def wholePart (significand : Nat) (exponent : Int) : Nat :=
  if 0 ≤ exponent then significand <<< exponent.toNat
  else significand >>> (-exponent).toNat

/-- Round toward zero and stop at the bounds; what is not a number becomes zero. -/
def truncate (lo hi : Int) : Binary → Int
  | nan => 0
  | infinite true => lo
  | infinite false => hi
  | finite true significand exponent => max lo (min hi (-(wholePart significand exponent : Int)))
  | finite false significand exponent => max lo (min hi (wholePart significand exponent : Int))

theorem truncate_mem {lo hi : Int} (h₀ : lo ≤ 0) (h₁ : 0 ≤ hi) (b : Binary) :
    lo ≤ truncate lo hi b ∧ truncate lo hi b ≤ hi := by
  unfold truncate
  split <;> omega

end Binary

/-- The quotient rounded to the nearest whole number, a half going to the even neighbour. -/
def roundQuotient (numerator denominator : Nat) : Nat :=
  let whole := numerator / denominator
  let twice := 2 * (numerator % denominator)
  if twice < denominator then whole
  else if denominator < twice then whole + 1
  else whole + whole % 2

/-- The double nearest to `± n * 2 ^ exponent`, a half going to the even significand. -/
def Number.ofScaled (negative : Bool) (n : Nat) (exponent : Int) : Float :=
  let sign : Nat := if negative then 0x8000000000000000 else 0
  if n = 0 then Float.ofBits sign.toUInt64
  else
    let finest := max (exponent + n.log2 - 52) Binary.leastExponent
    let shift := finest - exponent
    let significand :=
      if shift ≤ 0 then n <<< (-shift).toNat else roundQuotient n (1 <<< shift.toNat)
    -- A significand that rounded up to 2 ^ 53 runs over into the exponent field as it should.
    let bits := (finest - Binary.leastExponent).toNat * Binary.unit + significand
    Float.ofBits (sign + min bits (Binary.reservedExponent * Binary.unit)).toUInt64

end Gait

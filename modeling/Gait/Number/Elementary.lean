import Gait.Number.Binary

/-!
# Elementary functions on doubles

The functions that motion expressions offer and the core library does not: remainder, hypotenuse,
factorial, floored division.  Remainder and hypotenuse are computed exactly on significands and
rounded once.
-/

namespace Gait.Number

/-- The ratio of a circle's circumference to its diameter. -/
def pi : Float := 3.141592653589793

/-- The base of the natural logarithm. -/
def e : Float := 2.718281828459045

/-- The circumference of the unit circle, twice `pi`. -/
def tau : Float := 6.283185307179586

/-- The infinity above all doubles. -/
def infinity : Float := 1 / 0

/-- The value that is not a number. -/
def notANumber : Float := 0 / 0

/-- Round toward zero, keeping the sign of zero. -/
def truncated (x : Float) : Float := if x < 0 then x.ceil else if 0 < x then x.floor else x

/-- The quotient rounded down. -/
def floorDiv (x y : Float) : Float := (x / y).floor

/-- The remainder of `floorDiv`, with the sign of the divisor. -/
def floorMod (x y : Float) : Float := x - y * (x / y).floor

/-- Both significands on the smaller of the two exponents. -/
def aligned (m₁ : Nat) (e₁ : Int) (m₂ : Nat) (e₂ : Int) : Nat × Nat × Int :=
  let least := min e₁ e₂
  (m₁ <<< (e₁ - least).toNat, m₂ <<< (e₂ - least).toNat, least)

/-- The remainder of division toward zero, with the sign of the dividend. -/
def remainder (x y : Float) : Float :=
  match Binary.ofFloat x, Binary.ofFloat y with
  | .finite negative m₁ e₁, .finite _ m₂ e₂ =>
    if m₂ = 0 then notANumber
    else
      let (n₁, n₂, least) := aligned m₁ e₁ m₂ e₂
      ofScaled negative (n₁ % n₂) least
  | .finite .., .infinite _ => x
  | _, _ => notANumber

/-- The square root of `x * x + y * y`, without overflow on the way. -/
def hypotenuse (x y : Float) : Float :=
  match Binary.ofFloat x, Binary.ofFloat y with
  | .infinite _, _ => infinity
  | _, .infinite _ => infinity
  | .finite _ m₁ e₁, .finite _ m₂ e₂ =>
    let (n₁, n₂, least) := aligned m₁ e₁ m₂ e₂
    -- Sixty more binary digits than the root of the sum has; the last one records inexactness.
    let square := (n₁ * n₁ + n₂ * n₂) <<< 120
    let root := square.sqrt
    ofScaled false (2 * root + if root * root = square then 0 else 1) (least - 61)
  | _, _ => notANumber

/-- The product of the whole numbers from one to `x`; infinity past the range of doubles, and not a
number where `x` is negative or has a fractional part. -/
def factorial (x : Float) : Float :=
  match Binary.ofFloat x with
  | .finite negative m exponent =>
    let n := Binary.wholePart m exponent
    if (negative && m != 0) || !(x == x.floor) then notANumber
    else if 170 < n then infinity
    else (List.range n).foldl (fun product k => product * Float.ofNat (k + 1)) 1
  | _ => notANumber

/-- An angle in degrees, given in radians. -/
def degrees (x : Float) : Float := x * (180 / pi)

/-- An angle in radians, given in degrees. -/
def radians (x : Float) : Float := x * (pi / 180)

end Gait.Number

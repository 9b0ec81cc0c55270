import Gait.Number.Binary

/-!
# Decimal texts of doubles

`Binary.shortest` finds the fewest decimal digits that still read back as the same double and, of
the candidates with that many digits, the one nearest to it.  `Binary.positional` writes them
without an exponent; `Binary.scientific` writes a fixed number of exactly rounded digits with one.
-/

namespace Gait

/-- A decimal number: `digits * 10 ^ exponent`. -/
structure Decimal where
  digits : Nat
  exponent : Int
  deriving DecidableEq, Repr

namespace Binary

/-- The fraction `numerator / denominator` that is `n * 2 ^ two / 10 ^ ten`. -/
def fraction (n : Nat) (two ten : Int) : Nat × Nat :=
  ((n <<< two.toNat) * Nat.pow 10 (-ten).toNat, (1 <<< (-two).toNat) * Nat.pow 10 ten.toNat)

/-- Whether `n * 2 ^ two < 10 ^ ten`. -/
def belowPower (n : Nat) (two ten : Int) : Bool :=
  let (numerator, denominator) := fraction n two ten
  numerator < denominator

/-- The number of digits before the point of `n * 2 ^ two`, negative for leading zeros after it:
the least `k` with `n * 2 ^ two < 10 ^ k`. -/
def magnitude (n : Nat) (two : Int) : Int :=
  let guess := (two + n.log2) * 30103 / 100000 - 1
  if belowPower n two guess then guess
  else if belowPower n two (guess + 1) then guess + 1
  else if belowPower n two (guess + 2) then guess + 2
  else guess + 3

/-- The candidate with `places` digits that lies in the interval of numbers read back as
`significand * 2 ^ exponent`, if the grid of such decimals has one.  The interval ends halfway to
the neighbouring doubles; the ends belong to it when the significand is even.  The nearer
neighbour on the grid wins, the upper one on a tie. -/
def candidate? (significand : Nat) (exponent : Int) (places : Nat) : Option Decimal :=
  let step := magnitude significand exponent - places
  let quarters := 4 * significand
  let lower :=
    if significand = unit ∧ leastExponent < exponent then quarters - 1 else quarters - 2
  let upper := quarters + 2
  let (numerator, denominator) := fraction 1 (exponent - 2) step
  let below := quarters * numerator / denominator
  let inside (c : Nat) : Bool :=
    if significand % 2 = 0 then
      lower * numerator ≤ c * denominator && c * denominator ≤ upper * numerator
    else lower * numerator < c * denominator && c * denominator < upper * numerator
  let above := below + 1
  let target := quarters * numerator
  let nearBelow := target - below * denominator < above * denominator - target
  let decimal (c : Nat) : Decimal :=
    if c = Nat.pow 10 places then ⟨c / 10, step + 1⟩ else ⟨c, step⟩
  if inside below && (nearBelow || !inside above) then some (decimal below)
  else if inside above then some (decimal above)
  else none

/-- The fewest digits that read back as the finite magnitude, at most seventeen. -/
def shortest (significand : Nat) (exponent : Int) : Decimal :=
  if significand = 0 then ⟨0, 0⟩
  else
    ((List.range 17).findSome? fun i => candidate? significand exponent (i + 1)).getD
      ⟨significand, exponent⟩

/-- A decimal with all its digits written out. -/
def positionalDecimal (d : Decimal) : String :=
  let ds := Nat.toDigits 10 d.digits
  if 0 ≤ d.exponent then
    String.ofList (if d.digits = 0 then ['0'] else ds ++ List.replicate d.exponent.toNat '0')
  else
    let places := (-d.exponent).toNat
    let padded := List.replicate (places + 1 - ds.length) '0' ++ ds
    String.ofList (padded.take (padded.length - places)) ++ "." ++
      String.ofList (padded.drop (padded.length - places))

/-- The shortest text that reads back as the number, never with an exponent. -/
def positional : Binary → String
  | nan => "NaN"
  | infinite negative => if negative then "-inf" else "inf"
  | finite negative significand exponent =>
    (if negative then "-" else "") ++ positionalDecimal (shortest significand exponent)

/-- The magnitude with `places` digits, rounded exactly, a half going to the even digit. -/
def rounded (significand : Nat) (exponent : Int) (places : Nat) : Decimal :=
  let step := magnitude significand exponent - places
  let (numerator, denominator) := fraction significand exponent step
  let digits := roundQuotient numerator denominator
  if digits < Nat.pow 10 places then ⟨digits, step⟩ else ⟨digits / 10, step + 1⟩

/-- A number with one digit before the point, `places` after it, and an exponent of ten. -/
def scientific (places : Nat) : Binary → String
  | nan => "NaN"
  | infinite negative => if negative then "-inf" else "inf"
  | finite negative significand exponent =>
    let d : Decimal :=
      if significand = 0 then ⟨0, -places⟩ else rounded significand exponent (places + 1)
    let ds := Nat.toDigits 10 d.digits
    let padded := List.replicate (places + 1 - ds.length) '0' ++ ds
    (if negative then "-" else "") ++ String.ofList (padded.take 1) ++ "." ++
      String.ofList (padded.drop 1) ++ "e" ++ toString (d.exponent + places)

end Binary

end Gait

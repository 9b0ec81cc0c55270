import Gait.Text.Numeral

/-!
# Reading unsigned decimal numbers

A number is written as digits with at most one point among them and at least one digit, then
optionally an exponent: `e` or `E`, a sign, digits.  `read?` gives the double nearest to it.
-/

namespace Gait.Number

open Text

/-- The double nearest to `digits * 10 ^ exponent`. -/
def ofDecimal (digits : Nat) (exponent : Int) : Float :=
  let magnitude := exponent + (Nat.toDigits 10 digits).length
  if digits = 0 then 0
  -- Beyond these bounds every number rounds to infinity or to zero.
  else if 400 < magnitude then Float.ofScientific 1 false 400
  else if magnitude < -400 then 0
  else if 0 ≤ exponent then Float.ofScientific digits false exponent.toNat
  else Float.ofScientific digits true (-exponent).toNat

/-- The digits before and after the point of a number without exponent.  The point may be missing,
and so may the digits on one side of it, but not on both. -/
def mantissa? (cs : List Char) : Option (List Char × List Char) :=
  let whole := cs.takeWhile Char.isDigit
  let parts? :=
    match cs.dropWhile Char.isDigit with
    | [] => some (whole, [])
    | '.' :: part => if part.all Char.isDigit then some (whole, part) else none
    | _ => none
  parts?.filter fun parts => !(parts.1 ++ parts.2).isEmpty

/-- The exponent written after the mark `e` or `E`. -/
def exponent? (cs : List Char) : Option Int := integer? cs

/-- The double written by an unsigned decimal text. -/
def read? (cs : List Char) : Option Float := do
  let isMark (c : Char) : Bool := c == 'e' || c == 'E'
  let (whole, part) ← mantissa? (cs.takeWhile fun c => !isMark c)
  let exponent ←
    match cs.dropWhile fun c => !isMark c with
    | [] => some 0
    | _ :: written => exponent? written
  return ofDecimal (decimalValue (whole ++ part)) (exponent - part.length)

end Gait.Number

import Gait.Number.Limits
import Gait.Number.Reading
import Gait.Toml.Reader
import Gait.Toml.Value

/-!
# TOML numbers and times

Readers of integers, floats, dates and times.  An underscore may stand between two digits; leading
zeros are refused, and integers stay within sixty-four bits.
-/

namespace Gait.Toml

/-! ## Numbers -/

/-- Digits of a class after a first one; an underscore must stand between two of them. -/
def moreDigits (p : Char → Bool) : List Char → List Char × List Char
  | [] => ([], [])
  | '_' :: c :: cs =>
    if p c then
      let (digits, rest) := moreDigits p cs
      (c :: digits, rest)
    else ([], '_' :: c :: cs)
  | c :: cs =>
    if p c then
      let (digits, rest) := moreDigits p cs
      (c :: digits, rest)
    else ([], c :: cs)

/-- Digits of a class; an underscore may stand between two of them. -/
def digits (p : Char → Bool) : Reader (List Char) := do
  let c ← next
  if p c then
    let (more, rest) := moreDigits p (← get)
    set rest
    return c :: more
  else failure

/-- A sign, if there is one: whether it is a minus. -/
def sign : Reader Bool := do
  if ← accept ['-'] then return true
  else
    discard (accept ['+'])
    return false

/-- The digits of a decimal whole number, without leading zeros. -/
def wholeDigits : Reader (List Char) := do
  if ← accept ['0'] then return ['0'] else digits Char.isDigit

/-- An integer, if it fits an instant. -/
def integerOf (i : Int) : Reader Value :=
  if instantMin ≤ i ∧ i ≤ instantMax then return .integer i else failure

/-- The digits of a whole number in another base. -/
def based (base : Nat) : Reader Value := do
  let ds ← digits fun c => (hexValue? c).any (· < base)
  integerOf ((ds.filterMap hexValue?).foldl (fun n v => base * n + v) 0 : Nat)

/-- What follows the whole part of a float: the digits after its point and its exponent. -/
def floatTail : Reader (List Char × Int) := do
  let part ← if ← accept ['.'] then digits Char.isDigit else pure []
  if (← accept ['e']) || (← accept ['E']) then
    let negative ← sign
    let n := Text.decimalValue (← digits Char.isDigit)
    return (part, if negative then -(n : Int) else n)
  else return (part, 0)

/-- A float or a decimal integer.  A float may be too small to tell from zero, but not too large. -/
def decimal : Reader Value := do
  let negative ← sign
  if ← accept ['i', 'n', 'f'] then return .float (if negative then -1 / 0 else 1 / 0)
  if ← accept ['n', 'a', 'n'] then return .float (0 / 0)
  let whole ← wholeDigits
  match ← peek? with
  | some '.' | some 'e' | some 'E' =>
    let (part, exponent) ← floatTail
    let x := Number.ofDecimal (Text.decimalValue (whole ++ part)) (exponent - part.length)
    if negative then return .float (-x) else if x == 1 / 0 then failure else return .float x
  | _ =>
    let n := Text.decimalValue whole
    integerOf (if negative then -(n : Int) else n)

/-- A number in any of its forms. -/
def number : Reader Value := do
  if ← accept ['0', 'x'] then based 16
  else if ← accept ['0', 'o'] then based 8
  else if ← accept ['0', 'b'] then based 2
  else decimal

/-! ## Dates and times -/

/-- A number of exactly so many digits within bounds. -/
def fixedDigits (count lo hi : Nat) : Reader Nat := do
  let text ← get
  match Text.natural? (text.take count) with
  | some n =>
    if (text.take count).length = count ∧ lo ≤ n ∧ n ≤ hi then
      set (text.drop count)
      return n
    else failure
  | none => failure

/-- The number of days of a month. -/
def daysIn (year month : Nat) : Nat :=
  if month = 2 then
    if year % 4 = 0 ∧ (year % 100 ≠ 0 ∨ year % 400 = 0) then 29 else 28
  else if month = 4 ∨ month = 6 ∨ month = 9 ∨ month = 11 then 30
  else 31

/-- A date that exists. -/
def date : Reader Unit := do
  let year ← fixedDigits 4 0 9999
  expect ['-']
  let month ← fixedDigits 2 1 12
  expect ['-']
  discard (fixedDigits 2 1 (daysIn year month))

/-- A time of day; a minute may have a leap second. -/
def time : Reader Unit := do
  discard (fixedDigits 2 0 23)
  expect [':']
  discard (fixedDigits 2 0 59)
  expect [':']
  discard (fixedDigits 2 0 60)
  if ← accept ['.'] then discard (takeSome Char.isDigit)

/-- The distance from universal time, if it is given. -/
def offset : Reader Unit := do
  if (← accept ['Z']) || (← accept ['z']) then return
  if (← accept ['+']) || (← accept ['-']) then
    discard (fixedDigits 2 0 23)
    expect [':']
    discard (fixedDigits 2 0 59)

/-- Whether a text starts with so many digits and a mark after them. -/
def startsWith (count : Nat) (mark : Char) (text : List Char) : Bool :=
  (text.takeWhile Char.isDigit).length == count && text[count]? == some mark

/-- Whether a text starts like a date. -/
def startsDate (text : List Char) : Bool := startsWith 4 '-' text

/-- Whether a text starts like a time of day. -/
def startsTime (text : List Char) : Bool := startsWith 2 ':' text

/-- A date, a time of day, or both with the distance from universal time. -/
def datetime : Reader Value := do
  let text ← get
  if startsTime text then time
  else
    date
    match ← get with
    | c :: cs =>
      if (c = 'T' ∨ c = 't' ∨ c = ' ') ∧ startsTime cs then
        set cs
        time
        offset
    | [] => pure ()
  return .datetime (String.ofList (text.take (text.length - (← get).length)))

end Gait.Toml

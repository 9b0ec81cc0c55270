import Gait.Step
import Gait.Text.Cut
import Gait.Text.Numeral

/-!
# Step lines

A step line is `>`, a list of slot entries with commas between them, and optionally a colon and a
delay.  An entry is an optional scale letter, digits, and optionally `..` and a repeat count.
`StepLine.read` turns a line into a step; entries past the last servo are checked and then ignored.
-/

namespace Gait.StepLine

open Text

/-- The reasons why a line is no step. -/
inductive Fault where
  | noMark
  | delay (text : List Char)
  | value (entry : List Char)
  | tooLarge (entry : List Char)
  | count (entry : List Char)
  deriving DecidableEq, Repr

/-- A reason in words. -/
def Fault.message : Fault → String
  | noMark => "step line must start with '>'"
  | delay text => s!"bad delay '{String.ofList text}'"
  | value entry => s!"bad servo value '{String.ofList entry}'"
  | tooLarge entry => s!"raw value too large '{String.ofList entry}'"
  | count entry => s!"bad repeat count '{String.ofList entry}'"

/-- The units of an entry. -/
inductive Scale where
  | raw | degrees | milliradians
  deriving DecidableEq, Repr

/-- A value for `count` servos in a row. -/
structure Entry where
  scale : Scale
  value : Nat
  count : Nat
  deriving DecidableEq, Repr

/-- The setpoint of the value of an entry. -/
def Entry.setpoint (e : Entry) : Setpoint :=
  match e.scale with
  | .raw => .ofInt e.value
  | .degrees => .ofDegrees (.ofInt e.value)
  | .milliradians => .ofMilliradians (.ofInt e.value)

/-- The setpoints of an entry, no more than there are servos. -/
def Entry.setpoints (e : Entry) : List Setpoint :=
  List.replicate (min e.count servoCount) e.setpoint

/-- The largest number in a step line. -/
def numberMax : Nat := 0x7fffffffffffffff

/-- The number written by digits, if it is not too large. -/
def number? (cs : List Char) : Option Nat := (natural? cs).filter (· ≤ numberMax)

/-- An entry's scale and the text after the scale letter. -/
def splitScale : List Char → Scale × List Char
  | 'd' :: cs => (.degrees, cs)
  | 'r' :: cs => (.milliradians, cs)
  | cs => (.raw, cs)

/-- Read one entry; its value must fit a setpoint if it is raw. -/
def readEntry (cs : List Char) : Except Fault Entry := do
  let (scale, body) := splitScale cs
  let (written, times?) := match cut? ['.', '.'] body with
    | some (written, times) => (written, some times)
    | none => (body, none)
  let some value := number? written | .error (.value cs)
  if scale = .raw ∧ Setpoint.greatest < value then .error (.tooLarge cs)
  else
    match times? with
    | none => return ⟨scale, value, 1⟩
    | some times =>
      let some count := number? times | .error (.count cs)
      return ⟨scale, value, count⟩

/-- Read the entries of a line; one comma may stand after the last. -/
def readEntries (cs : List Char) : Except Fault (List Entry) :=
  if cs.isEmpty then .ok []
  else
    let listed := if cs.getLast? = some ',' then cs.dropLast else cs
    (listed.splitOn ',').mapM readEntry

/-- The step written by a line; `tick` is its delay if the line gives none. -/
def read (tick : Nat) : List Char → Except Fault Step
  | '>' :: body => do
    let (entries, delay) ← match cut? [':'] body with
      | some (entries, written) =>
        match number? written with
        | some delay => .ok (entries, delay)
        | none => .error (.delay written)
      | none => .ok (body, tick)
    let entries ← readEntries entries
    return (Step.zero.setAll (entries.flatMap Entry.setpoints)).setDelay delay
  | _ => .error .noMark

end Gait.StepLine

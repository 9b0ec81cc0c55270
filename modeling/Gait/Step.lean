import Gait.Number.Limits
import Gait.Setpoint

/-!
# Steps

A `Step` holds a setpoint for each of the twelve servos and the delay in milliseconds before the
next step may follow.  Delays stop at the largest count.
-/

namespace Gait

/-- The number of servos: three boards of four. -/
def servoCount : Nat := 12

/-- Setpoints for all servos and the delay after them. -/
structure Step where
  positions : Vector Setpoint servoCount
  delay : Nat
  deriving DecidableEq, Repr

namespace Step

/-- Every setpoint zero and no delay. -/
def zero : Step := ⟨Vector.replicate servoCount 0, 0⟩

instance : Inhabited Step := ⟨zero⟩

/-- The setpoint of a servo, if there is such a servo. -/
def raw? (s : Step) (slot : Nat) : Option Setpoint := s.positions[slot]?

/-- Set one servo; a slot past the last servo is ignored. -/
def set (s : Step) (slot : Nat) (raw : Setpoint) : Step :=
  { s with positions := s.positions.setIfInBounds slot raw }

/-- Set one servo to an angle in whole degrees. -/
def setDegrees (s : Step) (slot : Nat) (degrees : Int) : Step :=
  s.set slot (.ofDegrees (.ofInt degrees))

/-- Set one servo to an angle in radians. -/
def setRadians (s : Step) (slot : Nat) (radians : Float) : Step :=
  s.set slot (.ofRadians radians)

/-- Set one servo to an angle in thousandths of a radian. -/
def setMilliradians (s : Step) (slot : Nat) (milliradians : Int) : Step :=
  s.set slot (.ofMilliradians (.ofInt milliradians))

/-- Set the servos from the first on; servos without a value keep theirs, values without a servo are
ignored. -/
def setAll (s : Step) (raws : List Setpoint) : Step :=
  { s with positions := Vector.ofFn fun slot => (raws[slot.val]?).getD s.positions[slot] }

/-- Set the servos from the first on to angles in whole degrees. -/
def setAllDegrees (s : Step) (degrees : List Int) : Step :=
  s.setAll (degrees.map fun d => .ofDegrees (.ofInt d))

/-- Set the servos from the first on to angles in radians. -/
def setAllRadians (s : Step) (radians : List Float) : Step :=
  s.setAll (radians.map .ofRadians)

/-- Reset every setpoint to zero and keep the delay. -/
def clearPositions (s : Step) : Step := { s with positions := zero.positions }

/-- Set the delay. -/
def setDelay (s : Step) (milliseconds : Nat) : Step := { s with delay := milliseconds }

/-- Lengthen the delay, which stops at the largest count. -/
def addDelay (s : Step) (milliseconds : Nat) : Step :=
  s.setDelay (capCount (s.delay + milliseconds))

/-- Seconds in milliseconds, within the largest count. -/
def secondsToDelay (seconds : Nat) : Nat := capCount (seconds * 1000)

/-- The step as diagnostics show it, with every servo in whole degrees. -/
def text (s : Step) : String :=
  let degrees (raw : Setpoint) : String :=
    toString ((Binary.ofFloat raw.degrees).truncate instantMin instantMax)
  "Step[pos=[" ++ ", ".intercalate (s.positions.toList.map degrees) ++ "], delay=" ++
    toString s.delay ++ "]"

@[simp] theorem delay_set (s : Step) (slot : Nat) (raw : Setpoint) :
    (s.set slot raw).delay = s.delay := rfl

@[simp] theorem delay_setAll (s : Step) (raws : List Setpoint) :
    (s.setAll raws).delay = s.delay := rfl

/-- A servo holds the value given for it, if one was given. -/
theorem getElem_setAll (s : Step) (raws : List Setpoint) (slot : Nat) (h : slot < servoCount) :
    (s.setAll raws).positions[slot] = (raws[slot]?).getD s.positions[slot] := by
  simp [setAll]

end Step

end Gait

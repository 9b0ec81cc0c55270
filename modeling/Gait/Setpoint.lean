import Gait.Number.Elementary

/-!
# Setpoints

A servo is driven to a raw setpoint; the nominal range is 35 to 157.  Raw 36 is 0 degrees and raw
157 is 191 degrees, and angles are converted along that line.  Converted values are cut to whole
numbers by `Setpoint.truncate`.
-/

namespace Gait

/-- A position of a servo in the raw unit of the hardware. -/
abbrev Setpoint : Type := Int32

namespace Setpoint

/-- The least setpoint. -/
def least : Int := -0x80000000

/-- The greatest setpoint. -/
def greatest : Int := 0x7fffffff

/-- The raw value of zero degrees. -/
def rawAtZero : Float := 36

/-- The raw distance from zero degrees to `span` degrees. -/
def rawSpan : Float := 121

/-- The degrees between the two anchors of the scale. -/
def span : Float := 191

/-- The raw value of an angle in degrees, before truncation. -/
def rawOfDegrees (degrees : Float) : Float := rawAtZero + rawSpan * degrees / span

/-- The raw value of an angle in radians, before truncation. -/
def rawOfRadians (radians : Float) : Float := rawAtZero + rawSpan * radians / (Number.pi * span / 180)

/-- The raw value of an angle in thousandths of a radian. -/
def rawOfMilliradians (milliradians : Float) : Float := rawOfRadians (milliradians / 1000)

/-- The angle of a setpoint in degrees. -/
def degrees (raw : Setpoint) : Float := (Float.ofInt raw.toInt - rawAtZero) * span / rawSpan

/-- The angle of a setpoint in radians. -/
def radians (raw : Setpoint) : Float := Number.radians raw.degrees

/-- Round toward zero.  Values beyond the range of setpoints stop at its ends, and what is not a
number becomes zero. -/
def truncate (x : Float) : Setpoint := Int32.ofInt ((Binary.ofFloat x).truncate least greatest)

/-- The setpoint of an angle in degrees. -/
def ofDegrees (degrees : Float) : Setpoint := truncate (rawOfDegrees degrees)

/-- The setpoint of an angle in radians. -/
def ofRadians (radians : Float) : Setpoint := truncate (rawOfRadians radians)

/-- The setpoint of an angle in thousandths of a radian. -/
def ofMilliradians (milliradians : Float) : Setpoint := truncate (rawOfMilliradians milliradians)

/-- Whether a setpoint lies in the nominal range of the servos. -/
def inNominalRange (raw : Setpoint) : Bool := 35 ≤ raw && raw ≤ 157

/-- Truncation does not leave the range of setpoints, so nothing wraps around. -/
theorem toInt_truncate (x : Float) :
    (truncate x).toInt = (Binary.ofFloat x).truncate least greatest := by
  have lower : least ≤ 0 := by decide
  have upper : 0 ≤ greatest := by decide
  have h := Binary.truncate_mem lower upper (Binary.ofFloat x)
  exact Int32.toInt_ofInt_of_le h.1 (Int.lt_add_one_of_le h.2)

end Setpoint

end Gait

import Gait.Number.Limits

/-!
# Clocks

A `Clock` moves only when it is told to, in microseconds up to the largest count.  It is read in
whole milliseconds.
-/

namespace Gait

/-- The time since a clock was started, in microseconds. -/
structure Clock where
  microseconds : Nat := 0
  deriving DecidableEq, Repr

namespace Clock

/-- The time in whole milliseconds. -/
def now (c : Clock) : Nat := c.microseconds / 1000

/-- Move a clock forward; it stops at the largest count. -/
def advance (c : Clock) (microseconds : Nat) : Clock := ⟨capCount (c.microseconds + microseconds)⟩

/-- Move a clock forward by whole milliseconds. -/
def advanceMilliseconds (c : Clock) (milliseconds : Nat) : Clock := c.advance (milliseconds * 1000)

/-- A clock never moves back, if it has not passed the largest count. -/
theorem microseconds_le_advance {c : Clock} (h : c.microseconds ≤ countMax) (d : Nat) :
    c.microseconds ≤ (c.advance d).microseconds := by
  simp only [advance, capCount]
  omega

end Clock

end Gait

/-!
# Limits of whole numbers

Counts of milliseconds and delays stop at the largest unsigned 64-bit number, signed instants at the
largest signed one.  The operations here saturate: past a limit they stay at it.
-/

namespace Gait

/-- The largest count. -/
def countMax : Nat := 0xffffffffffffffff

/-- The least instant. -/
def instantMin : Int := -0x8000000000000000

/-- The largest instant. -/
def instantMax : Int := 0x7fffffffffffffff

/-- A count, or the largest one where it is exceeded. -/
def capCount (n : Nat) : Nat := min n countMax

/-- An instant, or the limit that it passes. -/
def clampInstant (x : Int) : Int := max instantMin (min instantMax x)

/-- A count as an instant; counts past the largest instant stop there. -/
def instantOfCount (n : Nat) : Int := min (n : Int) instantMax

/-- The signed distance from `anchor` to `now`, stopped at the limits. -/
def elapsed (now anchor : Int) : Int := clampInstant (now - anchor)

theorem capCount_of_le {n : Nat} (h : n ≤ countMax) : capCount n = n := Nat.min_eq_left h

theorem clampInstant_of_mem {x : Int} (lo : instantMin ≤ x) (hi : x ≤ instantMax) :
    clampInstant x = x := by
  unfold clampInstant; omega

end Gait

import Gait.Expr
import Gait.Number.Limits

/-!
# Motion functions

A `MotionFunction` is an expression that is valid on a closed interval of milliseconds.  A servo's
`Track` is a list of them: at any moment the first one whose interval holds the time elapsed since
the servo's anchor gives the setpoint.  The anchor belongs to the run and not to the track;
`Track.next` takes it and gives it back.
-/

namespace Gait

/-- An expression valid from `first` to `last`, both included. -/
structure MotionFunction where
  expr : Expr
  first : Int
  last : Int
  first_le_last : first ≤ last

namespace MotionFunction

/-- An expression between two bounds given in any order. -/
def between (expr : Expr) (a b : Int) : MotionFunction :=
  ⟨expr, min a b, max a b, by omega⟩

/-- Compile a text and give it bounds in any order. -/
def compile (source : String) (a b : Int) : Except Expr.CompileError MotionFunction := do
  return between (← Expr.compile source) a b

/-- Whether an elapsed time lies in the interval. -/
def covers (f : MotionFunction) (time : Int) : Bool := f.first ≤ time && time ≤ f.last

/-- The value of the expression at an elapsed time. -/
def value (f : MotionFunction) (time : Int) : Float := f.expr.eval (Float.ofInt time)

/-- The interval and the source of the expression, as diagnostics show them. -/
def text (f : MotionFunction) : String := s!"[{f.first}..={f.last}] {f.expr.source}"

theorem covers_iff {f : MotionFunction} {time : Int} :
    f.covers time = true ↔ f.first ≤ time ∧ time ≤ f.last := by
  simp [covers]

/-- A function covers the ends of its interval. -/
theorem covers_first (f : MotionFunction) : f.covers f.first = true :=
  covers_iff.2 ⟨Int.le_refl _, f.first_le_last⟩

end MotionFunction

/-- The motion functions of a servo, earlier ones before later ones. -/
abbrev Track : Type := List MotionFunction

namespace Track

/-- The value of the first function that covers an elapsed time. -/
def value? (track : Track) (time : Int) : Option Float :=
  (track.find? (·.covers time)).map (·.value time)

/-- The value at instant `now` and the anchor after it.  Where no function covers the time since
`anchor`, a looping track is wound back, so that the elapsed time is the start of its first
function, and tried once more. -/
def next (track : Track) (looping : Bool) (anchor now : Int) : Option Float × Int :=
  match track.value? (elapsed now anchor), looping, track with
  | some value, _, _ => (some value, anchor)
  | none, true, f :: _ =>
    let wound := elapsed now f.first
    (track.value? (elapsed now wound), wound)
  | none, _, _ => (none, anchor)

end Track

end Gait

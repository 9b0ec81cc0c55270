import Gait.CommandLine.Listing
import Gait.Link.Memory
import Gait.Walker.Tick

/-!
# Printing frames

A simulated link shows which frames are sent for the steps of a selected program, each step over the
cleared link.  Where a setpoint does not fit a frame, the frames before it are printed.
-/

namespace Gait.CommandLine

/-- A step that was sent, with the frames that the link got for it. -/
structure PassEntry where
  index : Nat
  step : Step
  frames : List (UInt8 × UInt8)

/-- Forget what was written to the link so far. -/
def clearLink (w : Walker Link.Simulated) : Walker Link.Simulated :=
  { w with transmitter := { w.transmitter with link := w.transmitter.link.clear } }

/-- Send the next steps of a walker, at most `count`; they are numbered from `index` on.  The clock
stands still, since listed steps do not depend on it. -/
def pass (w : Walker Link.Simulated) (index : Nat) : (count : Nat) → List PassEntry
  | 0 => []
  | count + 1 =>
    match w.nextStep 0 with
    | (none, _) => []
    | (some step, w) =>
      let (_, w) := (clearLink w).sendStep step
      ⟨index, step, w.transmitter.link.frames⟩ :: pass w (index + 1) count

namespace PassEntry

/-- An entry in words: the step, then the frame of each servo in hexadecimal. -/
def lines (e : PassEntry) : List String :=
  s!"#{e.index} {e.step.text}" :: e.frames.zipIdx.map fun (frame, slot) =>
    s!"  servo {padLeft 2 (toString slot)}: 0x{Frame.byteText frame.1} 0x{Frame.byteText frame.2}"

/-- An entry as a JSON line, with each frame as four hexadecimal digits. -/
def json (e : PassEntry) : String :=
  Json.object [
    ("step", .number e.index), ("delay_ms", .number e.step.delay),
    ("positions", .numbers (e.step.positions.toList.map fun raw => raw.toInt)),
    ("frames", .texts (e.frames.map fun frame => Frame.byteText frame.1 ++ Frame.byteText frame.2))]

end PassEntry

end Gait.CommandLine

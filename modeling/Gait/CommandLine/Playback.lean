import Gait.Drive
import Gait.Json
import Gait.Link.Memory

/-!
# Playing a program

Playing takes time, so it is handed out as a `Playback`, which the caller drives to its end and then
asks for its lines.
-/

namespace Gait.CommandLine

/-- A program being played and how its end is to be reported. -/
structure Playback where
  name : String
  json : Bool
  /-- The pause while no step is due, in milliseconds. -/
  idlePoll : Nat
  drive : Drive Link.Simulated

/-- The report on a playback that has ended. -/
def Playback.lines (p : Playback) : List String :=
  let summary := p.drive.summary
  let walker := p.drive.walker
  if p.json then
    [Json.object [
      ("program", .text p.name), ("steps", .number summary.steps), ("faults", .number summary.faults),
      ("stop_requested", .flag summary.stopRequested), ("interrupted", .flag p.drive.shutdown),
      ("is_stop", .flag walker.isStopped), ("last_step", .text walker.lastStepText)]]
  else
    let interrupted := if p.drive.shutdown then " (interrupted)" else ""
    [s!"'{p.name}' finished: {summary.steps} steps, {summary.faults} faults{interrupted}",
      s!"last: {walker.lastStepText}"]

end Gait.CommandLine

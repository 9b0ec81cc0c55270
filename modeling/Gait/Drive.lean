import Gait.Clock
import Gait.Walker.Tick

/-!
# Driving a walker to the end of its cycle

A `Drive` ticks a walker until nothing is selected any more and counts the steps.  A shutdown or a
limit on the number of steps requests a stop; the drive still goes on until the cycle has ended.

`Drive.step` is one iteration; it tells its caller whether to go on, to sleep first, or to stop.
`Drive.run` iterates it on a clock that moves by the sleeping alone.
-/

namespace Gait

/-- What a drive has counted so far. -/
structure Summary where
  /-- Steps that fired, sent as a whole or not. -/
  steps : Nat := 0
  /-- Steps that were not sent as a whole. -/
  faults : Nat := 0
  /-- Whether a stop was requested by a shutdown or by the limit. -/
  stopRequested : Bool := false
  deriving DecidableEq, Repr

/-- What the caller of an iteration is to do next. -/
inductive Next where
  | again
  | sleep
  | finished
  deriving DecidableEq, Repr

/-- A walker being driven to the end of its cycle, and what may stop it before. -/
structure Drive (L : Type) where
  walker : Walker L
  limit : Option Nat := none
  shutdown : Bool := false
  summary : Summary := {}

namespace Drive

variable {L : Type}

/-- Whether the number of steps has come to the limit. -/
def limitReached (d : Drive L) : Bool := d.limit.any (· ≤ d.summary.steps)

/-- Request a stop once a shutdown or the limit asks for it. -/
def requestStop (d : Drive L) : Drive L :=
  if !d.summary.stopRequested && (d.limitReached || d.shutdown) then
    match d.walker.deselect with
    | .ok walker => { d with walker, summary := { d.summary with stopRequested := true } }
    | .error _ => d
  else d

/-- What a tick's status means for the caller, and the summary after it. -/
def count (summary : Summary) : Status → Next × Summary
  | .idle | .endOfCycle => (.finished, summary)
  | .waiting => (.sleep, summary)
  | .stepped => (.again, { summary with steps := summary.steps + 1 })
  | .faulted _ =>
    (.again, { summary with steps := summary.steps + 1, faults := summary.faults + 1 })

variable [Link L]

/-- One iteration: request a stop if one is due, tick, and count what the tick did. -/
def step (d : Drive L) (now : Nat) : Next × Drive L :=
  let d := d.requestStop
  let (status, walker) := d.walker.tick now
  let (next, summary) := count d.summary status
  (next, { d with walker, summary })

/-- Iterate on a clock, sleeping `poll` microseconds at a time, until the cycle has ended or `fuel`
iterations are over. -/
def run (poll : Nat) : (fuel : Nat) → Clock → Drive L → Next × Clock × Drive L
  | 0, clock, d => (.again, clock, d)
  | fuel + 1, clock, d =>
    match d.step clock.now with
    | (.finished, d) => (.finished, clock, d)
    | (.sleep, d) => run poll fuel (clock.advance poll) d
    | (.again, d) => run poll fuel clock d

end Drive

end Gait

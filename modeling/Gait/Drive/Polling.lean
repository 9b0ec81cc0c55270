import Gait.Drive
import Gait.StatusQueue

/-!
# Polling a walker

A `Poll` ticks a walker without end and queues what the ticks did.  It sleeps whenever a tick had
nothing to do, and queues every other status.
-/

namespace Gait

/-- A walker being polled, and the statuses not yet taken. -/
structure Poll (L : Type) where
  walker : Walker L
  queue : StatusQueue := {}

namespace Poll

variable {L : Type} [Link L]

/-- One iteration: tick, and queue what the tick did unless it had nothing to do. -/
def step (p : Poll L) (now : Nat) : Next × Poll L :=
  let (status, walker) := p.walker.tick now
  match status with
  | .idle | .waiting => (.sleep, { p with walker })
  | status => (.again, { walker, queue := p.queue.push status })

/-- Iterate on a clock, sleeping `poll` microseconds at a time, until nothing is selected or `fuel`
iterations are over. -/
def run (poll : Nat) : (fuel : Nat) → Clock → Poll L → Next × Clock × Poll L
  | 0, clock, p => (.again, clock, p)
  | fuel + 1, clock, p =>
    if p.walker.run.isNone then (.finished, clock, p)
    else
      match p.step clock.now with
      | (.sleep, p) => run poll fuel (clock.advance poll) p
      | (_, p) => run poll fuel clock p

end Poll

end Gait

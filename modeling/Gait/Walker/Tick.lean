import Gait.Walker

/-!
# Ticks

A tick fires once the wait after the last step is over.  It then plays the next step of the selected
program, or ends the cycle if there is none.  `Run.next` decides which step comes next;
`Walker.tick` sends it and arms the next wait.
-/

namespace Gait

namespace Run

/-- Leave the setup phase; all tracks measure time from now on. -/
def enterMain (run : Run) (now : Int) : Run :=
  { run with phase := .main, cursor := 0, anchors := Vector.replicate servoCount now }

/-- The next main step.  After the last one the steps begin again if `again` is set. -/
def nextListed (run : Run) (p : Program) (again : Bool) : Option Step × Run :=
  let cursor := if p.main.size ≤ run.cursor ∧ again then 0 else run.cursor
  match p.main[cursor]? with
  | some step => (some step, { run with cursor := cursor + 1 })
  | none => (none, run)

/-- The step that the tracks give at an instant, with the anchors wound back where a track ran
out and `again` is set.  Servos are asked in order, and the first without a value ends the cycle,
so later anchors stay as they are. -/
def nextComputed (run : Run) (p : Program) (again : Bool) (now : Int) : Option Step × Run :=
  let samples := Vector.ofFn fun servo : Fin servoCount =>
    (p.tracks.get servo).next again (run.anchors.get servo) now
  match samples.toList.findIdx? (·.1.isNone) with
  | none =>
    let raw (sample : Option Float × Int) : Setpoint := sample.1.elim 0 .truncate
    (some ⟨samples.map raw, p.tick⟩, { run with anchors := samples.map (·.2) })
  | some last =>
    let anchors := Vector.ofFn fun servo : Fin servoCount =>
      if servo.val ≤ last then (samples.get servo).2 else run.anchors.get servo
    (none, { run with anchors })

/-- The next step of the main phase; a stop request keeps it from beginning again. -/
def nextMain (run : Run) (p : Program) (mode : Mode) (shouldStop : Bool) (now : Int) :
    Option Step × Run :=
  let again := p.looping && !shouldStop
  match mode with
  | .prg => run.nextListed p again
  | .mot => run.nextComputed p again now

/-- The next step of a run: a setup step while there are any, then one of the main phase. -/
def next (run : Run) (p : Program) (mode : Mode) (shouldStop : Bool) (now : Int) :
    Option Step × Run :=
  match run.phase, p.setup[run.cursor]? with
  | .setup, some step => (some step, { run with cursor := run.cursor + 1 })
  | .setup, none => (run.enterMain now).nextMain p mode shouldStop now
  | .main, _ => run.nextMain p mode shouldStop now

end Run

/-- What a tick did. -/
inductive Status where
  /-- Nothing is selected. -/
  | idle
  /-- The wait after the last step is not over. -/
  | waiting
  /-- A step was sent. -/
  | stepped
  /-- The cycle ended and nothing is selected any more. -/
  | endOfCycle
  /-- A step was due but not sent as a whole. -/
  | faulted (error : SendError)
  deriving DecidableEq, Repr

namespace Walker

variable {L : Type}

/-- The next step of the selected program, or none at the end of its cycle. -/
def nextStep (w : Walker L) (now : Nat) : Option Step × Walker L :=
  match w.run, w.selected? with
  | some run, some p =>
    match p.mode? with
    | some mode =>
      let (step, run) := run.next p mode w.shouldStop (instantOfCount now)
      (step, { w with run := some run })
    | none => (none, w)
  | _, _ => (none, w)

/-- Arm the wait before the next tick. -/
def setWait (w : Walker L) (milliseconds : Nat) : Walker L := { w with wait := milliseconds }

/-- End the cycle; nothing is selected any more. -/
def finishCycle (w : Walker L) : Walker L := { w with isStopped := true, run := none }

variable [Link L]

/-- Send the setpoints of a step to the boards. -/
def sendStep (w : Walker L) (step : Step) : Except SendError Unit × Walker L :=
  let (result, transmitter) := w.transmitter.run (Transmitter.sendStep step)
  (result, { w with transmitter })

/-- Play a step: remember it, arm its wait and send it. -/
def play (w : Walker L) (step : Step) : Status × Walker L :=
  let w := { w with isStopped := false, lastStep := some step }
  let (result, w) := (w.setWait step.delay).sendStep step
  match result with
  | .ok () => (.stepped, w)
  | .error e => (.faulted e, w)

/-- Take one reply byte of the boards and drop it. -/
def takeReply (w : Walker L) : Walker L := { w with transmitter := w.transmitter.read.2 }

/-- Take a reply and, once the wait is over, play the next step or end the cycle. -/
def tick (w : Walker L) (now : Nat) : Status × Walker L :=
  let w := w.takeReply
  match w.selected? with
  | none => (.idle, w)
  | some p =>
    if now - w.lastTick < w.wait then (.waiting, w)
    else
      let (status, w) := match w.nextStep now with
        | (some step, w) => w.play step
        | (none, w) => (.endOfCycle, (w.setWait p.tick).finishCycle)
      (status, { w with lastTick := now })

end Walker

end Gait

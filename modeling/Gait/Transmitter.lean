import Gait.Frame
import Gait.Link
import Gait.Step

/-!
# Transmitters

A `Transmitter` is a link together with the frame being built for it.  `command` builds a whole
frame before it sends the first byte, so a number that does not fit sends nothing.  `sendStep` sends
a command for each servo, in order, and stops at the first that fails.
-/

namespace Gait

/-- The reasons why a command is not sent. -/
inductive SendError where
  | range (misfit : OutOfRange)
  | link (error : LinkError)
  deriving DecidableEq, Repr

/-- The reason as a problem. -/
def SendError.problem : SendError → Problem
  | range misfit => misfit.problem
  | link error => error.problem

/-- A link and the frame being built for it. -/
structure Transmitter (L : Type) where
  link : L
  frame : Frame := .blank

/-- An operation on a transmitter that may fail and leaves it in a new state either way. -/
abbrev Sending (L : Type) : Type → Type := ExceptT SendError (StateM (Transmitter L))

namespace Transmitter

/-- Run an operation on a transmitter. -/
def run {L α : Type} (t : Transmitter L) (action : Sending L α) :
    Except SendError α × Transmitter L := action t

variable {L : Type}

/-- Begin a new frame. -/
def reset : Sending L Unit := modify fun t => { t with frame := .start }

/-- Merge a field into the frame; one that does not fit fails and leaves the frame as it was. -/
def put (field : Field) (number : Int) : Sending L Unit := do
  let t ← get
  match t.frame.put field number with
  | .ok frame => set { t with frame }
  | .error misfit => throw (.range misfit)

variable [Link L]

/-- Send one byte, over a link that may fail. -/
def write (byte : UInt8) : Sending L Unit := do
  let t ← get
  let (result, link) := Link.write t.link byte
  set { t with link }
  match result with
  | .ok () => return
  | .error e => throw (.link e)

/-- Send both bytes of the frame. -/
def send : Sending L Unit := do
  let frame := (← get).frame
  write frame.first
  write frame.second

/-- Build the frame of a command and send it once all of its fields fit. -/
def command (pic servo mode value : Int) : Sending L Unit := do
  reset
  put .pic pic
  put .servo servo
  put .mode mode
  put .value value
  send

/-- The number of servos on a controller board. -/
def servosPerBoard : Nat := 4

/-- Send commands for the servos from `slot` on. -/
def sendFrom (slot : Nat) : List Setpoint → Sending L Unit
  | [] => return
  | raw :: raws => do
    command (slot / servosPerBoard + 1 : Nat) (slot % servosPerBoard : Nat) 0 raw.toInt
    sendFrom (slot + 1) raws

/-- Send the setpoints of a step to all servos, which are on the boards from number one on. -/
def sendStep (s : Step) : Sending L Unit := sendFrom 0 s.positions.toList

/-- Take one reply byte from the boards, if there is one. -/
def read (t : Transmitter L) : Except LinkError (Option UInt8) × Transmitter L :=
  let (result, link) := Link.read t.link
  (result, { t with link })

end Transmitter

end Gait

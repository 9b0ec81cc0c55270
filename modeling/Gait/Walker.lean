import Gait.Registry
import Gait.SelectPolicy
import Gait.Transmitter
import Gait.WalkFile.Load

/-!
# Walkers

A `Walker` holds the registered programs, the run of the selected one and the transmitter to the
boards.  Selecting a program starts a run in its setup phase; a stop request lets the current cycle
finish.

```text
idle --select--> running, setup --setup steps played--> running, main
 ^                     |                                     |
 |               stop request                          stop request
 |                     v                                     v
 +---end of cycle--- stopping <------------------------------+
```

Operations take the time as a count of milliseconds.  An operation that may be refused gives the new
walker only on success, so a refusal changes nothing.
-/

namespace Gait

/-- The phases of a cycle. -/
inductive Phase where
  | setup | main
  deriving DecidableEq, Repr

/-- The name of a phase in diagnostics. -/
def Phase.text : Phase → String
  | setup => "Init"
  | main => "Main"

/-- How far the selected program has come. -/
structure Run where
  name : String
  phase : Phase
  /-- The next step of the phase, while steps are played in order. -/
  cursor : Nat
  /-- For each servo the instant from which its track measures time. -/
  anchors : Vector Int servoCount
  deriving DecidableEq, Repr

/-- What a walker is doing. -/
inductive Activity where
  | idle
  | running (mode : Mode) (phase : Phase)
  | stopping (mode : Mode) (phase : Phase)
  deriving DecidableEq, Repr

/-- An activity as messages show it. -/
def Activity.text : Activity → String
  | idle => "idle"
  | running mode phase => s!"running ({mode.text}, {phase.text})"
  | stopping mode phase => s!"stopping ({mode.text}, {phase.text})"

/-- The reasons why a selection or a deselection is refused. -/
inductive SelectError where
  | nothingSelected
  | unknownProgram (name : String)
  | stillRunning (name : String)
  deriving DecidableEq, Repr

/-- The reason as a problem. -/
def SelectError.problem : SelectError → Problem
  | nothingSelected => .selection "nothing is selected"
  | unknownProgram name => .selection s!"unknown program '{name}'"
  | stillRunning name => .selection s!"'{name}' is still running"

/-- Registered programs, the run of the selected one, and the transmitter to the boards. -/
structure Walker (L : Type) where
  transmitter : Transmitter L
  policy : SelectPolicy := .replace
  registry : Registry := .empty
  run : Option Run := none
  /-- When a tick last fired or a program was selected. -/
  lastTick : Nat := 0
  /-- How long the next tick has to wait after that. -/
  wait : Nat := 0
  /-- A stop was requested. -/
  shouldStop : Bool := false
  /-- The last cycle has ended. -/
  isStopped : Bool := true
  lastStep : Option Step := none

namespace Walker

variable {L : Type}

/-! ## Registered programs -/

/-- Register a program under its own name, in place of the one that was there. -/
def register (w : Walker L) (p : Program) : Except Program.Invalid (Walker L) := do
  let _ ← p.mode
  return { w with registry := w.registry.insert p.name p }

/-- Load a walk file and register its program; the result has the program's name. -/
def load {m : Type → Type} [Monad m] [Files m] (w : Walker L) (path : String) :
    m (Except Report (String × Walker L)) := do
  match ← WalkFile.load path with
  | .error r => return .error r
  | .ok reading =>
    match w.register reading.program with
    | .ok w => return .ok (reading.program.name, w)
    | .error i => return .error (Report.within ⟨i.problem, []⟩ s!"walk file {path}")

/-! ## Selection -/

/-- The name of the program that is selected. -/
def selectedName? (w : Walker L) : Option String := w.run.map (·.name)

/-- The program that is selected, if its name is still registered. -/
def selected? (w : Walker L) : Option Program := w.selectedName?.bind w.registry.get?

/-- Ask the selected program to end with its current cycle. -/
def requestStop (w : Walker L) : Walker L := { w with shouldStop := true }

/-- Deselect the running program, which is a stop request. -/
def deselect (w : Walker L) : Except SelectError (Walker L) :=
  match w.run with
  | none => .error .nothingSelected
  | some _ => .ok w.requestStop

/-- Begin a run of a program at the instant `now`, whatever was running before. -/
def start (w : Walker L) (now : Nat) (name : String) : Walker L :=
  { w with
    run := some ⟨name, .setup, 0, Vector.replicate servoCount (instantOfCount now)⟩
    shouldStop := false
    isStopped := false
    lastTick := now
    wait := 0 }

/-- Select a registered program, if the policy allows it. -/
def select (w : Walker L) (now : Nat) (name : String) : Except SelectError (Walker L) :=
  if w.registry.contains name then
    match w.policy, w.run with
    | .rejectWhileRunning, some run => .error (.stillRunning run.name)
    | _, _ => .ok (w.start now name)
  else .error (.unknownProgram name)

/-- What the walker is doing, as far as a program of its selected name can be played. -/
def activity (w : Walker L) : Activity :=
  match w.run, w.selected?.bind Program.mode? with
  | some run, some mode =>
    if w.shouldStop then .stopping mode run.phase else .running mode run.phase
  | _, _ => .idle

/-- The last step as diagnostics show it. -/
def lastStepText (w : Walker L) : String := w.lastStep.elim "Step[]" Step.text

end Walker

end Gait

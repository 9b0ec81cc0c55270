import Gait.Motion
import Gait.Step

/-!
# Programs

A `Program` is what a walk file holds: descriptive fields, setup steps that are played once, main
steps, and a track of motion functions for each servo.  `Program.mode` decides how its main phase is
played, or says why it cannot be played.
-/

namespace Gait

/-- The ways of playing the main phase of a program. -/
inductive Mode where
  /-- Steps are computed at each tick from the tracks. -/
  | mot
  /-- The main steps are played in order. -/
  | prg
  deriving DecidableEq, Repr

/-- The word that asks for a mode. -/
def Mode.text : Mode → String
  | mot => "mot"
  | prg => "prg"

/-- The mode that a word asks for. -/
def Mode.ofText? : String → Option Mode
  | "mot" => some mot
  | "prg" => some prg
  | _ => none

@[simp] theorem Mode.ofText?_text (m : Mode) : ofText? m.text = some m := by cases m <;> rfl

/-- What a walk file holds; fields that it leaves out keep these defaults. -/
structure Program where
  path : Option String := none
  fileVersion : String := ""
  id : Int := 0
  version : String := ""
  name : String := ""
  speed : Int := 0
  looping : Bool := false
  /-- The delay of steps that give none. -/
  tick : Nat := 0
  use : Option String := none
  setup : Array Step := #[]
  main : Array Step := #[]
  tracks : Vector Track servoCount := Vector.replicate servoCount []

namespace Program

/-- The reasons why a program cannot be played. -/
inductive Invalid where
  | useMissing
  | unknownUse (word : String)
  | emptyTrack (servo : Nat)
  deriving DecidableEq, Repr

/-- A reason in words. -/
def Invalid.message : Invalid → String
  | useMissing => "Use is not set"
  | unknownUse word => s!"unknown use mode '{word}' (expected 'mot' or 'prg')"
  | emptyTrack servo => s!"mot mode needs functions for every servo; [m{servo}] is empty"

/-- The first servo without motion functions. -/
def emptyTrack? (p : Program) : Option Nat := p.tracks.toList.findIdx? List.isEmpty

/-- How the program is played.  A program of motion functions needs some for every servo. -/
def mode (p : Program) : Except Invalid Mode :=
  match p.use with
  | none => .error .useMissing
  | some word =>
    match Mode.ofText? word, p.emptyTrack? with
    | none, _ => .error (.unknownUse word)
    | some .mot, some servo => .error (.emptyTrack servo)
    | some mode, _ => .ok mode

/-- The mode that the program asks for, whether or not it can be played. -/
def mode? (p : Program) : Option Mode := p.use.bind Mode.ofText?

/-- The number of motion functions of all servos together. -/
def functionCount (p : Program) : Nat := p.tracks.toList.flatten.length

theorem mode?_eq_some_of_mode {p : Program} {m : Mode} (h : p.mode = .ok m) : p.mode? = some m := by
  unfold mode at h
  split at h
  · cases h
  · next word hword =>
    split at h <;> simp_all [mode?]

end Program

end Gait

import Gait.Program
import Gait.Text.Blank
import Gait.WalkFile.StepLine

/-!
# Walk files

A walk file is read line by line.  A line that opens a region decides how the following lines are
read, until `[end]`:

* `@/`: facts about the file, also closed by `/@`;
* `[info]`: `key=value` descriptions of the program;
* `[setup]` and `[prg]`: steps;
* `[mN]`: motion functions of servo `N`, in pairs of an interval and an expression after a line `-`.

`#` starts a comment.  A line that cannot be read is reported and dropped, and reading goes on after
it.  `Reading.feed` is the effect of one line, and `WalkFile.read` feeds all lines of a text.
-/

namespace Gait.WalkFile

open Text

/-- The reasons why a pair of lines is no motion function. -/
inductive PairFault where
  | notKeyValue (line : List Char)
  | boundTooLarge (digits : List Char)
  | needsTwoBounds (value : List Char)
  | noInterval
  | noFunction
  | badFunction (source : List Char) (error : Expr.CompileError)

/-- A reason in words. -/
def PairFault.message : PairFault → String
  | notKeyValue line => s!"expected key=value, got '{String.ofList line}'"
  | boundTooLarge digits => s!"Interval bound '{String.ofList digits}' is too large"
  | needsTwoBounds value => s!"Interval needs two bounds, got '{String.ofList value}'"
  | noInterval => "function pair has no Interval"
  | noFunction => "function pair has no Function"
  | badFunction source error => s!"bad Function '{String.ofList source}': {error.message}"

/-- The reasons why a line is dropped. -/
inductive Reason where
  | noServo (number : Nat)
  | notKeyValue
  | notInteger (key : String) (value : List Char)
  | notCount (key : String) (value : List Char)
  | step (fault : StepLine.Fault)
  | pair (fault : PairFault)

/-- A reason in words. -/
def Reason.message : Reason → String
  | noServo number => s!"no servo [m{number}]; region ignored"
  | notKeyValue => "expected key=value"
  | notInteger key value => s!"{key} is not an integer: {String.ofList value}"
  | notCount key value => s!"{key} is not a non-negative integer: {String.ofList value}"
  | step fault => fault.message
  | pair fault => fault.message

/-- A line that was dropped, by its number, and why. -/
structure Skipped where
  line : Nat
  reason : Reason

/-- How far a pair of lines in a region of motion functions has come. -/
inductive Pairing where
  /-- Lines are ignored until the next `-`. -/
  | locked
  | unlocked
  /-- The first line of a pair, with its number. -/
  | half (line : Nat) (content : List Char)
  deriving DecidableEq

/-- The kind of lines that are read at a place of a walk file. -/
inductive Region where
  | outside
  | fileInfo
  | info
  | setup
  | main
  /-- Motion functions of a servo, or of none that exists. -/
  | track (servo : Option (Fin servoCount)) (pairing : Pairing)
  deriving DecidableEq

/-- What has been read of a walk file: the program so far, the region that is open, and the lines
that were dropped. -/
structure Reading where
  program : Program := {}
  region : Region := .outside
  skipped : Array Skipped := #[]

/-- A line without its comment and the blanks around it. -/
def content (line : List Char) : List Char := trim (line.takeWhile (· != '#'))

/-- The number in a `[mN]` line; numbers past the largest count are all the same. -/
def trackTag? (line : List Char) : Option Nat :=
  match line with
  | '[' :: 'm' :: rest =>
    if rest.getLast? = some ']' then (natural? rest.dropLast).map fun n => min n countMax else none
  | _ => none

/-- A line `key=value`: the key starts with a letter, letters and digits follow, and the value is
not empty. -/
def keyValue? (line : List Char) : Option (List Char × List Char) :=
  (cut? ['='] line).filter fun parts =>
    (match parts.1 with
      | c :: cs => c.isAlpha && cs.all Char.isAlphanum
      | [] => false) && !parts.2.isEmpty

/-- The words for yes; every other word is a no. -/
def affirmatives : List String := ["True", "true", "Yes", "yes", "1"]

/-- The signed number written by a text, if it fits an instant. -/
def instant? (cs : List Char) : Option Int :=
  (integer? cs).filter fun i => instantMin ≤ i ∧ i ≤ instantMax

/-- The number without a sign written by a text, if it fits a count. -/
def count? (cs : List Char) : Option Nat := (unsigned? cs).filter (· ≤ countMax)

/-- Set the field of a program that an `[info]` line names.  Unknown keys have no effect. -/
def describe (p : Program) (key value : List Char) : Except Reason Program :=
  match String.ofList key with
  | "Id" =>
    match instant? value with
    | some id => .ok { p with id }
    | none => .error (.notInteger "Id" value)
  | "Version" => .ok { p with version := String.ofList value }
  | "Name" => .ok { p with name := String.ofList value }
  | "Speed" =>
    match instant? value with
    | some speed => .ok { p with speed }
    | none => .error (.notInteger "Speed" value)
  | "Looping" => .ok { p with looping := affirmatives.contains (String.ofList value) }
  | "Tick" =>
    match count? value with
    | some tick => .ok { p with tick }
    | none => .error (.notCount "Tick" value)
  | "Use" => .ok { p with use := some (String.ofList value) }
  | _ => .ok p

/-- The bounds of an interval: its first two runs of digits. -/
def bounds (value : List Char) : Except PairFault (Int × Int) := do
  let runs := (value.splitOnP fun c => !c.isDigit).filter fun run => !run.isEmpty
  let numbers ← (runs.take 2).mapM fun run =>
    match StepLine.number? run with
    | some n => Except.ok (n : Int)
    | none => .error (.boundTooLarge run)
  match numbers with
  | [a, b] => return (a, b)
  | _ => .error (.needsTwoBounds value)

/-- What the lines of a pair have given so far. -/
structure Pair where
  interval : Option (Int × Int) := none
  function : Option (List Char) := none

/-- Take one line of a pair.  Unknown keys have no effect. -/
def Pair.add (pair : Pair) (line : List Char) : Except PairFault Pair :=
  match keyValue? line with
  | none => .error (.notKeyValue line)
  | some (key, value) =>
    match String.ofList key with
    | "Interval" => do return { pair with interval := some (← bounds value) }
    | "Function" => .ok { pair with function := some value }
    | _ => .ok pair

/-- The motion function of two lines in either order. -/
def readPair (line₁ line₂ : List Char) : Except PairFault MotionFunction := do
  let pair ← (← Pair.add {} line₁).add line₂
  let some (a, b) := pair.interval | .error .noInterval
  let some source := pair.function | .error .noFunction
  match MotionFunction.compile (String.ofList source) a b with
  | .ok f => return f
  | .error e => .error (.badFunction source e)

namespace Reading

/-- Report a line and drop it. -/
def skip (r : Reading) (line : Nat) (reason : Reason) : Reading :=
  { r with skipped := r.skipped.push ⟨line, reason⟩ }

/-- A line outside all regions opens one or is ignored. -/
def openRegion (r : Reading) (n : Nat) (line : List Char) : Reading :=
  match String.ofList line with
  | "@/" => { r with region := .fileInfo }
  | "[info]" => { r with region := .info }
  | "[setup]" => { r with region := .setup }
  | "[prg]" => { r with region := .main }
  | _ =>
    match trackTag? line with
    | none => r
    | some number =>
      if h : number < servoCount then { r with region := .track (some ⟨number, h⟩) .locked }
      else { r.skip n (.noServo number) with region := .track none .locked }

/-- Whether a line closes a region. -/
def closes (region : Region) (line : List Char) : Bool :=
  String.ofList line == "[end]" || (region == .fileInfo && String.ofList line == "/@")

/-- Append a motion function to the track of a servo. -/
def addFunction (p : Program) (servo : Fin servoCount) (f : MotionFunction) : Program :=
  { p with tracks := p.tracks.set servo (p.tracks.get servo ++ [f]) servo.isLt }

/-- The effect of a line in a region of motion functions.  A fault of a pair is reported with the
number of its first line. -/
def feedTrack (r : Reading) (n : Nat) (line : List Char) (servo : Option (Fin servoCount)) :
    Pairing → Reading
  | .locked =>
    if line = ['-'] then { r with region := .track servo .unlocked } else r
  | .unlocked => { r with region := .track servo (.half n line) }
  | .half n₁ line₁ =>
    let r := { r with region := .track servo .locked }
    match readPair line₁ line, servo with
    | .ok f, some servo => { r with program := addFunction r.program servo f }
    | .ok _, none => r
    | .error fault, _ => r.skip n₁ (.pair fault)

/-- The effect of a line inside a region that it does not close. -/
def feedRegion (r : Reading) (n : Nat) (line : List Char) : Reading :=
  match r.region with
  | .outside => r
  | .fileInfo =>
    match keyValue? line with
    | some (key, value) =>
      if String.ofList key = "version" then
        { r with program := { r.program with fileVersion := String.ofList value } }
      else r
    | none => r
  | .info =>
    match keyValue? line with
    | none => r.skip n .notKeyValue
    | some (key, value) =>
      match describe r.program key value with
      | .ok program => { r with program }
      | .error reason => r.skip n reason
  | .setup =>
    match StepLine.read r.program.tick line with
    | .ok step => { r with program := { r.program with setup := r.program.setup.push step } }
    | .error fault => r.skip n (.step fault)
  | .main =>
    match StepLine.read r.program.tick line with
    | .ok step => { r with program := { r.program with main := r.program.main.push step } }
    | .error fault => r.skip n (.step fault)
  | .track servo pairing => r.feedTrack n line servo pairing

/-- The effect of line `n`. -/
def feed (r : Reading) (n : Nat) (line : List Char) : Reading :=
  let line := content line
  if line.isEmpty then r
  else if r.region = .outside then r.openRegion n line
  else if closes r.region line then { r with region := .outside }
  else r.feedRegion n line

/-- The effect of lines that are numbered from `n` on. -/
def feedAll (r : Reading) (n : Nat) : List (List Char) → Reading
  | [] => r
  | line :: lines => (r.feed n line).feedAll (n + 1) lines

end Reading

/-- The lines of a text. -/
def lines (text : List Char) : List (List Char) := text.splitOn '\n'

/-- Read a text, with the program and all dropped lines as result. -/
def read (text : String) : Reading := Reading.feedAll {} 1 (lines text.toList)

end Gait.WalkFile

import Gait.Number.Limits
import Gait.Text.Cut
import Gait.Text.Numeral

/-!
# Command line arguments

An invocation is options, a command, and the command's own options and operands; instead of it the
arguments may ask for the version.  `Request.parse?` gives nothing for arguments that do neither.
-/

namespace Gait.CommandLine

/-- What the program is asked to do. -/
inductive Command where
  /-- Parse and validate walk files. -/
  | check (files : List String)
  /-- List the programs of the walk directory. -/
  | list
  /-- Print the frames of one pass of a program. -/
  | frames (file : String)
  /-- Play a program until its cycle ends. -/
  | run (name : String) (dryRun : Bool) (steps : Option Nat)
  deriving DecidableEq, Repr

/-- A command and the options before it. -/
structure Invocation where
  config : Option String := none
  json : Bool := false
  logLevel : Option String := none
  command : Command
  deriving DecidableEq, Repr

/-- What the arguments ask for. -/
inductive Request where
  | version
  | invocation (i : Invocation)
  deriving DecidableEq, Repr

/-- An argument as it is written. -/
inductive Argument where
  /-- `--name` or `--name=value`. -/
  | option (name : String) (value : Option String)
  | operand (text : String)
  /-- Two hyphens, after which all arguments are operands. -/
  | separator
  /-- One hyphen and a letter, whatever follows. -/
  | short (letter : Char)
  deriving DecidableEq, Repr

/-- The kind of an argument, by the hyphens it starts with. -/
def Argument.of (arg : String) : Argument :=
  match arg.toList with
  | ['-', '-'] => .separator
  | '-' :: '-' :: cs =>
    match Text.cut? ['='] cs with
    | some (name, value) => .option (String.ofList name) (some (String.ofList value))
    | none => .option (String.ofList cs) none
  | '-' :: c :: _ => .short c
  | _ => .operand arg

/-- The value of an option and the arguments after it: the one it is written with, or the next
argument if that is an operand. -/
def optionValue (value : Option String) (args : List String) : Option (String × List String) :=
  match value, args with
  | some v, _ => some (v, args)
  | none, arg :: rest =>
    match Argument.of arg with
    | .operand v => some (v, rest)
    | _ => none
  | none, [] => none

theorem length_optionValue_le {value : Option String} {args rest : List String} {v : String}
    (h : optionValue value args = some (v, rest)) : rest.length ≤ args.length := by
  unfold optionValue at h
  split at h
  · simp only [Option.some.injEq, Prod.mk.injEq] at h
    exact Nat.le_of_eq (congrArg List.length h.2.symm)
  · next arg tail =>
    split at h
    · simp only [Option.some.injEq, Prod.mk.injEq] at h
      obtain ⟨-, rfl⟩ := h
      exact Nat.le_succ _
    · cases h
  · cases h

/-- Give an option its value; an option given twice is refused. -/
def once {α : Type} (old : Option α) (new : α) : Option (Option α) :=
  match old with
  | none => some (some new)
  | some _ => none

/-- A path, which must not be empty. -/
def path? (text : String) : Option String := if text.isEmpty then none else some text

/-! ## Arguments of commands -/

/-- The options of playing a program and its operands, as far as they have been read. -/
structure Playing where
  dryRun : Option Unit := none
  steps : Option Nat := none
  operands : List String := []

/-- The number of steps written by a text, if it fits a count. -/
def stepCount? (text : String) : Option Nat :=
  (Text.unsigned? text.toList).filter (· ≤ countMax)

/-- Read the arguments of playing, in which options and operands may alternate. -/
def readPlaying (p : Playing) : List String → Option Playing
  | [] => some p
  | arg :: args =>
    match Argument.of arg with
    | .operand text => readPlaying { p with operands := p.operands ++ [text] } args
    | .separator => some { p with operands := p.operands ++ args }
    | .option "dry-run" none => do readPlaying { p with dryRun := ← once p.dryRun () } args
    | .option "steps" value =>
      match _h : optionValue value args with
      | some (v, rest) => do
        let steps ← once p.steps (← stepCount? v)
        readPlaying { p with steps } rest
      | none => none
    | _ => none
termination_by args => args.length
decreasing_by
  all_goals simp only [List.length_cons]
  all_goals first | omega | exact Nat.lt_succ_of_le (length_optionValue_le _h)

/-- The operands of a command without options; after a separator everything is one. -/
def operands : List String → Option (List String)
  | [] => some []
  | arg :: args =>
    match Argument.of arg with
    | .operand text => (operands args).map (text :: ·)
    | .separator => some args
    | _ => none

/-- Read the arguments of the command of a name. -/
def readCommand (name : String) (args : List String) : Option Command :=
  match name with
  | "check" => do
    let files ← (← operands args).mapM path?
    if files.isEmpty then none else return .check files
  | "list" => do
    if (← operands args).isEmpty then return .list else none
  | "frames" => do
    match ← operands args with
    | [file] => return .frames (← path? file)
    | _ => none
  | "run" => do
    let p ← readPlaying {} args
    match p.operands with
    | [name] => return .run name p.dryRun.isSome p.steps
    | _ => none
  | _ => none

/-! ## Arguments of the program -/

/-- The options before the command, as far as they have been read. -/
structure Options where
  config : Option String := none
  json : Option Unit := none
  logLevel : Option String := none

/-- Read the options, then the command.  Asking for the version ends the reading. -/
def readOptions (o : Options) : List String → Option Request
  | [] => none
  | arg :: args =>
    match Argument.of arg with
    | .operand name => do
      return .invocation {
        config := o.config
        json := o.json.isSome
        logLevel := o.logLevel
        command := ← readCommand name args }
    | .short 'V' | .option "version" none => some .version
    | .option "json" none => do readOptions { o with json := ← once o.json () } args
    | .option "config" value =>
      match _h : optionValue value args with
      | some (v, rest) => do
        let config ← once o.config (← path? v)
        readOptions { o with config } rest
      | none => none
    | .option "log-level" value =>
      match _h : optionValue value args with
      | some (v, rest) => do
        let logLevel ← once o.logLevel v
        readOptions { o with logLevel } rest
      | none => none
    | _ => none
termination_by args => args.length
decreasing_by
  all_goals simp only [List.length_cons]
  all_goals first | omega | exact Nat.lt_succ_of_le (length_optionValue_le _h)

/-- The request that the arguments make, if they make one. -/
def Request.parse? (args : List String) : Option Request := readOptions {} args

end Gait.CommandLine

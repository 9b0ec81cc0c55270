import Gait.CommandLine.Arguments
import Gait.CommandLine.Check
import Gait.CommandLine.Frames
import Gait.CommandLine.Playback
import Gait.Report.Explanation
import Gait.Settings

/-!
# The command line

`execute` loads the settings and carries out a command.  The result is output, or a playback that
the caller has to drive to its end first.
-/

namespace Gait.CommandLine

/-- What a command prints, and the failure it ends with, if any. -/
structure Output where
  lines : List String := []
  failure : Option Report := none

namespace Output

/-- No output and a failure. -/
def failed (r : Report) : Output := { failure := some r }

/-- The exit code of the failure, or zero if there is none. -/
def exitCode (o : Output) : Nat := o.failure.elim 0 Report.exitCode

/-- What goes to the error output: the failure in one of its two forms. -/
def errorLines (json : Bool) (o : Output) : List String :=
  o.failure.toList.map fun r => if json then r.json else r.explanation

end Output

/-- The answer to the question for the version. -/
def versionOutput : Output := { lines := ["walker 0.1.0"] }

/-- The exit code for arguments that make no request. -/
def usageExitCode : Nat := 2

/-- What carrying out a command has come to: output, or a playback that is still to be driven. -/
inductive Progress where
  | finished (output : Output)
  | playing (playback : Playback)

/-- The settings file that is read, if it is there, when none is given. -/
def defaultConfig : String := "etc/walker.toml"

variable {m : Type → Type} [Monad m] [Files m]

/-- The settings of the given file, or of the default one if it is there. -/
def loadSettings (config : Option String) : m (Except Report Settings) := do
  let path ← match config with
    | some path => pure (some path)
    | none => do if ← Files.isPresent defaultConfig then pure (some defaultConfig) else pure none
  match path with
  | none => return .ok {}
  | some path =>
    return (← Settings.load path).mapError fun e =>
      Report.within ⟨.other e.message, []⟩ "loading config"

/-- Check walk files, which fails if any of them cannot be played. -/
def check (json : Bool) (files : List String) : m Output := do
  let vs ← verdicts files
  let lines := vs.flatMap fun v => if json then [v.2.json v.1] else v.2.lines v.1
  return { lines, failure := checkFailure? vs }

/-- A walker without programs over a simulated link. -/
def newWalker (policy : SelectPolicy) : Walker Link.Simulated :=
  { transmitter := { link := {} }, policy }

/-- List the programs of the walk directory. -/
def list (settings : WalkerSettings) (json : Bool) : m Output := do
  match ← WalkDirectory.load (newWalker .replace) settings.directory settings.extension with
  | .error r => return .failed r
  | .ok w => return { lines := listing json w.registry }

/-- Print the frames of one pass through the steps of a walk file. -/
def frames (json : Bool) (file : String) : m Output := do
  match ← WalkFile.load file with
  | .error r => return .failed r
  | .ok reading =>
    let p := reading.program
    match p.mode with
    | .error i => return .failed ⟨i.problem, []⟩
    | .ok .mot => return .failed ⟨.other s!"frames needs a prg program; '{p.name}' uses mot", []⟩
    | .ok .prg =>
      match (newWalker .replace).register p with
      | .error i => return .failed ⟨i.problem, []⟩
      | .ok w =>
        match w.select 0 p.name with
        | .error e => return .failed ⟨e.problem, []⟩
        | .ok w =>
          let entries := pass w 0 (p.setup.size + p.main.size)
          return { lines := entries.flatMap fun e => if json then [e.json] else e.lines }

/-- Select a program of the walk directory and hand out its playback.  A device cannot be opened
here, so settings that name one are refused unless the run is dry. -/
def run (settings : Settings) (json : Bool) (name : String) (dryRun : Bool) (steps : Option Nat) :
    m (Except Report Playback) := do
  if settings.serial.device.isSome && !dryRun then
    return .error
      ⟨.other "serial.device is set but walker was built without the hardware feature", []⟩
  let w := newWalker settings.walker.policy
  match ← WalkDirectory.load w settings.walker.directory settings.walker.extension with
  | .error r => return .error r
  | .ok w =>
    match w.select 0 name with
    | .error e => return .error ⟨e.problem, []⟩
    | .ok walker =>
      return .ok ⟨name, json, settings.walker.idlePoll, { walker, limit := steps }⟩

/-- Load the settings and carry out the command of an invocation. -/
def execute (i : Invocation) : m Progress := do
  match ← loadSettings i.config with
  | .error r => return .finished (.failed r)
  | .ok settings =>
    match i.command with
    | .check files => return .finished (← check i.json files)
    | .list => return .finished (← list settings.walker i.json)
    | .frames file => return .finished (← frames i.json file)
    | .run name dryRun steps =>
      match ← run settings i.json name dryRun steps with
      | .error r => return .finished (.failed r)
      | .ok playback => return .playing playback

end Gait.CommandLine

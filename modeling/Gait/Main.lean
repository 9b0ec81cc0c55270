import Gait.CommandLine

/-!
# The program

The only module that touches the machine: it reads files and directories, waits by the machine's
clock, and prints.  Everything it prints has been decided by `CommandLine.execute`.
-/

namespace Gait

/-! ## Files of the machine -/

/-- The reason behind a failure of the machine's file operations. -/
def FileError.ofMachine : IO.Error → FileError
  | .noFileOrDirectory .. => .missing
  | .inappropriateType _ 21 _ => .isDirectory
  | .inappropriateType .. => .notDirectory
  | .permissionDenied .. => .other "Permission denied (os error 13)"
  | e => .other (toString e)

/-- An action of the machine, with its failure as a value. -/
def attempt {α : Type} (action : IO α) : IO (Except FileError α) := do
  return (← action.toBaseIO).mapError FileError.ofMachine

/-- The bytes of a file of the machine. -/
def readBytes (path : String) : IO (Except FileError ByteArray) := attempt (IO.FS.readBinFile path)

/-- Reading from the machine.  A file counts as regular if it can be read. -/
instance : Files IO where
  readText path := do
    match ← readBytes path with
    | .error e => return .error e
    | .ok bytes => return (String.fromUTF8? bytes).elim (.error .notText) .ok
  names directory := attempt do
    let entries ← (← IO.FS.realPath directory).readDir
    return entries.toList.map fun entry => entry.fileName
  isFile path := return (← readBytes path).toBool
  isPresent path := do
    match ← readBytes path with
    | .error .missing | .error .notDirectory => return false
    | _ => return true

/-! ## Playing and printing -/

namespace CommandLine

/-- Drive a playback to its end, on a clock that was at `start` when it began. -/
partial def play (start : Nat) (p : Playback) : IO Playback := do
  let (next, drive) := p.drive.step ((← IO.monoMsNow) - start)
  let p := { p with drive }
  match next with
  | .finished => return p
  | .again => play start p
  | .sleep =>
    IO.sleep p.idlePoll.toUInt32
    play start p

/-- Print output and give its exit code. -/
def print (json : Bool) (output : Output) : IO UInt32 := do
  output.lines.forM IO.println
  (output.errorLines json).forM IO.eprintln
  return output.exitCode.toUInt32

end CommandLine

end Gait

open Gait.CommandLine in
/-- Carry out the request of the arguments. -/
def main (args : List String) : IO UInt32 := do
  match Request.parse? args with
  | none =>
    IO.eprintln "usage: walker [--config FILE] [--json] [--log-level LEVEL] check|list|frames|run ..."
    return usageExitCode.toUInt32
  | some .version => print false versionOutput
  | some (.invocation i) =>
    let start ← IO.monoMsNow
    match ← execute i with
    | .finished output => print i.json output
    | .playing p => print i.json { lines := (← play start p).lines }

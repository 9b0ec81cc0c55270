import Gait.Json
import Gait.WalkFile.Load

/-!
# Checking walk files

Each file gets a verdict, in the order of the arguments: it can be played, with the lines that were
dropped, or it cannot, with the reason.
-/

namespace Gait.CommandLine

/-- What checking a walk file comes to. -/
inductive Verdict where
  | playable (reading : WalkFile.Reading) (mode : Mode)
  | unplayable (reason : String)

namespace Verdict

/-- Whether the file can be played. -/
def isPlayable : Verdict → Bool
  | playable .. => true
  | unplayable _ => false

/-- The verdict on what loading a file came to. -/
def ofReading : Except Report WalkFile.Reading → Verdict
  | .error r => unplayable r.text
  | .ok reading =>
    match reading.program.mode with
    | .ok mode => playable reading mode
    | .error i => unplayable i.problem.message

/-- The messages of the lines that were dropped, in their order. -/
def skippedTexts (reading : WalkFile.Reading) : List String :=
  reading.skipped.toList.map fun s => s.problem.message

/-- The verdict on a file in words, with a line for each line that was dropped. -/
def lines (file : String) : Verdict → List String
  | playable reading mode =>
    let p := reading.program
    (s!"ok   {file}: '{p.name}' ({mode.text}) init={p.setup.size} prg={p.main.size} " ++
      s!"functions={p.functionCount}") ::
      (skippedTexts reading).map ("     skipped: " ++ ·)
  | unplayable reason => [s!"FAIL {file}: {reason}"]

/-- The verdict on a file as a JSON line. -/
def json (file : String) : Verdict → String
  | playable reading mode =>
    let p := reading.program
    Json.object [
      ("file", .text file), ("ok", .flag true), ("name", .text p.name), ("mode", .text mode.text),
      ("init_steps", .number p.setup.size), ("prg_steps", .number p.main.size),
      ("functions", .number p.functionCount), ("skipped", .texts (skippedTexts reading))]
  | unplayable reason =>
    Json.object [("file", .text file), ("ok", .flag false), ("error", .text reason)]

end Verdict

/-- Load files in order and give each its verdict. -/
def verdicts {m : Type → Type} [Monad m] [Files m] : List String → m (List (String × Verdict))
  | [] => return []
  | file :: files => do
    let v := Verdict.ofReading (← WalkFile.load file)
    return (file, v) :: (← verdicts files)

/-- The failure that some verdicts amount to, if any. -/
def checkFailure? (vs : List (String × Verdict)) : Option Report :=
  let failed := vs.countP fun v => !v.2.isPlayable
  if failed = 0 then none
  else
    some (Report.within ⟨.validation s!"{failed} of {vs.length} walk files failed", []⟩ "check failed")

end Gait.CommandLine

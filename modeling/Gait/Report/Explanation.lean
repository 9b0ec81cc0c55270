import Gait.Json
import Gait.Report
import Gait.Text.Cut

/-!
# Explaining reports

What the command line says about a failure: an explanation with a hint how to mend it, the same as a
JSON line, and the exit code of its kind.
-/

namespace Gait

namespace Problem

/-- The exit code of each kind of problem. -/
def exitCode : Problem → Nat
  | selection _ => 3
  | validation _ | parse .. => 4
  | link _ | io _ => 5
  | range .. => 6
  | other _ => 1

/-- What happened, the likely causes and how to mend them; problems without a kind have no standing
explanation. -/
def explanation? : Problem → Option String
  | selection reason => some <|
    s!"What happened: Program could not be selected ({reason}).\n" ++
    "Likely causes: The name does not match any `Name=` in the walk directory, " ++
    "or the file failed validation.\n" ++
    "How to fix: Run `walker list` to see the registered programs."
  | validation reason => some <|
    s!"What happened: Walk file is not runnable ({reason}).\n" ++
    "Likely causes: Missing `Use=` in [info], or a mot program without functions for every servo.\n" ++
    "How to fix: Run `walker check <FILE>` and fix the reported sections."
  | link reason | io reason => some <|
    s!"What happened: Talking to the controller board failed ({reason}).\n" ++
    "Likely causes: Wrong serial.device, cable unplugged, or missing permissions on the device.\n" ++
    "How to fix: Check [serial] in the config, or rerun with --dry-run."
  | range field value => some <|
    s!"What happened: A {field} of {value} does not fit the wire protocol.\n" ++
    "Likely causes: A step or motion function produces values outside 0..=255.\n" ++
    "How to fix: Clamp the walk file's positions to the servo range 35..=157."
  | parse line reason => some <|
    s!"What happened: Line {line} of the walk file is malformed ({reason}).\n" ++
    "How to fix: Correct the line; see `walker check` output."
  | other _ => none

end Problem

namespace Report

/-- Whether a text holds another one, letters of either case being the same. -/
def mentions (text word : String) : Bool :=
  (Text.cut? word.toList (text.toList.map Char.toLower)).isSome

/-- The explanation of a report.  Problems without a kind are told apart by the outermost text. -/
def explanation (r : Report) : String :=
  match r.problem.explanation? with
  | some text => text
  | none =>
    let headline := r.headline
    if mentions headline "config" then
      let cause := r.cause?.elim "" fun c => s!" ({c})"
      s!"What happened: Configuration is invalid or unreadable{cause}.\n" ++
        s!"Likely causes: {headline}.\n" ++
        "How to fix: Edit the TOML config and try again."
    else if mentions headline "hardware feature" then
      s!"What happened: {headline}.\n" ++
        "How to fix: Rebuild with `--features hardware` or pass --dry-run."
    else
      let cause := r.cause?.elim "" fun c => s!" Cause: {c}"
      s!"Something went wrong.{cause}\n" ++
        s!"How to fix: Re-run with --log-level=debug for details. Original: {headline}"

/-- The kind and the explanation as a JSON line. -/
def json (r : Report) : String :=
  Json.object [("reason", .text r.problem.kind), ("message", .text r.explanation)]

/-- The exit code of the problem of a report. -/
def exitCode (r : Report) : Nat := r.problem.exitCode

end Report

end Gait

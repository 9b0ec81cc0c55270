import Gait.Text.Quoted
import Gait.Walker

/-!
# Walkers in diagnostics

One line that shows the registered names, the selection, the activity and the wait of a walker.
-/

namespace Gait

/-- A record in diagnostics: its name and its fields between braces. -/
def recordText (name : String) (fields : List String) : String :=
  name ++ " \x7b " ++ ", ".intercalate fields ++ " \x7d"

/-- The name of a mode in diagnostics. -/
def Mode.label : Mode → String
  | mot => "Mot"
  | prg => "Prg"

/-- An activity in diagnostics. -/
def Activity.label : Activity → String
  | idle => "Idle"
  | running mode phase => recordText "Running" ["mode: " ++ mode.label, "phase: " ++ phase.text]
  | stopping mode phase => recordText "Stopping" ["mode: " ++ mode.label, "phase: " ++ phase.text]

/-- A walker in diagnostics. -/
def Walker.text {L : Type} (w : Walker L) : String :=
  recordText "FileWalker" [
    "programs: [" ++ ", ".intercalate (w.registry.names.map Text.quoted) ++ "]",
    "selected: " ++ w.selectedName?.elim "None" fun name => "Some(" ++ Text.quoted name ++ ")",
    "state: " ++ w.activity.label,
    "target_diff_ms: " ++ toString w.wait,
    ".."]

end Gait

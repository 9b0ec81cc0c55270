import Gait.Files
import Gait.Report
import Gait.WalkFile

/-!
# Loading walk files

Reading a walk file from a file system.  Only a file that cannot be read is a failure; lines that
cannot be read are in the result.
-/

namespace Gait

/-- A dropped line as a problem. -/
def WalkFile.Skipped.problem (s : WalkFile.Skipped) : Problem := .parse s.line s.reason.message

/-- A reason against playing a program as a problem. -/
def Program.Invalid.problem (i : Program.Invalid) : Problem := .validation i.message

/-- Read the walk file at a path; the program remembers the path. -/
def WalkFile.load {m : Type → Type} [Monad m] [Files m] (path : String) :
    m (Except Report WalkFile.Reading) := do
  match ← Files.readText path with
  | .ok text =>
    let reading := WalkFile.read text
    return .ok { reading with program := { reading.program with path := some path } }
  | .error e => return .error (Report.within ⟨.io e.message, []⟩ s!"reading walk file {path}")

/-- What loading makes of the text of a file, or of what kept it from being read. -/
def WalkFile.loaded (path : String) : Except FileError String → Except Report WalkFile.Reading
  | .ok text =>
    .ok { WalkFile.read text with program := { (WalkFile.read text).program with path := some path } }
  | .error e => .error (Report.within ⟨.io e.message, []⟩ s!"reading walk file {path}")

/-- Loading asks for nothing but the text of the file. -/
theorem WalkFile.load_eq_map {m : Type → Type} [Monad m] [LawfulMonad m] [Files m]
    (path : String) : (WalkFile.load path : m _) = WalkFile.loaded path <$> Files.readText path := by
  rw [load, map_eq_pure_bind]
  congr
  funext result
  cases result <;> rfl

end Gait

import Gait.Walker

/-!
# Walk directories

The walk files of a directory are its regular files with the right extension, in ascending order of
names.  Loading a directory registers every program that can be played, so of two programs with one
name the later file wins; other files are passed over.
-/

namespace Gait.WalkDirectory

/-- Names in ascending order. -/
def sorted (names : List String) : List String := names.mergeSort fun a b => decide (a ≤ b)

/-- The names for which an action holds. -/
def filterM {m : Type → Type} [Monad m] (keep : String → m Bool) : List String → m (List String)
  | [] => return []
  | name :: names => do
    let kept ← keep name
    let rest ← filterM keep names
    return if kept then name :: rest else rest

/-- The paths of the walk files of a directory. -/
def files {m : Type → Type} [Monad m] [Files m] (directory extension : String) :
    m (Except Report (List String)) := do
  match ← Files.names directory with
  | .error e =>
    return .error (Report.within ⟨.other e.message, []⟩ s!"reading walk directory {directory}")
  | .ok names =>
    let named := names.filter fun name => Files.extension? name = some extension
    let regular ← filterM (fun name => Files.isFile (Files.join directory name)) (sorted named)
    return .ok (regular.map (Files.join directory))

/-- Load walk files in order, passing over those that cannot be read or played. -/
def loadAll {m : Type → Type} {L : Type} [Monad m] [Files m] (w : Walker L) :
    List String → m (Walker L)
  | [] => return w
  | path :: paths => do
    match ← w.load path with
    | .ok (_, w) => loadAll w paths
    | .error _ => loadAll w paths

/-- Load all walk files of a directory. -/
def load {m : Type → Type} {L : Type} [Monad m] [Files m] (w : Walker L)
    (directory extension : String) : m (Except Report (Walker L)) := do
  match ← files directory extension with
  | .error r => return .error r
  | .ok paths => return .ok (← loadAll w paths)

end Gait.WalkDirectory

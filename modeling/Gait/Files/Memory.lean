import Gait.Files

/-!
# Files held in memory

A `FileTree` is a current directory with everything below it, as a list of places and what stands
there.  Reading from it follows the components of a path one by one, as an operating system does,
and fails at the first that is missing or no directory.
-/

namespace Gait

/-- A place below the current directory, as the names that lead to it. -/
abbrev Place : Type := List String

/-- What stands at a place. -/
inductive FileNode where
  | directory
  | file (bytes : ByteArray)

/-- A current directory and what is known to stand below it. -/
structure FileTree where
  nodes : List (Place × FileNode) := []

namespace FileTree

/-- What stands at a place; the current directory is always there. -/
def node? (t : FileTree) (place : Place) : Option FileNode :=
  if place = [] then some .directory else t.nodes.lookup place

/-- Make a directory and those above it; a place that is taken stays as it is. -/
def addDirectory (t : FileTree) (place : Place) : FileTree :=
  ((List.range place.length).map fun i => place.take (i + 1)).foldl
    (fun t above => if (t.node? above).isSome then t else ⟨(above, .directory) :: t.nodes⟩) t

/-- Put a file at a place and make the directories above it. -/
def addFile (t : FileTree) (place : Place) (bytes : ByteArray) : FileTree :=
  let t := t.addDirectory place.dropLast
  ⟨(place, .file bytes) :: t.nodes.filter fun n => n.1 != place⟩

/-- The components of a path, where an empty one stands for the directory itself. -/
def components (path : String) : List String := (path.toList.splitOn '/').map String.ofList

/-- The place that a path without `..` leads to. -/
def placeOf (path : String) : Place := (components path).filter fun c => c != "" && c != "."

/-- Follow components from a place on; every place on the way must be a directory. -/
def follow (t : FileTree) : Place → List String → Except FileError Place
  | place, [] => if (t.node? place).isSome then .ok place else .error .missing
  | place, c :: cs =>
    match t.node? place with
    | none => .error .missing
    | some (.file _) => .error .notDirectory
    | some .directory =>
      if c = "" || c = "." then t.follow place cs
      else if c = ".." then (if place = [] then .error .missing else t.follow place.dropLast cs)
      else t.follow (place ++ [c]) cs

/-- What stands at the end of a path.  Only paths from the current directory lead anywhere. -/
def resolve (t : FileTree) (path : String) : Except FileError (Place × FileNode) := do
  if path.isEmpty || path.toList.head? = some '/' then .error .missing
  else
    let place ← t.follow [] (components path)
    match t.node? place with
    | some node => return (place, node)
    | none => .error .missing

/-- The text of the file that a path leads to. -/
def readText (t : FileTree) (path : String) : Except FileError String := do
  match ← t.resolve path with
  | (_, .directory) => .error .isDirectory
  | (_, .file bytes) =>
    match String.fromUTF8? bytes with
    | some text => return text
    | none => .error .notText

/-- The names in the directory that a path leads to. -/
def names (t : FileTree) (path : String) : Except FileError (List String) := do
  match ← t.resolve path with
  | (_, .file _) => .error .notDirectory
  | (place, .directory) =>
    return t.nodes.filterMap fun n => if n.1.dropLast = place then n.1.getLast? else none

/-- Whether a path leads to a file. -/
def isFile (t : FileTree) (path : String) : Bool :=
  match t.resolve path with
  | .ok (_, .file _) => true
  | _ => false

/-- Whether a path leads anywhere. -/
def isPresent (t : FileTree) (path : String) : Bool := (t.resolve path).toBool

/-- Reading from a tree at hand. -/
instance : Files (ReaderM FileTree) where
  readText path := do return (← read).readText path
  names path := do return (← read).names path
  isFile path := do return (← read).isFile path
  isPresent path := do return (← read).isPresent path

end FileTree

end Gait

/-!
# Files

What the library asks of a file system: the text of a file, the names in a directory, and whether a
path is a regular file or there at all.  `Files m` offers this in a monad `m`, so that the same
reading functions run on real files and on files held in memory.
-/

namespace Gait

/-- The reasons why a path cannot be read. -/
inductive FileError where
  | missing
  | notDirectory
  | isDirectory
  /-- The bytes are not UTF-8. -/
  | notText
  | other (message : String)
  deriving DecidableEq, Repr

/-- A reason in the words of the operating system. -/
def FileError.message : FileError → String
  | missing => "No such file or directory (os error 2)"
  | notDirectory => "Not a directory (os error 20)"
  | isDirectory => "Is a directory (os error 21)"
  | notText => "stream did not contain valid UTF-8"
  | other message => message

/-- Reading access to a file system. -/
class Files (m : Type → Type) where
  readText (path : String) : m (Except FileError String)
  /-- The names in a directory, in any order. -/
  names (directory : String) : m (Except FileError (List String))
  isFile (path : String) : m Bool
  isPresent (path : String) : m Bool

namespace Files

/-- The path of a name in a directory. -/
def join (directory name : String) : String :=
  if directory.isEmpty || directory.toList.getLast? = some '/' then directory ++ name
  else directory ++ "/" ++ name

/-- The extension of a file name: what follows its last dot, which must not be its first
character. -/
def extension? (name : String) : Option String :=
  let reversed := name.toList.reverse
  let suffix := reversed.takeWhile (· != '.')
  match reversed.drop suffix.length with
  | '.' :: _ :: _ => some (String.ofList suffix.reverse)
  | _ => none

end Files

end Gait

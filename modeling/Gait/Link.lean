import Gait.Report

/-!
# Links

A `Link` carries single bytes to the controller boards and hands out their replies.  Both operations
may fail; either way the link goes on in a new state.
-/

namespace Gait

/-- The reasons why a link fails. -/
inductive LinkError where
  /-- The device is gone. -/
  | closed
  /-- The serial driver refused. -/
  | serial (message : String)
  /-- The operating system refused. -/
  | io (message : String)
  | other (message : String)
  deriving DecidableEq, Repr

/-- The error as a problem; what the operating system refused keeps its own kind. -/
def LinkError.problem : LinkError → Problem
  | closed => .link "link closed"
  | serial message => .link s!"serial error: {message}"
  | io message => .io message
  | other message => .link message

/-- A byte channel to the controller boards whose states are `L`. -/
class Link (L : Type) where
  /-- Send one byte. -/
  write : L → UInt8 → Except LinkError Unit × L
  /-- Take one reply byte, if there is one. -/
  read : L → Except LinkError (Option UInt8) × L

end Gait

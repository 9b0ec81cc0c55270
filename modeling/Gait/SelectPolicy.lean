/-!
# Selection policies
-/

namespace Gait

/-- What selecting a program does while another one is running. -/
inductive SelectPolicy where
  /-- The new program takes over at once. -/
  | replace
  /-- The selection is refused until the running program has ended. -/
  | rejectWhileRunning
  deriving DecidableEq, Repr

/-- The word of a policy in the settings. -/
def SelectPolicy.text : SelectPolicy → String
  | replace => "replace"
  | rejectWhileRunning => "reject-while-running"

/-- The policy of a word. -/
def SelectPolicy.ofText? : String → Option SelectPolicy
  | "replace" => some replace
  | "reject-while-running" => some rejectWhileRunning
  | _ => none

end Gait

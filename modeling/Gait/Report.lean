/-!
# Reports of failures

A `Problem` is a failure of one of the kinds that users and scripts tell apart; a `Report` is a
problem with the circumstances it was met in, innermost first.  Every cause of failure in the
library is worded into a problem by its own module.
-/

namespace Gait

/-- A failure of one of the kinds that users and scripts tell apart. -/
inductive Problem where
  | parse (line : Nat) (reason : String)
  | validation (reason : String)
  | range (field : String) (value : Int)
  | selection (reason : String)
  | link (reason : String)
  | io (reason : String)
  /-- A failure without a kind of its own. -/
  | other (reason : String)
  deriving DecidableEq, Repr

namespace Problem

/-- A problem in words. -/
def message : Problem → String
  | parse line reason => s!"parse error on line {line}: {reason}"
  | validation reason => s!"validation failed: {reason}"
  | range field value => s!"{field} out of range: {value}"
  | selection reason => s!"selection error: {reason}"
  | link reason => s!"link error: {reason}"
  | io reason => s!"io error: {reason}"
  | other reason => reason

/-- The kind of a problem, as scripts read it. -/
def kind : Problem → String
  | parse .. => "Parse"
  | validation _ => "Validation"
  | range .. => "Range"
  | selection _ => "Selection"
  | link _ => "Link"
  | io _ => "Io"
  | other _ => "Error"

end Problem

/-- A problem and the circumstances it was met in, innermost first. -/
structure Report where
  problem : Problem
  circumstances : List String := []
  deriving DecidableEq, Repr

namespace Report

/-- Add an outer circumstance. -/
def within (r : Report) (circumstance : String) : Report :=
  { r with circumstances := r.circumstances ++ [circumstance] }

/-- The texts of a report, from the outermost circumstance to the problem. -/
def chain (r : Report) : List String := r.circumstances.reverse ++ [r.problem.message]

/-- The outermost text. -/
def headline (r : Report) : String := r.chain.headD ""

/-- The text next to the outermost, which tells its cause. -/
def cause? (r : Report) : Option String := r.chain[1]?

/-- All texts on one line. -/
def text (r : Report) : String := ": ".intercalate r.chain

end Report

end Gait

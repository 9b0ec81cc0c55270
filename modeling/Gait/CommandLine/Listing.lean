import Gait.Json
import Gait.WalkDirectory

/-!
# Listing programs

One line for each registered program, in ascending order of names.
-/

namespace Gait.CommandLine

/-- A text in a column of some width, at its left end. -/
def padRight (width : Nat) (s : String) : String :=
  s ++ String.ofList (List.replicate (width - s.length) ' ')

/-- A text in a column of some width, at its right end. -/
def padLeft (width : Nat) (s : String) : String :=
  String.ofList (List.replicate (width - s.length) ' ') ++ s

@[simp] theorem toList_padRight (width : Nat) (s : String) :
    (padRight width s).toList = s.toList ++ List.replicate (width - s.length) ' ' := by
  simp [padRight]

@[simp] theorem toList_padLeft (width : Nat) (s : String) :
    (padLeft width s).toList = List.replicate (width - s.length) ' ' ++ s.toList := by
  simp [padLeft]

/-- A program in columns. -/
def listingLine (name : String) (p : Program) : String :=
  let mode := p.mode?.elim "?" Mode.text
  let path := p.path.getD ""
  s!"{padRight 24 name} {padRight 4 mode} tick={padRight 5 (toString p.tick)} {path}"

/-- A program as an object. -/
def listingJson (name : String) (p : Program) : String :=
  Json.object [
    ("name", .text name), ("mode", .text (p.mode?.elim "?" Mode.text)), ("looping", .flag p.looping),
    ("tick_ms", .number p.tick), ("path", .text (p.path.getD ""))]

/-- A line for each registered program. -/
def listing (json : Bool) (r : Registry) : List String :=
  r.entries.map fun e => if json then listingJson e.1 e.2 else listingLine e.1 e.2

end Gait.CommandLine

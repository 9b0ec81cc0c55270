import Gait.Proofs.WalkFile.Delays
import Gait.Proofs.WalkFile.Effects

/-!
# Texts behind one another

A text that stops outside all regions leaves nothing behind for the text after it but the tick: no
region, no half pair.  `read_append` says what the two texts are read as together.  The second text
makes the same edits as alone, to the program of the first: its steps and functions stand behind the
first's, and each descriptive field has the value that the second text sets, or else the first's.

A text that stops inside a region is read as if the region were closed.
-/

namespace Gait.WalkFile

/-! ## One program behind another -/

namespace Assignments

/-- Both assignments, the second one later. -/
def andThen (a b : Assignments) : Assignments where
  fileVersion := b.fileVersion.or a.fileVersion
  id := b.id.or a.id
  version := b.version.or a.version
  name := b.name.or a.name
  speed := b.speed.or a.speed
  looping := b.looping.or a.looping
  tick := b.tick.or a.tick
  use := b.use.or a.use

theorem andThen_assoc (a b c : Assignments) :
    (a.andThen b).andThen c = a.andThen (b.andThen c) := by
  simp [andThen, Option.or_assoc]

theorem andThen_empty (a : Assignments) : a.andThen {} = a := by
  simp [andThen]

theorem empty_andThen (a : Assignments) : ({} : Assignments).andThen a = a := by
  simp [andThen]

theorem assign_andThen (a b : Assignments) (p : Program) :
    (a.andThen b).assign p = b.assign (a.assign p) := by
  simp [andThen, assign, Option.or_assoc]

end Assignments

/-- The fields that an edit sets. -/
def Edit.assigned : Edit → Assignments
  | assign values => values
  | addSetup _ | addMain _ | addFunction _ _ => {}

/-- The fields that edits set, each with the value that was set last. -/
def assignedBy : List Edit → Assignments
  | [] => {}
  | edit :: edits => edit.assigned.andThen (assignedBy edits)

end WalkFile

namespace Program

open WalkFile

/-- The program with fields assigned and with the steps and functions of another one behind its
own. -/
def followedBy (p : Program) (a : Assignments) (q : Program) : Program :=
  { a.assign p with
    setup := p.setup ++ q.setup
    main := p.main ++ q.main
    tracks := p.tracks.zipWith (· ++ ·) q.tracks }

section FollowedBy

variable {p q : Program} {a : Assignments}

theorem tick_followedBy : (p.followedBy a q).tick = (a.assign p).tick := rfl

theorem get_tracks_followedBy (servo : Fin servoCount) :
    (p.followedBy a q).tracks.get servo = p.tracks.get servo ++ q.tracks.get servo := by
  change (p.tracks.zipWith (· ++ ·) q.tracks)[servo.val] = _
  exact Vector.getElem_zipWith _

/-- Nothing follows with a program that lists nothing. -/
theorem followedBy_unlisted (tick : Nat) : p.followedBy a { tick } = a.assign p := by
  have tracks : p.tracks.zipWith (· ++ ·) (Vector.replicate servoCount []) = p.tracks := by
    ext servo h
    simp
  simp [followedBy, tracks, Assignments.assign]

theorem followedBy_addFunction (servo : Fin servoCount) (f : MotionFunction) :
    Reading.addFunction (p.followedBy a q) servo f =
      p.followedBy a (Reading.addFunction q servo f) := by
  have tracks : (Reading.addFunction (p.followedBy a q) servo f).tracks =
      (p.followedBy a (Reading.addFunction q servo f)).tracks := by
    refine Vector.ext fun i h => ?_
    have get := Reading.get_addFunction
    change Vector.get _ ⟨i, h⟩ = Vector.get _ ⟨i, h⟩
    rw [get, get_tracks_followedBy, get_tracks_followedBy, get_tracks_followedBy, get]
    split
    · next here => rw [here, List.append_assoc]
    · rfl
  exact congrArg (fun tracks => { p.followedBy a q with tracks }) tracks

/-- An edit of the whole is the same edit of the program behind, so long as both have the same
tick. -/
theorem on_followedBy (edit : Edit) (tick : (a.assign p).tick = q.tick) :
    edit.on (p.followedBy a q) = p.followedBy (a.andThen edit.assigned) (edit.on q) ∧
      ((a.andThen edit.assigned).assign p).tick = (edit.on q).tick := by
  cases edit with
  | assign values =>
      refine ⟨?_, ?_⟩
      · simp only [Edit.on, Edit.assigned, followedBy, Assignments.assign_andThen]
        rfl
      · rw [Edit.assigned, Assignments.assign_andThen]
        simp only [Assignments.assign, Edit.on] at tick ⊢
        rw [tick]
  | addSetup draft =>
      rw [Edit.assigned, Assignments.andThen_empty]
      refine ⟨?_, tick⟩
      simp only [Edit.on, tick_followedBy, tick]
      simp only [followedBy, Array.push_append, tick]
  | addMain draft =>
      rw [Edit.assigned, Assignments.andThen_empty]
      refine ⟨?_, tick⟩
      simp only [Edit.on, tick_followedBy, tick]
      simp only [followedBy, Array.push_append, tick]
  | addFunction servo f =>
      rw [Edit.assigned, Assignments.andThen_empty]
      exact ⟨followedBy_addFunction servo f, tick⟩

/-- Edits of the whole are the same edits of the program behind. -/
theorem editAll_followedBy (edits : List Edit) (tick : (a.assign p).tick = q.tick) :
    editAll edits (p.followedBy a q) =
      p.followedBy (a.andThen (assignedBy edits)) (editAll edits q) := by
  induction edits generalizing a q with
  | nil => rw [assignedBy, Assignments.andThen_empty]; rfl
  | cons edit edits ih =>
      obtain ⟨here, later⟩ := on_followedBy edit tick
      rw [assignedBy, ← Assignments.andThen_assoc]
      exact (congrArg (editAll edits) here).trans (ih later)

/-- Edits add to what a program lists, and set the fields that they assign. -/
theorem editAll_eq (edits : List Edit) (p : Program) :
    editAll edits p = p.followedBy (assignedBy edits) (editAll edits { tick := p.tick }) := by
  have start : p.followedBy {} { tick := p.tick } = p := followedBy_unlisted p.tick
  have whole := editAll_followedBy (a := {}) (p := p) (q := { tick := p.tick }) edits rfl
  rwa [start, Assignments.empty_andThen] at whole

end FollowedBy

end Program

namespace WalkFile

/-! ## Lines of texts behind one another -/

/-- The text does not stop within a line. -/
def LinesEnded (text : List Char) : Prop := text = [] ∨ text.getLast? = some '\n'

instance (text : List Char) : Decidable (LinesEnded text) :=
  inferInstanceAs (Decidable (text = [] ∨ text.getLast? = some '\n'))

/-- A line break ends a line, and the last line needs none. -/
theorem length_lines (text : List Char) : (lines text).length = text.count '\n' + 1 := by
  unfold lines
  induction text with
  | nil => rfl
  | cons c text ih =>
      rw [List.splitOn_cons_eq_if_modifyHead, List.count_cons]
      split
      · rw [List.length_cons, ih]
      · rw [List.length_modifyHead, ih]

/-- The lines of a text are read on their own, if the text does not stop within one. -/
theorem LinesEnded.exists_lines {text : List Char} (ended : LinesEnded text) :
    ∃ whole, whole.length = text.count '\n' ∧
      ∀ rest, lines (text ++ rest) = whole ++ lines rest := by
  rcases ended with rfl | last
  · exact ⟨[], rfl, fun rest => rfl⟩
  · obtain ⟨front, rfl⟩ := List.getLast?_eq_some_iff.1 last
    refine ⟨lines front, ?_, fun rest => ?_⟩
    · rw [length_lines, List.count_append, List.count_singleton_self]
    · rw [lines, List.append_assoc]
      exact List.splitOn_append_cons_self front rest

/-! ## Reading on -/

/-- The reading of a text with a tick to begin with. -/
def readFrom (tick : Nat) (text : String) : Reading :=
  Reading.feedAll { program := { tick } } 1 (lines text.toList)

/-- The fields that a text sets. -/
def assigned (text : String) : Assignments := assignedBy (edits .outside 1 (lines text.toList))

namespace Reading

theorem feed_nil (r : Reading) (n : Nat) : r.feed n [] = r := rfl

/-- A reading outside all regions goes on as another that begins with its tick. -/
theorem feedAll_outside {r : Reading} (outside : r.region = .outside) (k : Nat) (text : String) :
    let on := r.feedAll (1 + k) (lines text.toList)
    let behind := readFrom r.program.tick text
    on.program = r.program.followedBy (assigned text) behind.program ∧
      on.skipped = r.skipped ++ behind.skipped.map (·.renumber (· + k)) := by
  refine ⟨?_, ?_⟩
  · have same := edits_renumber .outside 1 k (lines text.toList)
    rw [readFrom, program_feedAll, program_feedAll, outside, assigned]
    exact (congrArg (editAll · r.program) same).trans (Program.editAll_eq _ _)
  · have same := faults_renumber .outside 1 k (lines text.toList)
    rw [readFrom, skipped_feedAll, skipped_feedAll, outside]
    simp only [Array.empty_append, List.map_toArray]
    exact congrArg (r.skipped ++ ·.toArray) same

end Reading

/-- A line `[end]` closes any region, and outside of them it does nothing. -/
theorem effect_end (region : Region) (n : Nat) :
    effect region n "[end]".toList = { region := .outside } := by
  have code : content "[end]".toList = "[end]".toList := by decide
  have close : Reading.closes region "[end]".toList = true := by simp [Reading.closes]
  unfold effect
  dsimp only
  rw [code, close]
  split
  · contradiction
  · split
    · rfl
    · rfl

/-- The reading of a text of whole lines can go on with any text. -/
theorem LinesEnded.read_behind {start : String} (ended : LinesEnded start.toList) (rest : String) :
    read (start ++ rest) =
      (read start).feedAll (1 + start.toList.count '\n') (lines rest.toList) := by
  obtain ⟨whole, length, split⟩ := ended.exists_lines
  have first : read start = Reading.feedAll {} 1 whole := by
    have alone := split []
    rw [List.append_nil] at alone
    rw [read, alone, Reading.feedAll_append]
    exact Reading.feed_nil _ (1 + whole.length)
  rw [first, ← length, ← Reading.feedAll_append, ← split, ← String.toList_append]
  rfl

/-- A text with a line behind it. -/
def withLine (text line : String) : String :=
  if LinesEnded text.toList then text ++ line else text ++ "\n" ++ line

theorem read_withLine (text : String) {line : String} (unbroken : '\n' ∉ line.toList) :
    ∃ n, read (withLine text line) = (read text).feed n line.toList := by
  have single : lines line.toList = [line.toList] := List.splitOn_eq_singleton unbroken
  unfold withLine
  split
  · next ended =>
    refine ⟨1 + text.toList.count '\n', ?_⟩
    rw [ended.read_behind, single]
    rfl
  · refine ⟨1 + (lines text.toList).length, ?_⟩
    have split : lines (text ++ "\n" ++ line).toList = lines text.toList ++ lines line.toList := by
      rw [String.toList_append, String.toList_append, List.append_assoc]
      exact List.splitOn_append_cons_self _ _
    rw [read, split, Reading.feedAll_append, single]
    rfl

/-- Walk files are read piece by piece.  Let `start` stop at a line break and outside all regions,
and let `behind` be the reading of `rest` alone with the tick of `start` to begin with.  The two
texts behind one another are read as the program of `start` with the fields that `rest` sets and with
the steps and functions of `behind` behind its own; and the lines that `behind` drops are dropped
behind those of `start`, under numbers that count the lines of `start` too.

A last line `[end]` makes no difference, whether or not a region is still open there. -/
theorem read_append :
    (∀ start rest : String, LinesEnded start.toList → (read start).region = .outside →
      let before := read start
      let behind := readFrom before.program.tick rest
      let whole := read (start ++ rest)
      whole.program = before.program.followedBy (assigned rest) behind.program ∧
        whole.skipped = before.skipped ++
          behind.skipped.map (·.renumber (· + start.toList.count '\n'))) ∧
    ∀ text, (read (withLine text "[end]")).program = (read text).program ∧
      (read (withLine text "[end]")).skipped = (read text).skipped := by
  refine ⟨fun start rest ended outside => ?_, fun text => ?_⟩
  · rw [ended.read_behind]
    exact Reading.feedAll_outside outside _ rest
  · have unbroken : '\n' ∉ "[end]".toList := by decide
    obtain ⟨n, closed⟩ := read_withLine text unbroken
    rw [closed, Reading.feed_eq, effect_end]
    simp [Effect.on]

/-- The second text has a step that takes the tick of the first, a line of its own that is dropped,
and a region that is left open. -/
theorem read_append_described_anew :
    let text (lines : List String) := lines.flatMap fun line => line.toList ++ ['\n']
    let start := String.ofList
      (text ["[info]", "Tick=20", "Name=a", "Speed=x", "[end]", "[setup]", ">40", "[end]"])
    let rest := String.ofList
      (text ["[prg]", ">50", "halt", "[end]", "[info]", "Name=b", "Tick=30", "[end]", "[setup]",
        ">60:5"])
    let whole := read (start ++ rest)
    LinesEnded start.toList ∧ (read start).region = .outside ∧
      whole.program.name = "b" ∧ whole.program.tick = 30 ∧
      whole.program.setup.map (·.delay) = #[20, 5] ∧ whole.program.main.map (·.delay) = #[20] ∧
      whole.skipped.map (·.line) = #[4, 11] := by
  intro text start rest whole
  have startText : start.toList = text _ := String.toList_ofList
  have restText : rest.toList = text _ := String.toList_ofList
  have ended : LinesEnded start.toList := by
    rw [startText]
    decide +kernel
  have outside : (read start).region = .outside := by
    rw [read, startText]
    decide +kernel
  obtain ⟨program, skipped⟩ := read_append.1 start rest ended outside
  refine ⟨ended, outside, ?_⟩
  rw [program, skipped, assigned, readFrom, read, startText, restText]
  decide +kernel

end WalkFile

end Gait

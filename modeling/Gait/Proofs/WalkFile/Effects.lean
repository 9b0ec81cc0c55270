import Gait.Proofs.WalkFile.Program

/-!
# Effects of lines

What a line does to a reading is settled by the region it stands in and not by the program that has
been read so far: it moves the reading to a region, and it makes one edit to the program or is
dropped with a reason.  `effect` computes this from the region, the number of the line and the line;
only the edit looks at the program, where a step without a delay takes the tick.

`Reading.feed_eq` says that a line is read by its effect.  Hence the program of a text is the one
before it with the edits of the text made in order (`Reading.program_feedAll`), and the lines that
the text drops are listed behind those before it (`Reading.skipped_feedAll`).  Line numbers show in
nothing but these reports (`effect_renumber`).
-/

namespace Gait

namespace StepLine

/-- A step as its line gives it, before a tick is put in for a delay that is not written. -/
structure Draft where
  setpoints : List Setpoint
  delay : Option Nat

/-- The step of a draft, with `tick` as its delay if it has none of its own. -/
def Draft.step (draft : Draft) (tick : Nat) : Step :=
  (Step.zero.setAll draft.setpoints).setDelay (draft.delay.getD tick)

/-- Read a step line without deciding on a missing delay. -/
def readDraft : List Char → Except Fault Draft
  | '>' :: body =>
    match Text.cut? [':'] body with
    | some (entries, written) =>
      match number? written with
      | some delay => (readEntries entries).map fun es => ⟨es.flatMap Entry.setpoints, some delay⟩
      | none => .error (.delay written)
    | none => (readEntries body).map fun es => ⟨es.flatMap Entry.setpoints, none⟩
  | _ => .error .noMark

/-- The tick has no part in reading a step line but to stand in for the delay. -/
theorem read_eq (tick : Nat) (line : List Char) :
    read tick line = (readDraft line).map (·.step tick) := by
  unfold read
  split
  · next body =>
    rw [readDraft]
    cases Text.cut? [':'] body with
    | none =>
        simp only [bind, Except.bind]
        cases readEntries body <;> rfl
    | some parts =>
        obtain ⟨entries, written⟩ := parts
        dsimp only
        cases number? written with
        | none => rfl
        | some delay =>
            simp only [bind, Except.bind]
            cases readEntries entries <;> rfl
  · next unmarked =>
    rw [readDraft]
    · rfl
    · exact unmarked

end StepLine

namespace WalkFile

/-! ## Edits -/

/-- Values for the descriptive fields of a program. -/
structure Assignments where
  fileVersion : Option String := none
  id : Option Int := none
  version : Option String := none
  name : Option String := none
  speed : Option Int := none
  looping : Option Bool := none
  tick : Option Nat := none
  use : Option String := none

/-- Set the fields that have a value and leave the others as they are. -/
def Assignments.assign (a : Assignments) (p : Program) : Program :=
  { p with
    fileVersion := a.fileVersion.getD p.fileVersion
    id := a.id.getD p.id
    version := a.version.getD p.version
    name := a.name.getD p.name
    speed := a.speed.getD p.speed
    looping := a.looping.getD p.looping
    tick := a.tick.getD p.tick
    use := a.use.or p.use }

/-- What a line can change in a program. -/
inductive Edit where
  | assign (values : Assignments)
  | addSetup (draft : StepLine.Draft)
  | addMain (draft : StepLine.Draft)
  | addFunction (servo : Fin servoCount) (f : MotionFunction)

/-- What an edit makes of a program. -/
def Edit.on : Edit → Program → Program
  | assign values, p => values.assign p
  | addSetup draft, p => { p with setup := p.setup.push (draft.step p.tick) }
  | addMain draft, p => { p with main := p.main.push (draft.step p.tick) }
  | addFunction servo f, p => Reading.addFunction p servo f

/-- The field that an `[info]` line sets, or why the line is dropped. -/
def describing (key value : List Char) : Except Reason Assignments :=
  match String.ofList key with
  | "Id" =>
    match instant? value with
    | some id => .ok { id := some id }
    | none => .error (.notInteger "Id" value)
  | "Version" => .ok { version := some (String.ofList value) }
  | "Name" => .ok { name := some (String.ofList value) }
  | "Speed" =>
    match instant? value with
    | some speed => .ok { speed := some speed }
    | none => .error (.notInteger "Speed" value)
  | "Looping" => .ok { looping := some (affirmatives.contains (String.ofList value)) }
  | "Tick" =>
    match count? value with
    | some tick => .ok { tick := some tick }
    | none => .error (.notCount "Tick" value)
  | "Use" => .ok { use := some (String.ofList value) }
  | _ => .ok {}

theorem describe_eq (p : Program) (key value : List Char) :
    describe p key value = (describing key value).map (·.assign p) := by
  unfold describe
  split
  case h_1 named | h_4 named =>
    simp only [describing, named]
    cases instant? value <;> rfl
  case h_6 named =>
    simp only [describing, named]
    cases count? value <;> rfl
  case h_2 named | h_3 named | h_5 named | h_7 named =>
    simp only [describing, named]
    rfl
  case h_8 =>
    unfold describing
    split
    case h_8 => rfl
    all_goals contradiction

/-! ## Effects -/

/-- The region behind a line, and the edit that the line makes or why it is dropped. -/
structure Effect where
  region : Region
  edit : Option Edit := none
  fault : Option Skipped := none

namespace Effect

/-- What an effect makes of a reading. -/
def on (e : Effect) (r : Reading) : Reading where
  program := e.edit.elim r.program fun edit => edit.on r.program
  region := e.region
  skipped := r.skipped ++ e.fault.toArray

/-- The effect of line `n` in a region that it does not leave, once it has been read. -/
def within (region : Region) (n : Nat) : Except Reason Edit → Effect
  | .ok edit => { region, edit }
  | .error reason => { region, fault := some ⟨n, reason⟩ }

end Effect

/-- The effect of a line outside all regions. -/
def opening (n : Nat) (code : List Char) : Effect :=
  match String.ofList code with
  | "@/" => { region := .fileInfo }
  | "[info]" => { region := .info }
  | "[setup]" => { region := .setup }
  | "[prg]" => { region := .main }
  | _ =>
    match trackTag? code with
    | none => { region := .outside }
    | some number =>
      if h : number < servoCount then { region := .track (some ⟨number, h⟩) .locked }
      else { region := .track none .locked, fault := some ⟨n, .noServo number⟩ }

/-- The effect of a line among the motion functions of a servo.  A pair is dropped under the number
of its first line. -/
def pairing (n : Nat) (code : List Char) (servo : Option (Fin servoCount)) : Pairing → Effect
  | .locked => { region := .track servo (if code = ['-'] then .unlocked else .locked) }
  | .unlocked => { region := .track servo (.half n code) }
  | .half n₁ code₁ =>
    match readPair code₁ code with
    | .ok f => { region := .track servo .locked, edit := servo.map fun s => .addFunction s f }
    | .error fault => { region := .track servo .locked, fault := some ⟨n₁, .pair fault⟩ }

/-- The version that a line of facts about the file gives. -/
def fileVersion? (code : List Char) : Option String :=
  match keyValue? code with
  | some (key, value) => if String.ofList key = "version" then some (String.ofList value) else none
  | none => none

/-- The effect of a line among steps. -/
def stepping (region : Region) (n : Nat) (add : StepLine.Draft → Edit) :
    Except StepLine.Fault StepLine.Draft → Effect
  | .ok draft => .within region n (.ok (add draft))
  | .error fault => .within region n (.error (.step fault))

/-- The effect of a line that a region reads. -/
def inside (n : Nat) (code : List Char) : Region → Effect
  | .outside => { region := .outside }
  | .fileInfo =>
    { region := .fileInfo, edit := (fileVersion? code).map fun v => .assign { fileVersion := v } }
  | .info =>
    match keyValue? code with
    | none => { region := .info, fault := some ⟨n, .notKeyValue⟩ }
    | some (key, value) => .within .info n ((describing key value).map .assign)
  | .setup => stepping .setup n .addSetup (StepLine.readDraft code)
  | .main => stepping .main n .addMain (StepLine.readDraft code)
  | .track servo p => pairing n code servo p

/-- The effect of line `n` in a region. -/
def effect (region : Region) (n : Nat) (line : List Char) : Effect :=
  let code := content line
  if code.isEmpty then { region }
  else if region = .outside then opening n code
  else if Reading.closes region code then { region := .outside }
  else inside n code region

theorem effect_blank {line : List Char} (blank : content line = []) (region : Region) (n : Nat) :
    effect region n line = { region } := by
  rw [effect, blank]
  rfl

namespace Reading

variable {r : Reading} {n : Nat} {code : List Char}

theorem openRegion_eq (outside : r.region = .outside) :
    r.openRegion n code = (opening n code).on r := by
  obtain ⟨program, region, skipped⟩ := r
  cases outside
  unfold openRegion opening
  split
  case h_5 =>
    cases trackTag? code with
    | none => simp [Effect.on]
    | some number =>
        dsimp only
        split <;> simp [Effect.on, skip]
  case h_1 | h_2 | h_3 | h_4 => simp_all [Effect.on]

theorem feedTrack_eq {servo : Option (Fin servoCount)} {p : Pairing}
    (region : r.region = .track servo p) :
    r.feedTrack n code servo p = (pairing n code servo p).on r := by
  obtain ⟨program, _, skipped⟩ := r
  cases region
  unfold feedTrack pairing
  split
  · split <;> simp [Effect.on]
  · simp [Effect.on]
  · dsimp only
    cases readPair _ code with
    | error fault => cases servo <;> simp [Effect.on, skip]
    | ok f => cases servo <;> simp [Effect.on, Edit.on]

theorem feedRegion_eq : r.feedRegion n code = (inside n code r.region).on r := by
  unfold feedRegion
  split
  · next region =>
    rw [region, inside]
    simp [Effect.on, ← region]
  · next region =>
    rw [region, inside, fileVersion?]
    cases keyValue? code with
    | none => simp [Effect.on, ← region]
    | some parts =>
        dsimp only
        split <;> simp [Effect.on, Edit.on, Assignments.assign, ← region]
  · next region =>
    rw [region, inside]
    cases keyValue? code with
    | none => simp [Effect.on, skip, ← region]
    | some parts =>
        dsimp only
        rw [describe_eq]
        cases describing parts.1 parts.2 <;>
          simp [Except.map, Effect.within, Effect.on, Edit.on, skip, ← region]
  · next region =>
    rw [region, inside, StepLine.read_eq]
    cases StepLine.readDraft code <;>
      simp [Except.map, stepping, Effect.within, Effect.on, Edit.on, skip, ← region]
  · next region =>
    rw [region, inside, StepLine.read_eq]
    cases StepLine.readDraft code <;>
      simp [Except.map, stepping, Effect.within, Effect.on, Edit.on, skip, ← region]
  · next region => rw [feedTrack_eq region, region, inside]

/-- A line is read by its effect. -/
theorem feed_eq (r : Reading) (n : Nat) (line : List Char) :
    r.feed n line = (effect r.region n line).on r := by
  unfold feed effect
  dsimp only
  split
  · simp [Effect.on]
  · split
    · next outside => exact openRegion_eq outside
    · split
      · simp [Effect.on]
      · exact feedRegion_eq

end Reading

/-! ## Whole texts -/

/-- The effects of lines that are numbered from `n` on. -/
def effects (region : Region) (n : Nat) : List (List Char) → List Effect
  | [] => []
  | line :: lines =>
    effect region n line :: effects (effect region n line).region (n + 1) lines

/-- The edits of lines in a region, in their order. -/
def edits (region : Region) (n : Nat) (lines : List (List Char)) : List Edit :=
  (effects region n lines).flatMap (·.edit.toList)

/-- The faults of lines in a region, in their order. -/
def faults (region : Region) (n : Nat) (lines : List (List Char)) : List Skipped :=
  (effects region n lines).flatMap (·.fault.toList)

theorem edits_cons (region : Region) (n : Nat) (line : List Char) (lines : List (List Char)) :
    edits region n (line :: lines) =
      (effect region n line).edit.toList ++ edits (effect region n line).region (n + 1) lines :=
  List.flatMap_cons

theorem faults_cons (region : Region) (n : Nat) (line : List Char) (lines : List (List Char)) :
    faults region n (line :: lines) =
      (effect region n line).fault.toList ++ faults (effect region n line).region (n + 1) lines :=
  List.flatMap_cons

/-- A program with edits made one after another. -/
def editAll (edits : List Edit) (p : Program) : Program := edits.foldl (fun p edit => edit.on p) p

namespace Reading

theorem program_feedAll (r : Reading) (n : Nat) (lines : List (List Char)) :
    (r.feedAll n lines).program = editAll (edits r.region n lines) r.program := by
  induction lines generalizing r n with
  | nil => rfl
  | cons line lines ih =>
      rw [feedAll, ih, feed_eq, edits_cons]
      cases edited : (effect r.region n line).edit <;> simp [Effect.on, edited, editAll]

theorem skipped_feedAll (r : Reading) (n : Nat) (lines : List (List Char)) :
    (r.feedAll n lines).skipped = r.skipped ++ (faults r.region n lines).toArray := by
  induction lines generalizing r n with
  | nil => simp [feedAll, faults, effects]
  | cons line lines ih =>
      rw [feedAll, ih, feed_eq, faults_cons]
      cases fault : (effect r.region n line).fault <;> simp [Effect.on, fault]

end Reading

/-! ## Other line numbers -/

/-- A dropped line under a new number. -/
def Skipped.renumber (number : Nat → Nat) (s : Skipped) : Skipped :=
  { s with line := number s.line }

/-- A half pair remembers the number of its line. -/
def Pairing.renumber (number : Nat → Nat) : Pairing → Pairing
  | half n code => half (number n) code
  | locked => locked
  | unlocked => unlocked

/-- A region whose half pair has a new number. -/
def Region.renumber (number : Nat → Nat) : Region → Region
  | track servo p => track servo (p.renumber number)
  | outside => outside
  | fileInfo => fileInfo
  | info => info
  | setup => setup
  | main => main

/-- An effect with new numbers for its lines. -/
def Effect.renumber (number : Nat → Nat) (e : Effect) : Effect where
  region := e.region.renumber number
  edit := e.edit
  fault := e.fault.map (·.renumber number)

section Renumber

variable (number : Nat → Nat) (region : Region) (n : Nat)

theorem Region.renumber_eq_outside_iff : region.renumber number = .outside ↔ region = .outside := by
  cases region <;> simp [renumber]

theorem closes_renumber (code : List Char) :
    Reading.closes (region.renumber number) code = Reading.closes region code := by
  cases region <;> rfl

theorem opening_renumber (code : List Char) :
    opening (number n) code = (opening n code).renumber number := by
  unfold opening
  split
  case h_5 =>
    split
    · rfl
    · split <;> rfl
  case h_1 | h_2 | h_3 | h_4 => rfl

theorem Effect.within_renumber (result : Except Reason Edit) :
    within (region.renumber number) (number n) result =
      (within region n result).renumber number := by
  cases result <;> rfl

theorem stepping_renumber (add : StepLine.Draft → Edit)
    (draft : Except StepLine.Fault StepLine.Draft) :
    stepping (region.renumber number) (number n) add draft =
      (stepping region n add draft).renumber number := by
  cases draft <;> rfl

theorem pairing_renumber (code : List Char) (servo : Option (Fin servoCount)) (p : Pairing) :
    pairing (number n) code servo (p.renumber number) =
      (pairing n code servo p).renumber number := by
  cases p with
  | locked =>
      rw [Pairing.renumber, pairing, pairing]
      split <;> rfl
  | unlocked => rfl
  | half n₁ code₁ =>
      rw [Pairing.renumber, pairing, pairing]
      cases readPair code₁ code <;> rfl

theorem inside_renumber (code : List Char) :
    inside (number n) code (region.renumber number) = (inside n code region).renumber number := by
  cases region with
  | outside => rfl
  | fileInfo => rfl
  | info =>
      rw [Region.renumber, inside, inside]
      cases keyValue? code with
      | none => rfl
      | some parts => exact Effect.within_renumber number .info n _
  | setup => exact stepping_renumber number .setup n _ _
  | main => exact stepping_renumber number .main n _ _
  | track servo p => exact pairing_renumber number n code servo p

/-- The number of a line matters only where the line is reported. -/
theorem effect_renumber (line : List Char) :
    effect (region.renumber number) (number n) line = (effect region n line).renumber number := by
  unfold effect
  dsimp only
  rw [closes_renumber, opening_renumber, inside_renumber]
  simp only [Region.renumber_eq_outside_iff]
  split
  · rfl
  · split
    · rfl
    · split <;> rfl

theorem effects_renumber (k : Nat) (lines : List (List Char)) :
    effects (region.renumber (· + k)) (n + k) lines =
      (effects region n lines).map (·.renumber (· + k)) := by
  induction lines generalizing region n with
  | nil => rfl
  | cons line lines ih =>
      have here := effect_renumber (· + k) region n line
      rw [effects, here, Nat.add_right_comm, effects, List.map_cons]
      exact congrArg _ (ih _ _)

theorem edits_renumber (k : Nat) (lines : List (List Char)) :
    edits (region.renumber (· + k)) (n + k) lines = edits region n lines := by
  rw [edits, effects_renumber, List.flatMap_map]
  rfl

theorem faults_renumber (k : Nat) (lines : List (List Char)) :
    faults (region.renumber (· + k)) (n + k) lines =
      (faults region n lines).map (·.renumber (· + k)) := by
  have fault (e : Effect) : (e.renumber (· + k)).fault.toList =
      e.fault.toList.map (·.renumber (· + k)) := by
    cases effect : e.fault <;> simp [Effect.renumber, effect]
  rw [faults, effects_renumber, List.flatMap_map, faults, List.map_flatMap]
  simp only [fault]

end Renumber

end WalkFile

end Gait

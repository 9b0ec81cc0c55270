import Gait.CommandLine.Frames
import Gait.Proofs.Json

/-!
# Printed steps read back

A step that was sent is printed as an object, or as a line with the step and a line for each of its
frames.  `Shown.readAll?` reads the lines of any number of steps in either form and knows nothing of
how they are printed; `readAll?_printed` says that it gets back the number, the delay, the positions
and the frames of each.
-/

namespace Gait.CommandLine

open Text

/-- What can be read off the lines for a step. -/
structure Shown where
  index : Nat
  delay : Nat
  positions : List Int
  frames : List (UInt8 × UInt8)
  deriving DecidableEq

namespace Shown

/-- The bytes of the frames that are printed. -/
def bytes (s : Shown) : List UInt8 := s.frames.flatMap fun frame => [frame.1, frame.2]

/-- A position as it is printed: raw in an object, and in whole degrees otherwise. -/
def position (json : Bool) (raw : Setpoint) : Int :=
  if json then raw.toInt else (Binary.ofFloat raw.degrees).truncate instantMin instantMax

/-- What is to be read off the lines for an entry. -/
def of (json : Bool) (e : PassEntry) : Shown :=
  ⟨e.index, e.step.delay, e.step.positions.toList.map (position json), e.frames⟩

/-! ## Objects -/

/-- A frame is written as the four digits of its bytes. -/
def readFrame? (text : String) : Option (UInt8 × UInt8) := do
  let (first, cs) ← readByte? text.toList
  let (second, cs) ← readByte? cs
  if cs.isEmpty then return (first, second) else none

/-- The entry in the fields of an object, which must be these four. -/
def ofFields? : List (String × Json.Value) → Option Shown
  | [(delayKey, .number delay), (framesKey, .texts frames), (positionsKey, .numbers positions),
      (stepKey, .number index)] => do
    if [delayKey, framesKey, positionsKey, stepKey] =
        ["delay_ms", "frames", "positions", "step"] then
      return ⟨← index.toNat?, ← delay.toNat?, positions, ← frames.mapM readFrame?⟩
    else none
  | _ => none

/-- A step from its object. -/
def ofJson? (line : String) : Option Shown := do ofFields? (← Json.fields? line)

/-! ## Lines -/

/-- The number of a step, its positions and its delay. -/
def readHead? (line : String) : Option (Nat × List Int × Nat) := do
  let (index, cs) ← readNumber? (← line.toList.dropPrefix? ['#'])
  let (positions, cs) ←
    readList? readNumber? [',', ' '] [']'] (← cs.dropPrefix? " Step[pos=[".toList)
  let (delay, cs) ← readNumber? (← cs.dropPrefix? ", delay=".toList)
  if cs = [']'] then return (← index.toNat?, positions, ← delay.toNat?) else none

/-- The number of a servo, behind blanks, and the bytes of its frame. -/
def readServo? (line : String) : Option (Nat × UInt8 × UInt8) := do
  let cs ← line.toList.dropPrefix? "  servo ".toList
  let (slot, cs) ← readNumber? (cs.dropWhile (· == ' '))
  let (first, cs) ← readByte? (← cs.dropPrefix? ": 0x".toList)
  let (second, cs) ← readByte? (← cs.dropPrefix? " 0x".toList)
  if cs.isEmpty then return (← slot.toNat?, first, second) else none

/-- The frames in front of the first step, and the steps.  The frames of a step are numbered from
zero on. -/
def readLines? : List String → Option (List (Nat × UInt8 × UInt8) × List Shown)
  | [] => some ([], [])
  | line :: lines => do
    let (frames, steps) ← readLines? lines
    match readServo? line with
    | some frame => return (frame :: frames, steps)
    | none =>
      let (index, positions, delay) ← readHead? line
      if frames.map (·.1) = List.range frames.length then
        return ([], ⟨index, delay, positions, frames.map (·.2)⟩ :: steps)
      else none

/-- All steps that are printed. -/
def readAll? (json : Bool) (lines : List String) : Option (List Shown) :=
  if json then lines.mapM ofJson?
  else (readLines? lines).bind fun (frames, steps) => if frames.isEmpty then some steps else none

/-! ## What is printed is read back -/

theorem readFrame?_written (first second : UInt8) :
    readFrame? (Frame.byteText first ++ Frame.byteText second) = some (first, second) := by
  have behind := readByte?_byteText second []
  rw [List.append_nil] at behind
  rw [readFrame?, String.toList_append, readByte?_byteText]
  simp [behind]

theorem json_eq (e : PassEntry) :
    e.json = Json.inBraces [
      ("delay_ms", .number e.step.delay),
      ("frames", .texts (e.frames.map fun f => Frame.byteText f.1 ++ Frame.byteText f.2)),
      ("positions", .numbers (e.step.positions.toList.map fun raw => raw.toInt)),
      ("step", .number e.index)] :=
  congrArg Json.inBraces (by simp [List.mergeSort])

theorem mapM_map_eq_some {α β γ : Type} {written : α → β} {read : β → Option γ} {view : α → γ}
    (reads : ∀ x, read (written x) = some (view x)) (xs : List α) :
    (xs.map written).mapM read = some (xs.map view) := by
  have each : read ∘ written = fun x => pure (view x) := funext reads
  rw [List.mapM_map, each, List.mapM_pure]
  rfl

theorem mapM_readFrame? (frames : List (UInt8 × UInt8)) :
    (frames.map fun f => Frame.byteText f.1 ++ Frame.byteText f.2).mapM readFrame? =
      some frames := by
  have read := mapM_map_eq_some (fun f : UInt8 × UInt8 => readFrame?_written f.1 f.2) frames
  rwa [List.map_id'] at read

theorem ofJson?_json (e : PassEntry) : ofJson? e.json = some (of true e) := by
  have some : e.step.positions.toList.map (fun raw => raw.toInt) ≠ [] := by
    intro none
    have twelve := congrArg List.length none
    rw [List.length_map, Vector.length_toList] at twelve
    cases twelve
  rw [ofJson?, json_eq, Json.fields?_inBraces (by simp [some])]
  simp only [bind, Option.bind_some, ofFields?, if_true, mapM_readFrame?]
  rfl

theorem toList_head (index : Nat) (step : Step) :
    (s!"#{index} {step.text}").toList =
      ['#'] ++ ((toString index).toList ++ (" Step[pos=[".toList ++
        ([',', ' '].intercalate
          ((step.positions.toList.map (position false)).map fun i => (toString i).toList) ++
          ([']'] ++ (", delay=".toList ++ ((toString step.delay).toList ++ [']'])))))) := by
  simp [Step.text, String.toList_intercalate, Function.comp_def, position, toString]

theorem readNumber?_before_nat (n : Nat) {mark : List Char} (marks : isMark mark = true)
    (cs : List Char) :
    readNumber? ((toString n).toList ++ (mark ++ cs)) = some ((n : Int), mark ++ cs) :=
  readNumber?_before n marks cs

theorem readHead?_text (index : Nat) (step : Step) :
    readHead? s!"#{index} {step.text}" =
      some (index, step.positions.toList.map (position false), step.delay) := by
  have positions (rest : List Char) :
      readList? readNumber? [',', ' '] [']'] (_ ++ ([']'] ++ rest)) = _ :=
    readList?_numbers (by decide) (by decide) (fun _ => rfl)
      (step.positions.toList.map (position false)) rest
  have opens : isMark " Step[pos=[".toList = true := by decide
  have closes : isMark [']'] = true := by decide
  have delay := readNumber?_before_nat step.delay closes []
  rw [List.append_nil] at delay
  rw [readHead?, toList_head]
  simp only [bind, Option.bind_some, dropPrefix?_append, readNumber?_before_nat _ opens, positions,
    delay]
  rfl

/-- The line of a frame. -/
def servoLine (e : (UInt8 × UInt8) × Nat) : String :=
  s!"  servo {padLeft 2 (toString e.2)}: 0x{Frame.byteText e.1.1} 0x{Frame.byteText e.1.2}"

theorem toList_servoLine (e : (UInt8 × UInt8) × Nat) :
    (servoLine e).toList =
      "  servo ".toList ++ (List.replicate (2 - (toString e.2).length) ' ' ++
        ((toString e.2).toList ++ (": 0x".toList ++ ((Frame.byteText e.1.1).toList ++
          (" 0x".toList ++ (Frame.byteText e.1.2).toList))))) := by
  simp [servoLine, toString]

theorem dropWhile_blanks (count n : Nat) (cs : List Char) :
    (List.replicate count ' ' ++ ((toString n).toList ++ cs)).dropWhile (· == ' ') =
      (toString n).toList ++ cs := by
  obtain ⟨c, front, cons, numeric⟩ := exists_cons_of_toString n
  have other : c ≠ ' ' := by
    rintro rfl
    cases numeric
  have cons : (toString n).toList = c :: front := cons
  have filled : ∀ d ∈ List.replicate count ' ', (d == ' ') = true := fun d member => by
    rw [List.eq_of_mem_replicate member]
    rfl
  rw [List.dropWhile_append_of_pos filled, cons, List.cons_append, List.dropWhile_cons,
    if_neg (mt beq_iff_eq.1 other)]

theorem readServo?_servoLine (e : (UInt8 × UInt8) × Nat) :
    readServo? (servoLine e) = some (e.2, e.1.1, e.1.2) := by
  have opens : isMark ": 0x".toList = true := by decide
  have last := readByte?_byteText e.1.2 []
  rw [List.append_nil] at last
  rw [readServo?, toList_servoLine]
  simp only [bind, Option.bind_some, dropPrefix?_append, dropWhile_blanks,
    readNumber?_before_nat _ opens, readByte?_byteText, last]
  rfl

theorem readServo?_head (index : Nat) (step : Step) :
    readServo? s!"#{index} {step.text}" = none := by
  rw [readServo?, toList_head]
  rfl

/-- The lines of frames are taken to what stands behind them. -/
theorem readLines?_servoLines (frames : List ((UInt8 × UInt8) × Nat)) (lines : List String) :
    readLines? (frames.map servoLine ++ lines) =
      (readLines? lines).map fun (behind, steps) =>
        (frames.map (fun e => (e.2, e.1)) ++ behind, steps) := by
  induction frames with
  | nil => simp
  | cons frame frames ih =>
      rw [List.map_cons, List.cons_append, readLines?, ih, readServo?_servoLine]
      cases readLines? lines <;> rfl

theorem readLines?_printed (entries : List PassEntry) :
    readLines? (entries.flatMap PassEntry.lines) = some ([], entries.map (of false)) := by
  induction entries with
  | nil => rfl
  | cons e entries ih =>
      have lines : e.lines = s!"#{e.index} {e.step.text}" :: e.frames.zipIdx.map servoLine := rfl
      rw [List.flatMap_cons, lines, List.cons_append, readLines?, readLines?_servoLines, ih,
        readServo?_head, readHead?_text]
      have slots : (e.frames.zipIdx.map fun e => (e.2, e.1)).map Prod.fst =
          List.range (e.frames.zipIdx.map fun e => (e.2, e.1)).length := by
        rw [List.map_map, List.length_map, List.length_zipIdx, List.range_eq_range',
          ← List.zipIdx_map_snd 0 e.frames]
        rfl
      have frames : (e.frames.zipIdx.map fun e => (e.2, e.1)).map Prod.snd = e.frames := by
        rw [List.map_map]
        exact List.zipIdx_map_fst 0 e.frames
      simp only [bind, Option.bind_some, Option.map_some, List.append_nil, slots, frames, if_true]
      rfl

/-- All that was printed is read back. -/
theorem readAll?_printed (json : Bool) (entries : List PassEntry) :
    readAll? json (entries.flatMap fun e => if json then [e.json] else e.lines) =
      some (entries.map (of json)) := by
  cases json with
  | false =>
      have read := readLines?_printed entries
      rw [readAll?, if_neg Bool.false_ne_true]
      simp only [Bool.false_eq_true, if_false]
      rw [read]
      rfl
  | true =>
      have lines : (entries.flatMap fun e => [e.json]) = entries.map PassEntry.json :=
        List.map_eq_flatMap.symm
      simp only [readAll?, if_true, lines]
      exact mapM_map_eq_some ofJson?_json entries

end Shown

end Gait.CommandLine

import Gait.Proofs.WalkFile.Program
import Gait.Walker.Tick

/-!
# Tracks and runs in time

What a track gives depends on the time elapsed since its anchor, which is a signed distance that
stops at the limits of an instant.  `Track.next_of_forward` says how a looping track goes on for
ever: it has a value at every instant, and the anchor moves only where no function covers the
elapsed time.  `Track.next_shift` says that only the distance matters: if anchor and instant move
together, so does the new anchor, and the value stays.  Both need the functions to be forward, since
the anchor a track is wound back to might stop at a limit otherwise.  `Run.next_shift` carries the
second on to the next step of a run.
-/

namespace Gait

theorem elapsed_of_mem {now anchor : Int} (lo : instantMin ≤ now - anchor)
    (hi : now - anchor ≤ instantMax) : elapsed now anchor = now - anchor :=
  clampInstant_of_mem lo hi

/-- Only the distance matters. -/
theorem elapsed_add (now anchor d : Int) : elapsed (now + d) (anchor + d) = elapsed now anchor := by
  rw [elapsed, elapsed, Int.add_sub_add_right]

theorem instantOfCount_mem (n : Nat) : 0 ≤ instantOfCount n ∧ instantOfCount n ≤ instantMax := by
  unfold instantOfCount instantMax
  omega

namespace Track

variable {track : Track} {looping : Bool} {anchor now : Int}

theorem value?_isSome_iff {time : Int} :
    (track.value? time).isSome = true ↔ ∃ f ∈ track, f.covers time = true := by
  rw [value?, Option.isSome_map, List.find?_isSome]

theorem next_of_value {value : Float} (covered : track.value? (elapsed now anchor) = some value) :
    track.next looping anchor now = (some value, anchor) := by
  unfold next
  rw [covered]

theorem next_wound {f : MotionFunction} {later : Track}
    (uncovered : value? (f :: later) (elapsed now anchor) = none) :
    next (f :: later) true anchor now =
      (value? (f :: later) (elapsed now (elapsed now f.first)), elapsed now f.first) := by
  unfold next
  rw [uncovered]

theorem next_once (uncovered : track.value? (elapsed now anchor) = none) :
    track.next false anchor now = (none, anchor) := by
  unfold next
  rw [uncovered]

/-- Where a forward function begins counts as an instant before `now`, with no limit in the way. -/
theorem elapsed_first {f : MotionFunction} (forward : f.Forward) (started : 0 ≤ now)
    (bounded : now ≤ instantMax) : elapsed now f.first = now - f.first := by
  have low := forward.started
  have high := Int.le_trans f.first_le_last forward.bounded
  apply elapsed_of_mem
  · unfold instantMin
    unfold instantMax at high
    omega
  · omega

/-- A looping track has a value at every instant.  Its anchor stays where a function covers the
elapsed time, and is wound back to the start of the first function where none does. -/
theorem next_of_forward {f : MotionFunction} {later : Track}
    (forward : ∀ g ∈ f :: later, MotionFunction.Forward g) (started : 0 ≤ now)
    (bounded : now ≤ instantMax) (anchor : Int) :
    ∃ value after, next (f :: later) true anchor now = (some value, after) ∧
      ((∃ g ∈ f :: later, g.covers (elapsed now anchor) = true) → after = anchor) ∧
      ((∀ g ∈ f :: later, g.covers (elapsed now anchor) = false) → now - after = f.first) := by
  cases covered : value? (f :: later) (elapsed now anchor) with
  | some value =>
      refine ⟨value, anchor, next_of_value covered, fun _ => rfl, fun uncovered => ?_⟩
      obtain ⟨g, member, covers⟩ := value?_isSome_iff.1 (Option.isSome_of_mem covered)
      cases (uncovered g member).symm.trans covers
  | none =>
      -- The first function is forward, so neither of the two subtractions comes to a limit.
      have first := forward f List.mem_cons_self
      have wound : now - elapsed now f.first = f.first := by
        rw [elapsed_first first started bounded]
        omega
      have start : elapsed now (elapsed now f.first) = f.first := by
        rw [elapsed_of_mem, wound]
        · rw [wound]
          exact Int.le_trans (by decide) first.started
        · rw [wound]
          exact Int.le_trans f.first_le_last first.bounded
      obtain ⟨value, found⟩ := Option.isSome_iff_exists.1
        (value?_isSome_iff.2 ⟨f, List.mem_cons_self, f.covers_first⟩ :
          (value? (f :: later) f.first).isSome = true)
      refine ⟨value, elapsed now f.first, ?_, fun ⟨g, member, covers⟩ => ?_, fun _ => wound⟩
      · rw [next_wound covered, start, found]
      · have some := value?_isSome_iff.2 ⟨g, member, covers⟩
        rw [covered] at some
        cases some

/-- If anchor and instant move together, the value stays and the new anchor moves with them. -/
theorem next_shift (forward : ∀ f ∈ track, MotionFunction.Forward f) {d : Int}
    (here : 0 ≤ now ∧ now ≤ instantMax) (there : 0 ≤ now + d ∧ now + d ≤ instantMax) :
    track.next looping (anchor + d) (now + d) =
      ((track.next looping anchor now).1, (track.next looping anchor now).2 + d) := by
  cases covered : track.value? (elapsed now anchor) with
  | some value =>
      rw [next_of_value covered, next_of_value (by rwa [elapsed_add])]
  | none =>
      have uncovered : track.value? (elapsed (now + d) (anchor + d)) = none := by
        rwa [elapsed_add]
      cases looping with
      | false => rw [next_once covered, next_once uncovered]
      | true =>
          cases track with
          | nil => rfl
          | cons f later =>
              have first := forward f List.mem_cons_self
              have wound : elapsed (now + d) f.first = elapsed now f.first + d := by
                rw [elapsed_first first here.1 here.2, elapsed_first first there.1 there.2]
                omega
              rw [next_wound covered, next_wound uncovered, wound, elapsed_add]

end Track

/-! ## Runs -/

namespace Run

variable {run : Run} {p : Program} {mode : Mode} {again shouldStop : Bool} {now d : Int}

/-- The run with all anchors moved. -/
def shift (run : Run) (d : Int) : Run := { run with anchors := run.anchors.map (· + d) }

/-- The values that the tracks give, with the anchors after them. -/
def samples (run : Run) (p : Program) (again : Bool) (now : Int) :
    Vector (Option Float × Int) servoCount :=
  Vector.ofFn fun servo => (p.tracks.get servo).next again (run.anchors.get servo) now

/-- The step that samples make, if none is missing. -/
def ofSamples (run : Run) (tick : Nat) (samples : Vector (Option Float × Int) servoCount) :
    Option Step × Run :=
  match samples.toList.findIdx? (·.1.isNone) with
  | none =>
    let raw (sample : Option Float × Int) : Setpoint := sample.1.elim 0 .truncate
    (some ⟨samples.map raw, tick⟩, { run with anchors := samples.map (·.2) })
  | some last =>
    let anchors := Vector.ofFn fun servo : Fin servoCount =>
      if servo.val ≤ last then (samples.get servo).2 else run.anchors.get servo
    (none, { run with anchors })

theorem nextComputed_eq :
    run.nextComputed p again now = run.ofSamples p.tick (run.samples p again now) := rfl

theorem get_anchors_shift (servo : Fin servoCount) :
    (run.shift d).anchors.get servo = run.anchors.get servo + d :=
  Vector.getElem_map (· + d) servo.isLt

theorem samples_shift (forward : p.Forward) (here : 0 ≤ now ∧ now ≤ instantMax)
    (there : 0 ≤ now + d ∧ now + d ≤ instantMax) :
    (run.shift d).samples p again (now + d) =
      (run.samples p again now).map fun sample => (sample.1, sample.2 + d) := by
  unfold samples
  rw [Vector.map_ofFn]
  congr 1
  funext servo
  rw [get_anchors_shift]
  exact Track.next_shift (forward servo) here there

theorem ofSamples_shift (tick : Nat) (samples : Vector (Option Float × Int) servoCount) :
    (run.shift d).ofSamples tick (samples.map fun sample => (sample.1, sample.2 + d)) =
      ((run.ofSamples tick samples).1, (run.ofSamples tick samples).2.shift d) := by
  have same : (samples.map fun sample => (sample.1, sample.2 + d)).toList.findIdx? (·.1.isNone) =
      samples.toList.findIdx? (·.1.isNone) := by
    rw [Vector.toList_map, List.findIdx?_map]
    rfl
  unfold ofSamples
  rw [same]
  cases samples.toList.findIdx? (·.1.isNone) with
  | none =>
      dsimp only [shift]
      rw [Vector.map_map, Vector.map_map, Vector.map_map]
      rfl
  | some last =>
      have anchors (servo : Fin servoCount) :
          (if servo.val ≤ last then
            ((samples.map fun sample => (sample.1, sample.2 + d)).get servo).2
            else (run.shift d).anchors.get servo) =
          (if servo.val ≤ last then (samples.get servo).2 else run.anchors.get servo) + d := by
        have moved : (samples.map fun sample => (sample.1, sample.2 + d)).get servo =
            ((samples.get servo).1, (samples.get servo).2 + d) :=
          Vector.getElem_map _ servo.isLt
        rw [moved, get_anchors_shift]
        split <;> rfl
      dsimp only
      rw [funext anchors]
      dsimp only [shift]
      rw [Vector.map_ofFn]
      rfl

/-! ### Runs moved in time -/

theorem nextListed_shift :
    (run.shift d).nextListed p again =
      ((run.nextListed p again).1, (run.nextListed p again).2.shift d) := by
  have cursor : (run.shift d).cursor = run.cursor := rfl
  unfold nextListed
  rw [cursor]
  dsimp only
  split <;> rfl

theorem nextMain_shift (forward : p.Forward) (here : 0 ≤ now ∧ now ≤ instantMax)
    (there : 0 ≤ now + d ∧ now + d ≤ instantMax) :
    (run.shift d).nextMain p mode shouldStop (now + d) =
      ((run.nextMain p mode shouldStop now).1, (run.nextMain p mode shouldStop now).2.shift d) := by
  cases mode with
  | prg => exact nextListed_shift
  | mot =>
      unfold nextMain
      dsimp only
      rw [nextComputed_eq, nextComputed_eq, samples_shift forward here there, ofSamples_shift]

/-- If the anchors of a run and the instant move together, the next step stays. -/
theorem next_shift (forward : p.Forward) (here : 0 ≤ now ∧ now ≤ instantMax)
    (there : 0 ≤ now + d ∧ now + d ≤ instantMax) :
    (run.shift d).next p mode shouldStop (now + d) =
      ((run.next p mode shouldStop now).1, (run.next p mode shouldStop now).2.shift d) := by
  have phase : (run.shift d).phase = run.phase := rfl
  have cursor : (run.shift d).cursor = run.cursor := rfl
  have entered : (run.shift d).enterMain (now + d) = (run.enterMain now).shift d := by
    dsimp only [enterMain, shift]
    rw [Vector.map_replicate]
  unfold next
  rw [phase, cursor, entered]
  split
  · rfl
  · exact nextMain_shift forward here there
  · exact nextMain_shift forward here there

end Run

end Gait

import Gait.Proofs.Walker.Playing
import Gait.Proofs.Walker.Tracks

/-!
# What tracks answer

The tracks of a program are asked for one time each: the time elapsed since the anchor of the servo.
`Program.Answers` says what is fired for such times: the step of the functions that are the first to
cover them, or the end of the cycle if a track has none.  `Run.nextComputed_answers` says that this
is what a run does, by the anchors as they are then: in the last pass they stay where they were
(`Run.nextComputed_once`), and before it they may have been wound back.  `Run.anchors_next_le` bounds
the anchors of any run.
-/

namespace Gait

/-! ## What the tracks hold for some times -/

namespace Track

/-- The function is the first one of the track that covers a time. -/
def FirstAt (track : Track) (time : Int) (f : MotionFunction) : Prop :=
  ∃ before after, track = before ++ f :: after ∧ f.covers time = true ∧
    ∀ g ∈ before, g.covers time = false

variable {track : Track} {time : Int}

theorem exists_firstAt {value : Float} (found : track.value? time = some value) :
    ∃ f, track.FirstAt time f ∧ f.value time = value := by
  obtain ⟨f, first, rfl⟩ := Option.map_eq_some_iff.1 found
  obtain ⟨covers, before, after, split, earlier⟩ := List.find?_eq_some_iff_append.1 first
  refine ⟨f, ⟨before, after, split, covers, fun g member => ?_⟩, rfl⟩
  simpa using earlier g member

theorem uncovered_of_value?_eq_none (none : track.value? time = none) :
    ∀ f ∈ track, f.covers time = false := by
  intro f member
  rw [← Bool.not_eq_true]
  intro covers
  have some := value?_isSome_iff.2 ⟨f, member, covers⟩
  rw [none] at some
  cases some

end Track

namespace Program

/-- Some servo has no function for its time. -/
def RunsOut (p : Program) (times : Fin servoCount → Int) : Prop :=
  ∃ servo, ∀ f ∈ p.tracks.get servo, f.covers (times servo) = false

/-- The step has for every servo the setpoint that the first function for its time gives. -/
structure Poses (p : Program) (times : Fin servoCount → Int) (step : Step) : Prop where
  delay : step.delay = p.tick
  positions : ∀ servo, ∃ f, (p.tracks.get servo).FirstAt (times servo) f ∧
    step.positions.get servo = .truncate (f.value (times servo))

theorem Poses.not_runsOut {p : Program} {times : Fin servoCount → Int} {step : Step}
    (poses : p.Poses times step) : ¬p.RunsOut times := by
  rintro ⟨servo, uncovered⟩
  obtain ⟨f, ⟨before, after, split, covers, -⟩, -⟩ := poses.positions servo
  have member : f ∈ p.tracks.get servo := by
    rw [split]
    exact List.mem_append_right _ List.mem_cons_self
  cases (uncovered f member).symm.trans covers

/-- What is fired for some times: the end of the cycle if a servo has no function for its time, and
otherwise the step of the functions for the times. -/
def Answers (p : Program) (times : Fin servoCount → Int) : Firing → Prop
  | .finish => p.RunsOut times
  | .step step => ¬p.RunsOut times ∧ p.Poses times step

end Program

/-- What a tick fires when this is the next step. -/
def Firing.ofNext (next : Option Step) : Firing := next.elim .finish .step

/-! ## One step of a run -/

namespace Track

variable {track : Track} {again : Bool} {anchor now : Int}

theorem next_false (track : Track) (anchor now : Int) :
    track.next false anchor now = (track.value? (elapsed now anchor), anchor) := by
  cases covered : track.value? (elapsed now anchor) with
  | some value => exact next_of_value covered
  | none => exact next_once covered

/-- What is sampled is the value for the time elapsed since the anchor, as it is after that. -/
theorem next_fst (track : Track) (again : Bool) (anchor now : Int) :
    (track.next again anchor now).1 =
      track.value? (elapsed now (track.next again anchor now).2) := by
  cases covered : track.value? (elapsed now anchor) with
  | some value => rw [next_of_value covered, covered]
  | none =>
      cases again with
      | false => rw [next_false, covered]
      | true =>
          cases track with
          | nil => rfl
          | cons f later => rw [next_wound covered]

/-- No anchor comes to lie ahead of the clock. -/
theorem anchor_next_le (forward : ∀ f ∈ track, MotionFunction.Forward f) (started : 0 ≤ now)
    (bounded : now ≤ instantMax) (behind : anchor ≤ now) :
    (track.next again anchor now).2 ≤ now := by
  cases again with
  | false => rwa [next_false]
  | true =>
      cases covered : track.value? (elapsed now anchor) with
      | some value => rwa [next_of_value covered]
      | none =>
          cases track with
          | nil => exact behind
          | cons f later =>
              have first := forward f List.mem_cons_self
              rw [next_wound covered, elapsed_first first started bounded]
              exact Int.sub_le_self now first.started

end Track

namespace Run

variable {run : Run} {p : Program} {mode : Mode} {again shouldStop : Bool} {now : Int}

/-- The time that each servo's track is asked for. -/
def times (run : Run) (now : Int) (servo : Fin servoCount) : Int :=
  elapsed now (run.anchors.get servo)

theorem get_samples (servo : Fin servoCount) :
    (run.samples p again now).get servo =
      (p.tracks.get servo).next again (run.anchors.get servo) now :=
  Vector.getElem_ofFn servo.isLt

/-- An anchor comes from its track or stays. -/
theorem get_anchors_nextComputed (run : Run) (p : Program) (again : Bool) (now : Int)
    (servo : Fin servoCount) :
    (run.nextComputed p again now).2.anchors.get servo =
        ((p.tracks.get servo).next again (run.anchors.get servo) now).2 ∨
      (run.nextComputed p again now).2.anchors.get servo = run.anchors.get servo := by
  rw [← get_samples, nextComputed_eq, ofSamples]
  split
  · exact .inl (Vector.getElem_map _ servo.isLt)
  · next last _ =>
    have anchor := Vector.getElem_ofFn (f := fun servo : Fin servoCount =>
      if servo.val ≤ last then ((run.samples p again now).get servo).2
      else run.anchors.get servo) servo.isLt
    by_cases asked : servo.val ≤ last
    · exact .inl (anchor.trans (if_pos asked))
    · exact .inr (anchor.trans (if_neg asked))

/-- In the last pass no anchor moves. -/
theorem run_nextComputed_once : (run.nextComputed p false now).2 = run := by
  obtain ⟨anchors, eq⟩ := run.run_nextComputed p false now
  have same : anchors = run.anchors := by
    refine Vector.ext fun i h => ?_
    have stays := run.get_anchors_nextComputed p false now ⟨i, h⟩
    rw [eq, Track.next_false, or_self] at stays
    exact stays
  rw [eq, same]

/-- The tracks answer for the times elapsed since the anchors, which may just have been wound
back. -/
theorem nextComputed_answers (run : Run) (p : Program) (again : Bool) (now : Int) :
    p.Answers ((run.nextComputed p again now).2.times now)
      (.ofNext (run.nextComputed p again now).1) := by
  have sample (servo : Fin servoCount) : ((run.samples p again now).get servo).1 =
      (p.tracks.get servo).value? (elapsed now ((run.samples p again now).get servo).2) := by
    rw [get_samples, Track.next_fst]
  rw [nextComputed_eq, ofSamples]
  split
  · next found =>
    have time (servo : Fin servoCount) :
        times { run with anchors := (run.samples p again now).map (·.2) } now servo =
          elapsed now ((run.samples p again now).get servo).2 :=
      congrArg (elapsed now) (Vector.getElem_map _ servo.isLt)
    have poses : p.Poses (times { run with anchors := (run.samples p again now).map (·.2) } now)
        ⟨(run.samples p again now).map fun sample => sample.1.elim 0 .truncate, p.tick⟩ := by
      refine ⟨rfl, fun servo => ?_⟩
      have member : (run.samples p again now).get servo ∈ (run.samples p again now).toList :=
        Vector.mem_toList_iff.2 (Vector.getElem_mem servo.isLt)
      have present := List.findIdx?_eq_none_iff.1 found _ member
      obtain ⟨value, eq⟩ := Option.isSome_iff_exists.1 (Option.isNone_eq_false_iff.1 present)
      have answered := (sample servo).symm.trans eq
      rw [← time] at answered
      obtain ⟨f, first, rfl⟩ := Track.exists_firstAt answered
      refine ⟨f, first, (Vector.getElem_map _ servo.isLt).trans ?_⟩
      change (((run.samples p again now).get servo).1).elim 0 Setpoint.truncate = _
      rw [eq]
      rfl
    exact ⟨poses.not_runsOut, poses⟩
  · next last found =>
    obtain ⟨inside, absent, -⟩ := List.findIdx?_eq_some_iff_getElem.1 found
    have bounded : last < servoCount := by simpa using inside
    rw [Vector.getElem_toList] at absent
    refine ⟨⟨last, bounded⟩, Track.uncovered_of_value?_eq_none ?_⟩
    -- The tracks are asked up to here, so the anchor is the one of this sample.
    have anchor := Vector.getElem_ofFn (f := fun servo : Fin servoCount =>
      if servo.val ≤ last then ((run.samples p again now).get servo).2
      else run.anchors.get servo) bounded
    rw [if_pos (Nat.le_refl last)] at anchor
    change (p.tracks.get ⟨last, bounded⟩).value? (elapsed now (Vector.get _ _)) = none
    rw [show Vector.get _ _ = _ from anchor, ← sample]
    exact Option.isNone_iff_eq_none.1 absent

/-- In the last pass the tracks answer for the times elapsed since the anchors. -/
theorem nextComputed_once :
    p.Answers (run.times now) (.ofNext (run.nextComputed p false now).1) := by
  have answers := nextComputed_answers run p false now
  rwa [run_nextComputed_once] at answers

theorem anchors_nextComputed_le (forward : p.Forward) (started : 0 ≤ now)
    (bounded : now ≤ instantMax) (behind : ∀ servo, run.anchors.get servo ≤ now)
    (servo : Fin servoCount) : (run.nextComputed p again now).2.anchors.get servo ≤ now := by
  rcases run.get_anchors_nextComputed p again now servo with moved | stays
  · rw [moved]
    exact Track.anchor_next_le (forward servo) started bounded (behind servo)
  · rw [stays]
    exact behind servo

/-- The main phase is not left again. -/
theorem phase_next (main : run.phase = .main) :
    (run.next p mode shouldStop now).2.phase = .main := by
  unfold next
  split
  · next setup _ => cases main.symm.trans setup
  · next setup _ => cases main.symm.trans setup
  · exact nextMain_keeps.2.trans main

theorem anchors_nextMain_le (forward : p.Forward) (started : 0 ≤ now) (bounded : now ≤ instantMax)
    (behind : ∀ servo, run.anchors.get servo ≤ now) (servo : Fin servoCount) :
    (run.nextMain p mode shouldStop now).2.anchors.get servo ≤ now := by
  cases mode with
  | prg =>
      obtain ⟨cursor, eq⟩ := run.run_nextListed p (p.looping && !shouldStop)
      rw [nextMain, eq]
      exact behind servo
  | mot => exact anchors_nextComputed_le forward started bounded behind servo

theorem get_anchors_enterMain (servo : Fin servoCount) :
    (run.enterMain now).anchors.get servo = now :=
  Vector.getElem_replicate servo.isLt

/-- No anchor comes to lie ahead of the clock. -/
theorem anchors_next_le (forward : p.Forward) (started : 0 ≤ now) (bounded : now ≤ instantMax)
    (behind : ∀ servo, run.anchors.get servo ≤ now) (servo : Fin servoCount) :
    (run.next p mode shouldStop now).2.anchors.get servo ≤ now := by
  unfold next
  split
  · exact behind servo
  · exact anchors_nextMain_le forward started bounded
      (fun servo => Int.le_of_eq (get_anchors_enterMain servo)) servo
  · exact anchors_nextMain_le forward started bounded behind servo

theorem next_of_setup_left {step : Step} (setup : run.phase = .setup)
    (left : p.setup[run.cursor]? = some step) :
    run.next p mode shouldStop now = (some step, { run with cursor := run.cursor + 1 }) := by
  simp only [next, setup, left]

/-- The first step after the setup steps is computed from anchors that are set there and then. -/
theorem next_of_setup_over (setup : run.phase = .setup) (past : p.setup[run.cursor]? = none) :
    run.next p .mot shouldStop now =
      (run.enterMain now).nextComputed p (p.looping && !shouldStop) now := by
  simp only [next, setup, past, nextMain]

theorem next_of_main_computed (main : run.phase = .main) :
    run.next p .mot shouldStop now = run.nextComputed p (p.looping && !shouldStop) now := by
  simp only [next, main, nextMain]

end Run

end Gait

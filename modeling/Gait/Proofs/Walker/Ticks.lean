import Gait.Files.Memory
import Gait.Walker.Tick

/-!
# What a tick can do

The parts of a tick each change few fields of a walker: `play_eq` and `nextStep_eq` name
them.  `tick_cases` lists what a tick can do as a whole, with the guards under which it does
it.  Facts about ticks are read off these lemmas, and none of them opens `Walker.tick` again.
-/

namespace Gait

/-- Whether a tick with this status played a step, sent as a whole or not. -/
def Status.plays : Status → Bool
  | .stepped | .faulted _ => true
  | .idle | .waiting | .endOfCycle => false

namespace Run

variable {run : Run} {p : Program} {mode : Mode} {shouldStop : Bool} {now : Int}

/-- Where steps are listed, only the cursor moves. -/
theorem run_nextListed (run : Run) (p : Program) (again : Bool) :
    ∃ cursor, (run.nextListed p again).2 = { run with cursor } := by
  unfold nextListed
  dsimp only
  split
  · exact ⟨_, rfl⟩
  · exact ⟨run.cursor, rfl⟩

/-- Where steps are computed, only the anchors move. -/
theorem run_nextComputed (run : Run) (p : Program) (again : Bool) (now : Int) :
    ∃ anchors, (run.nextComputed p again now).2 = { run with anchors } := by
  unfold nextComputed
  dsimp only
  split <;> exact ⟨_, rfl⟩

theorem nextMain_keeps :
    (run.nextMain p mode shouldStop now).2.name = run.name ∧
      (run.nextMain p mode shouldStop now).2.phase = run.phase := by
  unfold nextMain
  cases mode with
  | prg =>
      obtain ⟨cursor, eq⟩ := run.run_nextListed p (p.looping && !shouldStop)
      dsimp only
      rw [eq]
      exact ⟨rfl, rfl⟩
  | mot =>
      obtain ⟨anchors, eq⟩ := run.run_nextComputed p (p.looping && !shouldStop) now
      dsimp only
      rw [eq]
      exact ⟨rfl, rfl⟩

/-- A run goes on under the name it was started with. -/
theorem name_next : (run.next p mode shouldStop now).2.name = run.name := by
  unfold next
  split
  · rfl
  · exact nextMain_keeps.1
  · exact nextMain_keeps.1

end Run

namespace Walker

variable {L : Type}

/-! ## Registering and loading -/

theorem register_cases {w w' : Walker L} {p : Program} (registered : w.register p = .ok w') :
    (∃ mode, p.mode = .ok mode) ∧ w' = { w with registry := w.registry.insert p.name p } := by
  unfold register at registered
  cases valid : p.mode with
  | error reason =>
      rw [valid] at registered
      cases registered
  | ok mode =>
      rw [valid] at registered
      cases registered
      exact ⟨⟨mode, rfl⟩, rfl⟩

theorem register_of_valid {p : Program} {mode : Mode} (w : Walker L) (valid : p.mode = .ok mode) :
    w.register p = .ok { w with registry := w.registry.insert p.name p } := by
  rw [register, valid]
  rfl

theorem register_of_invalid {p : Program} {reason : Program.Invalid} (w : Walker L)
    (invalid : p.mode = .error reason) : w.register p = .error reason := by
  rw [register, invalid]
  rfl

theorem run_load (w : Walker L) (files : FileTree) (path : String) :
    (w.load path : ReaderM FileTree _).run files =
      match (WalkFile.load path : ReaderM FileTree _).run files with
      | .error report => .error report
      | .ok reading =>
        match w.register reading.program with
        | .ok w => .ok (reading.program.name, w)
        | .error reason => .error (Report.within ⟨reason.problem, []⟩ s!"walk file {path}") := by
  unfold load
  rw [ReaderT.run_bind]
  cases (WalkFile.load path : ReaderM FileTree _).run files with
  | error report => rfl
  | ok reading =>
      dsimp only [bind]
      cases w.register reading.program <;> rfl

theorem load_cases {w w' : Walker L} {files : FileTree} {path name : String}
    (loaded : (w.load path : ReaderM FileTree _).run files = .ok (name, w')) :
    ∃ p : Program, p.name = name ∧ w.register p = .ok w' := by
  rw [run_load] at loaded
  split at loaded
  · cases loaded
  · next reading _ =>
    split at loaded
    · next registered =>
      cases loaded
      exact ⟨reading.program, rfl, registered⟩
    · cases loaded

/-! ## Selecting -/

theorem selectedName?_eq_none_iff {w : Walker L} : w.selectedName? = none ↔ w.run = none :=
  Option.map_eq_none_iff

/-- Selecting is refused for a name that is not registered, and for any while something runs that
must not be replaced; otherwise it starts a run. -/
theorem select_spec (w : Walker L) (now : Nat) (name : String) :
    (w.registry.get? name = none ∧ w.select now name = .error (.unknownProgram name)) ∨
    ∃ p, w.registry.get? name = some p ∧
      ((∃ run, w.policy = .rejectWhileRunning ∧ w.run = some run ∧
        w.select now name = .error (.stillRunning run.name)) ∨
      ((w.policy = .rejectWhileRunning → w.run = none) ∧
        w.select now name = .ok (w.start now name))) := by
  cases registered : w.registry.get? name with
  | none => exact .inl ⟨rfl, by simp [select, Registry.contains, registered]⟩
  | some p =>
      have contained : w.registry.contains name = true := by simp [Registry.contains, registered]
      refine .inr ⟨p, rfl, ?_⟩
      cases policy : w.policy with
      | replace => exact .inr ⟨nofun, by rw [select, if_pos contained, policy]⟩
      | rejectWhileRunning =>
          cases running : w.run with
          | none => exact .inr ⟨fun _ => rfl, by rw [select, if_pos contained, policy, running]⟩
          | some run =>
              exact .inl ⟨run, rfl, rfl, by rw [select, if_pos contained, policy, running]⟩

theorem select_cases {w w' : Walker L} {now : Nat} {name : String}
    (selected : w.select now name = .ok w') :
    w.registry.contains name = true ∧ w' = w.start now name ∧
      (w.policy = .rejectWhileRunning → w.run = none) := by
  rcases w.select_spec now name with
    ⟨-, eq⟩ | ⟨p, registered, ⟨run, -, -, eq⟩ | ⟨free, eq⟩⟩
  · cases eq.symm.trans selected
  · cases eq.symm.trans selected
  · cases eq.symm.trans selected
    exact ⟨by simp [Registry.contains, registered], rfl, free⟩

theorem select_of_free {w : Walker L} {name : String} {p : Program}
    (registered : w.registry.get? name = some p)
    (free : w.policy = .rejectWhileRunning → w.run = none) (now : Nat) :
    w.select now name = .ok (w.start now name) := by
  rcases w.select_spec now name with
    ⟨unregistered, -⟩ | ⟨p, -, ⟨run, refusing, running, -⟩ | ⟨-, eq⟩⟩
  · cases unregistered.symm.trans registered
  · cases running.symm.trans (free refusing)
  · exact eq

/-! ## The next step -/

/-- Asking for the next step changes nothing but how far the run has come. -/
theorem nextStep_eq (w : Walker L) (now : Nat) :
    ∃ run, (w.nextStep now).2 = { w with run } ∧ run.map (·.name) = w.run.map (·.name) := by
  unfold nextStep
  split
  · next run p running _ =>
    split
    · next mode _ =>
      refine ⟨_, rfl, ?_⟩
      rw [running]
      exact congrArg some Run.name_next
    · exact ⟨_, rfl, rfl⟩
  · exact ⟨_, rfl, rfl⟩

theorem nextStep_of_run {w : Walker L} {run : Run} {p : Program} {mode : Mode} (now : Nat)
    (running : w.run = some run) (registered : w.registry.get? run.name = some p)
    (asked : p.mode? = some mode) :
    w.nextStep now =
      ((run.next p mode w.shouldStop (instantOfCount now)).1,
        { w with run := some (run.next p mode w.shouldStop (instantOfCount now)).2 }) := by
  have selected : w.selected? = some p := by simp [selected?, selectedName?, running, registered]
  simp only [nextStep, running, selected, asked]

/-! ## Sending and playing -/

variable [Link L]

/-- The status of a played step, by what sending it gave. -/
def playStatus : Except SendError Unit → Status
  | .ok () => .stepped
  | .error e => .faulted e

theorem plays_playStatus (result : Except SendError Unit) : (playStatus result).plays = true := by
  cases result <;> rfl

theorem play_eq (w : Walker L) (step : Step) :
    w.play step =
      (playStatus (w.transmitter.run (Transmitter.sendStep step)).1,
        { w with
          transmitter := (w.transmitter.run (Transmitter.sendStep step)).2
          isStopped := false
          lastStep := some step
          wait := step.delay }) := by
  unfold play sendStep setWait
  dsimp only
  cases (w.transmitter.run (Transmitter.sendStep step)).1 <;> rfl

/-- The link has no part in which step is next. -/
theorem takeReply_nextStep (w : Walker L) (now : Nat) :
    w.takeReply.nextStep now =
      ((w.nextStep now).1, { w.takeReply with run := (w.nextStep now).2.run }) := by
  have run : w.takeReply.run = w.run := rfl
  have selected : w.takeReply.selected? = w.selected? := rfl
  have shouldStop : w.takeReply.shouldStop = w.shouldStop := rfl
  unfold nextStep
  rw [run, selected, shouldStop]
  split
  · split <;> rfl
  · rfl

/-- The state after a tick that played a step. -/
def played (w : Walker L) (now : Nat) (step : Step) : Walker L :=
  { w with
    transmitter := (w.takeReply.transmitter.run (Transmitter.sendStep step)).2
    run := (w.nextStep now).2.run
    isStopped := false
    lastStep := some step
    lastTick := now
    wait := step.delay }

theorem selectedName?_played {w : Walker L} {now : Nat} {step : Step} :
    (w.played now step).selectedName? = w.selectedName? := by
  obtain ⟨run, next, name⟩ := nextStep_eq w now
  have nextRun : (w.played now step).run = run := congrArg Walker.run next
  rw [selectedName?, nextRun, name, selectedName?]

/-- The state after a tick that ended the cycle of a program. -/
def ended (w : Walker L) (now : Nat) (p : Program) : Walker L :=
  { w.takeReply with run := none, isStopped := true, lastTick := now, wait := p.tick }

/-- What a tick can do: nothing where nothing is selected, nothing before the wait is over, play the
step that is next, or end the cycle. -/
theorem tick_cases (w : Walker L) (now : Nat) :
    (w.selected? = none ∧ w.tick now = (.idle, w.takeReply)) ∨
    ∃ p, w.selected? = some p ∧
      ((now - w.lastTick < w.wait ∧ w.tick now = (.waiting, w.takeReply)) ∨
        (w.wait ≤ now - w.lastTick ∧ ∃ step, (w.nextStep now).1 = some step ∧
          w.tick now =
            (playStatus (w.takeReply.transmitter.run (Transmitter.sendStep step)).1,
              w.played now step)) ∨
        (w.wait ≤ now - w.lastTick ∧ (w.nextStep now).1 = none ∧
          w.tick now = (.endOfCycle, w.ended now p))) := by
  have selected : w.takeReply.selected? = w.selected? := rfl
  have lastTick : w.takeReply.lastTick = w.lastTick := rfl
  have wait : w.takeReply.wait = w.wait := rfl
  cases program : w.selected? with
  | none => exact Or.inl ⟨rfl, by simp only [tick, selected, program]⟩
  | some p =>
      refine Or.inr ⟨p, rfl, ?_⟩
      by_cases early : now - w.lastTick < w.wait
      · exact Or.inl ⟨early, by simp only [tick, selected, program, lastTick, wait, if_pos early]⟩
      · refine Or.inr ?_
        cases next : (w.nextStep now).1 with
        | none =>
            refine Or.inr ⟨Nat.not_lt.1 early, rfl, ?_⟩
            simp only [tick, selected, program, lastTick, wait, if_neg early, takeReply_nextStep,
              next]
            rfl
        | some step =>
            refine Or.inl ⟨Nat.not_lt.1 early, step, rfl, ?_⟩
            simp only [tick, selected, program, lastTick, wait, if_neg early, takeReply_nextStep,
              next, play_eq]
            rfl

/-- The cases of a tick as one equation. -/
theorem tick_eq (w : Walker L) (now : Nat) :
    w.tick now =
      match w.selected? with
      | none => (.idle, w.takeReply)
      | some p =>
        if now - w.lastTick < w.wait then (.waiting, w.takeReply)
        else
          match (w.nextStep now).1 with
          | some step =>
            (playStatus (w.takeReply.transmitter.run (Transmitter.sendStep step)).1,
              w.played now step)
          | none => (.endOfCycle, w.ended now p) := by
  rcases tick_cases w now with
    ⟨none, eq⟩ | ⟨p, selected, ⟨early, eq⟩ | ⟨due, step, next, eq⟩ | ⟨due, next, eq⟩⟩
  · rw [eq, none]
  · rw [eq, selected]
    exact (if_pos early).symm
  · rw [eq, selected, next]
    exact (if_neg (Nat.not_lt.2 due)).symm
  · rw [eq, selected, next]
    exact (if_neg (Nat.not_lt.2 due)).symm

theorem tick_of_run_eq_none {w : Walker L} (stopped : w.run = none) (now : Nat) :
    w.tick now = (.idle, w.takeReply) := by
  have none : w.selected? = none := by
    rw [selected?, selectedName?_eq_none_iff.2 stopped]
    rfl
  rcases tick_cases w now with ⟨-, eq⟩ | ⟨p, selected, -⟩
  · exact eq
  · rw [none] at selected
    cases selected

end Walker

end Gait

import Gait.Clock
import Gait.Files.Memory
import Gait.Proofs.Walker.Ticks

/-!
# Sessions

A `Session` is a walker with the clock it reads.  An `Operation` is anything that can be done to it
from outside, the passing of time included; `Session.perform` carries one out and gives its
`Outcome`.  `Performs` lists what an operation can do, refusals included; facts about all operations
are read off its cases.  `after` and `history` follow a list of operations, and `Reachable` says
that some operations lead from a new walker to a session.

Operations do not mention the link, so one list of operations can be carried out over any link.
-/

namespace Gait

/-- A walker and the clock it reads. -/
structure Session (L : Type) where
  walker : Walker L
  clock : Clock := {}

/-- What can be done to a walker. -/
inductive Operation where
  | register (p : Program)
  /-- Load a walk file from the files that are there at that moment. -/
  | load (files : FileTree) (path : String)
  | select (name : String)
  | deselect
  | requestStop
  | tick
  | nextStep
  | sendStep (step : Step)
  | setWait (milliseconds : Nat)
  | advance (microseconds : Nat)

/-- What an operation answers. -/
inductive Outcome where
  | done
  | registered (name : String)
  | notRegistered (reason : Program.Invalid)
  | notLoaded (report : Report)
  | selected
  | notSelected (reason : SelectError)
  | stopRequested
  /-- What a tick did, and the last step after it. -/
  | ticked (status : Status) (lastStep : Option Step)
  | next (step : Option Step)
  | sent (result : Except SendError Unit)

/-- The step that was played by a tick. -/
def Outcome.played? : Outcome → Option Step
  | ticked status lastStep => if status.plays then lastStep else none
  | _ => none

namespace Session

variable {L : Type}

/-- A new walker over a link, with a clock at zero. -/
def start (link : L) (policy : SelectPolicy) : Session L :=
  ⟨{ transmitter := { link }, policy }, {}⟩

variable [Link L]

/-- Carry out an operation. -/
def perform (σ : Session L) : Operation → Outcome × Session L
  | .register p =>
    match σ.walker.register p with
    | .ok walker => (.registered p.name, { σ with walker })
    | .error reason => (.notRegistered reason, σ)
  | .load files path =>
    match (σ.walker.load path : ReaderM FileTree _).run files with
    | .ok (name, walker) => (.registered name, { σ with walker })
    | .error report => (.notLoaded report, σ)
  | .select name =>
    match σ.walker.select σ.clock.now name with
    | .ok walker => (.selected, { σ with walker })
    | .error reason => (.notSelected reason, σ)
  | .deselect =>
    match σ.walker.deselect with
    | .ok walker => (.stopRequested, { σ with walker })
    | .error reason => (.notSelected reason, σ)
  | .requestStop => (.stopRequested, { σ with walker := σ.walker.requestStop })
  | .tick =>
    let (status, walker) := σ.walker.tick σ.clock.now
    (.ticked status walker.lastStep, { σ with walker })
  | .nextStep =>
    let (step, walker) := σ.walker.nextStep σ.clock.now
    (.next step, { σ with walker })
  | .sendStep step =>
    let (result, walker) := σ.walker.sendStep step
    (.sent result, { σ with walker })
  | .setWait milliseconds => (.done, { σ with walker := σ.walker.setWait milliseconds })
  | .advance microseconds => (.done, { σ with clock := σ.clock.advance microseconds })

/-- What an operation can do to a session, with what it answers. -/
inductive Performs (σ : Session L) : Operation → Outcome → Session L → Prop
  | registers (p : Program) (valid : ∃ mode, p.mode = .ok mode) :
    Performs σ (.register p) (.registered p.name)
      { σ with walker := { σ.walker with registry := σ.walker.registry.insert p.name p } }
  | refusesRegister (p : Program) (reason : Program.Invalid) :
    Performs σ (.register p) (.notRegistered reason) σ
  | loads (files : FileTree) (path : String) (p : Program) (valid : ∃ mode, p.mode = .ok mode) :
    Performs σ (.load files path) (.registered p.name)
      { σ with walker := { σ.walker with registry := σ.walker.registry.insert p.name p } }
  | refusesLoad (files : FileTree) (path : String) (report : Report) :
    Performs σ (.load files path) (.notLoaded report) σ
  | selects (name : String) (registered : σ.walker.registry.contains name = true)
    (free : σ.walker.policy = .rejectWhileRunning → σ.walker.run = none) :
    Performs σ (.select name) .selected { σ with walker := σ.walker.start σ.clock.now name }
  | refusesSelect (name : String) (reason : SelectError) :
    Performs σ (.select name) (.notSelected reason) σ
  | deselects (running : σ.walker.run ≠ none) :
    Performs σ .deselect .stopRequested { σ with walker := σ.walker.requestStop }
  | refusesDeselect (idle : σ.walker.run = none) (reason : SelectError) :
    Performs σ .deselect (.notSelected reason) σ
  | requests : Performs σ .requestStop .stopRequested { σ with walker := σ.walker.requestStop }
  | ticks :
    Performs σ .tick
      (.ticked (σ.walker.tick σ.clock.now).1 (σ.walker.tick σ.clock.now).2.lastStep)
      { σ with walker := (σ.walker.tick σ.clock.now).2 }
  | steps :
    Performs σ .nextStep (.next (σ.walker.nextStep σ.clock.now).1)
      { σ with walker := (σ.walker.nextStep σ.clock.now).2 }
  | sends (step : Step) :
    Performs σ (.sendStep step) (.sent (σ.walker.sendStep step).1)
      { σ with walker := (σ.walker.sendStep step).2 }
  | waits (milliseconds : Nat) :
    Performs σ (.setWait milliseconds) .done { σ with walker := σ.walker.setWait milliseconds }
  | advances (microseconds : Nat) :
    Performs σ (.advance microseconds) .done { σ with clock := σ.clock.advance microseconds }

/-- Every operation does one of these things. -/
theorem performs (σ : Session L) (op : Operation) :
    Performs σ op (σ.perform op).1 (σ.perform op).2 := by
  cases op with
  | register p =>
      dsimp only [perform]
      split
      · next registered =>
        obtain ⟨valid, rfl⟩ := Walker.register_cases registered
        exact .registers p valid
      · exact .refusesRegister p _
  | load files path =>
      dsimp only [perform]
      split
      · next loaded =>
        obtain ⟨p, rfl, registered⟩ := Walker.load_cases loaded
        obtain ⟨valid, rfl⟩ := Walker.register_cases registered
        exact .loads files path p valid
      · exact .refusesLoad files path _
  | select name =>
      dsimp only [perform]
      split
      · next selected =>
        obtain ⟨registered, rfl, free⟩ := Walker.select_cases selected
        exact .selects name registered free
      · exact .refusesSelect name _
  | deselect =>
      dsimp only [perform, Walker.deselect]
      cases running : σ.walker.run with
      | none => exact .refusesDeselect running _
      | some run => exact .deselects (by simp [running])
  | requestStop => exact .requests
  | tick => exact .ticks
  | nextStep => exact .steps
  | sendStep step => exact .sends step
  | setWait milliseconds => exact .waits milliseconds
  | advance microseconds => exact .advances microseconds

/-- The session after some operations. -/
def after (σ : Session L) : List Operation → Session L
  | [] => σ
  | op :: ops => (σ.perform op).2.after ops

/-- Operations with what they answered. -/
def history (σ : Session L) : List Operation → List (Operation × Outcome)
  | [] => []
  | op :: ops => (op, (σ.perform op).1) :: (σ.perform op).2.history ops

theorem after_append (σ : Session L) (ops later : List Operation) :
    σ.after (ops ++ later) = (σ.after ops).after later := by
  induction ops generalizing σ with
  | nil => rfl
  | cons op ops ih => exact ih _

theorem history_append (σ : Session L) (ops later : List Operation) :
    σ.history (ops ++ later) = σ.history ops ++ (σ.after ops).history later := by
  induction ops generalizing σ with
  | nil => rfl
  | cons op ops ih => exact congrArg ((op, (σ.perform op).1) :: ·) (ih _)

/-- Some operations lead from a new walker to the session. -/
inductive Reachable : Session L → Prop
  | start (link : L) (policy : SelectPolicy) : Reachable (start link policy)
  | perform {σ : Session L} (reachable : Reachable σ) (op : Operation) :
    Reachable (σ.perform op).2

theorem Reachable.after {σ : Session L} (reachable : Reachable σ) (ops : List Operation) :
    Reachable (σ.after ops) := by
  induction ops generalizing σ with
  | nil => exact reachable
  | cons op ops ih => exact ih (reachable.perform op)

end Session

end Gait

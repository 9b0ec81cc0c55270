import Gait.Link.Memory
import Gait.Proofs.Session
import Gait.Proofs.WalkFile.Program

/-!
# Refusals

A `Request` registers, loads, selects or deselects, and may be refused.  `Session.perform` keeps the
old walker then, and could not do otherwise, since a refusal comes without a new one.
`Request.carryOut` carries a request out in place, one field after the other, with each check where
it is made; a check behind a change would leave that change behind.  `change_carryOut` says that
this is the same.

`Refused` lists what is refused and why, and the main statement says that nothing else is, that a
refusal leaves the whole walker as it was, and that all that comes later is as if the request had
not been made.
-/

namespace Gait

/-- What can be asked of a walker and refused. -/
inductive Request where
  | register (p : Program)
  /-- Load a walk file from the files that are there at that moment. -/
  | load (files : FileTree) (path : String)
  /-- Select the program of a name, or deselect. -/
  | select (name : Option String)

/-- The reasons why an operation fails. -/
inductive Refusal where
  | notRegistered (reason : Program.Invalid)
  | notLoaded (report : Report)
  | notSelected (reason : SelectError)

/-- The outcome that reports a refusal. -/
def Refusal.outcome : Refusal → Outcome
  | notRegistered reason => .notRegistered reason
  | notLoaded report => .notLoaded report
  | notSelected reason => .notSelected reason

namespace Request

/-- The request as an operation on a session. -/
def operation : Request → Operation
  | register p => .register p
  | load files path => .load files path
  | select (some name) => .select name
  | select none => .deselect

end Request

/-- Why a walk file is not registered that cannot be read. -/
def Report.unreadable (path : String) (e : FileError) : Report :=
  Report.within ⟨.io e.message, []⟩ s!"reading walk file {path}"

/-- Why a walk file is not registered that cannot be played. -/
def Report.unplayable (path : String) (reason : Program.Invalid) : Report :=
  Report.within ⟨reason.problem, []⟩ s!"walk file {path}"

/-- What a walker refuses: a program that cannot be played, a file that cannot be read or holds such
a program, a name that is not registered, any other name while something runs and the policy does
not let it be replaced, and to deselect where nothing is selected. -/
inductive Refused {L : Type} (w : Walker L) : Request → Refusal → Prop
  | invalid {p : Program} {reason : Program.Invalid} (invalid : p.mode = .error reason) :
    Refused w (.register p) (.notRegistered reason)
  | unreadable {files : FileTree} {path : String} {e : FileError}
    (unread : files.readText path = .error e) :
    Refused w (.load files path) (.notLoaded (.unreadable path e))
  | unplayable {files : FileTree} {path text : String} {reason : Program.Invalid}
    (read : files.readText path = .ok text)
    (invalid : (WalkFile.read text).program.mode = .error reason) :
    Refused w (.load files path) (.notLoaded (.unplayable path reason))
  | unknown {name : String} (unknown : w.registry.get? name = none) :
    Refused w (.select (some name)) (.notSelected (.unknownProgram name))
  | busy {name : String} {p : Program} {run : Run} (registered : w.registry.get? name = some p)
    (refusing : w.policy = .rejectWhileRunning) (running : w.run = some run) :
    Refused w (.select (some name)) (.notSelected (.stillRunning run.name))
  | idle (idle : w.run = none) : Refused w (.select none) (.notSelected .nothingSelected)

/-! ## Requests carried out in place -/

/-- An operation that changes a walker in place and may fail on the way. -/
abbrev Changing (L : Type) : Type → Type := ExceptT Refusal (StateM (Walker L))

namespace Request

variable {L : Type}

/-- Registering in place; the mode is checked before the registry changes. -/
def registering (p : Program) (refuse : Program.Invalid → Refusal) : Changing L Outcome :=
  match p.mode with
  | .error reason => throw (refuse reason)
  | .ok _ => do
    modify fun w => { w with registry := w.registry.insert p.name p }
    return .registered p.name

/-- Loading in place; the program is registered last. -/
def loading (files : FileTree) (path : String) : Changing L Outcome :=
  match (WalkFile.load path : ReaderM FileTree _).run files with
  | .error report => throw (.notLoaded report)
  | .ok reading =>
    registering reading.program fun reason => .notLoaded (.unplayable path reason)

/-- Starting in place, one field after the other. -/
def starting (now : Nat) (name : String) : Changing L Outcome := do
  modify fun w =>
    { w with run := some ⟨name, .setup, 0, Vector.replicate servoCount (instantOfCount now)⟩ }
  modify fun w => { w with shouldStop := false }
  modify fun w => { w with isStopped := false }
  modify fun w => { w with lastTick := now }
  modify fun w => { w with wait := 0 }
  return .selected

/-- Selecting in place; the name is checked first and the policy next. -/
def selecting (now : Nat) (name : String) : Changing L Outcome := do
  let w ← get
  if w.registry.contains name then
    match w.policy, w.run with
    | .rejectWhileRunning, some run => throw (.notSelected (.stillRunning run.name))
    | _, _ => starting now name
  else throw (.notSelected (.unknownProgram name))

/-- Deselecting in place. -/
def deselecting : Changing L Outcome := do
  let w ← get
  match w.run with
  | none => throw (.notSelected .nothingSelected)
  | some _ =>
    modify fun w => { w with shouldStop := true }
    return .stopRequested

/-- Carry out a request in place. -/
def carryOut (now : Nat) : Request → Changing L Outcome
  | register p => registering p .notRegistered
  | load files path => loading files path
  | select (some name) => selecting now name
  | select none => deselecting

end Request

namespace Walker

variable {L : Type}

/-- The walker after an operation in place, whether it failed or not. -/
def change {α : Type} (w : Walker L) (action : Changing L α) : Except Refusal α × Walker L :=
  action w

/-- Whether a request is carried out, with the walker after it. -/
def accepts (w : Walker L) (now : Nat) (r : Request) : Bool × Walker L :=
  match w.change (r.carryOut now) with
  | (.ok _, w) => (true, w)
  | (.error _, w) => (false, w)

theorem change_registering (w : Walker L) (p : Program) (refuse : Program.Invalid → Refusal) :
    w.change (Request.registering p refuse) =
      match w.register p with
      | .ok w => (.ok (.registered p.name), w)
      | .error reason => (.error (refuse reason), w) := by
  unfold Request.registering register
  cases p.mode <;> rfl

theorem change_get {α : Type} (w : Walker L) (next : Walker L → Changing L α) :
    w.change (get >>= next) = w.change (next w) :=
  rfl

theorem change_selecting (w : Walker L) (now : Nat) (name : String) :
    w.change (Request.selecting now name) =
      match w.select now name with
      | .ok w => (.ok .selected, w)
      | .error reason => (.error (.notSelected reason), w) := by
  unfold Request.selecting select
  rw [change_get]
  cases w.registry.contains name with
  | false => rfl
  | true =>
      cases w.policy with
      | replace => rfl
      | rejectWhileRunning => cases w.run <;> rfl

theorem change_deselecting (w : Walker L) :
    w.change Request.deselecting =
      match w.deselect with
      | .ok w => (.ok .stopRequested, w)
      | .error reason => (.error (.notSelected reason), w) := by
  unfold Request.deselecting deselect
  rw [change_get]
  cases w.run <;> rfl

/-! ## What is refused -/

theorem change_registering_eq_error_iff {w : Walker L} {p : Program}
    {refuse : Program.Invalid → Refusal} {refusal : Refusal} :
    (w.change (Request.registering p refuse)).1 = .error refusal ↔
      ∃ reason, p.mode = .error reason ∧ refuse reason = refusal := by
  rw [change_registering]
  cases valid : p.mode with
  | error reason =>
      rw [register_of_invalid w valid]
      simp
  | ok mode =>
      rw [register_of_valid w valid]
      simp

variable {w : Walker L} {now : Nat} {refusal : Refusal}

theorem change_loading_eq_error_iff {files : FileTree} {path : String} :
    (w.change (Request.loading files path)).1 = .error refusal ↔
      Refused w (.load files path) refusal := by
  rw [Request.loading, WalkFile.run_load]
  cases read : files.readText path with
  | error e =>
      constructor
      · rintro ⟨⟩
        exact .unreadable read
      · intro refused
        cases refused with
        | unreadable unread =>
            cases read.symm.trans unread
            rfl
        | unplayable read' => cases read.symm.trans read'
  | ok text =>
      refine change_registering_eq_error_iff.trans ⟨?_, fun refused => ?_⟩
      · rintro ⟨reason, invalid, rfl⟩
        exact .unplayable read invalid
      · cases refused with
        | unreadable unread => cases read.symm.trans unread
        | unplayable read' invalid =>
            cases read.symm.trans read'
            exact ⟨_, invalid, rfl⟩

theorem change_selecting_eq_error_iff {name : String} :
    (w.change (Request.selecting now name)).1 = .error refusal ↔
      Refused w (.select (some name)) refusal := by
  rw [change_selecting]
  rcases w.select_spec now name with
    ⟨unregistered, eq⟩ | ⟨p, registered, ⟨run, refusing, running, eq⟩ | ⟨free, eq⟩⟩
  · rw [eq]
    constructor
    · rintro ⟨⟩
      exact .unknown unregistered
    · intro refused
      cases refused with
      | unknown => rfl
      | busy registered => cases unregistered.symm.trans registered
  · rw [eq]
    constructor
    · rintro ⟨⟩
      exact .busy registered refusing running
    · intro refused
      cases refused with
      | unknown unregistered => cases registered.symm.trans unregistered
      | busy _ _ running' =>
          cases running.symm.trans running'
          rfl
  · rw [eq]
    constructor
    · rintro ⟨⟩
    · intro refused
      cases refused with
      | unknown unregistered => cases registered.symm.trans unregistered
      | busy _ refusing running => cases running.symm.trans (free refusing)

theorem change_deselecting_eq_error_iff :
    (w.change Request.deselecting).1 = .error refusal ↔ Refused w (.select none) refusal := by
  rw [change_deselecting, deselect]
  cases running : w.run with
  | none =>
      constructor
      · rintro ⟨⟩
        exact .idle running
      · rintro ⟨⟩
        rfl
  | some run =>
      constructor
      · rintro ⟨⟩
      · intro refused
        cases refused with
        | idle idle => cases running.symm.trans idle

/-- A request is refused in just these cases. -/
theorem change_eq_error_iff {r : Request} :
    (w.change (r.carryOut now)).1 = .error refusal ↔ Refused w r refusal := by
  cases r with
  | register p =>
      refine change_registering_eq_error_iff.trans ⟨?_, fun refused => ?_⟩
      · rintro ⟨reason, invalid, rfl⟩
        exact .invalid invalid
      · cases refused with
        | invalid invalid => exact ⟨_, invalid, rfl⟩
  | load files path => exact change_loading_eq_error_iff
  | select name =>
      cases name with
      | none => exact change_deselecting_eq_error_iff
      | some name => exact change_selecting_eq_error_iff

end Walker

namespace Session

variable {L : Type} [Link L]

/-- To carry out a request in place is to perform it as an operation: it is answered alike, and a
refusal leaves the walker as it was. -/
theorem change_carryOut (σ : Session L) (r : Request) :
    (∃ outcome walker,
      σ.walker.change (r.carryOut σ.clock.now) = (.ok outcome, walker) ∧
        σ.perform r.operation = (outcome, { σ with walker })) ∨
    ∃ refusal,
      σ.walker.change (r.carryOut σ.clock.now) = (.error refusal, σ.walker) ∧
        σ.perform r.operation = (refusal.outcome, σ) := by
  cases r with
  | register p =>
      dsimp only [Request.carryOut, Request.operation, perform]
      rw [Walker.change_registering]
      cases σ.walker.register p with
      | error reason => exact .inr ⟨_, rfl, rfl⟩
      | ok walker => exact .inl ⟨_, _, rfl, rfl⟩
  | load files path =>
      dsimp only [Request.carryOut, Request.operation, perform]
      rw [Request.loading, Walker.run_load]
      cases (WalkFile.load path : ReaderM FileTree _).run files with
      | error report => exact .inr ⟨_, rfl, rfl⟩
      | ok reading =>
          dsimp only
          rw [Walker.change_registering]
          cases σ.walker.register reading.program with
          | error reason => exact .inr ⟨_, rfl, rfl⟩
          | ok walker => exact .inl ⟨_, _, rfl, rfl⟩
  | select name =>
      cases name with
      | none =>
          dsimp only [Request.carryOut, Request.operation, perform]
          rw [Walker.change_deselecting]
          cases σ.walker.deselect with
          | error reason => exact .inr ⟨_, rfl, rfl⟩
          | ok walker => exact .inl ⟨_, _, rfl, rfl⟩
      | some name =>
          dsimp only [Request.carryOut, Request.operation, perform]
          rw [Walker.change_selecting]
          cases σ.walker.select σ.clock.now name with
          | error reason => exact .inr ⟨_, rfl, rfl⟩
          | ok walker => exact .inl ⟨_, _, rfl, rfl⟩

/-- A refused request changes nothing.  Requests are refused in just the cases that `Refused` lists,
and carried out otherwise, as the operations on a session are.  A refusal leaves the walker as it
was, in every part: programs, run, stop flags, wait, last step, frame and link.  So all later
operations answer what they would have answered without the request, and lead to where they would
have led.  Asked for yes or no, a walker says no just to what it refuses. -/
theorem refusals_change_nothing (σ : Session L) (r : Request) :
    let now := σ.clock.now
    let result := (σ.walker.change (r.carryOut now)).1
    let walker := (σ.walker.change (r.carryOut now)).2
    (∀ refusal, result = .error refusal ↔ Refused σ.walker r refusal) ∧
    (∀ outcome, result = .ok outcome → σ.perform r.operation = (outcome, { σ with walker })) ∧
    (∀ refusal, result = .error refusal →
      walker = σ.walker ∧ σ.perform r.operation = (refusal.outcome, σ) ∧
        ∀ later, σ.after (r.operation :: later) = σ.after later ∧
          σ.history (r.operation :: later) =
            (r.operation, refusal.outcome) :: σ.history later) ∧
    ((σ.walker.accepts now r).1 = false ↔ ∃ refusal, result = .error refusal) ∧
    (σ.walker.accepts now r).2 = walker := by
  intro now result walker
  have refused refusal : result = .error refusal ↔ Refused σ.walker r refusal :=
    Walker.change_eq_error_iff
  refine ⟨refused, ?_⟩
  rcases σ.change_carryOut r with ⟨outcome, later, eq, performed⟩ | ⟨refusal, eq, performed⟩
  · have ok : result = .ok outcome := congrArg Prod.fst eq
    have changed : walker = later := congrArg Prod.snd eq
    have accepts : σ.walker.accepts now r = (true, later) := by rw [Walker.accepts, eq]
    refine ⟨fun outcome' same => ?_, fun refusal failed => ?_, ?_, ?_⟩
    · cases ok.symm.trans same
      rw [performed, changed]
    · cases ok.symm.trans failed
    · rw [accepts]
      refine iff_of_false nofun ?_
      rintro ⟨refusal, failed⟩
      cases ok.symm.trans failed
    · rw [accepts, changed]
  · have failed : result = .error refusal := congrArg Prod.fst eq
    have kept : walker = σ.walker := congrArg Prod.snd eq
    have accepts : σ.walker.accepts now r = (false, σ.walker) := by rw [Walker.accepts, eq]
    refine ⟨fun outcome ok => ?_, fun refusal' same => ?_, ?_, ?_⟩
    · cases failed.symm.trans ok
    · cases failed.symm.trans same
      refine ⟨kept, performed, fun later => ?_⟩
      rw [after, history, performed]
      exact ⟨rfl, rfl⟩
    · rw [accepts]
      exact iff_of_true rfl ⟨refusal, failed⟩
    · rw [accepts, kept]

/-- The running program is refused like any other, and goes on. -/
theorem refusal_of_running_wave :
    let wave : Program := { name := "wave", use := some "prg", main := #[.zero] }
    let σ : Session Link.Failing :=
      (start {} .rejectWhileRunning).after [.register wave, .select "wave", .requestStop]
    let r : Request := .select (some "wave")
    σ.Reachable ∧ Refused σ.walker r (.notSelected (.stillRunning "wave")) ∧
      (σ.walker.change (r.carryOut σ.clock.now)).2 = σ.walker ∧
      (σ.walker.accepts σ.clock.now r).1 = false ∧
      σ.after [.select "wave", .tick] = σ.after [.tick] ∧
      (σ.after [.tick]).walker.lastStep = some .zero := by
  intro wave σ r
  have reachable : σ.Reachable := (Reachable.start (L := Link.Failing) {} _).after _
  have registered : σ.walker.registry.get? "wave" = some wave := rfl
  have running : σ.walker.run = some ⟨"wave", .setup, 0, Vector.replicate servoCount 0⟩ := by
    decide +kernel
  have refused : Refused σ.walker r (.notSelected (.stillRunning "wave")) :=
    .busy registered rfl running
  obtain ⟨refuses, -, unchanged, denies, -⟩ := refusals_change_nothing σ r
  obtain ⟨kept, -, later⟩ := unchanged _ ((refuses _).2 refused)
  exact ⟨reachable, refused, kept, denies.2 ⟨_, (refuses _).2 refused⟩, (later [.tick]).1,
    by decide +kernel⟩

end Session

end Gait

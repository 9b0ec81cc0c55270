import Gait.Proofs.Walker.Tracks
import Gait.Proofs.Walker.Waiting
import Gait.Proofs.Wire.Alike
import Gait.Proofs.Wire.Stream

/-!
# Twins

Two sessions are twins if nobody can tell them apart from now on.  Their clocks may be apart by
whole milliseconds, and everything that is measured on them is then apart by the same distance; the
links need only answer alike; the last step, the frame in the transmitter and what was written
before may differ in any way.

`Session.Twins.alongside` says that an operation finds and leaves twins alike.  A selection makes
twins of sessions with any past, since it sets anew all that twins have to share but the registry
and the policy; this gives the main statement.
-/

namespace Gait

open Link (Logged Alike)

namespace Walker

/-- Readings of clocks that are `d` milliseconds apart, both within the instants. -/
structure Readings (d : Int) (now₁ now₂ : Nat) : Prop where
  apart : (now₂ : Int) = now₁ + d
  bounded₁ : (now₁ : Int) ≤ instantMax
  bounded₂ : (now₂ : Int) ≤ instantMax

theorem Readings.instants {d : Int} {now₁ now₂ : Nat} (readings : Readings d now₁ now₂) :
    instantOfCount now₁ = now₁ ∧ instantOfCount now₂ = now₁ + d :=
  ⟨Int.min_eq_left readings.bounded₁,
    (Int.min_eq_left readings.bounded₂).trans readings.apart⟩

variable {L₁ L₂ : Type} [Link L₁] [Link L₂]

/-- All that has a part in what comes next is the same, `d` milliseconds apart. -/
structure Twins (d : Int) (w₁ : Walker (Logged L₁)) (w₂ : Walker (Logged L₂)) : Prop where
  registry : w₂.registry = w₁.registry
  forward : ∀ e ∈ w₁.registry.entries, e.2.Forward
  policy : w₂.policy = w₁.policy
  run : w₂.run = w₁.run.map (·.shift d)
  shouldStop : w₂.shouldStop = w₁.shouldStop
  isStopped : w₂.isStopped = w₁.isStopped
  lastTick : (w₂.lastTick : Int) = w₁.lastTick + d
  wait : w₂.wait = w₁.wait
  alike : Alike w₁.transmitter.link.link w₂.transmitter.link.link

namespace Twins

variable {d : Int} {w₁ : Walker (Logged L₁)} {w₂ : Walker (Logged L₂)} {now₁ now₂ : Nat}

/-! ## What twins share -/

theorem selectedName?_eq (twins : Twins d w₁ w₂) : w₂.selectedName? = w₁.selectedName? := by
  rw [selectedName?, twins.run, Option.map_map]
  rfl

theorem selected?_eq (twins : Twins d w₁ w₂) : w₂.selected? = w₁.selected? := by
  rw [selected?, twins.selectedName?_eq, twins.registry]
  rfl

theorem activity_eq (twins : Twins d w₁ w₂) : w₂.activity = w₁.activity := by
  unfold activity
  rw [twins.selected?_eq, twins.run, twins.shouldStop]
  cases w₁.run with
  | none => rfl
  | some run => cases w₁.selected?.bind Program.mode? <;> rfl

theorem forward_of_selected? (twins : Twins d w₁ w₂) {p : Program}
    (selected : w₁.selected? = some p) : p.Forward := by
  obtain ⟨name, -, found⟩ := Option.bind_eq_some_iff.1 selected
  exact twins.forward _ (Registry.mem_of_get? found)

theorem nextStep_eq (twins : Twins d w₁ w₂) (readings : Readings d now₁ now₂) :
    (w₂.nextStep now₂).1 = (w₁.nextStep now₁).1 ∧
      (w₂.nextStep now₂).2.run = (w₁.nextStep now₁).2.run.map (·.shift d) := by
  obtain ⟨instant₁, instant₂⟩ := readings.instants
  unfold nextStep
  rw [twins.selected?_eq, twins.run, twins.shouldStop, instant₁, instant₂]
  cases running : w₁.run with
  | none => exact ⟨rfl, by simp [twins.run, running]⟩
  | some run =>
      cases selected : w₁.selected? with
      | none => exact ⟨rfl, by simp [twins.run, running]⟩
      | some p =>
          dsimp only [Option.map_some]
          cases p.mode? with
          | none => exact ⟨rfl, by simp [twins.run, running]⟩
          | some mode =>
              dsimp only
              rw [Run.next_shift (twins.forward_of_selected? selected)
                ⟨Int.natCast_nonneg now₁, readings.bounded₁⟩
                (readings.apart ▸ ⟨Int.natCast_nonneg now₂, readings.bounded₂⟩)]
              exact ⟨rfl, rfl⟩

/-! ## What keeps them twins -/

theorem insert (twins : Twins d w₁ w₂) {p : Program} (forward : p.Forward) :
    Twins d { w₁ with registry := w₁.registry.insert p.name p }
      { w₂ with registry := w₂.registry.insert p.name p } where
  registry := congrArg (Registry.insert · p.name p) twins.registry
  forward := by
    intro e stored
    rcases Registry.mem_insert stored with rfl | old
    · exact forward
    · exact twins.forward e old
  policy := twins.policy
  run := twins.run
  shouldStop := twins.shouldStop
  isStopped := twins.isStopped
  lastTick := twins.lastTick
  wait := twins.wait
  alike := twins.alike

/-- A selection makes twins of walkers with any past. -/
theorem start (registry : w₂.registry = w₁.registry)
    (forward : ∀ e ∈ w₁.registry.entries, e.2.Forward) (policy : w₂.policy = w₁.policy)
    (alike : Alike w₁.transmitter.link.link w₂.transmitter.link.link)
    (readings : Readings d now₁ now₂) (name : String) :
    Twins d (w₁.start now₁ name) (w₂.start now₂ name) where
  registry := registry
  forward := forward
  policy := policy
  run := by
    obtain ⟨instant₁, instant₂⟩ := readings.instants
    dsimp only [Walker.start, Option.map_some, Run.shift]
    rw [Vector.map_replicate, instant₁, instant₂]
  shouldStop := rfl
  isStopped := rfl
  lastTick := readings.apart
  wait := rfl
  alike := alike

theorem requestStop (twins : Twins d w₁ w₂) : Twins d w₁.requestStop w₂.requestStop :=
  { twins with shouldStop := rfl }

theorem setWait (twins : Twins d w₁ w₂) (milliseconds : Nat) :
    Twins d (w₁.setWait milliseconds) (w₂.setWait milliseconds) :=
  { twins with wait := rfl }

theorem takeReply (twins : Twins d w₁ w₂) : Twins d w₁.takeReply w₂.takeReply :=
  { twins with alike := twins.alike.after_read }

theorem sendStep (twins : Twins d w₁ w₂) (step : Step) :
    Twins d (w₁.sendStep step).2 (w₂.sendStep step).2 :=
  { twins with alike := (Transmitter.inStep_sendStep twins.alike step).alike }

theorem nextStep (twins : Twins d w₁ w₂) (readings : Readings d now₁ now₂) :
    Twins d (w₁.nextStep now₁).2 (w₂.nextStep now₂).2 := by
  obtain ⟨run₁, next₁, -⟩ := Walker.nextStep_eq w₁ now₁
  obtain ⟨run₂, next₂, -⟩ := Walker.nextStep_eq w₂ now₂
  have run := (twins.nextStep_eq readings).2
  rw [next₁, next₂] at run ⊢
  exact { twins with run }

theorem played (twins : Twins d w₁ w₂) (readings : Readings d now₁ now₂) (step : Step) :
    Twins d (w₁.played now₁ step) (w₂.played now₂ step) :=
  { twins with
    run := (twins.nextStep_eq readings).2
    isStopped := rfl
    lastTick := readings.apart
    wait := rfl
    alike := (Transmitter.inStep_sendStep twins.takeReply.alike step).alike }

theorem ended (twins : Twins d w₁ w₂) (readings : Readings d now₁ now₂) (p : Program) :
    Twins d (w₁.ended now₁ p) (w₂.ended now₂ p) :=
  { twins with
    run := rfl
    isStopped := rfl
    lastTick := readings.apart
    wait := rfl
    alike := twins.alike.after_read }

end Twins

end Walker

/-! ## Clocks -/

/-- Clocks that are `d` milliseconds apart, neither past the largest count. -/
structure Clock.Apart (d : Int) (c₁ c₂ : Clock) : Prop where
  microseconds : (c₂.microseconds : Int) = c₁.microseconds + 1000 * d
  counted₁ : c₁.microseconds ≤ countMax
  counted₂ : c₂.microseconds ≤ countMax

namespace Clock.Apart

variable {d : Int} {c₁ c₂ : Clock}

theorem readings (apart : Apart d c₁ c₂) : Walker.Readings d c₁.now c₂.now := by
  obtain ⟨microseconds, counted₁, counted₂⟩ := apart
  unfold countMax at counted₁ counted₂
  unfold now
  constructor
  · omega
  · unfold instantMax
    omega
  · unfold instantMax
    omega

theorem advance (apart : Apart d c₁ c₂) {microseconds : Nat}
    (counted₁ : c₁.microseconds + microseconds ≤ countMax)
    (counted₂ : c₂.microseconds + microseconds ≤ countMax) :
    Apart d (c₁.advance microseconds) (c₂.advance microseconds) := by
  have distance := apart.microseconds
  unfold Clock.advance
  rw [capCount_of_le counted₁, capCount_of_le counted₂]
  exact ⟨by dsimp only; omega, counted₁, counted₂⟩

end Clock.Apart

/-- What an operation answers, but the last step only if it was played just now. -/
def Outcome.fresh : Outcome → Outcome
  | ticked status lastStep => ticked status (if status.plays then lastStep else none)
  | outcome => outcome

/-- How far an operation moves the clock. -/
def Operation.duration : Operation → Nat
  | advance microseconds => microseconds
  | _ => 0

namespace Session

variable {L₁ L₂ : Type} [Link L₁] [Link L₂]

/-! ## Twin sessions -/

/-- Sessions over logged links that agree up to a shift of their clocks. -/
structure Twins (d : Int) (σ₁ : Session (Logged L₁)) (σ₂ : Session (Logged L₂)) : Prop where
  walkers : Walker.Twins d σ₁.walker σ₂.walker
  clocks : Clock.Apart d σ₁.clock σ₂.clock

/-- Operations answered the same, wrote the same and left twins. -/
structure Alongside (d : Int) (σ₁ : Session (Logged L₁)) (σ₂ : Session (Logged L₂))
    (r₁ : Outcome × Session (Logged L₁)) (r₂ : Outcome × Session (Logged L₂)) : Prop where
  outcome : r₁.1.fresh = r₂.1.fresh
  twins : Twins d r₁.2 r₂.2
  wrote : ∃ writes, r₁.2.writes = σ₁.writes ++ writes ∧ r₂.2.writes = σ₂.writes ++ writes

variable {d : Int} {σ₁ σ₁' : Session (Logged L₁)} {σ₂ σ₂' : Session (Logged L₂)}

/-- Nothing was written. -/
theorem Alongside.quiet {outcome : Outcome} (twins : Twins d σ₁' σ₂')
    (quiet₁ : σ₁'.writes = σ₁.writes) (quiet₂ : σ₂'.writes = σ₂.writes) :
    Alongside d σ₁ σ₂ (outcome, σ₁') (outcome, σ₂') where
  outcome := rfl
  twins := twins
  wrote := ⟨[], quiet₁.trans (List.append_nil _).symm, quiet₂.trans (List.append_nil _).symm⟩

namespace Twins

theorem register (twins : Twins d σ₁ σ₂) {p : Program} (forward : p.Forward) :
    Alongside d σ₁ σ₂ (σ₁.perform (.register p)) (σ₂.perform (.register p)) := by
  dsimp only [perform]
  cases valid : p.mode with
  | error reason =>
      rw [Walker.register_of_invalid _ valid, Walker.register_of_invalid _ valid]
      exact .quiet twins rfl rfl
  | ok mode =>
      rw [Walker.register_of_valid _ valid, Walker.register_of_valid _ valid]
      exact .quiet ⟨twins.walkers.insert forward, twins.clocks⟩ rfl rfl

theorem load (twins : Twins d σ₁ σ₂) (files : FileTree) (path : String) :
    Alongside d σ₁ σ₂ (σ₁.perform (.load files path)) (σ₂.perform (.load files path)) := by
  dsimp only [perform]
  rw [Walker.run_load, Walker.run_load]
  cases loaded : (WalkFile.load path : ReaderM FileTree _).run files with
  | error report => exact .quiet twins rfl rfl
  | ok reading =>
      dsimp only
      cases valid : reading.program.mode with
      | error reason =>
          rw [Walker.register_of_invalid _ valid, Walker.register_of_invalid _ valid]
          exact .quiet twins rfl rfl
      | ok mode =>
          have forward := (WalkFile.written_of_load loaded).forward
          rw [Walker.register_of_valid _ valid, Walker.register_of_valid _ valid]
          exact .quiet ⟨twins.walkers.insert forward, twins.clocks⟩ rfl rfl

theorem select (twins : Twins d σ₁ σ₂) (name : String) :
    Alongside d σ₁ σ₂ (σ₁.perform (.select name)) (σ₂.perform (.select name)) := by
  have started : Twins d { σ₁ with walker := σ₁.walker.start σ₁.clock.now name }
      { σ₂ with walker := σ₂.walker.start σ₂.clock.now name } :=
    ⟨.start twins.walkers.registry twins.walkers.forward twins.walkers.policy twins.walkers.alike
      twins.clocks.readings name, twins.clocks⟩
  dsimp only [perform]
  unfold Walker.select
  rw [twins.walkers.registry, twins.walkers.policy, twins.walkers.run]
  cases σ₁.walker.registry.contains name with
  | false => exact .quiet twins rfl rfl
  | true =>
      cases σ₁.walker.policy with
      | replace => exact .quiet started rfl rfl
      | rejectWhileRunning =>
          cases σ₁.walker.run with
          | none => exact .quiet started rfl rfl
          | some run => exact .quiet twins rfl rfl

theorem deselect (twins : Twins d σ₁ σ₂) :
    Alongside d σ₁ σ₂ (σ₁.perform .deselect) (σ₂.perform .deselect) := by
  dsimp only [perform, Walker.deselect]
  rw [twins.walkers.run]
  cases σ₁.walker.run with
  | none => exact .quiet twins rfl rfl
  | some run => exact .quiet ⟨twins.walkers.requestStop, twins.clocks⟩ rfl rfl

theorem sendStep (twins : Twins d σ₁ σ₂) (step : Step) :
    Alongside d σ₁ σ₂ (σ₁.perform (.sendStep step)) (σ₂.perform (.sendStep step)) where
  outcome :=
    congrArg Outcome.sent (Transmitter.inStep_sendStep twins.walkers.alike step).result
  twins := ⟨twins.walkers.sendStep step, twins.clocks⟩
  wrote := (Transmitter.inStep_sendStep twins.walkers.alike step).wrote

theorem nextStep (twins : Twins d σ₁ σ₂) :
    Alongside d σ₁ σ₂ (σ₁.perform .nextStep) (σ₂.perform .nextStep) := by
  have twins' := twins.walkers.nextStep twins.clocks.readings
  obtain ⟨run₁, next₁, -⟩ := Walker.nextStep_eq σ₁.walker σ₁.clock.now
  obtain ⟨run₂, next₂, -⟩ := Walker.nextStep_eq σ₂.walker σ₂.clock.now
  dsimp only [perform]
  rw [(twins.walkers.nextStep_eq twins.clocks.readings).1]
  refine .quiet ⟨twins', twins.clocks⟩ ?_ ?_
  · rw [next₁]
    rfl
  · rw [next₂]
    rfl

theorem tick (twins : Twins d σ₁ σ₂) :
    Alongside d σ₁ σ₂ (σ₁.perform .tick) (σ₂.perform .tick) := by
  have readings := twins.clocks.readings
  -- Both have waited equally long, so both ticks come too early or both are due.
  have waited : σ₂.clock.now - σ₂.walker.lastTick = σ₁.clock.now - σ₁.walker.lastTick := by
    have now := readings.apart
    have lastTick := twins.walkers.lastTick
    omega
  have rested (status : Status) (passive : status.plays = false) : Alongside d σ₁ σ₂
      (.ticked status σ₁.walker.takeReply.lastStep, { σ₁ with walker := σ₁.walker.takeReply })
      (.ticked status σ₂.walker.takeReply.lastStep, { σ₂ with walker := σ₂.walker.takeReply }) :=
    { outcome := by rw [Outcome.fresh, Outcome.fresh, passive]; rfl
      twins := ⟨twins.walkers.takeReply, twins.clocks⟩
      wrote := ⟨[], (List.append_nil _).symm, (List.append_nil _).symm⟩ }
  dsimp only [perform]
  rw [Walker.tick_eq, Walker.tick_eq, twins.walkers.selected?_eq, waited, twins.walkers.wait,
    (twins.walkers.nextStep_eq readings).1]
  cases σ₁.walker.selected? with
  | none => exact rested .idle rfl
  | some p =>
      dsimp only
      by_cases early : σ₁.clock.now - σ₁.walker.lastTick < σ₁.walker.wait
      · rw [if_pos early, if_pos early]
        exact rested .waiting rfl
      · rw [if_neg early, if_neg early]
        cases (σ₁.walker.nextStep σ₁.clock.now).1 with
        | none =>
            exact ⟨rfl, ⟨twins.walkers.ended readings p, twins.clocks⟩,
              [], (List.append_nil _).symm, (List.append_nil _).symm⟩
        | some step =>
            have sent := Transmitter.inStep_sendStep twins.walkers.takeReply.alike step
            dsimp only
            rw [sent.result]
            exact ⟨rfl, ⟨twins.walkers.played readings step, twins.clocks⟩, sent.wrote⟩

/-- Twins do the same at every operation, and stay twins. -/
theorem alongside (twins : Twins d σ₁ σ₂) (op : Operation)
    (forward : ∀ p, op = .register p → p.Forward)
    (counted₁ : σ₁.clock.microseconds + op.duration ≤ countMax)
    (counted₂ : σ₂.clock.microseconds + op.duration ≤ countMax) :
    Alongside d σ₁ σ₂ (σ₁.perform op) (σ₂.perform op) := by
  cases op with
  | register p => exact twins.register (forward p rfl)
  | load files path => exact twins.load files path
  | select name => exact twins.select name
  | deselect => exact twins.deselect
  | requestStop => exact .quiet ⟨twins.walkers.requestStop, twins.clocks⟩ rfl rfl
  | tick => exact twins.tick
  | nextStep => exact twins.nextStep
  | sendStep step => exact twins.sendStep step
  | setWait milliseconds => exact .quiet ⟨twins.walkers.setWait milliseconds, twins.clocks⟩ rfl rfl
  | advance microseconds =>
      exact .quiet ⟨twins.walkers, twins.clocks.advance counted₁ counted₂⟩ rfl rfl

end Twins

/-! ## What can be seen -/

/-- What can be seen of an operation: its answer, what the walker then shows, and the writes it
made. -/
structure Sight where
  outcome : Outcome
  activity : Activity
  selected : Option String
  isStopped : Bool
  writes : List (UInt8 × Bool)

section

variable {L : Type} [Link L]

/-- What can be observed of an operation and of the walker after it. -/
def sight (σ : Session (Logged L)) (op : Operation) : Sight where
  outcome := (σ.perform op).1.fresh
  activity := (σ.perform op).2.walker.activity
  selected := (σ.perform op).2.walker.selectedName?
  isStopped := (σ.perform op).2.walker.isStopped
  writes := (σ.perform op).2.writes.drop σ.writes.length

/-- What can be observed of operations one after the other. -/
def sights (σ : Session (Logged L)) : List Operation → List Sight
  | [] => []
  | op :: ops => σ.sight op :: (σ.perform op).2.sights ops

end

theorem Alongside.sight_eq {op : Operation}
    (alongside : Alongside d σ₁ σ₂ (σ₁.perform op) (σ₂.perform op)) :
    σ₁.sight op = σ₂.sight op := by
  obtain ⟨writes, wrote₁, wrote₂⟩ := alongside.wrote
  unfold sight
  rw [alongside.outcome, wrote₁, wrote₂, List.drop_left, List.drop_left,
    alongside.twins.walkers.activity_eq, alongside.twins.walkers.selectedName?_eq,
    alongside.twins.walkers.isStopped]

theorem Performs.clock_le {L : Type} [Link L] {σ σ' : Session L} {op : Operation}
    {outcome : Outcome} (performs : Performs σ op outcome σ') :
    σ'.clock.microseconds ≤ σ.clock.microseconds + op.duration := by
  cases performs with
  | advances microseconds => exact Nat.min_le_left _ _
  | _ => exact Nat.le_refl _

/-- How far operations move the clock. -/
def duration (ops : List Operation) : Nat := (ops.map Operation.duration).sum

/-- Twins show the same for as long as no clock comes to its limit. -/
theorem Twins.sights_eq (twins : Twins d σ₁ σ₂) (ops : List Operation)
    (forward : ∀ p, .register p ∈ ops → p.Forward)
    (counted₁ : σ₁.clock.microseconds + duration ops ≤ countMax)
    (counted₂ : σ₂.clock.microseconds + duration ops ≤ countMax) :
    σ₁.sights ops = σ₂.sights ops := by
  induction ops generalizing σ₁ σ₂ with
  | nil => rfl
  | cons op ops ih =>
      -- The operation moves no clock by more than its duration, which leaves room for the others.
      have total : duration (op :: ops) = op.duration + duration ops := List.sum_cons
      have moved₁ := (σ₁.performs op).clock_le
      have moved₂ := (σ₂.performs op).clock_le
      have alongside := twins.alongside op (fun p same => forward p (same ▸ List.mem_cons_self))
        (by omega) (by omega)
      rw [sights, sights, alongside.sight_eq,
        ih alongside.twins (fun p later => forward p (List.mem_cons_of_mem op later)) (by omega)
          (by omega)]

theorem perform_select_of_selected {L : Type} [Link L] {σ : Session L} {name : String}
    (selected : (σ.perform (.select name)).1 = .selected) :
    σ.perform (.select name) =
      (.selected, { σ with walker := σ.walker.start σ.clock.now name }) := by
  have performs := σ.performs (.select name)
  rw [selected] at performs
  generalize later : (σ.perform (.select name)).2 = σ' at performs
  cases performs with
  | selects => exact Prod.ext selected later

/-- A selection forgets the past, and what follows does not depend on absolute time.  Take any two
sessions with the same programs and the same policy; let their links answer alike and their clocks
be apart by whole milliseconds.  If a program is selected in both, then the same operations give the
same answers from there on: the same statuses with the same steps fired, the same activities and
selected names, and the same writes, as long as no clock comes to its limit.

Programs are always ones that walk files hold, so no anchor is stopped by a limit either. -/
theorem sights_of_selected {name : String} (registry : σ₂.walker.registry = σ₁.walker.registry)
    (written : ∀ e ∈ σ₁.walker.registry.entries, e.2.Written)
    (policy : σ₂.walker.policy = σ₁.walker.policy)
    (alike : Alike σ₁.walker.transmitter.link.link σ₂.walker.transmitter.link.link)
    (apart : (σ₂.clock.microseconds : Int) = σ₁.clock.microseconds + 1000 * d)
    (selected₁ : (σ₁.perform (.select name)).1 = .selected)
    (selected₂ : (σ₂.perform (.select name)).1 = .selected) (ops : List Operation)
    (registered : ∀ p, .register p ∈ ops → p.Written)
    (counted₁ : σ₁.clock.microseconds + duration ops ≤ countMax)
    (counted₂ : σ₂.clock.microseconds + duration ops ≤ countMax) :
    σ₁.sights (.select name :: ops) = σ₂.sights (.select name :: ops) := by
  have clocks : Clock.Apart d σ₁.clock σ₂.clock :=
    ⟨apart, Nat.le_of_add_right_le counted₁, Nat.le_of_add_right_le counted₂⟩
  have started := Walker.Twins.start registry (fun e stored => (written e stored).forward) policy
    alike clocks.readings name
  have alongside :
      Alongside d σ₁ σ₂ (σ₁.perform (.select name)) (σ₂.perform (.select name)) := by
    rw [perform_select_of_selected selected₁, perform_select_of_selected selected₂]
    exact .quiet ⟨started, clocks⟩ rfl rfl
  have moved₁ := (σ₁.performs (.select name)).clock_le
  have moved₂ := (σ₂.performs (.select name)).clock_le
  rw [sights, sights, alongside.sight_eq, alongside.twins.sights_eq ops
    (fun p later => (registered p later).forward)
    (Nat.le_trans (Nat.add_le_add_right moved₁ _) counted₁)
    (Nat.le_trans (Nat.add_le_add_right moved₂ _) counted₂)]

theorem sights_of_interrupted :
    let wave := (WalkFile.read "[info]\nName=wave\nUse=prg\n[end]\n[prg]\n>90:20\n>300:5").program
    let idle : Session (Logged Link.Null) :=
      { walker :=
          { transmitter := ⟨⟨{}, []⟩, .blank⟩
            registry := Registry.empty.insert "wave" wave } }
    let stopping : Session (Logged Link.Null) :=
      { walker :=
          { transmitter := ⟨⟨{}, [(0xa1, true)]⟩, ⟨0xa1, 0x7f⟩⟩
            registry := Registry.empty.insert "wave" wave
            run := some ⟨"wave", .main, 1, Vector.replicate servoCount 70⟩
            lastTick := 90
            wait := 20
            shouldStop := true
            isStopped := false
            lastStep := some Step.zero }
        clock := ⟨103000⟩ }
    let ops : List Operation := [.tick, .advance 20400, .tick, .register wave, .deselect, .tick]
    (idle.perform (.select "wave")).1 = .selected ∧
      (stopping.perform (.select "wave")).1 = .selected ∧
      (stopping.clock.microseconds : Int) = idle.clock.microseconds + 1000 * 103 ∧
      idle.sights (.select "wave" :: ops) = stopping.sights (.select "wave" :: ops) := by
  intro wave idle stopping ops
  have written : wave.Written := WalkFile.written_read _
  clear_value wave
  have contained : (Registry.empty.insert "wave" wave).contains "wave" = true := by
    rw [Registry.contains, Registry.get?_insert_self]
    rfl
  have selected₁ : (idle.perform (.select "wave")).1 = .selected := by
    rw [perform, Walker.select, if_pos contained]
  have selected₂ : (stopping.perform (.select "wave")).1 = .selected := by
    rw [perform, Walker.select, if_pos contained]
  have apart : (stopping.clock.microseconds : Int) = idle.clock.microseconds + 1000 * 103 := rfl
  have counted : 103000 + duration ops ≤ countMax := by
    rw [show duration ops = 20400 from rfl]
    decide
  have registry : stopping.walker.registry = idle.walker.registry := rfl
  have policy : stopping.walker.policy = idle.walker.policy := rfl
  refine ⟨selected₁, selected₂, apart, ?_⟩
  refine sights_of_selected registry (fun e stored => ?_) policy (.refl _) apart selected₁ selected₂
    ops (fun p register => ?_) (Nat.le_trans (Nat.add_le_add_right (Nat.zero_le _) _) counted)
    counted
  · rcases Registry.mem_insert stored with rfl | none
    · exact written
    · cases none
  · have same : p = wave := by simpa [ops] using register
    exact same ▸ written

end Session

end Gait

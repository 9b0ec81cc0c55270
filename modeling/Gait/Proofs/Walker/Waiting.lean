import Gait.Proofs.Walker.Coherence
import Gait.Proofs.Walker.Playing

/-!
# Waiting for the next firing

A tick that plays a step arms a wait of the step's delay, and the next tick that fires is one for
which the wait is over.  `Session.ticks` says what a tick does to a session, `Performs.waitsOn` that
nothing else moves the wait, and `waitsOn_after` the same of a run.

The clock counts microseconds, and both readings that the wait compares are in whole milliseconds.
The main statement says what this makes of the time between a step and what follows it: it can fall
short of the delay by less than a millisecond.  `firing_before_delay` is a run in which next to
nothing is left of the delay.
-/

namespace Gait

/-- Whether an operation with this outcome sets the wait from outside. -/
def Operation.rearms : Operation → Outcome → Bool
  | select _, .selected => true
  | setWait _, _ => true
  | _, _ => false

namespace Session

variable {L : Type}

open Walker

/-- The wait and the selection are as they were. -/
structure WaitsOn (σ σ' : Session L) : Prop where
  lastTick : σ'.walker.lastTick = σ.walker.lastTick
  wait : σ'.walker.wait = σ.walker.wait
  selected : σ'.walker.selectedName? = σ.walker.selectedName?

theorem WaitsOn.trans {σ σ' σ'' : Session L} (first : WaitsOn σ σ') (next : WaitsOn σ' σ'') :
    WaitsOn σ σ'' :=
  ⟨next.lastTick.trans first.lastTick, next.wait.trans first.wait,
    next.selected.trans first.selected⟩

variable [Link L]

/-! ## Ticks -/

/-- What a tick does: rest, play the step that is next, or end the cycle. -/
inductive Ticks (σ : Session L) : Option Firing → Session L → Prop
  | rests (passive : σ.walker.selected? = none ∨ ¬σ.Due) :
    Ticks σ none { σ with walker := σ.walker.takeReply }
  | plays {p : Program} (selected : σ.walker.selected? = some p) (due : σ.Due) {step : Step}
    (next : (σ.walker.nextStep σ.clock.now).1 = some step) :
    Ticks σ (some (.step step)) { σ with walker := σ.walker.played σ.clock.now step }
  | ends {p : Program} (selected : σ.walker.selected? = some p) (due : σ.Due)
    (next : (σ.walker.nextStep σ.clock.now).1 = none) :
    Ticks σ (some .finish) { σ with walker := σ.walker.ended σ.clock.now p }

theorem ticks (σ : Session L) : σ.Ticks (σ.perform .tick).1.firing? (σ.perform .tick).2 := by
  dsimp only [perform]
  rcases tick_cases σ.walker σ.clock.now with
    ⟨none, eq⟩ | ⟨p, selected, ⟨early, eq⟩ | ⟨due, step, next, eq⟩ | ⟨due, next, eq⟩⟩
  · rw [eq]
    exact .rests (.inl none)
  · rw [eq]
    exact .rests (.inr (Nat.not_le.2 early))
  · have lastStep : (σ.walker.played σ.clock.now step).lastStep = some step := rfl
    rw [eq, lastStep, firing?_playStatus]
    exact .plays selected due next
  · rw [eq]
    exact .ends selected due next

namespace Ticks

variable {σ σ' : Session L} {firing : Option Firing}

/-- With something selected, a tick fires just when the wait is over. -/
theorem isSome_iff (ticks : σ.Ticks firing σ') (selected : σ.walker.selected? ≠ none) :
    firing.isSome = true ↔ σ.Due := by
  cases ticks with
  | rests passive => exact iff_of_false nofun (passive.resolve_left selected)
  | plays _ due | ends _ due => exact iff_of_true rfl due

/-- A tick that plays a step arms a wait of its delay from now on. -/
theorem armed {step : Step} (ticks : σ.Ticks (some (.step step)) σ') :
    σ'.walker.lastTick = σ.clock.now ∧ σ'.walker.wait = step.delay ∧
      σ'.walker.selectedName? ≠ none := by
  cases ticks with
  | plays selected =>
      refine ⟨rfl, rfl, fun none => ?_⟩
      rw [selectedName?_played] at none
      rw [selected?, none] at selected
      cases selected

end Ticks

/-- A tick that fires nothing takes a reply. -/
theorem Ticks.eq_of_quiet {σ σ' : Session L} (ticks : σ.Ticks none σ') :
    σ' = { σ with walker := σ.walker.takeReply } := by
  cases ticks
  rfl

/-! ## What keeps the wait -/

theorem Ticks.waitsOn {σ σ' : Session L} (ticks : σ.Ticks none σ') : WaitsOn σ σ' := by
  cases ticks with
  | rests => exact ⟨rfl, rfl, rfl⟩

section Performs

variable {σ σ' : Session L} {op : Operation} {outcome : Outcome}

/-- What fires nothing and does not set the wait keeps it. -/
theorem Performs.waitsOn (performs : Performs σ op outcome σ')
    (unarmed : op.rearms outcome = false) (quiet : outcome.firing? = none) : WaitsOn σ σ' := by
  cases performs with
  | selects | waits => cases unarmed
  | ticks =>
      have ticks := σ.ticks
      rw [show (σ.perform .tick).1.firing? = none from quiet] at ticks
      exact ticks.waitsOn
  | steps =>
      obtain ⟨run, eq, name⟩ := nextStep_eq σ.walker σ.clock.now
      rw [eq]
      exact ⟨rfl, rfl, name⟩
  | _ => exact ⟨rfl, rfl, rfl⟩

/-- A clock that has not passed the largest count neither passes it nor moves back. -/
theorem Performs.clock_mono (performs : Performs σ op outcome σ')
    (counted : σ.clock.microseconds ≤ countMax) :
    σ.clock.microseconds ≤ σ'.clock.microseconds ∧ σ'.clock.microseconds ≤ countMax := by
  cases performs with
  | advances microseconds =>
      exact ⟨Clock.microseconds_le_advance counted microseconds, Nat.min_le_right _ _⟩
  | _ => exact ⟨Nat.le_refl _, counted⟩

end Performs

/-! ## Runs -/

theorem Reachable.clock_le {σ : Session L} (reachable : σ.Reachable) :
    σ.clock.microseconds ≤ countMax := by
  induction reachable with
  | start link policy => exact Nat.zero_le _
  | @perform σ _ op ih => exact ((σ.performs op).clock_mono ih).2

theorem clock_le_after {σ : Session L} (counted : σ.clock.microseconds ≤ countMax)
    (ops : List Operation) : σ.clock.microseconds ≤ (σ.after ops).clock.microseconds := by
  induction ops generalizing σ with
  | nil => exact Nat.le_refl _
  | cons op ops ih =>
      obtain ⟨later, counted'⟩ := (σ.performs op).clock_mono counted
      exact Nat.le_trans later (ih counted')

theorem quiet_of_firings_cons {e : Operation × Outcome} {later : List (Operation × Outcome)}
    (quiet : firings (e :: later) = []) : e.2.firing? = none ∧ firings later = [] := by
  cases fires : e.2.firing? with
  | none => exact ⟨rfl, (firings_cons_none fires).symm.trans quiet⟩
  | some firing => cases (firings_cons_some fires).symm.trans quiet

/-- The wait stands until something fires or sets it. -/
theorem waitsOn_after {σ : Session L} (ops : List Operation)
    (unarmed : ∀ e ∈ σ.history ops, e.1.rearms e.2 = false)
    (quiet : firings (σ.history ops) = []) : WaitsOn σ (σ.after ops) := by
  induction ops generalizing σ with
  | nil => exact ⟨rfl, rfl, rfl⟩
  | cons op ops ih =>
      obtain ⟨here, later⟩ := List.forall_mem_cons.1 unarmed
      obtain ⟨quietHere, quietLater⟩ := quiet_of_firings_cons quiet
      exact ((σ.performs op).waitsOn here quietHere).trans (ih later quietLater)

/-- What comes after a step that a tick plays, as long as nothing is selected and the wait is not
set.  The next tick fires just when the clock, read in whole milliseconds, is the step's delay past
where it was.  In microseconds the two ticks are then at least the delay apart, unless the readings
are just the delay apart and the later tick comes earlier within its millisecond; and even then less
than a millisecond is missing. -/
theorem firing_after_played {σ : Session L} (reachable : σ.Reachable) {step : Step}
    (plays : (σ.perform .tick).1.firing? = some (.step step)) (ops : List Operation)
    (unarmed : ∀ e ∈ (σ.perform .tick).2.history ops, e.1.rearms e.2 = false)
    (quiet : firings ((σ.perform .tick).2.history ops) = []) :
    let σ' := (σ.perform .tick).2.after ops
    let t := σ.clock.microseconds
    let t' := σ'.clock.microseconds
    ((σ'.perform .tick).1.firing?.isSome = true ↔ t / 1000 + step.delay ≤ t' / 1000) ∧
      ((σ'.perform .tick).1.firing?.isSome = true →
        t + 1000 * step.delay < t' + 1000 ∧
          (t' < t + 1000 * step.delay ↔
            t' / 1000 = t / 1000 + step.delay ∧ t' % 1000 < t % 1000)) := by
  intro σ' t t'
  have ticks := σ.ticks
  rw [plays] at ticks
  obtain ⟨lastTick, wait, name⟩ := ticks.armed
  have waits := waitsOn_after ops unarmed quiet
  have reachable' : σ'.Reachable := (reachable.perform .tick).after ops
  have selected : σ'.walker.selected? ≠ none := by
    rw [Ne, reachable'.coherent.selected?_eq_none_iff, waits.selected]
    exact name
  have later : t ≤ t' := by
    have kept := ((σ.performs .tick).clock_mono reachable.clock_le).1
    exact Nat.le_trans kept (clock_le_after (reachable.perform .tick).clock_le ops)
  -- The wait compares quotients, not times; the rests are lost, and with them up to 999 µs.
  have due : σ'.Due ↔ t / 1000 + step.delay ≤ t' / 1000 := by
    rw [Due, waits.lastTick, waits.wait, lastTick, wait, Clock.now, Clock.now]
    have readings := Nat.div_le_div_right (c := 1000) later
    omega
  refine ⟨(σ'.ticks.isSome_iff selected).trans due, fun fires => ?_⟩
  have gap := due.1 ((σ'.ticks.isSome_iff selected).1 fires)
  constructor
  · omega
  · omega

theorem firing_after_part_of_delay :
    let first : Step := ⟨Vector.replicate servoCount 90, 20⟩
    let wave : Program := { name := "wave", use := some "prg", main := #[first, Step.zero] }
    let σ : Session Link.Null :=
      (start {} .replace).after [.register wave, .select "wave", .advance 12700]
    let ops : List Operation := [.advance 7000, .tick, .requestStop, .advance 12400]
    let σ' := (σ.perform .tick).2.after ops
    σ.Reachable ∧ (σ.perform .tick).1.firing? = some (.step first) ∧
      (∀ e ∈ (σ.perform .tick).2.history ops, e.1.rearms e.2 = false) ∧
      firings ((σ.perform .tick).2.history ops) = [] ∧
      (σ'.perform .tick).1.firing?.isSome = true ∧
      σ'.clock.microseconds = σ.clock.microseconds + 19400 ∧
      σ.clock.microseconds + 1000 * first.delay < σ'.clock.microseconds + 1000 := by
  intro first wave σ ops σ'
  have reachable : σ.Reachable := (Reachable.start (L := Link.Null) {} .replace).after _
  have plays : (σ.perform .tick).1.firing? = some (.step first) := by decide +kernel
  have unarmed : ∀ e ∈ (σ.perform .tick).2.history ops, e.1.rearms e.2 = false := by decide +kernel
  have quiet : firings ((σ.perform .tick).2.history ops) = [] := by decide +kernel
  obtain ⟨fires, close⟩ := firing_after_played reachable plays ops unarmed quiet
  have here := fires.2 (by decide +kernel)
  exact ⟨reachable, plays, unarmed, quiet, here, by decide +kernel, (close here).1⟩

/-- A step of one millisecond can be followed after a microsecond. -/
theorem firing_before_delay :
    let first : Step := ⟨Vector.replicate servoCount 90, 1⟩
    let wave : Program := { name := "wave", use := some "prg", main := #[first, Step.zero] }
    let σ : Session Link.Null :=
      (start {} .replace).after [.register wave, .select "wave", .advance 999]
    let σ' := (σ.perform .tick).2.after [.advance 1]
    σ.Reachable ∧ (σ.perform .tick).1.firing? = some (.step first) ∧
      (σ'.perform .tick).1.firing? = some (.step Step.zero) ∧
      σ'.clock.microseconds < σ.clock.microseconds + 1000 * first.delay := by
  intro first wave σ σ'
  have reachable : σ.Reachable := (Reachable.start (L := Link.Null) {} .replace).after _
  exact ⟨reachable, by decide +kernel, by decide +kernel, by decide +kernel⟩

end Session

end Gait

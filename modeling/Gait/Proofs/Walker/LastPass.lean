import Gait.Proofs.Walker.Answers
import Gait.Proofs.Walker.Waiting

/-!
# The last pass over motion functions

A program of mode `mot` that does not loop, or of which a stop was requested, is in its last pass.
No track is wound back any more, so all anchors stand still, and what a tick fires is settled by the
times elapsed since them.  `Session.LastPass` is the invariant, `LastPass.after` what follows from
it for a run, and `Session.timedFirings` lists what is fired when.

The anchors are all set by the tick that leaves the setup phase.  If the last pass begins there, the
elapsed times are all the same (`lastPass_of_entering`); otherwise it begins with a stop request,
wherever the tracks are by then (`lastPass_of_stop`).
-/

namespace Gait

/-! ## One operation -/

namespace Walker

variable {L : Type}

/-- Asking for the next step leaves the run as it is or takes it one step on. -/
theorem run_nextStep (w : Walker L) (now : Nat) :
    (w.nextStep now).2.run = w.run ∨
      ∃ run p mode, w.run = some run ∧ w.registry.get? run.name = some p ∧ p.mode? = some mode ∧
        (w.nextStep now).2.run = some (run.next p mode w.shouldStop (instantOfCount now)).2 := by
  cases running : w.run with
  | none =>
      simp only [nextStep, running]
      exact .inl trivial
  | some run =>
      cases registered : w.registry.get? run.name with
      | none =>
          have none : w.selected? = none := by simp [selected?, selectedName?, running, registered]
          simp only [nextStep, running, none]
          exact .inl trivial
      | some p =>
          have selected : w.selected? = some p := by
            simp [selected?, selectedName?, running, registered]
          cases asked : p.mode? with
          | none =>
              simp only [nextStep, running, selected, asked]
              exact .inl trivial
          | some mode =>
              refine .inr ⟨run, p, mode, rfl, registered, asked, ?_⟩
              rw [nextStep_of_run now running registered asked]

end Walker

namespace Session

variable {L : Type}

open Walker

/-- The program is registered, no other one is running, and no anchor lies ahead of the clock. -/
structure Hosts (σ : Session L) (name : String) (p : Program) : Prop where
  registered : σ.walker.registry.get? name = some p
  named : ∀ run, σ.walker.run = some run → run.name = name
  behind : ∀ run, σ.walker.run = some run → ∀ servo, run.anchors.get servo ≤ σ.clock.now

theorem Hosts.get?_of_run {σ : Session L} {name : String} {p : Program} (hosts : σ.Hosts name p)
    {run : Run} (running : σ.walker.run = some run) :
    σ.walker.registry.get? run.name = some p := by
  rw [hosts.named run running]
  exact hosts.registered

/-- Nothing runs but in its main phase. -/
def InMain (σ : Session L) : Prop := ∀ run, σ.walker.run = some run → run.phase = .main

/-- Nothing runs but the last pass of the program, in its main phase and from these anchors. -/
structure LastPass (σ : Session L) (name : String) (p : Program) (anchors : Vector Int servoCount) :
    Prop where
  registered : σ.walker.registry.get? name = some p
  once : (p.looping && !σ.walker.shouldStop) = false
  standing : ∀ run, σ.walker.run = some run →
    run.name = name ∧ run.phase = .main ∧ run.anchors = anchors

variable [Link L]

namespace Ticks

variable {σ σ' : Session L} {firing : Option Firing}

theorem keeps (ticks : σ.Ticks firing σ') :
    σ'.walker.registry = σ.walker.registry ∧ σ'.walker.shouldStop = σ.walker.shouldStop := by
  cases ticks <;> exact ⟨rfl, rfl⟩

theorem run_eq (ticks : σ.Ticks firing σ') :
    σ'.walker.run = σ.walker.run ∨ σ'.walker.run = (σ.walker.nextStep σ.clock.now).2.run ∨
      σ'.walker.run = none := by
  cases ticks with
  | rests => exact .inl rfl
  | plays => exact .inr (.inl rfl)
  | ends => exact .inr (.inr rfl)

/-- What a tick fires is what is next. -/
theorem fires {fired : Firing} (ticks : σ.Ticks (some fired) σ') :
    σ.walker.selected? ≠ none ∧ fired = .ofNext (σ.walker.nextStep σ.clock.now).1 := by
  cases ticks with
  | plays selected _ next => exact ⟨by simp [selected], by rw [next]; rfl⟩
  | ends selected _ next => exact ⟨by simp [selected], by rw [next]; rfl⟩

end Ticks

section Performs

variable {σ σ' : Session L} {op : Operation} {outcome : Outcome} {name : String}

/-- Only registering under a name changes what stands there. -/
theorem Performs.get?_of_unregistered (performs : Performs σ op outcome σ')
    (unregistered : outcome ≠ .registered name) :
    σ'.walker.registry.get? name = σ.walker.registry.get? name := by
  cases performs with
  | registers p | loads _ _ p =>
      refine Registry.get?_insert_of_ne _ p fun same => unregistered ?_
      rw [same]
  | ticks => exact congrArg (·.get? name) σ.ticks.keeps.1
  | steps =>
      obtain ⟨run, eq, -⟩ := Walker.nextStep_eq σ.walker σ.clock.now
      rw [eq]
  | _ => rfl

theorem Performs.get?_registry (performs : Performs σ op outcome σ')
    (undisturbed : op.disturbs name outcome = false) :
    σ'.walker.registry.get? name = σ.walker.registry.get? name := by
  refine performs.get?_of_unregistered ?_
  rintro rfl
  cases performs <;> simp [Operation.disturbs] at undisturbed

/-- A stop request is not taken back. -/
theorem Performs.shouldStop (performs : Performs σ op outcome σ')
    (undisturbed : op.disturbs name outcome = false) (asked : σ.walker.shouldStop = true) :
    σ'.walker.shouldStop = true := by
  cases performs with
  | selects | steps => cases undisturbed
  | deselects | requests => rfl
  | ticks => exact σ.ticks.keeps.2.trans asked
  | _ => exact asked

/-- A run that is not disturbed stays as it is, goes one step on, or ends. -/
theorem Performs.run_eq (performs : Performs σ op outcome σ')
    (undisturbed : op.disturbs name outcome = false) {run' : Run}
    (running : σ'.walker.run = some run') :
    σ.walker.run = some run' ∨
      ∃ run p mode, σ.walker.run = some run ∧ σ.walker.registry.get? run.name = some p ∧
        p.mode? = some mode ∧
        run' = (run.next p mode σ.walker.shouldStop (instantOfCount σ.clock.now)).2 := by
  cases performs with
  | selects | steps => cases undisturbed
  | ticks =>
      rcases σ.ticks.run_eq with same | next | ended
      · exact .inl (same.symm.trans running)
      · rcases σ.walker.run_nextStep σ.clock.now with
          same | ⟨run, p, mode, stood, registered, asked, on⟩
        · exact .inl (same.symm.trans (next.symm.trans running))
        · refine .inr ⟨run, p, mode, stood, registered, asked, ?_⟩
          exact Option.some.inj (running.symm.trans (next.trans on))
      · cases ended.symm.trans running
  | _ => exact .inl running

/-- Only ticks fire. -/
theorem Performs.fires (performs : Performs σ op outcome σ') {firing : Firing}
    (fires : outcome.firing? = some firing) :
    σ.walker.selected? ≠ none ∧ firing = .ofNext (σ.walker.nextStep σ.clock.now).1 := by
  cases performs with
  | ticks =>
      have ticks := σ.ticks
      rw [show (σ.perform .tick).1.firing? = some firing from fires] at ticks
      exact ticks.fires
  | _ => cases fires

end Performs

/-! ## What stays true of the program -/

/-- The milliseconds of a clock are too few to exceed an instant. -/
theorem instantOfCount_now {clock : Clock} (counted : clock.microseconds ≤ countMax) :
    instantOfCount clock.now = clock.now := by
  unfold instantOfCount Clock.now instantMax
  unfold countMax at counted
  omega

/-- A run is in its setup phase, and a tick now leaves it. -/
def LeavesSetup (σ : Session L) : Prop :=
  σ.walker.run.map (·.phase) = some .setup ∧
    (σ.perform .tick).2.walker.run.map (·.phase) ≠ some .setup

instance (σ : Session L) : Decidable σ.LeavesSetup :=
  inferInstanceAs (Decidable (_ ∧ _))

theorem LeavesSetup.inMain {σ : Session L} (leaves : σ.LeavesSetup) :
    (σ.perform .tick).2.InMain := by
  intro run running
  cases phase : run.phase with
  | main => rfl
  | setup => exact (leaves.2 (by rw [running, ← phase]; rfl)).elim

section Performs

variable {σ σ' : Session L} {op : Operation} {outcome : Outcome} {name : String} {p : Program}

theorem Performs.hosts (performs : Performs σ op outcome σ') (hosts : σ.Hosts name p)
    (undisturbed : op.disturbs name outcome = false) (forward : p.Forward)
    (counted : σ.clock.microseconds ≤ countMax) : σ'.Hosts name p := by
  have later : (σ.clock.now : Int) ≤ σ'.clock.now :=
    Int.ofNat_le.2 (Nat.div_le_div_right (performs.clock_mono counted).1)
  refine ⟨(performs.get?_registry undisturbed).trans hosts.registered, fun run' running => ?_,
    fun run' running => ?_⟩
  · rcases performs.run_eq undisturbed running with stood | ⟨run, q, mode, stood, -, -, rfl⟩
    · exact hosts.named run' stood
    · exact Run.name_next.trans (hosts.named run stood)
  · rcases performs.run_eq undisturbed running with stood | ⟨run, q, mode, stood, found, -, rfl⟩
    · exact fun servo => Int.le_trans (hosts.behind run' stood servo) later
    · obtain ⟨started, bounded⟩ := instantOfCount_mem σ.clock.now
      have here : instantOfCount σ.clock.now = σ.clock.now := instantOfCount_now counted
      cases found.symm.trans (hosts.get?_of_run stood)
      have behind := hosts.behind run stood
      rw [← here] at behind later
      exact fun servo =>
        Int.le_trans (Run.anchors_next_le forward started bounded behind servo) later

theorem Performs.inMain (performs : Performs σ op outcome σ') (main : σ.InMain)
    (undisturbed : op.disturbs name outcome = false) : σ'.InMain := by
  intro run' running
  rcases performs.run_eq undisturbed running with stood | ⟨run, q, mode, stood, -, -, rfl⟩
  · exact main run' stood
  · exact Run.phase_next (main run stood)

theorem Performs.lastPass (performs : Performs σ op outcome σ') {anchors : Vector Int servoCount}
    (pass : σ.LastPass name p anchors) (computed : p.mode = .ok .mot)
    (undisturbed : op.disturbs name outcome = false) :
    σ'.LastPass name p anchors ∧ ∀ firing, outcome.firing? = some firing →
      p.Answers (fun servo => elapsed (instantOfCount σ.clock.now) (anchors.get servo)) firing := by
  have asked := Program.mode?_eq_some_of_mode computed
  refine ⟨⟨(performs.get?_registry undisturbed).trans pass.registered, ?_, fun run' running => ?_⟩,
    fun firing fired => ?_⟩
  · cases looping : p.looping with
    | false => rfl
    | true =>
        have once := pass.once
        rw [looping, Bool.true_and, Bool.not_eq_false'] at once
        rw [performs.shouldStop undisturbed once]
        rfl
  · rcases performs.run_eq undisturbed running with
      stood | ⟨run, q, mode, stood, found, mode_eq, rfl⟩
    · exact pass.standing run' stood
    · obtain ⟨named, main, anchored⟩ := pass.standing run stood
      rw [named, pass.registered] at found
      cases found
      cases asked.symm.trans mode_eq
      rw [Run.next_of_main_computed main, pass.once, Run.run_nextComputed_once]
      exact ⟨named, main, anchored⟩
  · obtain ⟨selected, rfl⟩ := performs.fires fired
    cases stood : σ.walker.run with
    | none => exact (selected (by simp [selected?, selectedName?, stood])).elim
    | some run =>
        obtain ⟨rfl, main, rfl⟩ := pass.standing run stood
        rw [nextStep_of_run _ stood pass.registered asked, Run.next_of_main_computed main,
          pass.once]
        exact Run.nextComputed_once

end Performs

/-! ## Where the last pass begins -/

section Begins

variable {σ σ' : Session L} {name : String} {p : Program} {run : Run}

end Begins

/-! ## Runs -/

/-- What operations fire, with the reading of the clock at that moment. -/
def timedFirings (σ : Session L) : List Operation → List (Nat × Firing)
  | [] => []
  | op :: ops =>
    (σ.perform op).1.firing?.toList.map (σ.clock.now, ·) ++ (σ.perform op).2.timedFirings ops

section Runs

variable {σ : Session L} {name : String} {p : Program}

theorem mem_timedFirings_cons {op : Operation} {ops : List Operation} {e : Nat × Firing}
    (member : e ∈ σ.timedFirings (op :: ops)) :
    (e.1 = σ.clock.now ∧ (σ.perform op).1.firing? = some e.2) ∨
      e ∈ (σ.perform op).2.timedFirings ops := by
  rw [timedFirings, List.mem_append, List.mem_map] at member
  refine member.imp_left ?_
  rintro ⟨firing, fires, rfl⟩
  exact ⟨rfl, Option.mem_toList.1 fires⟩

/-- The last pass goes on to the end of the cycle, and all firings answer to its anchors. -/
theorem LastPass.after {anchors : Vector Int servoCount} (pass : σ.LastPass name p anchors)
    (computed : p.mode = .ok .mot) (ops : List Operation)
    (undisturbed : ∀ e ∈ σ.history ops, e.1.disturbs name e.2 = false) :
    (σ.after ops).LastPass name p anchors ∧ ∀ e ∈ σ.timedFirings ops,
      p.Answers (fun servo => elapsed (instantOfCount e.1) (anchors.get servo)) e.2 := by
  induction ops generalizing σ with
  | nil => exact ⟨pass, nofun⟩
  | cons op ops ih =>
      obtain ⟨here, later⟩ := List.forall_mem_cons.1 undisturbed
      obtain ⟨pass', answers⟩ := (σ.performs op).lastPass pass computed here
      obtain ⟨pass'', answers'⟩ := ih pass' later
      refine ⟨pass'', fun e member => ?_⟩
      rcases mem_timedFirings_cons member with ⟨now, fires⟩ | fired
      · rw [now]
        exact answers e.2 fires
      · exact answers' e fired

end Runs

/-- Selecting a registered program makes it the one that runs. -/
theorem hosts_of_selected {σ σ₀ : Session L} {name : String} {p : Program}
    (counted : σ.clock.microseconds ≤ countMax)
    (registered : σ.walker.registry.get? name = some p)
    (selected : σ.perform (.select name) = (.selected, σ₀)) :
    σ₀.Hosts name p ∧ σ₀.clock = σ.clock := by
  have performs := σ.performs (.select name)
  rw [selected] at performs
  cases performs with
  | selects =>
      refine ⟨⟨registered, fun run running => ?_, fun run running servo => ?_⟩, rfl⟩
      · cases running
        rfl
      · cases running
        refine Eq.trans_le (Vector.getElem_replicate servo.isLt) ?_
        exact Int.le_of_eq (instantOfCount_now counted)

end Session

end Gait

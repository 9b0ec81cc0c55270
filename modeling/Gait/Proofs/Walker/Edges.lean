import Gait.Proofs.Walker.Answers
import Gait.Proofs.Walker.Coherence
import Gait.Proofs.Walker.Playing

/-!
# Edges between activities

The activity of a walker is put together from four of its parts: the run, the registry, and the two
stop flags.  `Edge` lists the ways in which it can move, by what the operation answered, and
`Performs.edge` says that every operation on a coherent walker takes one of them.  Without a
selection an edge leads onward, never back (`Edge.onward`), and so does a run of edges
(`onward_after`).

The main statement reads off the edges how a walker becomes idle, running and stopping, and what a
refusing policy adds: a name that was selected stays selected to the end of its cycle.
-/

namespace Gait

namespace Activity

/-- What a walker with a run is seen to do, by whether a stop was requested. -/
def busy (asked : Bool) (mode : Mode) (phase : Phase) : Activity :=
  if asked then .stopping mode phase else .running mode phase

/-- The phase of an activity, unless it is idle. -/
def phase? : Activity → Option Phase
  | idle => none
  | running _ phase | stopping _ phase => some phase

/-- Whether a stop was requested of what is running. -/
def asked? : Activity → Option Bool
  | idle => none
  | running _ _ => some false
  | stopping _ _ => some true

section Busy

variable {asked : Bool} {mode : Mode} {phase : Phase}

@[simp] theorem phase?_busy : (busy asked mode phase).phase? = some phase := by
  cases asked <;> rfl

@[simp] theorem asked?_busy : (busy asked mode phase).asked? = some asked := by
  cases asked <;> rfl

@[simp] theorem busy_ne_idle : busy asked mode phase ≠ idle := by
  cases asked <;> nofun

end Busy

/-- The second activity can follow the first without a selection: what is idle stays idle, the main
phase is not left for the setup phase, and a stop request is not taken back. -/
structure Onward (a b : Activity) : Prop where
  idle : a = .idle → b = .idle
  main : a.phase? = some .main → b.phase? ≠ some .setup
  stopping : a.asked? = some true → b.asked? ≠ some false

namespace Onward

variable {a b c : Activity}

theorem refl (a : Activity) : Onward a a where
  idle := id
  main := by
    intro main setup
    cases main.symm.trans setup
  stopping := by
    intro stopping running
    cases stopping.symm.trans running

theorem of_idle (a : Activity) : Onward a .idle := ⟨fun _ => rfl, nofun, nofun⟩

theorem trans (first : Onward a b) (second : Onward b c) : Onward a c where
  idle h := second.idle (first.idle h)
  main h := by
    have notSetup := first.main h
    cases b with
    | idle =>
        rw [second.idle rfl]
        nofun
    | running mode phase | stopping mode phase =>
        cases phase with
        | setup => exact (notSetup rfl).elim
        | main => exact second.main rfl
  stopping h := by
    have notRunning := first.stopping h
    cases b with
    | idle =>
        rw [second.idle rfl]
        nofun
    | running mode phase => exact (notRunning rfl).elim
    | stopping mode phase => exact second.stopping rfl

end Onward

end Activity

/-! ## Edges -/

namespace Outcome

/-- Whether the next step was asked for, by a tick that played it or on its own. -/
def takesStep : Outcome → Bool
  | ticked status _ => status.plays
  | next _ => true
  | _ => false

theorem takesStep_eq_false_of_finish {outcome : Outcome}
    (finished : outcome.firing? = some .finish) : outcome.takesStep = false := by
  unfold firing? at finished
  split at finished
  · rfl
  · simp at finished

end Outcome

/-- The ways in which an activity can move, by what the operation answered. -/
inductive Edge : Outcome → Activity → Activity → Prop
  /-- A selection starts a run in its setup phase, whatever went on before. -/
  | starts (before : Activity) (mode : Mode) : Edge .selected before (.running mode .setup)
  /-- A stop is requested of what is running. -/
  | asks (mode : Mode) (phase : Phase) :
    Edge .stopRequested (.running mode phase) (.stopping mode phase)
  /-- The step behind the setup steps is taken. -/
  | enters {outcome : Outcome} (steps : outcome.takesStep = true) (asked : Bool) (mode : Mode) :
    Edge outcome (.busy asked mode .setup) (.busy asked mode .main)
  /-- A tick ends the cycle. -/
  | ends (lastStep : Option Step) (asked : Bool) (mode : Mode) (phase : Phase) :
    Edge (.ticked .endOfCycle lastStep) (.busy asked mode phase) .idle
  /-- The program that is running is registered anew, perhaps for another mode. -/
  | replaces (name : String) (asked : Bool) (mode mode' : Mode) (phase : Phase) :
    Edge (.registered name) (.busy asked mode phase) (.busy asked mode' phase)
  | stays {outcome : Outcome} (a : Activity) (unselected : outcome ≠ .selected)
    (unfinished : outcome.firing? ≠ some .finish)
    (unasked : outcome = .stopRequested → a.asked? ≠ some false) : Edge outcome a a

namespace Edge

variable {outcome : Outcome} {a b : Activity}

/-- Taking a step may leave the activity as it is. -/
theorem stays_of_takesStep (steps : outcome.takesStep = true) (a : Activity) :
    Edge outcome a a := by
  refine .stays a ?_ (fun finished => ?_) ?_
  · rintro rfl
    cases steps
  · cases steps.symm.trans (Outcome.takesStep_eq_false_of_finish finished)
  · rintro rfl
    cases steps

theorem onward (edge : Edge outcome a b) (unselected : outcome ≠ .selected) : a.Onward b := by
  cases edge with
  | starts => exact (unselected rfl).elim
  | asks => exact ⟨nofun, by rintro ⟨⟩; nofun, nofun⟩
  | enters => exact ⟨fun idle => (Activity.busy_ne_idle idle).elim, by simp, by simp⟩
  | ends => exact .of_idle _
  | replaces =>
      refine ⟨fun idle => (Activity.busy_ne_idle idle).elim, ?_, by simp⟩
      simp only [Activity.phase?_busy]
      rintro ⟨⟩
      nofun
  | stays => exact .refl a

/-- What is busy becomes idle at the end of a cycle and at no other time. -/
theorem firing?_eq_finish_iff (edge : Edge outcome a b) (busy : a ≠ .idle) :
    outcome.firing? = some .finish ↔ b = .idle := by
  cases edge with
  | starts | asks => exact iff_of_false nofun nofun
  | enters steps =>
      refine iff_of_false (fun finished => ?_) Activity.busy_ne_idle
      cases steps.symm.trans (Outcome.takesStep_eq_false_of_finish finished)
  | ends => exact iff_of_true rfl rfl
  | replaces => exact iff_of_false nofun Activity.busy_ne_idle
  | stays _ _ unfinished => exact iff_of_false unfinished busy

/-- A selection leads to a run in its setup phase. -/
theorem of_selected (edge : Edge .selected a b) : ∃ mode, b = .running mode .setup := by
  cases edge with
  | starts _ mode => exact ⟨mode, rfl⟩
  | enters steps => cases steps
  | stays _ unselected => exact (unselected rfl).elim

end Edge

/-! ## Operations take edges -/

theorem Run.phase_next_cases (run : Run) (p : Program) (mode : Mode) (shouldStop : Bool)
    (now : Int) :
    (run.next p mode shouldStop now).2.phase = run.phase ∨
      run.phase = .setup ∧ (run.next p mode shouldStop now).2.phase = .main := by
  cases before : run.phase with
  | setup =>
      cases after : (run.next p mode shouldStop now).2.phase with
      | setup => exact .inl rfl
      | main => exact .inr ⟨rfl, rfl⟩
  | main => exact .inl (phase_next before)

namespace Walker

variable {L : Type}

theorem activity_congr {w w' : Walker L} (run : w'.run = w.run)
    (registry : w'.registry = w.registry) (asked : w'.shouldStop = w.shouldStop) :
    w'.activity = w.activity := by
  simp only [activity, selected?, selectedName?, run, registry, asked]

theorem activity_of_run_eq_none {w : Walker L} (stopped : w.run = none) : w.activity = .idle := by
  simp [activity, stopped]

theorem activity_eq_busy {w : Walker L} {run : Run} {p : Program} {mode : Mode}
    (running : w.run = some run) (registered : w.registry.get? run.name = some p)
    (asked : p.mode? = some mode) : w.activity = .busy w.shouldStop mode run.phase := by
  simp [activity, selected?, selectedName?, running, registered, asked, Activity.busy]

namespace Coherent

variable {w : Walker L}

theorem busy_of_run (coherent : w.Coherent) {run : Run} (running : w.run = some run) :
    ∃ mode, w.activity = .busy w.shouldStop mode run.phase := by
  obtain ⟨p, mode, registered, -, valid⟩ := coherent.selected?_of_run running
  exact ⟨mode, activity_eq_busy running registered (Program.mode?_eq_some_of_mode valid)⟩

theorem isStopped_iff_idle (coherent : w.Coherent) : w.isStopped = true ↔ w.activity = .idle := by
  rw [coherent.stopped, coherent.activity_eq_idle_iff, selectedName?_eq_none_iff]

/-- Taking the next step keeps the activity or enters the main phase. -/
theorem edge_nextStep (coherent : w.Coherent) (now : Nat) {outcome : Outcome}
    (steps : outcome.takesStep = true) : Edge outcome w.activity (w.nextStep now).2.activity := by
  cases running : w.run with
  | none =>
      have same : (w.nextStep now).2 = w := by simp [Walker.nextStep, running]
      rw [same]
      exact .stays_of_takesStep steps _
  | some run =>
      obtain ⟨p, mode, registered, -, valid⟩ := coherent.selected?_of_run running
      have asked := Program.mode?_eq_some_of_mode valid
      have before := activity_eq_busy running registered asked
      have after : (w.nextStep now).2.activity =
          .busy w.shouldStop mode
            (run.next p mode w.shouldStop (instantOfCount now)).2.phase := by
        rw [nextStep_of_run now running registered asked]
        refine activity_eq_busy rfl ?_ asked
        rw [Run.name_next]
        exact registered
      rw [before, after]
      rcases run.phase_next_cases p mode w.shouldStop (instantOfCount now) with
        same | ⟨setup, main⟩
      · rw [same]
        exact .stays_of_takesStep steps _
      · rw [setup, main]
        exact .enters steps _ _

/-- Registering a program keeps the activity but for the mode. -/
theorem edge_registered {w' : Walker L} (coherent : w.Coherent) (coherent' : w'.Coherent)
    (run : w'.run = w.run) (asked : w'.shouldStop = w.shouldStop) (name : String) :
    Edge (.registered name) w.activity w'.activity := by
  cases running : w.run with
  | none =>
      rw [activity_of_run_eq_none running, activity_of_run_eq_none (run.trans running)]
      exact .stays _ nofun nofun nofun
  | some here =>
      obtain ⟨mode, before⟩ := coherent.busy_of_run running
      obtain ⟨mode', after⟩ := coherent'.busy_of_run (run.trans running)
      rw [before, after, asked]
      exact .replaces _ _ _ _ _

theorem edge_requestStop (coherent : w.Coherent) :
    Edge .stopRequested w.activity w.requestStop.activity := by
  have requested : w.requestStop.Coherent := coherent.of_eq rfl rfl rfl
  cases running : w.run with
  | none =>
      have running' : w.requestStop.run = none := running
      rw [activity_of_run_eq_none running, activity_of_run_eq_none running']
      exact .stays _ nofun nofun nofun
  | some run =>
      obtain ⟨p, mode, registered, -, valid⟩ := coherent.selected?_of_run running
      have asked := Program.mode?_eq_some_of_mode valid
      have running' : w.requestStop.run = some run := running
      rw [activity_eq_busy running registered asked, activity_eq_busy running' registered asked]
      cases w.shouldStop with
      | false => exact .asks mode run.phase
      | true => exact .stays _ nofun nofun fun _ => by simp

theorem edge_start (coherent : w.Coherent) {name : String}
    (registered : w.registry.contains name = true) (now : Nat) :
    Edge .selected w.activity (w.start now name).activity := by
  obtain ⟨mode, after⟩ := (coherent.start registered now).busy_of_run rfl
  rw [after]
  exact .starts _ mode

variable [Link L]

theorem edge_tick (coherent : w.Coherent) (now : Nat) :
    Edge (.ticked (w.tick now).1 (w.tick now).2.lastStep) w.activity
      (w.tick now).2.activity := by
  have replied : w.takeReply.activity = w.activity := activity_congr rfl rfl rfl
  rcases tick_cases w now with
    ⟨-, eq⟩ | ⟨p, selected, ⟨-, eq⟩ | ⟨-, step, -, eq⟩ | ⟨-, -, eq⟩⟩
  · rw [eq, replied]
    exact .stays _ nofun nofun nofun
  · rw [eq, replied]
    exact .stays _ nofun nofun nofun
  · rw [eq]
    obtain ⟨run, advanced, -⟩ := nextStep_eq w now
    have same : (w.played now step).activity = (w.nextStep now).2.activity := by
      refine activity_congr rfl ?_ ?_ <;> rw [advanced] <;> rfl
    rw [same]
    exact coherent.edge_nextStep now (plays_playStatus _)
  · rw [eq]
    cases running : w.run with
    | none => simp [selected?, selectedName?, running] at selected
    | some run =>
        obtain ⟨mode, before⟩ := coherent.busy_of_run running
        rw [before, activity_of_run_eq_none (w := w.ended now p) rfl]
        exact .ends _ _ _ _

end Coherent

end Walker

namespace Session

variable {L : Type} [Link L]

section Performs

variable {σ σ' : Session L} {op : Operation} {outcome : Outcome}

/-- Every operation on a coherent walker takes an edge. -/
theorem Performs.edge (performs : Performs σ op outcome σ') (coherent : σ.walker.Coherent) :
    Edge outcome σ.walker.activity σ'.walker.activity := by
  cases performs with
  | registers p valid | loads _ _ p valid =>
      exact coherent.edge_registered (coherent.insert valid) rfl rfl p.name
  | selects name registered => exact coherent.edge_start registered σ.clock.now
  | refusesRegister | refusesLoad | refusesSelect | refusesDeselect | advances =>
      exact .stays _ nofun nofun nofun
  | deselects | requests => exact coherent.edge_requestStop
  | ticks => exact coherent.edge_tick σ.clock.now
  | steps => exact coherent.edge_nextStep σ.clock.now rfl
  | sends | waits =>
      rw [Walker.activity_congr (w := σ.walker) rfl rfl rfl]
      exact .stays _ nofun nofun nofun

theorem Performs.policy (performs : Performs σ op outcome σ') :
    σ'.walker.policy = σ.walker.policy := by
  cases performs with
  | ticks =>
      rcases Walker.tick_cases σ.walker σ.clock.now with
        ⟨-, eq⟩ | ⟨p, -, ⟨-, eq⟩ | ⟨-, step, -, eq⟩ | ⟨-, -, eq⟩⟩ <;> rw [eq] <;> rfl
  | steps =>
      obtain ⟨run, eq, -⟩ := Walker.nextStep_eq σ.walker σ.clock.now
      rw [eq]
  | _ => rfl

/-- A refusing policy admits a selection only where nothing is selected. -/
theorem Performs.run_of_selected (performs : Performs σ op .selected σ')
    (refusing : σ.walker.policy = .rejectWhileRunning) : σ.walker.run = none := by
  cases performs with
  | selects name registered free => exact free refusing

/-- Without a selection, the selected name stays until the end of the cycle. -/
theorem Performs.selectedName?_eq (performs : Performs σ op outcome σ')
    (unselected : outcome ≠ .selected) (unfinished : outcome.firing? ≠ some .finish) :
    σ'.walker.selectedName? = σ.walker.selectedName? := by
  cases performs with
  | selects => exact (unselected rfl).elim
  | ticks =>
      rcases Walker.tick_cases σ.walker σ.clock.now with
        ⟨-, eq⟩ | ⟨p, -, ⟨-, eq⟩ | ⟨-, step, -, eq⟩ | ⟨-, -, eq⟩⟩
      · rw [eq]
        rfl
      · rw [eq]
        rfl
      · rw [eq]
        exact Walker.selectedName?_played
      · rw [eq] at unfinished
        exact (unfinished rfl).elim
  | steps =>
      obtain ⟨run, eq, name⟩ := Walker.nextStep_eq σ.walker σ.clock.now
      rw [eq]
      exact name
  | _ => rfl

end Performs

/-! ## Runs of operations -/

/-- Without a selection, the activity moves onward. -/
theorem onward_after {σ : Session L} (reachable : σ.Reachable) (ops : List Operation)
    (unselected : ∀ e ∈ σ.history ops, e.2 ≠ .selected) :
    σ.walker.activity.Onward (σ.after ops).walker.activity := by
  induction ops generalizing σ with
  | nil => exact .refl _
  | cons op ops ih =>
      obtain ⟨here, later⟩ := List.forall_mem_cons.1 unselected
      have edge := (σ.performs op).edge reachable.coherent
      exact (edge.onward here).trans (ih (reachable.perform op) later)

/-- Under a refusing policy, a selected name stays selected until the end of the cycle. -/
theorem selectedName?_after {σ : Session L} {name : String}
    (refusing : σ.walker.policy = .rejectWhileRunning)
    (selected : σ.walker.selectedName? = some name) (ops : List Operation)
    (unfinished : .finish ∉ firings (σ.history ops)) :
    (σ.after ops).walker.selectedName? = some name := by
  induction ops generalizing σ with
  | nil => exact selected
  | cons op ops ih =>
      have performs := σ.performs op
      rw [history, firings_cons, List.mem_append, not_or, Option.mem_toList] at unfinished
      have unselected : (σ.perform op).1 ≠ .selected := by
        intro again
        rw [again] at performs
        rw [Walker.selectedName?, performs.run_of_selected refusing] at selected
        cases selected
      exact ih (performs.policy.trans refusing)
        ((performs.selectedName?_eq unselected unfinished.1).trans selected) unfinished.2

/-- The activity of a session that can be reached moves along the edges.

One operation: what is idle is left only by a selection, which leads to a run in its setup phase; a
selection is cleared only by a tick that ends the cycle; the stop flag falls only by a selection and
rises only by such a tick; and a policy that refuses to replace a running program admits a selection
only from idle.

Any number of operations without a selection: the main phase is not left for the setup phase, and
stopping not for running.

Under a refusing policy: a selected name stays selected until its cycle ends. -/
theorem activity_moves_along_edges {σ : Session L} (reachable : σ.Reachable) :
    (∀ op, let outcome := (σ.perform op).1
      let before := σ.walker
      let after := (σ.perform op).2.walker
      Edge outcome before.activity after.activity ∧
        (before.activity = .idle → after.activity ≠ .idle → outcome = .selected) ∧
        (outcome = .selected → ∃ name mode, op = .select name ∧
          after.selectedName? = some name ∧ after.activity = .running mode .setup) ∧
        (before.selectedName? ≠ none → after.selectedName? = none →
          outcome.firing? = some .finish) ∧
        (before.isStopped = true → after.isStopped = false → outcome = .selected) ∧
        (before.isStopped = false → after.isStopped = true → outcome.firing? = some .finish) ∧
        (before.policy = .rejectWhileRunning → outcome = .selected → before.activity = .idle)) ∧
    (∀ ops, (∀ e ∈ σ.history ops, e.2 ≠ .selected) →
      let before := σ.walker.activity
      let after := (σ.after ops).walker.activity
      (before.phase? = some .main → after.phase? ≠ some .setup) ∧
        ∀ mode phase, before = .stopping mode phase →
          ∀ mode' phase', after ≠ .running mode' phase') ∧
    ∀ name σ₀, σ.walker.policy = .rejectWhileRunning →
      σ.perform (.select name) = (.selected, σ₀) →
      ∀ ops, .finish ∉ firings (σ₀.history ops) →
        (σ₀.after ops).walker.selectedName? = some name := by
  have coherent := reachable.coherent
  refine ⟨fun op => ?_, fun ops unselected => ?_,
    fun name σ₀ refusing selected ops unfinished => ?_⟩
  · have performs := σ.performs op
    have edge := performs.edge coherent
    have coherent' := performs.coherent coherent
    refine ⟨edge, fun idle left => ?_, fun selected => ?_, fun named cleared => ?_,
      fun stopped moving => ?_, fun moving stopped => ?_, fun refusing selected => ?_⟩
    · by_contra unselected
      exact left ((edge.onward unselected).idle idle)
    · rw [selected] at performs edge
      obtain ⟨mode, running⟩ := edge.of_selected
      generalize (σ.perform op).2 = σ' at performs running
      cases performs with
      | selects name => exact ⟨name, mode, rfl, rfl, running⟩
    · have busy : σ.walker.activity ≠ .idle := fun idle =>
        named (coherent.activity_eq_idle_iff.1 idle)
      exact (edge.firing?_eq_finish_iff busy).2 (coherent'.activity_eq_idle_iff.2 cleared)
    · by_contra unselected
      have idle := (edge.onward unselected).idle (coherent.isStopped_iff_idle.1 stopped)
      cases moving.symm.trans (coherent'.isStopped_iff_idle.2 idle)
    · have busy : σ.walker.activity ≠ .idle := fun idle => by
        cases moving.symm.trans (coherent.isStopped_iff_idle.2 idle)
      exact (edge.firing?_eq_finish_iff busy).2 (coherent'.isStopped_iff_idle.1 stopped)
    · rw [selected] at performs
      exact Walker.activity_of_run_eq_none (performs.run_of_selected refusing)
  · have onward := onward_after reachable ops unselected
    refine ⟨onward.main, fun mode phase stopping mode' phase' running => ?_⟩
    refine onward.stopping ?_ ?_
    · rw [stopping]
      rfl
    · rw [running]
      rfl
  · have performs := σ.performs (.select name)
    rw [selected] at performs
    refine selectedName?_after (performs.policy.trans refusing) ?_ ops unfinished
    cases performs with
    | selects => rfl

/-- A stop is requested in the main phase, and another selection is refused. -/
theorem edges_of_refusing_wave :
    let wave : Program := { name := "wave", use := some "prg", looping := true, main := #[.zero] }
    let σ : Session Link.Failing := ((start {} .rejectWhileRunning).perform (.register wave)).2
    let σ₀ := (σ.perform (.select "wave")).2
    let ops : List Operation := [.tick, .requestStop, .select "wave"]
    σ.Reachable ∧ σ.walker.policy = .rejectWhileRunning ∧
      σ.perform (.select "wave") = (.selected, σ₀) ∧ .finish ∉ firings (σ₀.history ops) ∧
      σ₀.walker.activity = .running .prg .setup ∧
      (σ₀.after ops).walker.activity = .stopping .prg .main ∧
      (σ₀.after ops).walker.selectedName? = some "wave" ∧
      Edge .selected .idle σ₀.walker.activity := by
  intro wave σ σ₀ ops
  have reachable : σ.Reachable := (Reachable.start (L := Link.Failing) {} _).perform _
  have selected : σ.perform (.select "wave") = (.selected, σ₀) := rfl
  have unfinished : .finish ∉ firings (σ₀.history ops) := by decide
  obtain ⟨moves, -, stays⟩ := activity_moves_along_edges reachable
  refine ⟨reachable, rfl, selected, unfinished, by decide, by decide,
    stays "wave" σ₀ rfl selected ops unfinished, ?_⟩
  exact (moves (.select "wave")).1

end Session

end Gait

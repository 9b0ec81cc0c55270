import Gait.Proofs.Drive.Listed
import Gait.Proofs.Walker.Looping

/-!
# Driving a program of motion functions

A drive takes a program of mode `mot` from its selection to the end of its cycle, and nothing in the
loop counts down to that.  Two things end it.  Once the setup steps are played and a stop was
requested, unless the program does not loop anyway, no anchor moves any more; and the clock moves by
at least a tick from one firing to the next.  So the time elapsed since the anchor of a servo comes
to be past all its functions, if the clock lasts that long.

`Drive.Computing` is the invariant of the loop.  `Drive.Awaiting` adds when the next firing is due,
and leads to the firing from which on the anchors stand still; `Drive.Ending` is the invariant from
there on, and `Ending.ends` is an induction on what is left of the clock.
-/

namespace Gait

/-! ## When steps are due -/

/-- How long a program of mode `mot` waits behind the firing that has `k` others before it. -/
def Program.pause (p : Program) (k : Nat) : Nat := p.setup[k]?.elim p.tick Step.delay

/-- The time at which a drive fires a program of mode `mot` behind `k` steps, if the first firing is
at `start`. -/
def Program.computedDue (p : Program) (poll start : Nat) : Nat → Nat
  | 0 => start
  | k + 1 =>
    let last := p.computedDue poll start k
    last + poll * sleeps poll last (p.pause k)

theorem Program.computedDue_mono {p : Program} {poll start k n : Nat} (order : k ≤ n) :
    p.computedDue poll start k ≤ p.computedDue poll start n := by
  induction order with
  | refl => exact Nat.le_refl _
  | step _ ih => exact ih.trans (Nat.le_add_right _ _)

theorem Program.pause_of_setup_over {p : Program} {k : Nat} (past : p.setup.size ≤ k) :
    p.pause k = p.tick := by
  rw [pause, Array.getElem?_eq_none past, Option.elim_none]

/-- A program in its last pass stays in it, since no stop request is taken back. -/
theorem Program.once_of_kept {p : Program} {asked asked' : Bool}
    (once : (p.looping && !asked) = false) (kept : asked = true → asked' = true) :
    (p.looping && !asked') = false := by
  cases stop : asked with
  | true => rw [kept stop, Bool.not_true, Bool.and_false]
  | false =>
      rw [stop, Bool.not_false, Bool.and_true] at once
      rw [once, Bool.false_and]

/-! ## One step of a run -/

namespace Run

variable {run : Run} {p : Program} {k : Nat} {last now : Int} {again shouldStop : Bool}

/-- A run of a program of mode `mot` stands behind `k` firings, the last of them at `last`: in its
setup phase, or with a value of every track for the time that had elapsed then. -/
inductive Computes (run : Run) (p : Program) (k : Nat) (last : Int) : Prop
  | setup (phase : run.phase = .setup) (cursor : run.cursor = k)
  | main (phase : run.phase = .main) (past : p.setup.size ≤ k)
    (covered : ¬p.RunsOut (run.times last))

/-- A firing that has `k` others before it plays a step and takes a run on to the next. -/
structure Goes (run : Run) (p : Program) (k : Nat) (again : Bool) (now : Int) (step : Step)
    (next : Run) : Prop where
  computes : next.Computes p (k + 1) now
  delay : step.delay = p.pause k
  main : p.setup.size ≤ k → next.phase = .main
  stays : run.phase = .main → again = false → next.anchors = run.anchors

theorem nextComputed_of_some {step : Step} (next : (run.nextComputed p again now).1 = some step) :
    step.delay = p.tick ∧ ¬p.RunsOut ((run.nextComputed p again now).2.times now) ∧
      (run.nextComputed p again now).2.phase = run.phase := by
  have answers := run.nextComputed_answers p again now
  rw [next] at answers
  obtain ⟨anchors, eq⟩ := run.run_nextComputed p again now
  refine ⟨answers.2.delay, answers.1, ?_⟩
  rw [eq]

/-- If there is a next step, the run goes on. -/
theorem Computes.goes (computes : run.Computes p k last) {step : Step}
    (next : (run.next p .mot shouldStop now).1 = some step) :
    run.Goes p k (p.looping && !shouldStop) now step (run.next p .mot shouldStop now).2 := by
  cases computes with
  | setup phase cursor =>
      have unmoved : run.phase = .main → (p.looping && !shouldStop) = false →
          (run.next p .mot shouldStop now).2.anchors = run.anchors := by
        intro main
        cases phase.symm.trans main
      cases listed : p.setup[run.cursor]? with
      | some first =>
          have inside : run.cursor < p.setup.size := (Array.getElem?_eq_some_iff.1 listed).1
          rw [next_of_setup_left phase listed] at next unmoved ⊢
          cases next
          rw [cursor] at listed inside
          refine ⟨.setup phase (congrArg (· + 1) cursor), ?_, fun past => ?_, unmoved⟩
          · rw [Program.pause, listed, Option.elim_some]
          · omega
      | none =>
          have past : p.setup.size ≤ k := cursor ▸ Array.getElem?_eq_none_iff.1 listed
          rw [next_of_setup_over phase listed] at next unmoved ⊢
          obtain ⟨delay, covered, main⟩ := nextComputed_of_some next
          refine ⟨.main main (past.trans k.le_succ) covered, ?_, fun _ => main, unmoved⟩
          rw [delay, Program.pause_of_setup_over past]
  | main phase past _ =>
      rw [next_of_main_computed phase] at next ⊢
      obtain ⟨delay, covered, main⟩ := nextComputed_of_some next
      refine ⟨.main (main.trans phase) (past.trans k.le_succ) covered, ?_,
        fun _ => main.trans phase, fun _ once => ?_⟩
      · rw [delay, Program.pause_of_setup_over past]
      · rw [once, run_nextComputed_once]

end Run

/-! ## Iterations -/

namespace Drive

variable {L : Type}

/-- The loop stands before an iteration: `k` steps of the program were fired and its cycle has not
ended. -/
structure Computing (d : Drive L) (clock : Clock) (name : String) (p : Program)
    (planned : Option Nat) (k : Nat) : Prop where
  counted : clock.microseconds ≤ countMax
  plan : d.planned = planned
  hosts : (⟨d.walker, clock⟩ : Session L).Hosts name p
  stands : ∃ run, d.walker.run = some run ∧ run.Computes p k (instantOfCount d.walker.lastTick)
  fired : d.summary.steps = k
  asked : d.summary.stopRequested = d.walker.shouldStop
  sought : d.walker.shouldStop = true → planned ≠ none

/-- The cycle has ended, and without a stop request if none was planned. -/
structure Over (d : Drive L) (planned : Option Nat) : Prop where
  stopped : d.walker.run = none
  isStopped : d.walker.isStopped = true
  asked : d.summary.stopRequested = d.walker.shouldStop
  sought : d.summary.stopRequested = true → planned ≠ none

namespace Computing

variable {d : Drive L} {clock : Clock} {name : String} {p : Program} {planned : Option Nat}
  {k : Nat}

/-- Before the tick of an iteration a stop is requested, if it is time for the planned one; nothing
else changes. -/
theorem requestStop (computing : d.Computing clock name p planned k) :
    d.requestStop.Computing clock name p planned k ∧
      (d.requestStop.walker = d.walker ∨ d.requestStop.walker = d.walker.requestStop) ∧
      ∀ j, planned = some j → j ≤ k → d.requestStop.walker.shouldStop = true := by
  obtain ⟨run, running, computes⟩ := computing.stands
  by_cases reached : (!d.summary.stopRequested && (d.limitReached || d.shutdown)) = true
  · have request : d.requestStop = { d with
        walker := d.walker.requestStop, summary := { d.summary with stopRequested := true } } := by
      simp only [Drive.requestStop, reached, if_true, Walker.deselect, running]
    obtain ⟨j, planned_eq, -⟩ := d.reached_iff.1 (Bool.and_eq_true_iff.1 reached).2
    rw [computing.plan] at planned_eq
    have hosts := computing.hosts
    rw [request]
    refine ⟨⟨computing.counted, computing.plan, ⟨hosts.registered, hosts.named, hosts.behind⟩,
      ⟨run, running, computes⟩, computing.fired, rfl, fun _ none => ?_⟩, .inr rfl,
      fun _ _ _ => rfl⟩
    cases planned_eq.symm.trans none
  · have same : d.requestStop = d := by rw [Drive.requestStop, if_neg reached]
    rw [same]
    refine ⟨computing, .inl rfl, fun j planned_eq passed => ?_⟩
    rw [← computing.asked]
    by_contra unasked
    refine reached (Bool.and_eq_true_iff.2 ⟨?_, d.reached_iff.2 ⟨j, ?_, ?_⟩⟩)
    · rw [Bool.not_eq_true] at unasked
      rw [unasked, Bool.not_false]
    · rw [computing.plan, planned_eq]
    · rwa [computing.fired]

/-- Asking for a stop leaves the run and the wait as they are. -/
theorem keeps (computing : d.Computing clock name p planned k) :
    d.requestStop.walker.lastTick = d.walker.lastTick ∧
      d.requestStop.walker.wait = d.walker.wait ∧ d.requestStop.walker.run = d.walker.run ∧
      (d.walker.shouldStop = true → d.requestStop.walker.shouldStop = true) := by
  rcases computing.requestStop.2.1 with same | asked
  · rw [same]
    exact ⟨rfl, rfl, rfl, id⟩
  · rw [asked]
    exact ⟨rfl, rfl, rfl, fun _ => rfl⟩

theorem selected?_eq (computing : d.Computing clock name p planned k) :
    d.walker.selected? = some p := by
  obtain ⟨run, running, -⟩ := computing.stands
  rw [Walker.selected?, Walker.selectedName?, running]
  exact computing.hosts.get?_of_run running

variable [Link L]

/-- An iteration before the wait is over sleeps. -/
theorem waits (computing : d.Computing clock name p planned k) (forward : p.Forward)
    (early : clock.now - d.walker.lastTick < d.walker.wait) (poll : Nat) :
    ∃ d', d.step clock.now = (.sleep, d') ∧ d'.Computing (clock.advance poll) name p planned k ∧
      d'.walker.lastTick = d.walker.lastTick ∧ d'.walker.wait = d.walker.wait ∧
      d'.walker.run = d.walker.run ∧
      (d.walker.shouldStop = true → d'.walker.shouldStop = true) := by
  obtain ⟨ready, -, -⟩ := computing.requestStop
  obtain ⟨lastTick, wait, run, asked⟩ := computing.keeps
  rw [← lastTick, ← wait] at early
  have ticked : d.requestStop.walker.tick clock.now =
      (.waiting, d.requestStop.walker.takeReply) := by
    rw [Walker.tick_eq, ready.selected?_eq]
    exact if_pos early
  have advanced := (⟨d.requestStop.walker.takeReply, clock⟩ : Session L).performs (.advance poll)
  have hosts : (⟨d.requestStop.walker.takeReply, clock⟩ : Session L).Hosts name p :=
    ⟨ready.hosts.registered, ready.hosts.named, ready.hosts.behind⟩
  refine ⟨_, step_eq_of_tick ticked, ⟨(advanced.clock_mono ready.counted).2, ready.plan, ?_,
    ready.stands, ready.fired, ready.asked, ready.sought⟩, lastTick, wait, run, asked⟩
  exact advanced.hosts hosts rfl forward ready.counted

/-- An iteration for which the wait is over plays a step or ends the cycle. -/
theorem fires (computing : d.Computing clock name p planned k) (forward : p.Forward)
    (computed : p.mode = .ok .mot) (due : d.walker.wait ≤ clock.now - d.walker.lastTick) :
    (∃ d' run step next, d.step clock.now = (.again, d') ∧
      d'.Computing clock name p planned (k + 1) ∧
      d'.walker.lastTick = clock.now ∧ d'.walker.wait = p.pause k ∧
      d'.walker.shouldStop = d.requestStop.walker.shouldStop ∧
      d.walker.run = some run ∧ d'.walker.run = some next ∧
      run.Goes p k (p.looping && !d'.walker.shouldStop) (instantOfCount clock.now) step next) ∨
    ∃ d', d.step clock.now = (.finished, d') ∧ d'.Over planned := by
  obtain ⟨ready, -, -⟩ := computing.requestStop
  obtain ⟨lastTick, wait, same, -⟩ := computing.keeps
  rw [← lastTick, ← wait] at due
  obtain ⟨run, running, computes⟩ := ready.stands
  have hosts := (Session.performs ⟨d.requestStop.walker, clock⟩ .tick).hosts ready.hosts rfl forward
    ready.counted
  dsimp only [Session.perform] at hosts
  have advanced := Walker.nextStep_of_run clock.now running (ready.hosts.get?_of_run running)
    (Program.mode?_eq_some_of_mode computed)
  rcases Walker.tick_cases d.requestStop.walker clock.now with
    ⟨none, -⟩ | ⟨q, selected, ⟨early, -⟩ | ⟨-, step, next, ticked⟩ | ⟨-, next, ticked⟩⟩
  · cases none.symm.trans ready.selected?_eq
  · exact absurd due (Nat.not_le.2 early)
  · obtain ⟨result, status⟩ : ∃ result, Walker.playStatus result =
        (d.requestStop.walker.tick clock.now).1 := ⟨_, (congrArg Prod.fst ticked).symm⟩
    have plays := Walker.plays_playStatus result
    rw [status, ticked] at plays
    have fired := step_eq_of_tick ticked
    rw [count_of_plays plays] at fired
    have counted := count_steps d.requestStop.summary (d.requestStop.walker.tick clock.now).1
    rw [ticked, ready.fired, if_pos plays] at counted
    rw [ticked] at hosts
    have next' : (run.next p .mot d.requestStop.walker.shouldStop
        (instantOfCount clock.now)).1 = some step := by
      rwa [advanced] at next
    have goes := computes.goes next'
    have later : (d.requestStop.walker.played clock.now step).run =
        some (run.next p .mot d.requestStop.walker.shouldStop (instantOfCount clock.now)).2 := by
      rw [Walker.played, advanced]
    exact .inl ⟨_, run, step, _, fired, ⟨ready.counted, ready.plan, hosts,
      ⟨_, later, goes.computes⟩, counted, (count_stopRequested ..).trans ready.asked, ready.sought⟩,
      rfl, goes.delay, rfl, same.symm.trans running, later, goes⟩
  · refine .inr ⟨_, step_eq_of_tick ticked, rfl, rfl, ready.asked, fun asked => ?_⟩
    exact ready.sought (ready.asked.symm.trans asked)

end Computing

/-! ## The last pass -/

/-- The loop is in the last pass: its anchors, of which none is past the reading `settled`, move no
more, and the last firing played a step. -/
structure Ending (d : Drive L) (clock : Clock) (name : String) (p : Program)
    (planned : Option Nat) (settled k : Nat) : Prop where
  computing : d.Computing clock name p planned k
  past : p.setup.size ≤ k
  once : (p.looping && !d.walker.shouldStop) = false
  wait : d.walker.wait = p.tick
  behind : d.walker.lastTick ≤ clock.now
  anchored : ∀ run, d.walker.run = some run →
    run.phase = .main ∧ ∀ servo, run.anchors.get servo ≤ settled

namespace Ending

variable {d : Drive L} {clock : Clock} {name : String} {p : Program}
  {planned : Option Nat} {poll settled k : Nat} {servo : Fin servoCount}

/-- If the clock lasts for a tick past all functions of a servo, it lasts for another tick. -/
theorem tick_le (ending : d.Ending clock name p planned settled k)
    (room : ∀ f ∈ p.tracks.get servo, settled + f.last + p.tick ≤ (countMax / 1000 : Nat)) :
    d.walker.lastTick + p.tick ≤ countMax / 1000 := by
  obtain ⟨run, running, computes⟩ := ending.computing.stands
  obtain ⟨main, anchors⟩ := ending.anchored run running
  cases computes with
  | setup phase => cases main.symm.trans phase
  | main _ _ covered =>
      obtain ⟨f, member, covers⟩ : ∃ f ∈ p.tracks.get servo,
          f.covers (run.times (instantOfCount d.walker.lastTick) servo) = true := by
        by_contra none
        refine covered ⟨servo, fun f member => ?_⟩
        rw [← Bool.not_eq_true]
        exact fun covers => none ⟨f, member, covers⟩
      have reached := (MotionFunction.covers_iff.1 covers).2
      have lasts := room f member
      have anchor := anchors servo
      have counted := ending.computing.counted
      have behind := ending.behind
      unfold Run.times elapsed clampInstant instantOfCount instantMin instantMax at reached
      unfold Clock.now at behind
      unfold countMax at counted lasts ⊢
      omega

variable [Link L]

/-- The loop ends, since some servo's time comes to be past all its functions. -/
theorem ends (ending : d.Ending clock name p planned settled k) (forward : p.Forward)
    (computed : p.mode = .ok .mot) (ticking : 1 ≤ p.tick) (moves : 0 < poll)
    (room : ∀ f ∈ p.tracks.get servo, settled + f.last + p.tick ≤ (countMax / 1000 : Nat)) :
    ∃ d' clock', Ends poll d clock d' clock' ∧ d'.Over planned := by
  -- Sleeping uses up the clock, and between two firings at one time there is a sleep.
  induction left : 2 * (countMax - clock.microseconds) +
      (if d.walker.wait ≤ clock.now - d.walker.lastTick then 1 else 0)
      using Nat.strongRecOn generalizing d clock k with
  | _ n ih =>
      have computing := ending.computing
      by_cases due : d.walker.wait ≤ clock.now - d.walker.lastTick
      · rw [if_pos due] at left
        rcases computing.fires forward computed due with
          ⟨d', run, step, next, fired, later, lastTick, wait, asked, running, running', goes⟩ |
            ⟨d', finished, closed⟩
        · rw [Program.pause_of_setup_over ending.past] at wait
          have once : (p.looping && !d'.walker.shouldStop) = false := by
            rw [asked]
            exact Program.once_of_kept ending.once computing.keeps.2.2.2
          obtain ⟨main, anchors⟩ := ending.anchored run running
          have ending' : d'.Ending clock name p planned settled (k + 1) := by
            refine ⟨later, ending.past.trans k.le_succ, once, wait, lastTick.le, ?_⟩
            intro run' same
            cases running'.symm.trans same
            rw [goes.stays main once]
            exact ⟨goes.main ending.past, anchors⟩
          have undue : ¬d'.walker.wait ≤ clock.now - d'.walker.lastTick := by omega
          obtain ⟨e, clock', ended, closed⟩ := ih _ (by rw [if_neg undue]; omega) ending' rfl
          exact ⟨e, clock', .again fired ended, closed⟩
        · exact ⟨d', clock, .finished finished, closed⟩
      · rw [if_neg due] at left
        obtain ⟨d', slept, later, lastTick, wait, run, asked⟩ :=
          computing.waits forward (Nat.not_le.1 due) poll
        have unsaturated : clock.microseconds < countMax := by
          refine Nat.lt_of_le_of_ne computing.counted fun full => due ?_
          have lasts := ending.tick_le room
          rw [ending.wait, Clock.now, full]
          omega
        have moved : clock.microseconds < (clock.advance poll).microseconds := by
          simp only [Clock.advance, capCount]
          omega
        have ending' : d'.Ending (clock.advance poll) name p planned settled k := by
          refine ⟨later, ending.past, Program.once_of_kept ending.once asked,
            wait.trans ending.wait, ?_, ?_⟩
          · rw [lastTick]
            exact ending.behind.trans (Nat.div_le_div_right moved.le)
          · rw [run]
            exact ending.anchored
        obtain ⟨e, clock', ended, closed⟩ := ih _ (by split <;> omega) ending' rfl
        exact ⟨e, clock', .sleep slept ended, closed⟩

end Ending

/-! ## Up to the last pass -/

/-- The loop stands before an iteration, and the next firing is due after `left` sleeps. -/
structure Awaiting (d : Drive L) (clock : Clock) (name : String) (p : Program)
    (planned : Option Nat) (poll start k left : Nat) : Prop where
  computing : d.Computing clock name p planned k
  due : d.walker.DueAfter poll clock.microseconds left
  time : clock.microseconds + poll * left = p.computedDue poll start k

/-- A time from which the clock lasts for a tick past the functions of a servo is not past the
largest count. -/
theorem le_countMax_of_lasts {p : Program} {time : Nat} {servo : Fin servoCount}
    (forward : p.Forward) (computed : p.mode = .ok .mot) (ticking : 1 ≤ p.tick)
    (room : ∀ f ∈ p.tracks.get servo,
      (time / 1000 : Nat) + f.last + p.tick ≤ (countMax / 1000 : Nat)) : time ≤ countMax := by
  obtain ⟨f, member⟩ := List.exists_mem_of_ne_nil _ (p.get_tracks_ne_nil computed servo)
  have lasts := room f member
  have first := (forward servo f member).started
  have last := f.first_le_last
  unfold countMax at lasts ⊢
  omega

namespace Awaiting

variable [Link L] {d : Drive L} {clock : Clock} {name : String} {p : Program}
  {planned : Option Nat} {poll start k n left : Nat}

/-- The sleeps before a firing pass. -/
theorem waited (awaiting : d.Awaiting clock name p planned poll start k left) (forward : p.Forward)
    (room : p.computedDue poll start k ≤ countMax) :
    ∃ d' clock', d'.Awaiting clock' name p planned poll start k 0 ∧
      ∀ e clock'', Ends poll d' clock' e clock'' → Ends poll d clock e clock'' := by
  induction left generalizing d clock with
  | zero => exact ⟨d, clock, awaiting, fun e clock'' ends => ends⟩
  | succ left ih =>
      have early : clock.now - d.walker.lastTick < d.walker.wait :=
        Nat.not_le.1 fun due => Nat.succ_ne_zero left (awaiting.due.iff.1 due)
      obtain ⟨d₁, slept, later, lastTick, wait, -⟩ :=
        awaiting.computing.waits forward early poll
      have time := awaiting.time
      rw [Nat.mul_succ] at time
      have moved : (clock.advance poll).microseconds = clock.microseconds + poll := by
        simp only [Clock.advance, capCount]
        omega
      have awaiting₁ : d₁.Awaiting (clock.advance poll) name p planned poll start k left := by
        refine ⟨later, ?_, by omega⟩
        rw [moved, Walker.DueAfter, lastTick, wait]
        exact awaiting.due.sleep
      obtain ⟨d', clock', awaiting', ends⟩ := ih awaiting₁
      exact ⟨d', clock', awaiting', fun e clock'' later => .sleep slept (ends e clock'' later)⟩

/-- The loop ends, or goes on to any firing for which the clock lasts. -/
theorem reaches (awaiting : d.Awaiting clock name p planned poll start k left) (forward : p.Forward)
    (computed : p.mode = .ok .mot) (moves : 0 < poll) (order : k ≤ n)
    (room : p.computedDue poll start n ≤ countMax) :
    (∃ d' clock', Ends poll d clock d' clock' ∧ d'.Over planned) ∨
      ∃ d' clock', d'.Awaiting clock' name p planned poll start n 0 ∧
        ∀ e clock'', Ends poll d' clock' e clock'' → Ends poll d clock e clock'' := by
  obtain ⟨rest, count⟩ := Nat.exists_eq_add_of_le order
  -- The induction is on the steps that are left; the sleeps before each are gone through first.
  induction rest generalizing d clock k left with
  | zero =>
      obtain rfl : n = k := count
      exact .inr (awaiting.waited forward room)
  | succ rest ih =>
      obtain ⟨d₁, clock₁, ready, after⟩ :=
        awaiting.waited forward ((Program.computedDue_mono order).trans room)
      rcases ready.computing.fires forward computed (ready.due.iff.2 rfl) with
        ⟨d₂, run, step, next, fired, later, lastTick, wait, -⟩ | ⟨d₂, finished, closed⟩
      · have time := ready.time
        rw [Nat.mul_zero, Nat.add_zero] at time
        have awaiting₂ : d₂.Awaiting clock₁ name p planned poll start (k + 1)
            (sleeps poll clock₁.microseconds (p.pause k)) := by
          refine ⟨later, ?_, ?_⟩
          · rw [← wait]
            exact Walker.dueAfter_of_wait moves lastTick
          · rw [Program.computedDue, ← time]
        rcases ih awaiting₂ (by omega) (by omega) with
          ⟨e, clock', ended, closed⟩ | ⟨d', clock', awaiting', after'⟩
        · exact .inl ⟨e, clock', after _ _ (.again fired ended), closed⟩
        · exact .inr ⟨d', clock', awaiting', fun e clock'' ends =>
            after _ _ (.again fired (after' e clock'' ends))⟩
      · exact .inl ⟨d₂, clock₁, after _ _ (.finished finished), closed⟩

/-- The loop ends, if the setup steps and the planned stop come before a firing, and the clock lasts
from there for a tick past all functions of some servo. -/
theorem ends (awaiting : d.Awaiting clock name p planned poll start k left) (forward : p.Forward)
    (computed : p.mode = .ok .mot) (ticking : 1 ≤ p.tick) (moves : 0 < poll) (order : k ≤ n)
    (past : p.setup.size ≤ n) (stops : p.looping = true → ∃ j, planned = some j ∧ j ≤ n)
    {servo : Fin servoCount} (room : ∀ f ∈ p.tracks.get servo,
      (p.computedDue poll start n / 1000 : Nat) + f.last + p.tick ≤ (countMax / 1000 : Nat)) :
    ∃ d' clock', Ends poll d clock d' clock' ∧ d'.Over planned := by
  have inTime := le_countMax_of_lasts forward computed ticking room
  rcases awaiting.reaches forward computed moves order inTime with
    ended | ⟨d₁, clock₁, ready, after⟩
  · exact ended
  · have time := ready.time
    rw [Nat.mul_zero, Nat.add_zero] at time
    rw [← time] at room
    rcases ready.computing.fires forward computed (ready.due.iff.2 rfl) with
      ⟨d₂, run, step, next, fired, later, lastTick, wait, asked, -, running, goes⟩ |
        ⟨d₂, finished, closed⟩
    · have once : (p.looping && !d₂.walker.shouldStop) = false := by
        cases looping : p.looping with
        | false => rw [Bool.false_and]
        | true =>
            obtain ⟨j, planned_eq, passed⟩ := stops looping
            rw [asked, ready.computing.requestStop.2.2 j planned_eq passed, Bool.not_true,
              Bool.and_false]
      have ending : d₂.Ending clock₁ name p planned clock₁.now (n + 1) := by
        refine ⟨later, past.trans n.le_succ, once, ?_, lastTick.le, fun run' running' => ?_⟩
        · rw [wait, Program.pause_of_setup_over past]
        · refine ⟨?_, later.hosts.behind run' running'⟩
          cases running.symm.trans running'
          exact goes.main past
      obtain ⟨e, clock', ended, closed⟩ := ending.ends forward computed ticking moves room
      exact ⟨e, clock', after _ _ (.again fired ended), closed⟩
    · exact ⟨d₂, clock₁, after _ _ (.finished finished), closed⟩

end Awaiting

/-- A drive begins with the first firing of the program that was selected. -/
theorem awaiting_start {w : Walker L} {clock : Clock} {name : String} {p : Program}
    (counted : clock.microseconds ≤ countMax)
    (hosts : (⟨w.start clock.now name, clock⟩ : Session L).Hosts name p) (limit : Option Nat)
    (shutdown : Bool) (poll : Nat) :
    let d : Drive L := { walker := w.start clock.now name, limit, shutdown }
    d.Awaiting clock name p d.planned poll clock.microseconds 0 0 where
  computing := ⟨counted, rfl, hosts, ⟨_, rfl, .setup rfl rfl⟩, rfl, rfl, nofun⟩
  due i within := by
    obtain rfl : i = 0 := Nat.le_zero.1 within
    exact iff_of_true (Nat.zero_le _) rfl
  time := rfl

end Drive

namespace Session

variable {L : Type} [Link L]

/-- A drive takes a program of mode `mot` that some walk file holds to the end of its cycle, from
its selection on, over any link and with any pause that moves the clock.  The program waits at least
a millisecond from one step to the next, and does not loop or is asked to stop by a shutdown or by a
limit.

The clock has to last.  The anchors stand still from the firing on that is behind all setup steps
and, if the program loops, behind as many steps as the limit allows; a shutdown counts as a limit of
zero.  From the time at which that firing is due, the clock reads at least one tick more than the
ends of all intervals of some servo.

The loop then ends with nothing selected and the walker stopped.  Without a shutdown and a limit, no
stop was requested. -/
theorem drive_of_computed {w w₀ : Walker L} {clock : Clock} {name : String} {p : Program}
    (written : p.Written) (computed : p.mode = .ok .mot) (ticking : 1 ≤ p.tick)
    (registered : w.registry.get? name = some p) (selected : w.select clock.now name = .ok w₀)
    (limit : Option Nat) (shutdown : Bool) {poll : Nat} (moves : 0 < poll)
    (stops : p.looping = false ∨ shutdown = true ∨ limit ≠ none) :
    let asked := if shutdown then 0 else limit.getD 0
    let n := if p.looping then max p.setup.size asked else p.setup.size
    let settled := p.computedDue poll clock.microseconds n / 1000
    (∃ servo, ∀ f ∈ p.tracks.get servo, settled + f.last + p.tick ≤ (countMax / 1000 : Nat)) →
      ∃ iterations, ∀ fuel, iterations ≤ fuel →
        let drive : Drive L := { walker := w₀, limit, shutdown }
        let driven := drive.run poll fuel clock
        driven.1 = .finished ∧ driven.2.2.walker.run = none ∧ driven.2.2.walker.isStopped = true ∧
          (shutdown = false → limit = none →
            driven.2.2.summary.stopRequested = false ∧ driven.2.2.walker.shouldStop = false) := by
  intro asked n settled
  rintro ⟨servo, room⟩
  have forward := written.forward
  have counted : clock.microseconds ≤ countMax :=
    (Program.computedDue_mono n.zero_le).trans
      (Drive.le_countMax_of_lasts forward computed ticking room)
  have selects : (⟨w, clock⟩ : Session L).perform (.select name) = (.selected, ⟨w₀, clock⟩) := by
    rw [perform, selected]
  have hosts : (⟨w₀, clock⟩ : Session L).Hosts name p :=
    (hosts_of_selected counted registered selects).1
  obtain ⟨-, rfl, -⟩ := Walker.select_cases selected
  have awaiting := Drive.awaiting_start counted hosts limit shutdown poll
  have past : p.setup.size ≤ n := by
    dsimp only [n]
    split
    · exact Nat.le_max_left _ _
    · exact Nat.le_refl _
  have planned : p.looping = true → ∃ j,
      Drive.planned { walker := w.start clock.now name, limit, shutdown } = some j ∧ j ≤ n := by
    intro looping
    have most : asked ≤ n := by
      dsimp only [n]
      rw [if_pos looping]
      exact Nat.le_max_right _ _
    refine ⟨asked, ?_, most⟩
    rcases stops with once | rfl | limited
    · cases looping.symm.trans once
    · rfl
    · obtain ⟨m, rfl⟩ := Option.ne_none_iff_exists'.1 limited
      cases shutdown <;> rfl
  obtain ⟨d', clock', ended, closed⟩ :=
    awaiting.ends forward computed ticking moves n.zero_le past planned room
  obtain ⟨iterations, run⟩ := ended.run
  refine ⟨iterations, fun fuel enough => ?_⟩
  intro drive driven
  have eq : driven = (.finished, clock', d') := run fuel enough
  rw [eq]
  refine ⟨rfl, closed.stopped, closed.isStopped, fun undisturbed unlimited => ?_⟩
  have unrequested : d'.summary.stopRequested = false := by
    rw [← Bool.not_eq_true]
    intro requested
    refine closed.sought requested ?_
    rw [undisturbed, unlimited]
    rfl
  exact ⟨unrequested, closed.asked.symm.trans unrequested⟩

theorem drive_of_swaying_to_limit :
    let lines : List String :=
      ["[info]", "Looping=yes", "Tick=5", "Use=mot", "[end]", "[setup]", ">40:3", "[end]"] ++
        (List.range servoCount).flatMap fun n =>
          [s!"[m{n}]", "-", "Interval=0,20", "Function=t", "[end]"]
    let text := ['\n'].intercalate (lines.map String.toList)
    let sway := (WalkFile.Reading.feedAll {} 1 (WalkFile.lines text)).program
    let w : Walker Link.Limited :=
      { transmitter := ⟨⟨60⟩, .blank⟩, registry := Registry.empty.insert "sway" sway }
    let clock : Clock := ⟨300⟩
    let drive : Drive Link.Limited :=
      { walker := w.start clock.now "sway", limit := some 3 }
    sway.Written ∧ sway.mode = .ok .mot ∧ 1 ≤ sway.tick ∧ sway.looping = true ∧
      w.select clock.now "sway" = .ok (w.start clock.now "sway") ∧
      sway.computedDue 700 300 3 / 1000 = 13 ∧
      (∃ servo, ∀ f ∈ sway.tracks.get servo,
        (13 : Nat) + f.last + sway.tick ≤ (countMax / 1000 : Nat)) ∧
      ∃ iterations, ∀ fuel, iterations ≤ fuel →
        (drive.run 700 fuel clock).1 = .finished ∧
        (drive.run 700 fuel clock).2.2.walker.run = none ∧
        (drive.run 700 fuel clock).2.2.walker.isStopped = true := by
  intro lines text sway w clock drive
  have written : sway.Written :=
    ⟨String.ofList text, sway.path, by rw [WalkFile.read_ofList]⟩
  have computed : sway.mode = .ok .mot := by decide +kernel
  have ticking : 1 ≤ sway.tick := by decide +kernel
  have looping : sway.looping = true := by decide +kernel
  have one : sway.setup.size = 1 := by decide +kernel
  have settled : sway.computedDue 700 300 3 / 1000 = 13 := by decide +kernel
  have room : ∀ f ∈ sway.tracks.get ⟨0, by decide⟩,
      (13 : Nat) + f.last + sway.tick ≤ (countMax / 1000 : Nat) := by
    decide +kernel
  have registered : w.registry.get? "sway" = some sway := Registry.get?_insert_self ..
  have selected : w.select clock.now "sway" = .ok (w.start clock.now "sway") :=
    Walker.select_of_free registered nofun clock.now
  clear_value sway
  have reads : sway.computedDue 700 clock.microseconds
      (if sway.looping = true then
        max sway.setup.size (if false = true then 0 else (some 3).getD 0)
      else sway.setup.size) / 1000 = 13 := by
    rw [if_pos looping, one]
    exact settled
  have moves : 0 < 700 := by decide
  obtain ⟨iterations, driven⟩ := drive_of_computed written computed ticking registered selected
    (some 3) false moves (.inr (.inr nofun)) ⟨_, reads ▸ room⟩
  refine ⟨written, computed, ticking, looping, selected, settled, ⟨_, room⟩, iterations,
    fun fuel enough => ?_⟩
  obtain ⟨finished, stopped, isStopped, -⟩ := driven fuel enough
  exact ⟨finished, stopped, isStopped⟩

end Session

end Gait

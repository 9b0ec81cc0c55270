import Gait.Proofs.Drive.Agreement
import Gait.Proofs.Wire.CutShort
import Gait.Proofs.Wire.Stream

/-!
# Driving a program of listed steps

A drive takes a program of mode `prg` from its selection to the end of its cycle, on a clock that
moves by the sleeping alone.  `Drive.planned` is after how many steps the drive asks for a stop, and
`Program.due` is when each firing is due: the first time, counted in sleeps, at which the wait after
the step before it is over.

`Drive.Underway` is the invariant of the loop: how many steps were fired, and how many sleeps are
left until the next firing.  `Underway.waited` sleeps them off, `Underway.fires` is the firing, and
`Underway.ends` follows by induction on the steps that are left.  The main statement adds which of
the fired steps count as faults.
-/

namespace Gait

/-! ## When steps are due -/

/-- How often a clock at `start` has to be moved by `poll` microseconds until it reads `delay`
milliseconds more. -/
def sleeps (poll start delay : Nat) : Nat := ((start / 1000 + delay) * 1000 - start) ⌈/⌉ poll

/-- The time at which a drive fires behind `k` steps, if the first firing is at `start`. -/
def Program.due (p : Program) (poll start : Nat) : Nat → Nat
  | 0 => start
  | k + 1 =>
    let last := p.due poll start k
    last + poll * sleeps poll last ((p.scheduled? k).elim 0 Step.delay)

theorem Program.due_mono {p : Program} {poll start k n : Nat} (order : k ≤ n) :
    p.due poll start k ≤ p.due poll start n := by
  induction order with
  | refl => exact Nat.le_refl _
  | step _ ih => exact ih.trans (Nat.le_add_right _ _)

theorem sleeps_le_iff {poll start delay i : Nat} (moves : 0 < poll) :
    sleeps poll start delay ≤ i ↔ delay ≤ (start + poll * i) / 1000 - start / 1000 := by
  rw [sleeps, ceilDiv_le_iff_le_mul moves]
  have reading : start / 1000 + delay ≤ (start + poll * i) / 1000 ↔
      (start / 1000 + delay) * 1000 ≤ start + poll * i := Nat.le_div_iff_mul_le (by decide)
  have forward : start / 1000 ≤ (start + poll * i) / 1000 :=
    Nat.div_le_div_right (Nat.le_add_right _ _)
  omega

namespace Walker

variable {L : Type} {w : Walker L} {poll t left : Nat}

/-- From the time `t` on, the walker is due for the first time after some sleeps. -/
def DueAfter (w : Walker L) (poll t left : Nat) : Prop :=
  ∀ i ≤ left, (w.wait ≤ (t + poll * i) / 1000 - w.lastTick ↔ i = left)

theorem DueAfter.sleep (due : w.DueAfter poll t (left + 1)) : w.DueAfter poll (t + poll) left := by
  intro i within
  have moved : t + poll + poll * i = t + poll * (i + 1) := by
    rw [Nat.mul_succ]
    omega
  rw [moved, due (i + 1) (Nat.succ_le_succ within), Nat.succ_inj]

theorem DueAfter.iff (due : w.DueAfter poll t left) :
    w.wait ≤ t / 1000 - w.lastTick ↔ left = 0 := by
  have now := due 0 (Nat.zero_le left)
  rw [Nat.mul_zero, Nat.add_zero] at now
  exact now.trans eq_comm

theorem dueAfter_of_wait (moves : 0 < poll) (lastTick : w.lastTick = t / 1000) :
    w.DueAfter poll t (sleeps poll t w.wait) := by
  intro i within
  rw [lastTick, ← sleeps_le_iff moves]
  omega

variable [Link L] {name : String} {p : Program} {k : Nat} {stop : Option Nat}

/-- What a tick does to a program that is being played. -/
theorem Playing.tick_cases (playing : w.Playing name p k stop) (now : Nat) :
    (now - w.lastTick < w.wait ∧ w.tick now = (.waiting, w.takeReply)) ∨
      (w.wait ≤ now - w.lastTick ∧ ∃ step result, p.scheduled? k = some step ∧
        (w.played now step).Playing name p (k + 1) stop ∧
        w.tick now = (playStatus result, w.played now step)) ∨
      (w.wait ≤ now - w.lastTick ∧ p.cycleLength? stop = some k ∧
        w.tick now = (.endOfCycle, w.ended now p)) := by
  rcases Walker.tick_cases w now with
    ⟨none, -⟩ | ⟨q, selected, ⟨early, eq⟩ | ⟨due, step, next, eq⟩ | ⟨due, next, eq⟩⟩
  · rw [playing.selected?_eq] at none
    cases none
  · exact Or.inl ⟨early, eq⟩
  · rcases playing.nextStep now with ⟨step', next', scheduled, playing', -⟩ | ⟨next', -⟩
    · rw [next] at next'
      cases next'
      obtain ⟨run, advanced, -⟩ := nextStep_eq w now
      rw [advanced] at playing'
      have later : (w.played now step).Playing name p (k + 1) stop :=
        playing'.of_eq rfl (show (w.nextStep now).2.run = run by rw [advanced]) rfl
      exact Or.inr (Or.inl ⟨due, step, _, scheduled, later, eq⟩)
    · rw [next] at next'
      cases next'
  · rcases playing.nextStep now with ⟨step', next', -⟩ | ⟨-, whole⟩
    · rw [next] at next'
      cases next'
    · rw [playing.selected?_eq] at selected
      cases selected
      exact Or.inr (Or.inr ⟨due, whole, eq⟩)

end Walker

/-! ## The loop -/

namespace Drive

variable {L : Type}

/-- After how many steps the drive asks for a stop, if it does. -/
def planned (d : Drive L) : Option Nat := if d.shutdown then some 0 else d.limit

theorem count_stopRequested (summary : Summary) (s : Status) :
    (count summary s).2.stopRequested = summary.stopRequested := by
  cases s <;> rfl

theorem reached_iff (d : Drive L) :
    (d.limitReached || d.shutdown) = true ↔ ∃ j, d.planned = some j ∧ j ≤ d.summary.steps := by
  unfold planned limitReached
  cases d.shutdown with
  | true => simp
  | false => cases d.limit <;> simp

/-- The loop stands before an iteration: `k` steps of the program were fired, a stop was requested
after `stop` of them, and the next firing is due after `left` sleeps. -/
structure Underway (d : Drive L) (clock : Clock) (name : String) (p : Program)
    (poll start : Nat) (planned stop : Option Nat) (k left : Nat) : Prop where
  plan : d.planned = planned
  playing : d.walker.Playing name p k stop
  counted : d.summary.steps = k
  asked : d.summary.stopRequested = stop.isSome
  early : stop = none → ∀ j, planned = some j → k ≤ j
  kept : ∀ j, stop = some j → planned = some j
  due : d.walker.DueAfter poll clock.microseconds left
  time : clock.microseconds + poll * left = p.due poll start k

/-- The end of the cycle was fired behind `n` steps. -/
structure Finished (d : Drive L) (p : Program) (planned : Option Nat) (n : Nat) : Prop where
  whole : p.cycleLength? planned = some n
  stopped : d.walker.run = none
  isStopped : d.walker.isStopped = true
  counted : d.summary.steps = n
  asked : d.summary.stopRequested = true ↔ ∃ j, planned = some j ∧ j ≤ n

namespace Underway

variable {d : Drive L} {clock : Clock} {name : String} {p : Program} {poll start k left n : Nat}
  {planned stop : Option Nat}

/-- No more is played than the cycle has. -/
theorem le_length (underway : d.Underway clock name p poll start planned stop k left)
    (length : p.cycleLength? planned = some n) : k ≤ n := by
  cases stop with
  | none =>
      exact Program.le_cycleLength?_or underway.playing.unfinished (underway.early rfl) n length
  | some j =>
      rw [underway.kept j rfl] at length
      exact underway.playing.unfinished n length

/-- Where the cycle ends, it ends with the planned stop too. -/
theorem length_eq (underway : d.Underway clock name p poll start planned stop k left)
    (whole : p.cycleLength? stop = some n) : p.cycleLength? planned = some n := by
  cases stop with
  | none => exact Program.cycleLength?_or whole planned
  | some j => rwa [underway.kept j rfl]

/-- A stop was requested just if it was time for the planned one. -/
theorem asked_iff (underway : d.Underway clock name p poll start planned stop k left)
    (later : stop = none → ∀ j, planned = some j → k < j) :
    d.summary.stopRequested = true ↔ ∃ j, planned = some j ∧ j ≤ k := by
  rw [underway.asked]
  cases stop with
  | none =>
      refine iff_of_false nofun ?_
      rintro ⟨j, planned_eq, passed⟩
      exact absurd passed (Nat.not_le.2 (later rfl j planned_eq))
  | some j => exact iff_of_true rfl ⟨j, underway.kept j rfl, underway.playing.requested j rfl⟩

/-- Before the tick of an iteration a stop is requested, if it is time for the planned one. -/
theorem requestStop (underway : d.Underway clock name p poll start planned stop k left) :
    ∃ stop', d.requestStop.Underway clock name p poll start planned stop' k left ∧
      (stop' = none → ∀ j, planned = some j → k < j) := by
  have plan := underway.plan
  have counted := underway.counted
  have asked := underway.asked
  by_cases reached : (!d.summary.stopRequested && (d.limitReached || d.shutdown)) = true
  · obtain ⟨unasked, time⟩ := Bool.and_eq_true_iff.1 reached
    obtain ⟨j, planned_eq, passed⟩ := d.reached_iff.1 time
    obtain rfl : stop = none := by simpa [asked] using unasked
    rw [plan] at planned_eq
    rw [counted] at passed
    obtain rfl : j = k := Nat.le_antisymm passed (underway.early rfl j planned_eq)
    obtain ⟨run, running, -⟩ := underway.playing.stands
    have request : d.requestStop = { d with
        walker := d.walker.requestStop, summary := { d.summary with stopRequested := true } } := by
      simp only [Drive.requestStop, reached, if_true, Walker.deselect, running]
    rw [request]
    refine ⟨some j, ⟨plan, underway.playing.requestStop, counted, rfl, ?_, ?_, underway.due,
      underway.time⟩, ?_⟩
    · intro unstopped
      cases unstopped
    · intro j' stopped
      cases stopped
      exact planned_eq
    · intro unstopped
      cases unstopped
  · have same : d.requestStop = d := by rw [Drive.requestStop, if_neg reached]
    rw [same]
    refine ⟨stop, underway, fun none j planned_eq => ?_⟩
    by_contra late
    refine reached (Bool.and_eq_true_iff.2 ⟨by simp [asked, none], d.reached_iff.2 ⟨j, ?_, ?_⟩⟩)
    · rw [plan, planned_eq]
    · rw [counted]
      exact Nat.not_lt.1 late

end Underway

/-- A drive begins with the first step of the program that was selected. -/
theorem underway_start (clock : Clock) {w : Walker L} {name : String} {p : Program}
    (registered : w.registry.get? name = some p) (listed : p.mode = .ok .prg)
    (limit : Option Nat) (shutdown : Bool) (poll : Nat) :
    let d : Drive L := { walker := w.start clock.now name, limit, shutdown }
    d.Underway clock name p poll clock.microseconds d.planned none 0 0 where
  plan := rfl
  playing := .start registered listed clock.now
  counted := rfl
  asked := rfl
  early _ j _ := Nat.zero_le j
  kept := nofun
  due i within := by
    obtain rfl : i = 0 := Nat.le_zero.1 within
    exact iff_of_true (Nat.zero_le _) rfl
  time := rfl

variable [Link L]

/-- The loop of a drive ends like this. -/
inductive Ends (poll : Nat) : Drive L → Clock → Drive L → Clock → Prop
  | finished {d d' : Drive L} {clock : Clock} (step : d.step clock.now = (.finished, d')) :
    Ends poll d clock d' clock
  | sleep {d d₁ d' : Drive L} {clock clock' : Clock} (step : d.step clock.now = (.sleep, d₁))
    (later : Ends poll d₁ (clock.advance poll) d' clock') : Ends poll d clock d' clock'
  | again {d d₁ d' : Drive L} {clock clock' : Clock} (step : d.step clock.now = (.again, d₁))
    (later : Ends poll d₁ clock d' clock') : Ends poll d clock d' clock'

theorem Ends.run {poll : Nat} {d d' : Drive L} {clock clock' : Clock}
    (ends : Ends poll d clock d' clock') :
    ∃ iterations, ∀ fuel, iterations ≤ fuel →
      d.run poll fuel clock = (.finished, clock', d') := by
  induction ends with
  | finished step =>
      refine ⟨1, fun fuel enough => ?_⟩
      obtain ⟨fuel, rfl⟩ := Nat.exists_eq_add_of_le' enough
      rw [Drive.run, step]
  | sleep step _ ih =>
      obtain ⟨iterations, run⟩ := ih
      refine ⟨iterations + 1, fun fuel enough => ?_⟩
      obtain ⟨fuel, rfl⟩ := Nat.exists_eq_add_of_le' enough
      rw [← Nat.add_assoc, Drive.run, step]
      exact run _ (Nat.le_add_left _ _)
  | again step _ ih =>
      obtain ⟨iterations, run⟩ := ih
      refine ⟨iterations + 1, fun fuel enough => ?_⟩
      obtain ⟨fuel, rfl⟩ := Nat.exists_eq_add_of_le' enough
      rw [← Nat.add_assoc, Drive.run, step]
      exact run _ (Nat.le_add_left _ _)

theorem step_eq_of_tick {d : Drive L} {now : Nat} {status : Status} {w : Walker L}
    (ticked : d.requestStop.walker.tick now = (status, w)) :
    d.step now = ((count d.requestStop.summary status).1,
      { d.requestStop with walker := w, summary := (count d.requestStop.summary status).2 }) := by
  rw [step]
  dsimp only
  rw [ticked]

namespace Underway

variable {d : Drive L} {clock : Clock} {name : String} {p : Program} {poll start k left n : Nat}
  {planned stop : Option Nat}

/-- An iteration before the next firing is due sleeps. -/
theorem waits (underway : d.Underway clock name p poll start planned stop k (left + 1))
    (room : p.due poll start k ≤ countMax) :
    ∃ d' stop', d.step clock.now = (.sleep, d') ∧
      d'.Underway (clock.advance poll) name p poll start planned stop' k left := by
  obtain ⟨stop', ready, later⟩ := underway.requestStop
  have early : clock.now - d.requestStop.walker.lastTick < d.requestStop.walker.wait :=
    Nat.not_le.1 fun due => Nat.succ_ne_zero left (ready.due.iff.1 due)
  have time := ready.time
  rw [Nat.mul_succ] at time
  have moved : (clock.advance poll).microseconds = clock.microseconds + poll := by
    simp only [Clock.advance, capCount]
    omega
  rcases ready.playing.tick_cases clock.now with ⟨-, ticked⟩ | ⟨due, -⟩ | ⟨due, -⟩
  · refine ⟨_, stop', step_eq_of_tick ticked, ready.plan, ready.playing.of_eq rfl rfl rfl,
      ready.counted, ready.asked, fun none j planned_eq => Nat.le_of_lt (later none j planned_eq),
      ready.kept, ?_, ?_⟩
    · rw [moved]
      exact ready.due.sleep
    · rw [moved]
      omega
  · exact absurd due (Nat.not_le.2 early)
  · exact absurd due (Nat.not_le.2 early)

/-- An iteration for which the next firing is due fires the next step or ends the cycle. -/
theorem fires (underway : d.Underway clock name p poll start planned stop k 0) (moves : 0 < poll) :
    (∃ d' stop' left, d.step clock.now = (.again, d') ∧
      d'.Underway clock name p poll start planned stop' (k + 1) left) ∨
      ∃ d', d.step clock.now = (.finished, d') ∧ d'.Finished p planned k := by
  obtain ⟨stop', ready, later⟩ := underway.requestStop
  have due : d.requestStop.walker.wait ≤ clock.now - d.requestStop.walker.lastTick :=
    ready.due.iff.2 rfl
  rcases ready.playing.tick_cases clock.now with
    ⟨early, -⟩ | ⟨-, step, result, scheduled, playing, ticked⟩ | ⟨-, whole, ticked⟩
  · exact absurd due (Nat.not_le.2 early)
  · have plays := Walker.plays_playStatus result
    have again := count_of_plays plays d.requestStop.summary
    have counted := count_steps d.requestStop.summary (Walker.playStatus result)
    rw [ready.counted, if_pos plays] at counted
    have fired := step_eq_of_tick ticked
    rw [again] at fired
    have time := ready.time
    rw [Nat.mul_zero, Nat.add_zero] at time
    refine Or.inl ⟨_, stop', sleeps poll clock.microseconds step.delay, fired, ready.plan, playing,
      counted, (count_stopRequested ..).trans ready.asked, later, ready.kept,
      Walker.dueAfter_of_wait moves rfl, ?_⟩
    rw [Program.due, ← time, scheduled]
    rfl
  · exact Or.inr ⟨_, step_eq_of_tick ticked, ready.length_eq whole, rfl, rfl, ready.counted,
      ready.asked_iff later⟩

/-- The sleeps before a firing pass. -/
theorem waited (underway : d.Underway clock name p poll start planned stop k left)
    (room : p.due poll start k ≤ countMax) :
    ∃ d' clock' stop', d'.Underway clock' name p poll start planned stop' k 0 ∧
      ∀ e clock'', Ends poll d' clock' e clock'' → Ends poll d clock e clock'' := by
  induction left generalizing d clock stop with
  | zero => exact ⟨d, clock, stop, underway, fun e clock'' ends => ends⟩
  | succ left ih =>
      obtain ⟨d₁, stop₁, step, underway₁⟩ := underway.waits room
      obtain ⟨d', clock', stop', underway', ends⟩ := ih underway₁
      refine ⟨d', clock', stop', underway', fun e clock'' later => ?_⟩
      exact .sleep step (ends e clock'' later)

/-- The loop ends with the cycle, at the time at which the end of the cycle is due. -/
theorem ends (underway : d.Underway clock name p poll start planned stop k left) (moves : 0 < poll)
    (length : p.cycleLength? planned = some n) (room : p.due poll start n ≤ countMax) :
    ∃ d', Ends poll d clock d' ⟨p.due poll start n⟩ ∧ d'.Finished p planned n := by
  obtain ⟨rest, count⟩ := Nat.exists_eq_add_of_le (underway.le_length length)
  -- The induction is on the steps that are left; the sleeps before each are gone through first.
  induction rest generalizing d clock stop k left with
  | zero =>
      have inTime : p.due poll start k ≤ countMax := (Program.due_mono (by omega)).trans room
      obtain ⟨d₁, clock₁, stop₁, ready, after⟩ := underway.waited inTime
      have time := ready.time
      rcases ready.fires moves with ⟨d₂, stop₂, left₂, -, underway₂⟩ | ⟨d₂, step, finished⟩
      · have further := underway₂.le_length length
        omega
      · obtain rfl : n = k := count
        rw [← time]
        exact ⟨d₂, after _ _ (.finished step), finished⟩
  | succ rest ih =>
      have inTime : p.due poll start k ≤ countMax := (Program.due_mono (by omega)).trans room
      obtain ⟨d₁, clock₁, stop₁, ready, after⟩ := underway.waited inTime
      rcases ready.fires moves with ⟨d₂, stop₂, left₂, step, underway₂⟩ | ⟨d₂, step, finished⟩
      · obtain ⟨d', ends, finished⟩ := ih underway₂ (by omega)
        exact ⟨d', after _ _ (.again step ends), finished⟩
      · have whole := finished.whole
        rw [length] at whole
        cases whole
        omega

end Underway

end Drive

/-! ## Faults -/

namespace Session

open Link (Logged)

variable {L : Type} [Link L]

/-- Not all frames of the step got through. -/
def cutShort (execution : Step × List Attempt) : Bool :=
  accepted (execution.2.flatMap (·.writes)) != execution.1.frames

/-- Only ticks have a status. -/
theorem Performs.status?_eq_none {σ σ' : Session L} {op : Operation} {outcome : Outcome}
    (performs : Performs σ op outcome σ') (other : op ≠ .tick) : outcome.status? = none := by
  cases performs with
  | ticks => exact (other rfl).elim
  | _ => rfl

theorem cutShort_attempts (t : Transmitter (Logged L)) (step : Step) :
    cutShort (step, t.attempts step) =
      (Walker.playStatus (t.run (Transmitter.sendStep step)).1).isFault := by
  obtain ⟨bytes, got, whole⟩ := t.exists_accepted_sendStep step
  obtain ⟨-, log⟩ := t.attemptsFrom_spec 0 step.positions.toList
  have same : accepted ((t.attempts step).flatMap (·.writes)) = bytes := by
    have both : accepted (t.run (Transmitter.sendStep step)).2.link.writes = _ :=
      congrArg accepted log
    rw [got, accepted_append] at both
    exact (List.append_cancel_left both).symm
  rw [cutShort]
  dsimp only
  rw [same]
  cases sent : (t.run (Transmitter.sendStep step)).1 with
  | error e =>
      rw [sent] at whole
      exact bne_iff_ne.2 fun got => nomatch whole.2 got
  | ok =>
      rw [sent] at whole
      rw [whole.1 rfl, bne_self_eq_false]
      rfl

/-- A tick sends a step just if it fires one, and cuts it short just if it is a fault. -/
theorem count_execution_tick (σ : Session (Logged L)) :
    (σ.execution? .tick).isSome = (σ.walker.tick σ.clock.now).1.plays ∧
      (σ.execution? .tick).any cutShort = (σ.walker.tick σ.clock.now).1.isFault := by
  unfold execution?
  dsimp only [perform]
  rcases Walker.tick_cases σ.walker σ.clock.now with
    ⟨-, eq⟩ | ⟨p, -, ⟨-, eq⟩ | ⟨-, step, -, eq⟩ | ⟨-, -, eq⟩⟩
  · rw [eq]
    exact ⟨rfl, rfl⟩
  · rw [eq]
    exact ⟨rfl, rfl⟩
  · have plays := Walker.plays_playStatus
      (σ.walker.takeReply.transmitter.run (Transmitter.sendStep step)).1
    rw [eq]
    simp only [Outcome.played?, plays, Walker.played, if_true, Option.map_some, Option.isSome_some,
      Option.any_some, cutShort_attempts, and_self]
  · rw [eq]
    exact ⟨rfl, rfl⟩

/-- The steps that the ticks of a session sent are those that it fired, and those that were cut
short are the faults. -/
theorem count_executions (σ : Session (Logged L)) (ops : List Operation)
    (unsent : ∀ step, .sendStep step ∉ ops) :
    (σ.executions ops).length = (statuses (σ.history ops)).countP Status.plays ∧
      (σ.executions ops).countP cutShort = (statuses (σ.history ops)).countP Status.isFault := by
  induction ops generalizing σ with
  | nil => exact ⟨rfl, rfl⟩
  | cons op ops ih =>
      obtain ⟨steps, faults⟩ := ih (σ.perform op).2 fun step later =>
        unsent step (List.mem_cons_of_mem _ later)
      rw [executions, List.length_append, List.countP_append, steps, faults]
      by_cases tick : op = .tick
      · subst tick
        obtain ⟨plays, fault⟩ := σ.count_execution_tick
        have later : (σ.perform .tick).2.history ops =
            ({ σ with walker := (σ.walker.tick σ.clock.now).2 } : Session _).history ops := rfl
        rw [statuses_tick, List.countP_cons, List.countP_cons, ← plays, ← fault, later]
        cases σ.execution? .tick with
        | none => exact ⟨Nat.zero_add _, Nat.zero_add _⟩
        | some execution =>
            rw [Option.toList_some, List.countP_singleton]
            exact ⟨Nat.add_comm .., Nat.add_comm ..⟩
      · have quiet : (σ.perform op).1.status? = none := (σ.performs op).status?_eq_none tick
        have idle : σ.execution? op = none := by
          cases op with
          | sendStep step => exact (unsent step List.mem_cons_self).elim
          | tick => exact (tick rfl).elim
          | _ => rfl
        have same : statuses (σ.history (op :: ops)) = statuses ((σ.perform op).2.history ops) :=
          List.filterMap_cons_none quiet
        rw [idle, same]
        exact ⟨Nat.zero_add _, Nat.zero_add _⟩

/-- A drive sends no step but by ticks. -/
theorem sendStep_not_mem_operations (poll fuel : Nat) (clock : Clock) (d : Drive L) (step : Step) :
    .sendStep step ∉ d.operations poll fuel clock := by
  have requests (d : Drive L) : .sendStep step ∉ d.requests := by
    unfold Drive.requests
    split <;> simp
  induction fuel generalizing clock d with
  | zero => exact List.not_mem_nil
  | succ fuel ih =>
      rw [Drive.operations, List.mem_append, List.mem_cons]
      rintro (asked | ticked | later)
      · exact requests d asked
      · cases ticked
      · generalize d.step clock.now = stepped at later
        obtain ⟨next, d'⟩ := stepped
        cases next with
        | finished => cases later
        | sleep =>
            rcases List.mem_cons.1 later with slept | later
            · cases slept
            · exact ih _ _ later
        | again => exact ih _ _ later

/-- How a drive takes a program of mode `prg` through its cycle, from its selection on, over any
link and with any pause that moves the clock, which counts microseconds.  The cycle has to end: the
program does not loop, has no main steps, or is asked to stop by a shutdown or by a limit.  The
clock has to last until then, that is until the time at which the end of the cycle is due.

The loop ends, at that time, with nothing selected.  It has fired one pass, or, if the program
loops, as many passes as it takes to come to the limit, and at least one; the shutdown counts as a
limit of zero.  The faults are the steps whose frames did not all get through.  A stop was requested
just if there was a shutdown or the limit was reached. -/
theorem drive_of_listed {w w₀ : Walker (Logged L)} {clock : Clock} {name : String} {p : Program}
    (registered : w.registry.get? name = some p) (listed : p.mode = .ok .prg)
    (selected : w.select clock.now name = .ok w₀) (limit : Option Nat) (shutdown : Bool)
    {poll : Nat} (moves : 0 < poll)
    (ends : p.looping = false ∨ p.main.size = 0 ∨ shutdown = true ∨ limit ≠ none) :
    let asked := if shutdown then 0 else limit.getD 0
    let passes := max 1 ((asked - p.setup.size) ⌈/⌉ p.main.size)
    let n :=
      if p.looping ∧ 0 < p.main.size then p.setup.size + p.main.size * passes
      else p.setup.size + p.main.size
    p.due poll clock.microseconds n ≤ countMax →
      ∃ iterations, ∀ fuel, iterations ≤ fuel →
        let drive : Drive (Logged L) := { walker := w₀, limit, shutdown }
        let driven := drive.run poll fuel clock
        let fired := (⟨w₀, clock⟩ : Session (Logged L)).executions
          (drive.operations poll fuel clock)
        let summary := driven.2.2.summary
        driven.1 = .finished ∧ driven.2.1 = ⟨p.due poll clock.microseconds n⟩ ∧
          driven.2.2.walker.run = none ∧ driven.2.2.walker.isStopped = true ∧
          fired.length = n ∧ summary.steps = n ∧ summary.faults = fired.countP cutShort ∧
          (summary.stopRequested = true ↔
            shutdown = true ∨ ∃ m, limit = some m ∧ m ≤ summary.steps) := by
  intro asked passes n room
  obtain ⟨-, rfl, -⟩ := Walker.select_cases selected
  let drive : Drive (Logged L) := { walker := w.start clock.now name, limit, shutdown }
  have length : p.cycleLength? drive.planned = some n := by
    by_cases again : p.looping ∧ 0 < p.main.size
    · have planned : drive.planned = some asked := by
        rcases ends with once | empty | rfl | limited
        · rw [once] at again
          cases again.1
        · exact absurd again.2 (Nat.not_lt.2 empty.le)
        · rfl
        · obtain ⟨m, rfl⟩ := Option.ne_none_iff_exists'.1 limited
          cases shutdown <;> rfl
      rw [Program.cycleLength?, if_pos again, planned]
      simp only [n, if_pos again]
      rfl
    · rw [Program.cycleLength?, if_neg again]
      simp only [n, if_neg again]
  have underway := Drive.underway_start clock registered listed limit shutdown poll
  obtain ⟨d', ended, finished⟩ := underway.ends moves length room
  obtain ⟨iterations, run⟩ := ended.run
  refine ⟨iterations, fun fuel enough => ?_⟩
  intro drive' driven fired summary
  have eq : driven = (.finished, ⟨p.due poll clock.microseconds n⟩, d') := run fuel enough
  obtain ⟨steps, faults⟩ := drive'.summary_run poll fuel clock
  obtain ⟨sent, cut⟩ := count_executions ⟨w.start clock.now name, clock⟩
    (drive'.operations poll fuel clock) (sendStep_not_mem_operations poll fuel clock drive')
  rw [Nat.zero_add] at steps faults
  have left : driven.2.2 = d' := congrArg (·.2.2) eq
  have same : summary = d'.summary := congrArg Drive.summary left
  have counted : summary.steps = n := by rw [same, finished.counted]
  refine ⟨congrArg (·.1) eq, congrArg (·.2.1) eq, left ▸ finished.stopped,
    left ▸ finished.isStopped, (sent.trans steps.symm).trans counted, counted,
    faults.trans cut.symm, ?_⟩
  rw [counted, same, finished.asked]
  cases shutdown with
  | true => exact iff_of_true ⟨0, rfl, Nat.zero_le n⟩ (Or.inl rfl)
  | false => exact (or_iff_right Bool.false_ne_true).symm

theorem drive_of_wave_to_limit :
    let first : Step := ⟨Vector.replicate servoCount 90, 2⟩
    let second : Step := ⟨Vector.replicate servoCount 120, 0⟩
    let wave : Program :=
      { name := "wave", use := some "prg", looping := true, setup := #[first],
        main := #[second, first] }
    let w : Walker (Link.Logged Link.Limited) :=
      { transmitter := ⟨⟨⟨60⟩, []⟩, .blank⟩, registry := Registry.empty.insert "wave" wave }
    let clock : Clock := ⟨300⟩
    let drive : Drive (Link.Logged Link.Limited) :=
      { walker := w.start clock.now "wave", limit := some 4 }
    w.registry.get? "wave" = some wave ∧ wave.mode = .ok .prg ∧
      w.select clock.now "wave" = .ok (w.start clock.now "wave") ∧
      wave.due 700 300 5 ≤ countMax ∧ wave.due 700 300 5 = 6600 ∧
      ∃ iterations, ∀ fuel, iterations ≤ fuel →
        (drive.run 700 fuel clock).1 = .finished ∧
        (drive.run 700 fuel clock).2.2.walker.run = none ∧
        (drive.run 700 fuel clock).2.2.summary.steps = 5 ∧
        (drive.run 700 fuel clock).2.2.summary.stopRequested = true := by
  intro first second wave w clock drive
  have registered : w.registry.get? "wave" = some wave := Registry.get?_insert_self ..
  have listed : wave.mode = .ok .prg := rfl
  have selected : w.select clock.now "wave" = .ok (w.start clock.now "wave") :=
    Walker.select_of_free registered nofun clock.now
  have due : wave.due 700 300 5 = 6600 := by decide +kernel
  have room : wave.due 700 300 5 ≤ countMax := by rw [due]; decide
  have count : (if wave.looping = true ∧ 0 < wave.main.size then
      wave.setup.size + wave.main.size *
        max 1 (((if false = true then 0 else (some 4).getD 0) - wave.setup.size) ⌈/⌉ wave.main.size)
      else wave.setup.size + wave.main.size) = 5 := by decide +kernel
  have moves : 0 < 700 := by decide
  obtain ⟨iterations, driven⟩ := drive_of_listed registered listed selected (some 4) false moves
    (.inr (.inr (.inr nofun))) (count.symm ▸ room)
  refine ⟨registered, listed, selected, room, due, iterations, fun fuel enough => ?_⟩
  obtain ⟨finished, -, stopped, -, -, steps, -, asked⟩ := driven fuel enough
  have five := steps.trans count
  exact ⟨finished, stopped, five, asked.2 (Or.inr ⟨4, rfl, five.symm ▸ (by decide)⟩)⟩

end Session

end Gait

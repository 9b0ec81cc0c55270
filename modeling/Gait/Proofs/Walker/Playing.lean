import Gait.Link.Memory
import Gait.Proofs.Session
import Gait.Proofs.Walker.Schedule

/-!
# Playing a program of listed steps

What ticks fire from the selection of a program of mode `prg` to the end of its cycle.  The
invariant is `Walker.Playing`: how many steps were played, and after how many a stop was first
requested.  `Performs.proceeds` says what one operation makes of it, and the main statement follows
by induction on the operations.
-/

namespace Gait

/-! ## One operation -/

/-- What a tick fires: a step, or the end of the cycle. -/
inductive Firing where
  | step (step : Step)
  | finish
  deriving DecidableEq, Repr

/-- What fired in an operation: a step, or the end of the cycle. -/
def Outcome.firing? : Outcome → Option Firing
  | ticked .endOfCycle _ => some .finish
  | outcome => outcome.played?.map .step

/-- Whether an operation with this outcome interferes with the program of a name: it selects,
changes what is registered under the name or takes a step out of the run. -/
def Operation.disturbs (name : String) : Operation → Outcome → Bool
  | select _, .selected => true
  | register _, .registered other => other == name
  | load _ _, .registered other => other == name
  | nextStep, _ => true
  | _, _ => false

theorem Registry.get?_insert_elsewhere {r : Registry} {name : String} {other : Program}
    (elsewhere : (other.name == name) = false) :
    (r.insert other.name other).get? name = r.get? name :=
  get?_insert_of_ne r other fun same => by simp [same] at elsewhere

namespace Walker

variable {L : Type}

/-- The program is selected, `k` steps of it were played and the cycle has not ended; `stop` is the
number of steps after which a stop was first requested. -/
structure Playing (w : Walker L) (name : String) (p : Program) (k : Nat) (stop : Option Nat) :
    Prop where
  registered : w.registry.get? name = some p
  listed : p.mode = .ok .prg
  stands : ∃ run, w.run = some run ∧ run.name = name ∧ run.StandsAt p k
  asked : w.shouldStop = stop.isSome
  requested : ∀ j, stop = some j → j ≤ k
  unfinished : ∀ n, p.cycleLength? stop = some n → k ≤ n

namespace Playing

variable {w : Walker L} {name : String} {p : Program} {k : Nat} {stop : Option Nat}

theorem of_eq {w' : Walker L} (playing : w.Playing name p k stop)
    (registered : w'.registry.get? name = w.registry.get? name) (run : w'.run = w.run)
    (asked : w'.shouldStop = w.shouldStop) : w'.Playing name p k stop where
  registered := registered.trans playing.registered
  listed := playing.listed
  stands := run ▸ playing.stands
  asked := asked.trans playing.asked
  requested := playing.requested
  unfinished := playing.unfinished

theorem selected?_eq (playing : w.Playing name p k stop) : w.selected? = some p := by
  obtain ⟨run, running, rfl, -⟩ := playing.stands
  simp [selected?, selectedName?, running, playing.registered]

/-- A run begins before the first step. -/
theorem start (registered : w.registry.get? name = some p) (listed : p.mode = .ok .prg)
    (now : Nat) : (w.start now name).Playing name p 0 none where
  registered := registered
  listed := listed
  stands := ⟨_, rfl, rfl, Or.inl ⟨rfl, rfl, Nat.zero_le _⟩⟩
  asked := rfl
  requested := nofun
  unfinished n _ := Nat.zero_le n

theorem insert {other : Program} (playing : w.Playing name p k stop)
    (elsewhere : (other.name == name) = false) :
    { w with registry := w.registry.insert other.name other }.Playing name p k stop :=
  playing.of_eq (Registry.get?_insert_elsewhere elsewhere) rfl rfl

theorem requestStop (playing : w.Playing name p k stop) :
    w.requestStop.Playing name p k (stop.or (some k)) where
  registered := playing.registered
  listed := playing.listed
  stands := playing.stands
  asked := by simp [Walker.requestStop]
  requested := by
    cases stop with
    | none => simp
    | some j => exact playing.requested
  unfinished := Program.le_cycleLength?_or playing.unfinished fun j here => by
    cases here
    exact Nat.le_refl k

theorem nextStep (playing : w.Playing name p k stop) (now : Nat) :
    (∃ step, (w.nextStep now).1 = some step ∧ p.scheduled? k = some step ∧
      (w.nextStep now).2.Playing name p (k + 1) stop ∧
        ∀ n, p.cycleLength? stop = some n → k < n) ∨
      (w.nextStep now).1 = none ∧ p.cycleLength? stop = some k := by
  obtain ⟨run, running, rfl, stands⟩ := playing.stands
  have eq := nextStep_of_run now running playing.registered
    (Program.mode?_eq_some_of_mode playing.listed)
  rw [playing.asked] at eq
  rw [eq]
  rcases stands.follows (instantOfCount now) playing.requested playing.unfinished with
    ⟨step, later, next, scheduled, stands', inCycle⟩ | ⟨later, next, whole⟩
  · rw [next]
    have kept : (run.next p .prg stop.isSome (instantOfCount now)).2.name = run.name :=
      Run.name_next
    rw [next] at kept
    refine Or.inl ⟨step, rfl, scheduled, ?_, inCycle⟩
    exact ⟨playing.registered, playing.listed, ⟨later, rfl, kept, stands'⟩, rfl,
      fun j request => Nat.le_succ_of_le (playing.requested j request), inCycle⟩
  · rw [next]
    exact Or.inr ⟨rfl, whole⟩

end Playing

/-- What becomes of a program after `k` played steps by an operation with this outcome. -/
inductive Proceeds (w : Walker L) (name : String) (p : Program) (k : Nat) (stop : Option Nat)
    (outcome : Outcome) : Prop
  | plays (step : Step) (fires : outcome.firing? = some (.step step))
    (scheduled : p.scheduled? k = some step)
    (inCycle : ∀ n, p.cycleLength? stop = some n → k < n)
    (playing : w.Playing name p (k + 1) stop)
  | ends (fires : outcome.firing? = some .finish) (whole : p.cycleLength? stop = some k)
    (stopped : w.run = none)
  | stops (request : outcome = .stopRequested) (playing : w.Playing name p k (stop.or (some k)))
  | stays (quiet : outcome.firing? = none) (unasked : outcome ≠ .stopRequested)
    (playing : w.Playing name p k stop)

variable [Link L]

theorem firing?_playStatus (result : Except SendError Unit) (step : Step) :
    (Outcome.ticked (playStatus result) (some step)).firing? = some (.step step) := by
  cases result <;> rfl

/-- A tick takes the program on, and fires once the wait is over. -/
theorem Playing.tick {w : Walker L} {name : String} {p : Program} {k : Nat} {stop : Option Nat}
    (playing : w.Playing name p k stop) (now : Nat) :
    Proceeds (w.tick now).2 name p k stop (.ticked (w.tick now).1 (w.tick now).2.lastStep) ∧
      ((Outcome.ticked (w.tick now).1 (w.tick now).2.lastStep).firing?.isSome = true ↔
        w.wait ≤ now - w.lastTick) := by
  rcases tick_cases w now with
    ⟨none, -⟩ | ⟨q, -, ⟨early, eq⟩ | ⟨due, step, next, eq⟩ | ⟨due, next, eq⟩⟩
  · rw [playing.selected?_eq] at none
    cases none
  · rw [eq]
    exact ⟨.stays rfl nofun (playing.of_eq rfl rfl rfl), iff_of_false nofun (Nat.not_le.2 early)⟩
  · rw [eq]
    have fires := firing?_playStatus
      (w.takeReply.transmitter.run (Transmitter.sendStep step)).1 step
    rcases playing.nextStep now with ⟨step', next', scheduled, playing', inCycle⟩ | ⟨next', -⟩
    · rw [next] at next'
      cases next'
      obtain ⟨run, advanced, -⟩ := nextStep_eq w now
      rw [advanced] at playing'
      have later : (w.played now step).Playing name p (k + 1) stop :=
        playing'.of_eq rfl (show (w.nextStep now).2.run = run by rw [advanced]) rfl
      exact ⟨.plays step fires scheduled inCycle later,
        iff_of_true (Option.isSome_of_mem fires) due⟩
    · rw [next] at next'
      cases next'
  · rw [eq]
    rcases playing.nextStep now with ⟨step', next', -⟩ | ⟨-, whole⟩
    · rw [next] at next'
      cases next'
    · exact ⟨.ends rfl whole rfl, iff_of_true rfl due⟩

end Walker

namespace Session

variable {L : Type} [Link L]

open Walker

section Performs

variable {σ σ' : Session L} {op : Operation} {outcome : Outcome} {name : String}

/-- Every operation that does not disturb the program takes it on. -/
theorem Performs.proceeds (performs : Performs σ op outcome σ') {p : Program} {k : Nat}
    {stop : Option Nat} (playing : σ.walker.Playing name p k stop)
    (undisturbed : op.disturbs name outcome = false) :
    Proceeds σ'.walker name p k stop outcome := by
  cases performs with
  | registers other valid => exact .stays rfl nofun (playing.insert undisturbed)
  | loads files path other valid => exact .stays rfl nofun (playing.insert undisturbed)
  | selects => cases undisturbed
  | refusesRegister | refusesLoad | refusesSelect | refusesDeselect =>
      exact .stays rfl nofun playing
  | deselects running => exact .stops rfl playing.requestStop
  | requests => exact .stops rfl playing.requestStop
  | ticks => exact (playing.tick σ.clock.now).1
  | steps => cases undisturbed
  | sends step => exact .stays rfl nofun (playing.of_eq rfl rfl rfl)
  | waits milliseconds => exact .stays rfl nofun (playing.of_eq rfl rfl rfl)
  | advances microseconds => exact .stays rfl nofun playing

/-- With nothing selected, nothing is fired, unless a program is selected again. -/
theorem Performs.stopped (performs : Performs σ op outcome σ') (stopped : σ.walker.run = none)
    (undisturbed : op.disturbs name outcome = false) :
    σ'.walker.run = none ∧ outcome.firing? = none := by
  cases performs with
  | selects | steps => cases undisturbed
  | deselects running => exact (running stopped).elim
  | ticks =>
      rw [tick_of_run_eq_none stopped]
      exact ⟨stopped, rfl⟩
  | _ => exact ⟨stopped, rfl⟩

end Performs

/-- What the operations of a history fired. -/
def firings (history : List (Operation × Outcome)) : List Firing :=
  history.filterMap fun e => e.2.firing?

/-- The number of steps that were played before a stop was first requested, if one was. -/
def firstStop : List (Operation × Outcome) → Option Nat
  | [] => none
  | (_, .stopRequested) :: _ => some 0
  | (_, outcome) :: later =>
    if outcome.played?.isSome then (firstStop later).map (· + 1) else firstStop later

section History

variable {op : Operation} {outcome : Outcome} {later : List (Operation × Outcome)}

theorem firings_cons_some {firing : Firing} (fires : outcome.firing? = some firing) :
    firings ((op, outcome) :: later) = firing :: firings later :=
  List.filterMap_cons_some fires

theorem firings_cons_none (quiet : outcome.firing? = none) :
    firings ((op, outcome) :: later) = firings later :=
  List.filterMap_cons_none quiet

theorem firings_cons :
    firings ((op, outcome) :: later) = outcome.firing?.toList ++ firings later := by
  cases fires : outcome.firing? with
  | none => exact firings_cons_none fires
  | some firing => exact firings_cons_some fires

theorem firstStop_cons_step {step : Step} (fires : outcome.firing? = some (.step step)) :
    firstStop ((op, outcome) :: later) = (firstStop later).map (· + 1) := by
  have unasked : outcome ≠ .stopRequested := by
    rintro rfl
    cases fires
  have played : outcome.played?.isSome = true := by
    unfold Outcome.firing? at fires
    split at fires
    · cases fires
    · obtain ⟨played, eq, -⟩ := Option.map_eq_some_iff.1 fires
      rw [eq]
      rfl
  rw [firstStop, if_pos played]
  exact unasked

theorem firstStop_cons_quiet (quiet : outcome.firing? = none) (unasked : outcome ≠ .stopRequested) :
    firstStop ((op, outcome) :: later) = firstStop later := by
  have unplayed : ¬outcome.played?.isSome = true := by
    unfold Outcome.firing? at quiet
    split at quiet
    · cases quiet
    · rw [Option.map_eq_none_iff.1 quiet]
      nofun
  rw [firstStop, if_neg unplayed]
  exact unasked

end History

end Session

/-- What a program may fire after `k` steps: the step that is scheduled there, within the cycle, or
the end of the cycle, where it is due. -/
def Program.Fires (p : Program) (stop : Option Nat) (k : Nat) : Firing → Prop
  | .step step => p.scheduled? k = some step ∧ ∀ n, p.cycleLength? stop = some n → k < n
  | .finish => p.cycleLength? stop = some k

namespace Session

variable {L : Type} [Link L]

open Walker

theorem firings_of_stopped {σ : Session L} {name : String} (stopped : σ.walker.run = none)
    (ops : List Operation) (undisturbed : ∀ e ∈ σ.history ops, e.1.disturbs name e.2 = false) :
    firings (σ.history ops) = [] ∧ (σ.after ops).walker.run = none := by
  induction ops generalizing σ with
  | nil => exact ⟨rfl, stopped⟩
  | cons op ops ih =>
      have undisturbed' := List.forall_mem_cons.1 undisturbed
      obtain ⟨stopped', quiet⟩ := (σ.performs op).stopped stopped undisturbed'.1
      obtain ⟨none, end'⟩ := ih stopped' undisturbed'.2
      refine ⟨?_, end'⟩
      rw [history, firings_cons_none quiet]
      exact none

/-- From `k` played steps on, every firing is the one that the schedule has there. -/
theorem firings_of_playing {σ : Session L} {name : String} {p : Program} {k : Nat}
    {stop : Option Nat} (playing : σ.walker.Playing name p k stop) (ops : List Operation)
    (undisturbed : ∀ e ∈ σ.history ops, e.1.disturbs name e.2 = false) :
    ∀ i firing, (firings (σ.history ops))[i]? = some firing →
      p.Fires (stop.or ((firstStop (σ.history ops)).map (k + ·))) (k + i) firing := by
  induction ops generalizing σ k stop with
  | nil => exact nofun
  | cons op ops ih =>
      have undisturbed' := List.forall_mem_cons.1 undisturbed
      cases (σ.performs op).proceeds playing undisturbed'.1 with
      | plays step fires scheduled inCycle playing' =>
          rw [history, firings_cons_some fires, firstStop_cons_step fires]
          intro i firing fired
          cases i with
          | zero =>
              cases fired
              refine ⟨scheduled, Program.le_cycleLength?_or inCycle fun j stopped => ?_⟩
              obtain ⟨i, more, rfl⟩ := Option.map_eq_some_iff.1 stopped
              obtain ⟨i, -, rfl⟩ := Option.map_eq_some_iff.1 more
              exact Nat.add_le_add_left (Nat.succ_pos i) k
          | succ i =>
              have shift : ((firstStop ((σ.perform op).2.history ops)).map (· + 1)).map (k + ·) =
                  (firstStop ((σ.perform op).2.history ops)).map (k + 1 + ·) := by
                rw [Option.map_map]
                congr 1
                funext j
                exact (Nat.add_right_comm k 1 j).symm
              rw [shift, show k + (i + 1) = k + 1 + i by omega]
              exact ih playing' undisturbed'.2 i firing fired
      | ends fires whole stopped =>
          rw [history, firings_cons_some fires, (firings_of_stopped stopped ops undisturbed'.2).1]
          intro i firing fired
          cases i with
          | zero =>
              cases fired
              exact Program.cycleLength?_or whole _
          | succ i => cases fired
      | stops request playing' =>
          have quiet : (σ.perform op).1.firing? = none := by rw [request]; rfl
          have fits := ih playing' undisturbed'.2
          rw [history, firings_cons_none quiet, request]
          cases stop with
          | none => exact fits
          | some j => exact fits
      | stays quiet unasked playing' =>
          rw [history, firings_cons_none quiet, firstStop_cons_quiet quiet unasked]
          exact ih playing' undisturbed'.2

/-- Until the end of the cycle is fired, the program is being played; then nothing is selected. -/
theorem after_of_playing {σ : Session L} {name : String} {p : Program} {k : Nat}
    {stop : Option Nat} (playing : σ.walker.Playing name p k stop) (ops : List Operation)
    (undisturbed : ∀ e ∈ σ.history ops, e.1.disturbs name e.2 = false) :
    (.finish ∉ firings (σ.history ops) ∧
      ∃ k stop, (σ.after ops).walker.Playing name p k stop) ∨
      (.finish ∈ firings (σ.history ops) ∧ (σ.after ops).walker.run = none) := by
  induction ops generalizing σ k stop with
  | nil => exact Or.inl ⟨nofun, k, stop, playing⟩
  | cons op ops ih =>
      have undisturbed' := List.forall_mem_cons.1 undisturbed
      rw [history, after]
      cases (σ.performs op).proceeds playing undisturbed'.1 with
      | plays step fires _ _ playing' =>
          rw [firings_cons_some fires]
          simpa using ih playing' undisturbed'.2
      | ends fires _ stopped =>
          rw [firings_cons_some fires]
          exact Or.inr ⟨List.mem_cons_self, (firings_of_stopped stopped ops undisturbed'.2).2⟩
      | stops request playing' =>
          have quiet : (σ.perform op).1.firing? = none := by rw [request]; rfl
          rw [firings_cons_none quiet]
          exact ih playing' undisturbed'.2
      | stays quiet _ playing' =>
          rw [firings_cons_none quiet]
          exact ih playing' undisturbed'.2

/-- A selected program of mode `prg` stands before its first step. -/
theorem playing_of_selected {σ σ₀ : Session L} {name : String} {p : Program}
    (registered : σ.walker.registry.get? name = some p) (listed : p.mode = .ok .prg)
    (selected : σ.perform (.select name) = (.selected, σ₀)) :
    σ₀.walker.Playing name p 0 none := by
  have performs := σ.performs (.select name)
  rw [selected] at performs
  cases performs with
  | selects => exact .start registered listed σ.clock.now

/-- The wait after the last step is over. -/
def Due (σ : Session L) : Prop := σ.walker.wait ≤ σ.clock.now - σ.walker.lastTick

/-- What is fired from the selection of a registered program of mode `prg` on, whatever is done to
the walker short of disturbing that program, and whatever the link does.

The firing after `k` others is the step that the program schedules there, as long as its cycle is
not over; after all steps of the cycle, and only there, it is the end of the cycle.  From then on
every tick is idle; before that a tick fires just when the wait is over. -/
theorem firings_of_selected {σ σ₀ : Session L} {name : String} {p : Program}
    (registered : σ.walker.registry.get? name = some p) (listed : p.mode = .ok .prg)
    (selected : σ.perform (.select name) = (.selected, σ₀)) (ops : List Operation)
    (undisturbed : ∀ e ∈ σ₀.history ops, e.1.disturbs name e.2 = false) :
    (∀ k firing, (firings (σ₀.history ops))[k]? = some firing →
      p.Fires (firstStop (σ₀.history ops)) k firing) ∧
    (.finish ∈ firings (σ₀.history ops) →
      ((σ₀.after ops).walker.tick (σ₀.after ops).clock.now).1 = .idle) ∧
    (.finish ∉ firings (σ₀.history ops) →
      (((σ₀.after ops).perform .tick).1.firing?.isSome = true ↔ (σ₀.after ops).Due)) := by
  have playing := playing_of_selected registered listed selected
  refine ⟨fun k firing fired => ?_, fun finished => ?_, fun unfinished => ?_⟩
  · have fits := firings_of_playing playing ops undisturbed k firing fired
    have shift : (firstStop (σ₀.history ops)).map (0 + ·) = firstStop (σ₀.history ops) := by
      simp
    rwa [Option.none_or, shift, Nat.zero_add] at fits
  · rcases after_of_playing playing ops undisturbed with ⟨unfinished, -⟩ | ⟨-, stopped⟩
    · exact (unfinished finished).elim
    · rw [tick_of_run_eq_none stopped]
  · rcases after_of_playing playing ops undisturbed with ⟨-, k, stop, playing'⟩ | ⟨finished, -⟩
    · exact (playing'.tick (σ₀.after ops).clock.now).2
    · exact (unfinished finished).elim

theorem firings_of_stopped_loop :
    let first : Step := ⟨Vector.replicate servoCount 90, 0⟩
    let second : Step := ⟨Vector.replicate servoCount 120, 0⟩
    let wave : Program :=
      { name := "wave", use := some "prg", looping := true, setup := #[first],
        main := #[first, second] }
    let σ : Session Link.Failing := ((start {} .replace).perform (.register wave)).2
    let σ₀ := (σ.perform (.select "wave")).2
    let ops : List Operation := [.tick, .tick, .requestStop, .tick, .deselect, .tick]
    σ.walker.registry.get? "wave" = some wave ∧ wave.mode = .ok .prg ∧
      σ.perform (.select "wave") = (.selected, σ₀) ∧
      (∀ e ∈ σ₀.history ops, e.1.disturbs "wave" e.2 = false) ∧
      firings (σ₀.history ops) = [.step first, .step first, .step second, .finish] ∧
      wave.cycleLength? (firstStop (σ₀.history ops)) = some 3 := by
  intro first second wave σ σ₀ ops
  have registered : σ.walker.registry.get? "wave" = some wave := rfl
  have listed : wave.mode = .ok .prg := rfl
  have selected : σ.perform (.select "wave") = (.selected, σ₀) := rfl
  have undisturbed : ∀ e ∈ σ₀.history ops, e.1.disturbs "wave" e.2 = false := by decide
  have fired : firings (σ₀.history ops) = [.step first, .step first, .step second, .finish] := by
    decide
  obtain ⟨scheduled, -⟩ := firings_of_selected registered listed selected ops undisturbed
  exact ⟨registered, listed, selected, undisturbed, fired, scheduled 3 .finish (by rw [fired]; rfl)⟩

end Session

end Gait

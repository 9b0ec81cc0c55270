import Gait.Drive.Polling
import Gait.Proofs.Session

/-!
# Drivers as sessions

What a `Drive` or a `Poll` does to its walker and its clock can be done in a session: they tick,
they sleep, and a drive may ask for a stop.  `Drive.operations` and `Poll.operations` list the
operations in order, and `after_operations` says of both that these lead where the loop leads.  So
what is known of sessions holds of driven walkers.

What the loops keep for themselves is read off the statuses in the history of these operations: a
drive counts them (`Drive.summary_run`), and a poll queues some of them (`Poll.queue_run`).
-/

namespace Gait

/-! ## Statuses -/

/-- The status of an outcome, if it is that of a tick. -/
def Outcome.status? : Outcome → Option Status
  | ticked status _ => some status
  | _ => none

namespace Status

/-- A step was due but not sent as a whole. -/
def isFault : Status → Bool
  | faulted _ => true
  | _ => false

/-- Something was played or ended, which a poll queues. -/
def isNews : Status → Bool
  | idle | waiting => false
  | _ => true

theorem isNews_of_plays {s : Status} (plays : s.plays = true) : s.isNews = true := by
  cases s with
  | stepped | faulted => rfl
  | idle | waiting | endOfCycle => cases plays

theorem plays_of_isFault {s : Status} (fault : s.isFault = true) : s.plays = true := by
  cases s with
  | faulted => rfl
  | idle | waiting | stepped | endOfCycle => cases fault

end Status

namespace Session

/-- The statuses that the ticks of a history gave. -/
def statuses (history : List (Operation × Outcome)) : List Status :=
  history.filterMap fun e => e.2.status?

theorem statuses_tick {L : Type} [Link L] (σ : Session L) (later : List Operation) :
    statuses (σ.history (.tick :: later)) =
      (σ.walker.tick σ.clock.now).1 ::
        statuses ({ σ with walker := (σ.walker.tick σ.clock.now).2 }.history later) := rfl

end Session

namespace Drive

variable {L : Type}

/-! ## Drives -/

/-- What is asked for before the tick of an iteration. -/
def requests (d : Drive L) : List Operation :=
  if !d.summary.stopRequested && (d.limitReached || d.shutdown) then [.deselect] else []

/-- Asking for a stop counts nothing. -/
theorem counts_requestStop (d : Drive L) :
    d.requestStop.summary.steps = d.summary.steps ∧
      d.requestStop.summary.faults = d.summary.faults := by
  unfold requestStop
  split
  · split <;> exact ⟨rfl, rfl⟩
  · exact ⟨rfl, rfl⟩

theorem count_steps (summary : Summary) (s : Status) :
    (count summary s).2.steps = summary.steps + if s.plays then 1 else 0 := by
  cases s <;> rfl

theorem count_faults (summary : Summary) (s : Status) :
    (count summary s).2.faults = summary.faults + if s.isFault then 1 else 0 := by
  cases s <;> rfl

variable [Link L]

open Session (statuses)

/-- What a drive does in some iterations. -/
def operations (poll : Nat) : (fuel : Nat) → Clock → Drive L → List Operation
  | 0, _, _ => []
  | fuel + 1, clock, d =>
    d.requests ++ .tick ::
      match d.step clock.now with
      | (.finished, _) => []
      | (.sleep, d) => .advance poll :: operations poll fuel (clock.advance poll) d
      | (.again, d) => operations poll fuel clock d

theorem after_requests (d : Drive L) (clock : Clock) :
    (⟨d.walker, clock⟩ : Session L).after d.requests = ⟨d.requestStop.walker, clock⟩ := by
  unfold requests requestStop
  split
  · cases asked : d.walker.deselect <;> simp only [Session.after, Session.perform, asked]
  · rfl

theorem statuses_requests (d : Drive L) (clock : Clock) :
    statuses ((⟨d.walker, clock⟩ : Session L).history d.requests) = [] := by
  unfold requests
  split
  · dsimp only [Session.history, Session.perform]
    split <;> rfl
  · rfl

/-- The operations of a drive lead where the drive leads. -/
theorem after_operations (poll fuel : Nat) (clock : Clock) (d : Drive L) :
    (⟨d.walker, clock⟩ : Session L).after (d.operations poll fuel clock) =
      ⟨(d.run poll fuel clock).2.2.walker, (d.run poll fuel clock).2.1⟩ := by
  induction fuel generalizing clock d with
  | zero => rfl
  | succ fuel ih =>
      have walker : (d.step clock.now).2.walker = (d.requestStop.walker.tick clock.now).2 := rfl
      rw [operations, run, Session.after_append, after_requests, Session.after, Session.perform]
      dsimp only
      rw [← walker]
      rcases d.step clock.now with ⟨next, later⟩
      cases next with
      | finished => rfl
      | sleep => exact ih (clock.advance poll) later
      | again => exact ih clock later

/-- An iteration has one status. -/
theorem statuses_iteration (d : Drive L) (clock : Clock) (later : List Operation) :
    statuses ((⟨d.walker, clock⟩ : Session L).history (d.requests ++ .tick :: later)) =
      (d.requestStop.walker.tick clock.now).1 ::
        statuses ((⟨(d.step clock.now).2.walker, clock⟩ : Session L).history later) := by
  have quiet := d.statuses_requests clock
  unfold statuses at quiet
  rw [Session.history_append, statuses, List.filterMap_append, quiet, after_requests]
  exact Session.statuses_tick ..

/-- A drive counts the steps among the statuses, and those that were not sent as a whole. -/
theorem summary_run (poll fuel : Nat) (clock : Clock) (d : Drive L) :
    let given := statuses ((⟨d.walker, clock⟩ : Session L).history (d.operations poll fuel clock))
    (d.run poll fuel clock).2.2.summary.steps = d.summary.steps + given.countP Status.plays ∧
      (d.run poll fuel clock).2.2.summary.faults =
        d.summary.faults + given.countP Status.isFault := by
  induction fuel generalizing clock d with
  | zero => exact ⟨rfl, rfl⟩
  | succ fuel ih =>
      obtain ⟨steps, faults⟩ := d.counts_requestStop
      have played := count_steps d.requestStop.summary (d.requestStop.walker.tick clock.now).1
      have failed := count_faults d.requestStop.summary (d.requestStop.walker.tick clock.now).1
      have summary : (d.step clock.now).2.summary =
          (count d.requestStop.summary (d.requestStop.walker.tick clock.now).1).2 := rfl
      rw [← summary] at played failed
      dsimp only
      rw [operations, run, statuses_iteration, List.countP_cons, List.countP_cons]
      generalize d.step clock.now = stepped at played failed ⊢
      obtain ⟨next, later⟩ := stepped
      dsimp only at played failed ⊢
      cases next with
      | finished =>
          rw [played, failed, steps, faults]
          exact ⟨congrArg _ (Nat.zero_add _).symm, congrArg _ (Nat.zero_add _).symm⟩
      | sleep =>
          obtain ⟨moreSteps, moreFaults⟩ := ih (clock.advance poll) later
          rw [moreSteps, moreFaults, played, failed, steps, faults, Nat.add_assoc, Nat.add_assoc]
          exact ⟨congrArg _ (Nat.add_comm ..), congrArg _ (Nat.add_comm ..)⟩
      | again =>
          obtain ⟨moreSteps, moreFaults⟩ := ih clock later
          rw [moreSteps, moreFaults, played, failed, steps, faults, Nat.add_assoc, Nat.add_assoc]
          exact ⟨congrArg _ (Nat.add_comm ..), congrArg _ (Nat.add_comm ..)⟩

end Drive

namespace Poll

variable {L : Type} [Link L]

open Session (statuses)

/-! ## Polls -/

/-- What a poll does in some iterations. -/
def operations (poll : Nat) : (fuel : Nat) → Clock → Poll L → List Operation
  | 0, _, _ => []
  | fuel + 1, clock, p =>
    if p.walker.run.isNone then []
    else
      .tick ::
        match p.step clock.now with
        | (.sleep, p) => .advance poll :: operations poll fuel (clock.advance poll) p
        | (_, p) => operations poll fuel clock p

/-- The statuses that a poll queues in some iterations, with those that the queue discards later. -/
def produced (poll fuel : Nat) (clock : Clock) (p : Poll L) : List Status :=
  (statuses ((⟨p.walker, clock⟩ : Session L).history (p.operations poll fuel clock))).filter
    Status.isNews

/-- A poll sleeps where there is no news, and otherwise queues the status. -/
theorem step_eq (p : Poll L) (now : Nat) :
    p.step now =
      if (p.walker.tick now).1.isNews then
        (.again, ⟨(p.walker.tick now).2, p.queue.push (p.walker.tick now).1⟩)
      else (.sleep, ⟨(p.walker.tick now).2, p.queue⟩) := by
  unfold step
  rcases p.walker.tick now with ⟨status, walker⟩
  cases status <;> rfl

/-- The operations of a poll lead where the poll leads. -/
theorem after_operations (poll fuel : Nat) (clock : Clock) (p : Poll L) :
    (⟨p.walker, clock⟩ : Session L).after (p.operations poll fuel clock) =
      ⟨(p.run poll fuel clock).2.2.walker, (p.run poll fuel clock).2.1⟩ := by
  induction fuel generalizing clock p with
  | zero => rfl
  | succ fuel ih =>
      rw [operations, run]
      by_cases stopped : p.walker.run.isNone = true
      · rw [if_pos stopped, if_pos stopped]
        rfl
      · rw [if_neg stopped, if_neg stopped, step_eq, Session.after, Session.perform]
        by_cases news : (p.walker.tick clock.now).1.isNews = true
        · rw [if_pos news]
          exact ih clock ⟨(p.walker.tick clock.now).2, _⟩
        · rw [if_neg news]
          exact ih (clock.advance poll) ⟨(p.walker.tick clock.now).2, p.queue⟩

/-- The queue of a poll holds what is left of all that was queued. -/
theorem queue_run (poll fuel : Nat) (clock : Clock) (p : Poll L) :
    (p.run poll fuel clock).2.2.queue =
      (p.produced poll fuel clock).foldl StatusQueue.push p.queue := by
  induction fuel generalizing clock p with
  | zero => rfl
  | succ fuel ih =>
      by_cases stopped : p.walker.run.isNone = true
      · rw [produced, operations, run, if_pos stopped, if_pos stopped]
        rfl
      · rw [produced, operations, run, if_neg stopped, if_neg stopped, step_eq,
          Session.statuses_tick, List.filter_cons]
        by_cases news : (p.walker.tick clock.now).1.isNews = true
        · rw [if_pos news, if_pos news, List.foldl_cons]
          exact ih clock ⟨(p.walker.tick clock.now).2, _⟩
        · rw [if_neg news, if_neg news]
          exact ih (clock.advance poll) ⟨(p.walker.tick clock.now).2, p.queue⟩

end Poll

end Gait

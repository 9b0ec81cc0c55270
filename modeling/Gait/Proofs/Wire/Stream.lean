import Gait.Proofs.Session
import Gait.Proofs.Wire.Attempts

/-!
# The stream of a session

Sessions over a link with a log.  `Session.execution?` is the step that an operation hands to the
transmitter, with the attempts for it, and `Performs.writes` says that an operation writes for these
attempts and nothing else.  The main statement is about whole runs: a receiver finds its way in what
the link accepted, however often a frame was cut short, and gets the commands that were sent whole.
-/

namespace Gait.Session

open Link (Logged)

variable {L : Type} [Link L]

/-- All writes to the link so far. -/
def writes (σ : Session (Logged L)) : List (UInt8 × Bool) := σ.walker.transmitter.link.writes

/-- The step that an operation hands to the transmitter, with the attempts to send it: one that is
sent from outside, or one that a tick plays. -/
def execution? (σ : Session (Logged L)) : Operation → Option (Step × List Attempt)
  | .sendStep step => some (step, σ.walker.transmitter.attempts step)
  | .tick => (σ.perform .tick).1.played?.map fun step =>
      (step, σ.walker.takeReply.transmitter.attempts step)
  | _ => none

/-- The steps that operations execute, each with the attempts to write its bytes. -/
def executions (σ : Session (Logged L)) : List Operation → List (Step × List Attempt)
  | [] => []
  | op :: ops => (σ.execution? op).toList ++ (σ.perform op).2.executions ops

/-! ## One operation -/

theorem attempted_of_execution? {σ : Session (Logged L)} {op : Operation}
    {execution : Step × List Attempt} (executes : σ.execution? op = some execution) :
    Attempted 0 execution.1.positions.toList execution.2 := by
  cases op with
  | sendStep step =>
      cases executes
      exact (Transmitter.attemptsFrom_spec ..).1
  | tick =>
      obtain ⟨step, -, rfl⟩ := Option.map_eq_some_iff.1 executes
      exact (Transmitter.attemptsFrom_spec ..).1
  | _ => cases executes

theorem writes_tick (σ : Session (Logged L)) :
    (σ.perform .tick).2.writes =
      σ.writes ++ (σ.execution? .tick).toList.flatMap fun e => e.2.flatMap (·.writes) := by
  have read : σ.walker.takeReply.transmitter.link.writes = σ.writes := rfl
  unfold execution?
  dsimp only [perform, writes]
  rcases Walker.tick_cases σ.walker σ.clock.now with
    ⟨-, eq⟩ | ⟨p, -, ⟨-, eq⟩ | ⟨-, step, -, eq⟩ | ⟨-, -, eq⟩⟩
  · rw [eq]
    exact (List.append_nil _).symm
  · rw [eq]
    exact (List.append_nil _).symm
  · obtain ⟨-, logged⟩ :=
      σ.walker.takeReply.transmitter.attemptsFrom_spec 0 step.positions.toList
    have plays := Walker.plays_playStatus
      (σ.walker.takeReply.transmitter.run (Transmitter.sendStep step)).1
    rw [eq]
    simp only [Outcome.played?, plays, Walker.played]
    exact logged.trans (by simp [read, writes, Transmitter.attempts])
  · rw [eq]
    exact (List.append_nil _).symm

/-- An operation writes for the attempts of its step, and nothing if it has none. -/
theorem Performs.writes {σ σ' : Session (Logged L)} {op : Operation} {outcome : Outcome}
    (performs : Performs σ op outcome σ') :
    σ'.writes = σ.writes ++ (σ.execution? op).toList.flatMap fun e => e.2.flatMap (·.writes) := by
  cases performs with
  | ticks => exact σ.writes_tick
  | sends step =>
      obtain ⟨-, logged⟩ := σ.walker.transmitter.attemptsFrom_spec 0 step.positions.toList
      exact logged.trans (by simp [execution?, Session.writes, Transmitter.attempts])
  | steps =>
      obtain ⟨run, next, -⟩ := Walker.nextStep_eq σ.walker σ.clock.now
      rw [next]
      exact (List.append_nil _).symm
  | _ => exact (List.append_nil _).symm

/-! ## Whole runs -/

theorem writes_after (σ : Session (Logged L)) (ops : List Operation) :
    (σ.after ops).writes =
      σ.writes ++ (σ.executions ops).flatMap fun e => e.2.flatMap (·.writes) := by
  induction ops generalizing σ with
  | nil => exact (List.append_nil _).symm
  | cons op ops ih =>
      rw [after, ih, (σ.performs op).writes, executions, List.flatMap_append, List.append_assoc]

theorem attempted_of_mem {σ : Session (Logged L)} {ops : List Operation}
    {execution : Step × List Attempt} (executed : execution ∈ σ.executions ops) :
    Attempted 0 execution.1.positions.toList execution.2 := by
  induction ops generalizing σ with
  | nil => cases executed
  | cons op ops ih =>
      rcases List.mem_append.1 executed with here | later
      · exact attempted_of_execution? (Option.mem_toList.1 here)
      · exact ih later

/-- A receiver, whatever it was left with, gets the whole commands of all attempts. -/
theorem received_executions (executions : List (Step × List Attempt))
    (attempted : ∀ e ∈ executions, Attempted 0 e.1.positions.toList e.2) (r : Receiver) :
    ((accepted (executions.flatMap fun e => e.2.flatMap (·.writes))).foldl
        Receiver.take r).received =
      r.received ++ executions.flatMap fun e => wholeCommands e.2 := by
  induction executions generalizing r with
  | nil => exact (List.append_nil _).symm
  | cons e later ih =>
      obtain ⟨here, attempted'⟩ := List.forall_mem_cons.1 attempted
      rw [List.flatMap_cons, accepted_append, List.foldl_append, ih attempted', here.received,
        List.append_assoc, List.flatMap_cons]

/-- What a run writes to a link, over any link and by any operations.  All writes are made for the
attempts of executed steps, and an operation that executes none writes nothing.  A receiver of the
accepted bytes gets just the commands both of whose bytes were accepted, in order; for each executed
step these are commands for the first slots, each to its servo and with its setpoint. -/
theorem decode_accepted (link : L) (policy : SelectPolicy) (ops : List Operation) :
    let σ := start (⟨link, []⟩ : Logged L) policy
    (σ.after ops).writes = ((σ.executions ops).flatMap fun e => e.2.flatMap (·.writes)) ∧
      decode (accepted (σ.after ops).writes) =
        ((σ.executions ops).flatMap fun e => wholeCommands e.2) ∧
      (∀ e ∈ σ.executions ops,
        wholeCommands e.2 <+: e.1.positions.toList.mapIdx Command.forSlot) ∧
      ∀ op, (σ.after ops).execution? op = none →
        ((σ.after ops).perform op).2.writes = (σ.after ops).writes := by
  intro σ
  have written : (σ.after ops).writes =
      (σ.executions ops).flatMap fun e => e.2.flatMap (·.writes) :=
    σ.writes_after ops
  refine ⟨written, ?_, fun e executed => ?_, fun op idle => ?_⟩
  · rw [decode, written]
    exact received_executions _ (fun e => attempted_of_mem) {}
  · have ordered := (attempted_of_mem executed).inOrder
    simpa only [Nat.zero_add] using ordered
  · rw [((σ.after ops).performs op).writes, idle]
    exact List.append_nil _

end Gait.Session

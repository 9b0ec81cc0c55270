import Gait.Link.Memory
import Gait.Proofs.Session
import Gait.Proofs.Wire.Attempts

/-!
# Walkers without their link

`Walker.unlinked` takes the link away from a walker, with the frame that is built for it, and
`Outcome.unlinked` takes out of an answer what came back from the link.  `Session.perform_unlinked`
says that an operation does to the rest what it does over a link that swallows every byte, so that
nothing which a link answers can reach the programs, the run, the stop flags or the wait.

What an operation does to a link is said apart from that: a tick reads once and then writes, all
other operations only write (`Performs.link`).  `same_over_any_link` has both for whole runs.
-/

namespace Gait

/-! ## Writing to a link -/

namespace Link

variable {L : Type} [Link L]

/-- The link after bytes were written to it, whatever it made of them. -/
def writeAll (l : L) (bytes : List UInt8) : L :=
  bytes.foldl (fun l byte => (Link.write l byte).2) l

theorem writeAll_append (l : L) (bytes later : List UInt8) :
    writeAll l (bytes ++ later) = writeAll (writeAll l bytes) later :=
  List.foldl_append

/-- A view of the replies that wait at a link: writing leaves them as they are, and reading takes at
most the first. -/
structure Queues (replies : L → List UInt8) : Prop where
  write : ∀ l byte, replies (Link.write l byte).2 = replies l
  read : ∀ l, ∃ n ≤ 1, replies (Link.read l).2 = (replies l).drop n

theorem Queues.writeAll {replies : L → List UInt8} (queues : Queues replies) (l : L)
    (bytes : List UInt8) : replies (writeAll l bytes) = replies l := by
  induction bytes generalizing l with
  | nil => rfl
  | cons byte bytes ih => exact (ih _).trans (queues.write l byte)

end Link

namespace Transmitter

variable {L : Type} [Link L]

/-- The operation does nothing to a link but write to it. -/
def OnlyWrites (a : Sending L Unit) : Prop :=
  ∀ t : Transmitter L, ∃ bytes, (t.run a).2.link = Link.writeAll t.link bytes

theorem OnlyWrites.seq {a b : Sending L Unit} (first : OnlyWrites a) (next : OnlyWrites b) :
    OnlyWrites (do a; b) := by
  intro t
  obtain ⟨bytes, wrote⟩ := first t
  rw [run_seq]
  generalize t.run a = ran at wrote
  obtain ⟨result, later⟩ := ran
  cases result with
  | error e => exact ⟨bytes, wrote⟩
  | ok =>
      obtain ⟨more, wrote'⟩ := next later
      refine ⟨bytes ++ more, ?_⟩
      dsimp only at wrote ⊢
      rw [wrote', wrote, Link.writeAll_append]

theorem onlyWrites_reset : OnlyWrites (reset : Sending L Unit) := fun _ => ⟨[], rfl⟩

theorem onlyWrites_put (field : Field) (number : Int) :
    OnlyWrites (put field number : Sending L Unit) := by
  intro t
  rw [run_put]
  split <;> exact ⟨[], rfl⟩

theorem onlyWrites_write (byte : UInt8) : OnlyWrites (write byte : Sending L Unit) := by
  intro t
  refine ⟨[byte], ?_⟩
  rw [run_write]
  change _ = (Link.write t.link byte).2
  rcases Link.write t.link byte with ⟨_ | _, link⟩ <;> rfl

theorem onlyWrites_send : OnlyWrites (send : Sending L Unit) := by
  intro t
  rw [run_send]
  exact (onlyWrites_write t.frame.first).seq (onlyWrites_write t.frame.second) t

theorem onlyWrites_sendStep (step : Step) : OnlyWrites (sendStep step : Sending L Unit) :=
  of_parts (fun _ => ⟨[], rfl⟩) .seq onlyWrites_reset onlyWrites_put onlyWrites_send step

end Transmitter

/-! ## Answers -/

/-- The status, with no difference between a step that was sent and one that was not. -/
def Status.unlinked : Status → Status
  | faulted _ => stepped
  | status => status

/-- The answer without what came back from the link. -/
def Outcome.unlinked : Outcome → Outcome
  | ticked status lastStep => ticked status.unlinked lastStep
  | sent _ => sent (.ok ())
  | outcome => outcome

/-! ## Walkers -/

namespace Walker

variable {L : Type}

/-- The walker without its link and the frame for it. -/
def unlinked (w : Walker L) : Walker Link.Null := { w with transmitter := ⟨⟨⟩, .blank⟩ }

theorem nextStep_unlinked (w : Walker L) (now : Nat) :
    w.unlinked.nextStep now = ((w.nextStep now).1, (w.nextStep now).2.unlinked) := by
  have run : w.unlinked.run = w.run := rfl
  have selected : w.unlinked.selected? = w.selected? := rfl
  have shouldStop : w.unlinked.shouldStop = w.shouldStop := rfl
  unfold nextStep
  rw [run, selected, shouldStop]
  split
  · split <;> rfl
  · rfl

variable [Link L]

theorem unlinked_playStatus (result : Except SendError Unit) :
    (playStatus result).unlinked = .stepped := by
  cases result <;> rfl

theorem played_unlinked (w : Walker L) (now : Nat) (step : Step) :
    (w.played now step).unlinked = (w.unlinked.played now step).unlinked := by
  have run : (w.unlinked.nextStep now).2.run = (w.nextStep now).2.run := by
    rw [nextStep_unlinked]
    rfl
  unfold played
  rw [run]
  rfl

theorem tick_unlinked (w : Walker L) (now : Nat) :
    (w.tick now).1.unlinked = (w.unlinked.tick now).1.unlinked ∧
      (w.tick now).2.unlinked = (w.unlinked.tick now).2.unlinked := by
  have selected : w.unlinked.selected? = w.selected? := rfl
  have waited : (now - w.unlinked.lastTick < w.unlinked.wait) = (now - w.lastTick < w.wait) := rfl
  have step : (w.unlinked.nextStep now).1 = (w.nextStep now).1 := by rw [nextStep_unlinked]
  rw [tick_eq, tick_eq, selected, step]
  simp only [waited]
  cases w.selected? with
  | none => exact ⟨rfl, rfl⟩
  | some p =>
      dsimp only
      by_cases early : now - w.lastTick < w.wait
      · rw [if_pos early, if_pos early]
        exact ⟨rfl, rfl⟩
      · rw [if_neg early, if_neg early]
        cases (w.nextStep now).1 with
        | none => exact ⟨rfl, rfl⟩
        | some step =>
            exact ⟨(unlinked_playStatus _).trans (unlinked_playStatus _).symm,
              played_unlinked w now step⟩

end Walker

/-! ## Sessions -/

namespace Session

variable {L : Type}

/-- The session with its link replaced by one that does nothing. -/
def unlinked (σ : Session L) : Session Link.Null := ⟨σ.walker.unlinked, σ.clock⟩

/-- The link of the walker of a session. -/
def link (σ : Session L) : L := σ.walker.transmitter.link

variable [Link L]

/-- Over any link, an operation answers and does what it does without the link. -/
theorem perform_unlinked (σ : Session L) (op : Operation) :
    (σ.perform op).1.unlinked = (σ.unlinked.perform op).1.unlinked ∧
      (σ.perform op).2.unlinked = (σ.unlinked.perform op).2.unlinked := by
  cases op with
  | register p =>
      dsimp only [perform]
      cases valid : p.mode with
      | error reason =>
          rw [Walker.register_of_invalid _ valid, Walker.register_of_invalid _ valid]
          exact ⟨rfl, rfl⟩
      | ok mode =>
          rw [Walker.register_of_valid _ valid, Walker.register_of_valid _ valid]
          exact ⟨rfl, rfl⟩
  | load files path =>
      dsimp only [perform]
      rw [Walker.run_load, Walker.run_load]
      cases (WalkFile.load path : ReaderM FileTree _).run files with
      | error report => exact ⟨rfl, rfl⟩
      | ok reading =>
          dsimp only
          cases valid : reading.program.mode with
          | error reason =>
              rw [Walker.register_of_invalid _ valid, Walker.register_of_invalid _ valid]
              exact ⟨rfl, rfl⟩
          | ok mode =>
              rw [Walker.register_of_valid _ valid, Walker.register_of_valid _ valid]
              exact ⟨rfl, rfl⟩
  | select name =>
      have registry : σ.unlinked.walker.registry = σ.walker.registry := rfl
      have policy : σ.unlinked.walker.policy = σ.walker.policy := rfl
      have run : σ.unlinked.walker.run = σ.walker.run := rfl
      dsimp only [perform]
      unfold Walker.select
      rw [registry, policy, run]
      cases σ.walker.registry.contains name with
      | false => exact ⟨rfl, rfl⟩
      | true =>
          cases σ.walker.policy with
          | replace => exact ⟨rfl, rfl⟩
          | rejectWhileRunning => cases σ.walker.run <;> exact ⟨rfl, rfl⟩
  | deselect =>
      have run : σ.unlinked.walker.run = σ.walker.run := rfl
      dsimp only [perform, Walker.deselect]
      rw [run]
      cases σ.walker.run <;> exact ⟨rfl, rfl⟩
  | tick =>
      obtain ⟨status, walker⟩ := σ.walker.tick_unlinked σ.clock.now
      have lastStep := congrArg Walker.lastStep walker
      have answer : Outcome.ticked _ _ = Outcome.ticked _ _ :=
        congr (congrArg Outcome.ticked status) lastStep
      exact ⟨answer, congrArg (Session.mk · σ.clock) walker⟩
  | nextStep =>
      dsimp only [perform]
      rw [show σ.unlinked.walker.nextStep σ.unlinked.clock.now = _ from
        σ.walker.nextStep_unlinked σ.clock.now]
      exact ⟨rfl, rfl⟩
  | requestStop | sendStep | setWait | advance => exact ⟨rfl, rfl⟩

theorem after_unlinked (σ : Session L) (ops : List Operation) :
    (σ.after ops).unlinked = (σ.unlinked.after ops).unlinked := by
  induction ops generalizing L with
  | nil => rfl
  | cons op ops ih => rw [after, ih, (σ.perform_unlinked op).2, ← ih, after]

theorem history_unlinked (σ : Session L) (ops : List Operation) :
    (σ.history ops).map (fun e => (e.1, e.2.unlinked)) =
      (σ.unlinked.history ops).map fun e => (e.1, e.2.unlinked) := by
  induction ops generalizing L with
  | nil => rfl
  | cons op ops ih =>
      obtain ⟨outcome, later⟩ := σ.perform_unlinked op
      rw [history, history, List.map_cons, List.map_cons, outcome, ih, later, ← ih]

end Session

/-! ## What becomes of the link -/

/-- Whether an operation is a tick. -/
def Operation.isTick : Operation → Bool
  | tick => true
  | _ => false

/-- The link after what an operation reads from it: one reply for a tick, and nothing otherwise. -/
def Operation.readLink {L : Type} [Link L] (op : Operation) (l : L) : L :=
  if op.isTick then (Link.read l).2 else l

namespace Session

variable {L : Type} [Link L]

/-- An operation first reads from the link, and only if it is a tick; what it does then is
writing. -/
theorem Performs.link {σ σ' : Session L} {op : Operation} {outcome : Outcome}
    (performs : Performs σ op outcome σ') :
    ∃ bytes, σ'.link = Link.writeAll (op.readLink σ.link) bytes := by
  cases performs with
  | ticks =>
      rcases Walker.tick_cases σ.walker σ.clock.now with
        ⟨-, eq⟩ | ⟨p, -, ⟨-, eq⟩ | ⟨-, step, -, eq⟩ | ⟨-, -, eq⟩⟩
      · rw [eq]
        exact ⟨[], rfl⟩
      · rw [eq]
        exact ⟨[], rfl⟩
      · rw [eq]
        exact Transmitter.onlyWrites_sendStep step σ.walker.takeReply.transmitter
      · rw [eq]
        exact ⟨[], rfl⟩
  | steps =>
      obtain ⟨run, next, -⟩ := Walker.nextStep_eq σ.walker σ.clock.now
      rw [next]
      exact ⟨[], rfl⟩
  | sends step => exact Transmitter.onlyWrites_sendStep step σ.walker.transmitter
  | _ => exact ⟨[], rfl⟩

/-- No more replies are taken than there are ticks, and the first ones first. -/
theorem replies_after {replies : L → List UInt8} (queues : Link.Queues replies) (σ : Session L)
    (ops : List Operation) :
    ∃ n ≤ ops.countP Operation.isTick,
      replies (σ.after ops).link = (replies σ.link).drop n := by
  induction ops generalizing σ with
  | nil => exact ⟨0, Nat.le_refl 0, rfl⟩
  | cons op ops ih =>
      obtain ⟨bytes, wrote⟩ := (σ.performs op).link
      obtain ⟨n, few, later⟩ := ih (σ.perform op).2
      rw [wrote, queues.writeAll] at later
      rw [after, later, List.countP_cons, Operation.readLink]
      split
      · obtain ⟨m, one, taken⟩ := queues.read σ.link
        rw [taken, List.drop_drop]
        exact ⟨m + n, by omega, rfl⟩
      · exact ⟨n, few, rfl⟩

/-- The link has no influence on the program.  Take two sessions that differ in nothing but their
links, of any kinds, and what is left in the frames for them.  The same operations then lead to
sessions that differ in nothing else either: programs, run with phase, cursor and anchors, stop
flags, wait, last step and clock are the same, and with them the activity.  All answers are the
same, except that a step may have been sent in one and not in the other.

A link is read by ticks only, by each of them once and before anything is written, whatever the tick
does then; so a tick takes at most one reply, and replies are taken in the order they wait in. -/
theorem same_over_any_link :
    (∀ {L₁ L₂ : Type} [Link L₁] [Link L₂] {σ₁ : Session L₁} {σ₂ : Session L₂},
      σ₁.unlinked = σ₂.unlinked → ∀ ops : List Operation,
        (σ₁.after ops).unlinked = (σ₂.after ops).unlinked ∧
        (σ₁.after ops).walker.activity = (σ₂.after ops).walker.activity ∧
        (σ₁.history ops).map (fun e => (e.1, e.2.unlinked)) =
          (σ₂.history ops).map fun e => (e.1, e.2.unlinked)) ∧
    ∀ {L : Type} [Link L] (σ : Session L),
      (∀ op, ∃ bytes, (σ.perform op).2.link = Link.writeAll (op.readLink σ.link) bytes) ∧
      ∀ replies : L → List UInt8, Link.Queues replies → ∀ ops : List Operation,
        ∃ n ≤ ops.countP Operation.isTick,
          replies (σ.after ops).link = (replies σ.link).drop n := by
  refine ⟨?_, fun σ => ⟨fun op => (σ.performs op).link, fun _ queues => replies_after queues σ⟩⟩
  intro L₁ L₂ _ _ σ₁ σ₂ same ops
  have after : (σ₁.after ops).unlinked = (σ₂.after ops).unlinked := by
    rw [after_unlinked, same, ← after_unlinked]
  refine ⟨after, congrArg (·.walker.activity) after, ?_⟩
  rw [history_unlinked, same, ← history_unlinked]

theorem same_over_unplugged_link :
    let first : Step := ⟨Vector.replicate servoCount 90, 1⟩
    let wave : Program := { name := "wave", use := some "prg", main := #[first, Step.zero] }
    let unplugged : Link.Simulated := { replies := [0xa1, 0xb2, 0xc3], closed := true }
    let σ₁ := start unplugged .replace
    let σ₂ := start ({} : Link.Null) .replace
    let ops : List Operation := [.register wave, .select "wave", .tick, .advance 1000]
    σ₁.unlinked = σ₂.unlinked ∧
      ((σ₁.after ops).walker.tick 1).1 = .faulted (.link .closed) ∧
      ((σ₂.after ops).walker.tick 1).1 = .stepped ∧
      (σ₁.after (ops ++ [.tick])).unlinked = (σ₂.after (ops ++ [.tick])).unlinked ∧
      Link.Queues Link.Simulated.replies ∧
      ∃ n ≤ 2, (σ₁.after (ops ++ [.tick])).link.replies = [0xa1, 0xb2, 0xc3].drop n := by
  intro first wave unplugged σ₁ σ₂ ops
  have same : σ₁.unlinked = σ₂.unlinked := rfl
  have queues : Link.Queues Link.Simulated.replies := by
    refine ⟨fun l byte => ?_, fun l => ⟨1, Nat.le_refl 1, List.drop_one.symm⟩⟩
    change (if l.closed then _ else _ : Except LinkError Unit × Link.Simulated).2.replies = _
    split <;> rfl
  obtain ⟨left, -⟩ := same_over_any_link.1 same (ops ++ [.tick])
  obtain ⟨n, few, taken⟩ := (same_over_any_link.2 σ₁).2 _ queues (ops ++ [.tick])
  have ticks : (ops ++ [Operation.tick]).countP Operation.isTick = 2 := rfl
  rw [ticks] at few
  exact ⟨same, by decide +kernel, by decide +kernel, left, queues, n, few, taken⟩

end Session

end Gait

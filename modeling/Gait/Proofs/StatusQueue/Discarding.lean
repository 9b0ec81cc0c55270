import Gait.Proofs.StatusQueue.Channel
import Mathlib.Data.List.Induction

/-!
# What is discarded

The sender finds the queue full with one operation and takes the oldest status with its next one.
In between the receiver may take statuses, so the queue need not be full any more when a status is
discarded.  `refused_since` traces a refused sender back to its refusal: the queue was full there,
and the operations since are the receiver's.  What is discarded is thus the oldest status that the
receiver left of a full queue.
-/

namespace Gait

namespace Channel

variable {produced : List Status} {s : Status}

theorem run_append (c : Channel) (earlier later : List Party) :
    c.run (earlier ++ later) = (c.run earlier).run later := List.foldl_append

/-! ## Taking -/

/-- The channel when the receiver has come `k` times. -/
def takenByReceiver (c : Channel) (k : Nat) : Channel :=
  { c with
    queue := ⟨c.queue.waiting.drop k⟩
    taken := c.taken ++ (c.queue.waiting.take k).map (.receiver, ·) }

theorem step_receiver (c : Channel) : c.step .receiver = c.takenByReceiver 1 := by
  obtain ⟨pending, stage, ⟨waiting⟩, taken⟩ := c
  cases waiting with
  | nil => simp [step, takeBy, takenByReceiver, StatusQueue.take]
  | cons oldest waiting => simp [step, takeBy, takenByReceiver, StatusQueue.take]

theorem takenByReceiver_add (c : Channel) (j k : Nat) :
    (c.takenByReceiver j).takenByReceiver k = c.takenByReceiver (j + k) := by
  simp [takenByReceiver, List.drop_drop, List.take_add]

theorem run_receiver (c : Channel) (k : Nat) :
    c.run (List.replicate k .receiver) = c.takenByReceiver k := by
  induction k generalizing c with
  | zero => simp [run, takenByReceiver]
  | succ k ih =>
      rw [List.replicate_succ, run, List.foldl_cons, ← run, step_receiver, ih,
        takenByReceiver_add, Nat.add_comm]

/-! ## Refusals -/

/-- A sender that is refused was refused by a full queue, or was so before and the receiver took. -/
theorem Moves.refused {c c' : Channel} {party : Party} (moves : Moves c party c')
    (refused : c'.stage = .refused s) :
    (party = .sender ∧ queueCapacity ≤ c'.queue.waiting.length) ∨
    (party = .receiver ∧ c.stage = .refused s) := by
  cases moves with
  | meetsFull full => exact .inl ⟨rfl, full⟩
  | misses | receives => exact .inr ⟨rfl, refused⟩
  | rests | sends | meetsEmpty | discards | sendsAgain | loses => cases refused

/-- The refusal, and how often the receiver took since. -/
theorem refused_since (schedule : List Party)
    (refused : ((start produced).run schedule).stage = .refused s) :
    ∃ earlier k, schedule = earlier ++ .sender :: List.replicate k .receiver ∧
      queueCapacity ≤
        ((start produced).run (earlier ++ [.sender])).queue.waiting.length := by
  -- The next operation of the sender ends its refusal, so all since are the receiver's.
  induction schedule using List.reverseRecOn with
  | nil => cases refused
  | append_singleton schedule party ih =>
      have last : (start produced).run (schedule ++ [party]) =
          ((start produced).run schedule).step party := run_append _ _ _
      rw [last] at refused
      rcases (moves _ party).refused refused with ⟨rfl, full⟩ | ⟨rfl, before⟩
      · refine ⟨schedule, 0, rfl, ?_⟩
        rwa [last]
      · obtain ⟨earlier, k, rfl, full⟩ := ih before
        refine ⟨earlier, k + 1, ?_, full⟩
        rw [List.append_assoc, List.cons_append, ← List.replicate_succ']

/-! ## Discards -/

/-- Only a sender that was refused discards, and it discards the oldest status. -/
theorem Moves.discarded {c c' : Channel} {party : Party} {oldest : Status}
    (moves : Moves c party c') (discards : c'.taken = c.taken ++ [(.sender, oldest)]) :
    ∃ s waiting, c.stage = .refused s ∧ c.queue.waiting = oldest :: waiting := by
  cases moves with
  | discards =>
      cases List.append_cancel_left discards
      exact ⟨_, _, rfl, rfl⟩
  | receives => cases List.append_cancel_left discards
  | rests | sends | meetsFull | meetsEmpty | sendsAgain | loses | misses =>
      cases List.self_eq_append_right.1 discards

/-- **What is discarded is the oldest status that the receiver left of a full queue.**  Whenever a
status is discarded, the queue was full at the refusal before, and the receiver has taken some
number `k` of statuses since.  So `64 - k` statuses wait, and as many were produced after the
discarded one; the queue is still full just if the receiver took none. -/
theorem discarded_is_left_of_full (produced : List Status) (schedule : List Party) (party : Party)
    (oldest : Status) :
    let c := (start produced).run schedule
    (c.step party).taken = c.taken ++ [(.sender, oldest)] →
      ∃ s waiting earlier k, c.queue.waiting = oldest :: waiting ∧
        produced = c.taken.map (·.2) ++ oldest :: (waiting ++ [s]) ++ c.pending ∧
        schedule = earlier ++ .sender :: List.replicate k .receiver ∧
        ((start produced).run (earlier ++ [.sender])).queue.waiting.length = queueCapacity ∧
        c.queue.waiting.length + k = queueCapacity ∧ (waiting ++ [s]).length + k = queueCapacity ∧
        (c.queue.waiting.length = queueCapacity ↔ k = 0) := by
  intro c discards
  obtain ⟨s, waiting, refused, left⟩ := (moves c party).discarded discards
  obtain ⟨earlier, k, rfl, full⟩ := refused_since schedule refused
  have sound : Sound produced c := (sound_start produced).run _
  have whole := sound.whole
  have bounded := ((sound_start produced).run (earlier ++ [.sender])).bounded
  have length := Nat.le_antisymm bounded full
  have since : c = ((start produced).run (earlier ++ [.sender])).takenByReceiver k := by
    show (start produced).run _ = _
    rw [List.append_cons, run_append, run_receiver]
  have remaining : c.queue.waiting.length = queueCapacity - k := by
    rw [since, ← length]
    exact List.length_drop
  have later : (waiting ++ [s]).length = c.queue.waiting.length := by
    rw [left, List.length_append]
    rfl
  have some_ : 0 < c.queue.waiting.length := by
    rw [left]
    exact Nat.succ_pos _
  refine ⟨s, waiting, earlier, k, left, ?_, rfl, length, ?_, ?_, ?_⟩
  · rw [← whole, left, refused]
    simp [Stage.atHand]
  · omega
  · omega
  · omega

/-- The steps of a long program, one more than the queue holds. -/
def longRun : List Status := List.replicate 65 .stepped

/-- The receiver takes all of a full queue but the last status, between the refusal of the status
behind it and the discard. -/
def overtaken : List Party := List.replicate 65 .sender ++ List.replicate 63 .receiver

theorem longRun_overtaken :
    (((start longRun).run overtaken).step .sender).taken =
      ((start longRun).run overtaken).taken ++ [(.sender, .stepped)] := by
  decide +kernel

/-- The 64th step is discarded out of what the receiver left, with one step produced after it. -/
theorem step_discarded_of_full_queue :
    ∃ s waiting earlier k, ((start longRun).run overtaken).queue.waiting = .stepped :: waiting ∧
      (waiting ++ [s]).length = 1 ∧
      overtaken = earlier ++ .sender :: List.replicate k .receiver ∧
      ((start longRun).run overtaken).queue.waiting.length + k = queueCapacity := by
  obtain ⟨s, waiting, earlier, k, left, -, since, -, length, -⟩ :=
    discarded_is_left_of_full longRun overtaken .sender .stepped longRun_overtaken
  have alone : ((start longRun).run overtaken).queue.waiting = [.stepped] := by decide +kernel
  have behind : waiting = [] := (List.cons.inj (left.symm.trans alone)).2
  refine ⟨s, waiting, earlier, k, left, ?_, since, length⟩
  rw [behind]
  rfl

/-- A status can be discarded although the queue has room. -/
theorem discarded_with_room :
    ¬∀ (produced : List Status) (schedule : List Party) (party : Party) (oldest : Status),
      let c := (start produced).run schedule
      (c.step party).taken = c.taken ++ [(.sender, oldest)] →
        c.queue.waiting.length = queueCapacity := by
  intro full
  have alone : ((start longRun).run overtaken).queue.waiting = [.stepped] := by decide +kernel
  have length := full longRun overtaken .sender .stepped longRun_overtaken
  rw [alone] at length
  cases length

end Channel

end Gait

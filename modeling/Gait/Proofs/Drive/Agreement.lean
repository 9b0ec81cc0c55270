import Gait.Proofs.Drive.Operations
import Gait.Proofs.Walker.LastPass
import Gait.Proofs.Wire.Attempts

/-!
# Two drivers, one cycle

A `Drive` that nobody interrupts and a `Poll` take a selected program through its cycle alike,
although one of them counts statuses and breaks at the end of the cycle while the other queues them
and only sees in its next iteration that nothing is selected any more.

`Drive.agrees` follows the two loops side by side: they go on for equally long and carry out the
same operations.  That they leave the same walker at the same time is then a matter of
`after_operations`; the counts and the queue are compared through the statuses of these operations.
-/

namespace Gait

namespace Walker

variable {L : Type} {w : Walker L}

theorem isNone_run_of_selected (selected : w.selected? ≠ none) : w.run.isNone = false := by
  cases running : w.run with
  | some run => rfl
  | none => exact (selected (by simp [selected?, selectedName?, running])).elim

variable [Link L]

theorem selected?_played {now : Nat} {step : Step} :
    (w.played now step).selected? = w.selected? := by
  rw [selected?, selectedName?_played]
  rfl

/-- What a tick can do while something is selected. -/
theorem tick_of_selected (selected : w.selected? ≠ none) (now : Nat) :
    ((w.tick now).1 = .waiting ∧ (w.tick now).2.selected? ≠ none) ∨
      ((w.tick now).1.plays = true ∧ (w.tick now).2.selected? ≠ none) ∨
      ((w.tick now).1 = .endOfCycle ∧ (w.tick now).2.run = none) := by
  rcases tick_cases w now with
    ⟨none, -⟩ | ⟨p, -, ⟨-, eq⟩ | ⟨-, step, -, eq⟩ | ⟨-, -, eq⟩⟩
  · exact (selected none).elim
  · rw [eq]
    exact .inl ⟨rfl, selected⟩
  · rw [eq]
    exact .inr (.inl ⟨plays_playStatus _, by rwa [selected?_played]⟩)
  · rw [eq]
    exact .inr (.inr ⟨rfl, rfl⟩)

end Walker

/-- What only happens with news can be counted among the news. -/
theorem Status.countP_eq_news {q : Status → Bool} (newsworthy : ∀ {s}, q s = true → s.isNews = true)
    (given : List Status) : given.countP q = (given.filter isNews).countP q := by
  rw [List.countP_filter]
  refine List.countP_congr fun s _ => ?_
  rw [Bool.and_eq_true, iff_self_and]
  exact newsworthy

namespace Drive

open Session (statuses)

variable {L : Type}

/-- Nothing asks the drive to stop. -/
structure Unattended (d : Drive L) : Prop where
  unlimited : d.limit = none
  undisturbed : d.shutdown = false

namespace Unattended

variable {d : Drive L}

theorem requests_eq_nil (unattended : d.Unattended) : d.requests = [] := by
  simp [requests, limitReached, unattended.unlimited, unattended.undisturbed]

theorem requestStop_eq (unattended : d.Unattended) : d.requestStop = d := by
  simp [requestStop, limitReached, unattended.unlimited, unattended.undisturbed]

variable [Link L]

theorem step_eq (unattended : d.Unattended) (now : Nat) :
    d.step now = ((count d.summary (d.walker.tick now).1).1,
      { d with walker := (d.walker.tick now).2,
               summary := (count d.summary (d.walker.tick now).1).2 }) := by
  rw [step, unattended.requestStop_eq]

end Unattended

theorem count_of_plays {s : Status} (plays : s.plays = true) (summary : Summary) :
    (count summary s).1 = .again := by
  cases s with
  | stepped | faulted => rfl
  | idle | waiting | endOfCycle => cases plays

variable [Link L]

/-- A drive ends in the iteration before the one in which a poll does, and both have carried out
the same operations by then. -/
theorem agrees {d : Drive L} {p : Poll L} (unattended : d.Unattended)
    (same : p.walker = d.walker) (selected : d.walker.selected? ≠ none) (poll fuel : Nat)
    (clock : Clock) :
    ((d.run poll fuel clock).1 = .finished ↔ (p.run poll (fuel + 1) clock).1 = .finished) ∧
      ((d.run poll fuel clock).1 = .finished →
        p.operations poll (fuel + 1) clock = d.operations poll fuel clock) := by
  have running : ¬p.walker.run.isNone = true := by
    simp [same, Walker.isNone_run_of_selected selected]
  induction fuel generalizing clock d p with
  | zero =>
      have unfinished : (p.run poll 1 clock).1 = .again := by
        rw [Poll.run, if_neg running, Poll.step_eq]
        split <;> rfl
      refine ⟨iff_of_false (by rintro ⟨⟩) ?_, by rintro ⟨⟩⟩
      rw [unfinished]
      rintro ⟨⟩
  | succ fuel ih =>
      rw [run, operations, unattended.requests_eq_nil, unattended.step_eq, Poll.run, if_neg running,
        Poll.operations, if_neg running, Poll.step_eq, same]
      rcases Walker.tick_of_selected selected clock.now with
        ⟨waiting, selected'⟩ | ⟨plays, selected'⟩ | ⟨ended, stopped⟩
      · rw [waiting]
        obtain ⟨ends, alike⟩ := ih (d := { d with walker := (d.walker.tick clock.now).2 })
          (p := ⟨(d.walker.tick clock.now).2, p.queue⟩) ⟨unattended.1, unattended.2⟩ rfl selected'
          (clock.advance poll) (by simp [Walker.isNone_run_of_selected selected'])
        exact ⟨ends, fun finished => congrArg (.tick :: .advance poll :: ·) (alike finished)⟩
      · rw [if_pos (Status.isNews_of_plays plays), count_of_plays plays]
        obtain ⟨ends, alike⟩ := ih
          (d := { d with walker := (d.walker.tick clock.now).2,
                         summary := (count d.summary (d.walker.tick clock.now).1).2 })
          (p := ⟨(d.walker.tick clock.now).2, p.queue.push (d.walker.tick clock.now).1⟩)
          ⟨unattended.1, unattended.2⟩ rfl selected' clock
          (by simp [Walker.isNone_run_of_selected selected'])
        exact ⟨ends, fun finished => congrArg (.tick :: ·) (alike finished)⟩
      · rw [ended]
        have stops : (d.walker.tick clock.now).2.run.isNone = true := by rw [stopped]; rfl
        refine ⟨iff_of_true rfl ?_, fun _ => ?_⟩
        · simp [Status.isNews, Poll.run, stops]
        · simp [Status.isNews, Poll.operations, stops, count]

/-- When a drive has finished, nothing is selected, and its news were steps and then the end of the
cycle. -/
theorem news_of_finished {d : Drive L} (unattended : d.Unattended)
    (selected : d.walker.selected? ≠ none) {poll fuel : Nat} {clock : Clock}
    (finished : (d.run poll fuel clock).1 = .finished) :
    (d.run poll fuel clock).2.2.walker.run = none ∧
      ∃ played, (∀ s ∈ played, s.plays = true) ∧
        (statuses ((⟨d.walker, clock⟩ : Session L).history
          (d.operations poll fuel clock))).filter Status.isNews = played ++ [.endOfCycle] := by
  induction fuel generalizing clock d with
  | zero => cases finished
  | succ fuel ih =>
      rw [run, unattended.step_eq] at finished ⊢
      rw [operations, statuses_iteration, unattended.step_eq, unattended.requestStop_eq]
      rcases Walker.tick_of_selected selected clock.now with
        ⟨waiting, selected'⟩ | ⟨plays, selected'⟩ | ⟨ended, stopped⟩
      · rw [waiting] at finished ⊢
        exact ih (d := { d with walker := (d.walker.tick clock.now).2 })
          ⟨unattended.1, unattended.2⟩ selected' finished
      · rw [count_of_plays plays] at finished ⊢
        obtain ⟨none, played, all, news⟩ := ih
          (d := { d with walker := (d.walker.tick clock.now).2,
                         summary := (count d.summary (d.walker.tick clock.now).1).2 })
          ⟨unattended.1, unattended.2⟩ selected' finished
        refine ⟨none, _ :: played, List.forall_mem_cons.2 ⟨plays, all⟩, ?_⟩
        rw [List.filter_cons_of_pos (Status.isNews_of_plays plays)]
        exact congrArg (_ :: ·) news
      · rw [ended]
        exact ⟨stopped, [], by simp, rfl⟩

end Drive

/-- A poll that finds nothing selected only takes a reply and sleeps. -/
theorem Poll.step_of_stopped {L : Type} [Link L] {p : Poll L} (stopped : p.walker.run = none)
    (now : Nat) : p.step now = (.sleep, { p with walker := p.walker.takeReply }) := by
  rw [Poll.step_eq, Walker.tick_of_run_eq_none stopped]
  rfl

namespace Session

variable {L : Type} [Link L]

/-- How a selected program is taken through its cycle by the two drivers, over any link and with
any pause: by a drive that is not asked to stop and by a poll, whatever waits in its queue.  The
poll takes one iteration more, to see that nothing is selected.

One ends if the other does.  Both then have carried out the same operations, which lead to the same
walker at the same time, so that all steps were fired at the same times and the link is left the
same.  What the poll queued in the meantime is a status for each step that the drive counted, a
fault for each that it counted as such, and one end of the cycle behind them; its queue is what it
makes of these.  From then on it queues nothing, and changes nothing but the link by taking
replies. -/
theorem same_cycle_by_drive_and_poll {w : Walker L} (selected : w.selected? ≠ none) (clock : Clock)
    (queue : StatusQueue) (poll fuel : Nat) :
    let σ : Session L := ⟨w, clock⟩
    let drive : Drive L := { walker := w }
    let poller : Poll L := ⟨w, queue⟩
    let driven := drive.run poll fuel clock
    let polled := poller.run poll (fuel + 1) clock
    let ops := drive.operations poll fuel clock
    let ops' := poller.operations poll (fuel + 1) clock
    let produced := poller.produced poll (fuel + 1) clock
    (driven.1 = .finished ↔ polled.1 = .finished) ∧
      (driven.1 = .finished →
        (σ.after ops = ⟨driven.2.2.walker, driven.2.1⟩ ∧
          σ.after ops' = ⟨polled.2.2.walker, polled.2.1⟩ ∧
          σ.timedFirings ops' = σ.timedFirings ops ∧
          polled.2.2.walker = driven.2.2.walker ∧ polled.2.1 = driven.2.1 ∧
          polled.2.2.walker.run = none) ∧
        (∃ played, produced = played ++ [.endOfCycle] ∧ (∀ s ∈ played, s.plays = true) ∧
          played.length = driven.2.2.summary.steps ∧
          played.countP Status.isFault = driven.2.2.summary.faults ∧
          polled.2.2.queue = produced.foldl StatusQueue.push queue) ∧
        ∀ now, polled.2.2.step now =
          (.sleep, ⟨polled.2.2.walker.takeReply, polled.2.2.queue⟩)) := by
  intro σ drive poller driven polled ops ops' produced
  have unattended : drive.Unattended := ⟨rfl, rfl⟩
  obtain ⟨ends, alike⟩ := Drive.agrees (p := poller) unattended rfl selected poll fuel clock
  refine ⟨ends, fun finished => ?_⟩
  have same : ops' = ops := alike finished
  have left : σ.after ops = ⟨driven.2.2.walker, driven.2.1⟩ :=
    drive.after_operations poll fuel clock
  have left' : σ.after ops' = ⟨polled.2.2.walker, polled.2.1⟩ :=
    poller.after_operations poll (fuel + 1) clock
  have both : (⟨polled.2.2.walker, polled.2.1⟩ : Session L) = ⟨driven.2.2.walker, driven.2.1⟩ := by
    rw [← left', ← left, same]
  have walker : polled.2.2.walker = driven.2.2.walker := congrArg Session.walker both
  obtain ⟨stopped, played, all, news⟩ := Drive.news_of_finished unattended selected finished
  rw [← show polled.2.2.walker = driven.2.2.walker from walker] at stopped
  have whole : produced = played ++ [.endOfCycle] := by
    rw [← news]
    exact congrArg (fun ops => (statuses (σ.history ops)).filter Status.isNews) same
  obtain ⟨steps, faults⟩ := drive.summary_run poll fuel clock
  rw [Status.countP_eq_news Status.isNews_of_plays, news] at steps
  rw [Status.countP_eq_news fun fault => Status.isNews_of_plays (Status.plays_of_isFault fault),
    news] at faults
  refine ⟨⟨left, left', by rw [same], walker, congrArg Session.clock both, stopped⟩,
    ⟨played, whole, all, ?_, ?_, poller.queue_run poll (fuel + 1) clock⟩,
    fun now => Poll.step_of_stopped stopped now⟩
  · rw [show driven.2.2.summary.steps = _ from steps, List.countP_append,
      List.countP_eq_length.2 all]
    exact (Nat.zero_add _).symm
  · rw [show driven.2.2.summary.faults = _ from faults, List.countP_append]
    exact (Nat.zero_add _).symm

theorem same_cycle_of_faulting_wave :
    let first : Step := ⟨Vector.replicate servoCount 90, 3⟩
    let second : Step := ⟨Vector.replicate servoCount 300, 0⟩
    let wave : Program :=
      { name := "wave", use := some "prg", setup := #[first], main := #[second] }
    let w : Walker (Link.Logged Link.Recording) :=
      ((start ⟨{}, []⟩ .replace).after [.register wave, .select "wave"]).walker
    let drive : Drive (Link.Logged Link.Recording) := { walker := w }
    let driven := drive.run 2000 5 {}
    let polled := Poll.run 2000 (5 + 1) {} ⟨w, {}⟩
    w.selected? ≠ none ∧ driven.1 = .finished ∧ polled.1 = .finished ∧
      driven.2.2.summary = ⟨2, 1, false⟩ ∧
      polled.2.2.queue.waiting = [.stepped, .faulted (.range ⟨.value, 300⟩), .endOfCycle] ∧
      polled.2.2.walker.transmitter.link.writes = driven.2.2.walker.transmitter.link.writes ∧
      polled.2.1 = driven.2.1 ∧ driven.2.1 = ⟨4000⟩ := by
  intro first second wave w drive driven polled
  have selected : w.selected? ≠ none := by decide +kernel
  have finished : driven.1 = .finished := by decide +kernel
  have summary : driven.2.2.summary = ⟨2, 1, false⟩ := by decide +kernel
  have queued : polled.2.2.queue.waiting =
      [.stepped, .faulted (.range ⟨.value, 300⟩), .endOfCycle] := by decide +kernel
  have late : driven.2.1 = ⟨4000⟩ := by decide +kernel
  clear_value w
  obtain ⟨ends, agree⟩ := same_cycle_by_drive_and_poll selected {} {} 2000 5
  obtain ⟨⟨-, -, -, walker, clock, -⟩, -⟩ := agree finished
  exact ⟨selected, finished, ends.1 finished, summary, queued,
    congrArg (·.transmitter.link.writes) walker, clock, late⟩

end Session

end Gait

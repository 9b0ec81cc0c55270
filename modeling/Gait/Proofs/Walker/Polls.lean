import Gait.Proofs.Drive.Agreement
import Gait.Proofs.Walker.Unlinked
import Gait.Proofs.Walker.Waiting

/-!
# Polls

A walker that is ticked at some instants and not touched between them.  `Session.polls` are the
answers, each with the instant it was given at.  `Greedy` says what they look like: the first poll
for which the wait is over fires, and so on with the wait that it arms, until the cycle ends.

A poll that fires nothing only takes a reply from the link, so it can be left out.
`ApartFromReplies` is what that asks of a link: what waits to be read has no part in what becomes of
a write.  Two walkers that are the `Same` but for such replies then answer alike and stay the same
(`Walker.Same.tick`), and `Thinned` polls are answered as before.
-/

namespace Gait

/-! ## Links that differ in replies -/

namespace Link

variable {L : Type} [Link L] {same : L → L → Prop}

/-- Links that are the same but for the replies that wait at them: reading changes nothing else, and
writing does the same to both. -/
structure ApartFromReplies (same : L → L → Prop) : Prop where
  equivalence : Equivalence same
  read : ∀ l, same (Link.read l).2 l
  write : ∀ {l l'}, same l l' → ∀ byte,
    (Link.write l byte).1 = (Link.write l' byte).1 ∧
      same (Link.write l byte).2 (Link.write l' byte).2

/-- The logs are the same too. -/
structure Logged.Same (same : L → L → Prop) (l l' : Logged L) : Prop where
  link : same l.link l'.link
  writes : l.writes = l'.writes

theorem ApartFromReplies.logged (apart : ApartFromReplies same) :
    ApartFromReplies (Logged.Same same) where
  equivalence := {
    refl l := ⟨apart.equivalence.refl l.link, rfl⟩
    symm := fun ⟨link, writes⟩ => ⟨apart.equivalence.symm link, writes.symm⟩
    trans := fun ⟨link, writes⟩ ⟨link', writes'⟩ =>
      ⟨apart.equivalence.trans link link', writes.trans writes'⟩ }
  read l := ⟨apart.read l.link, rfl⟩
  write := by
    rintro l l' ⟨link, writes⟩ byte
    obtain ⟨result, written⟩ := apart.write link byte
    rw [Logged.write_eq, Logged.write_eq]
    exact ⟨result, written, by simp only [result, writes]⟩

end Link

/-! ## Sending over such links -/

namespace Transmitter

open Link (ApartFromReplies)

variable {L : Type} {same : L → L → Prop}

/-- The links are the same in this sense, and so are the frames. -/
structure Same (same : L → L → Prop) (t t' : Transmitter L) : Prop where
  link : same t.link t'.link
  frame : t.frame = t'.frame

/-- The operation gives the same result over both, and leaves them the same. -/
def KeepsSame (same : L → L → Prop) (a : Sending L Unit) : Prop :=
  ∀ t t' : Transmitter L, Same same t t' →
    (t.run a).1 = (t'.run a).1 ∧ Same same (t.run a).2 (t'.run a).2

theorem KeepsSame.seq {a b : Sending L Unit} (first : KeepsSame same a) (next : KeepsSame same b) :
    KeepsSame same (do a; b) := by
  intro t t' alike
  obtain ⟨result, alike'⟩ := first t t' alike
  rw [run_seq, run_seq]
  generalize t.run a = ran at result alike'
  generalize t'.run a = ran' at result alike'
  obtain ⟨r, later⟩ := ran
  obtain ⟨_, later'⟩ := ran'
  cases result
  cases r with
  | error e => exact ⟨rfl, alike'⟩
  | ok => exact next later later' alike'

theorem keepsSame_put (field : Field) (number : Int) :
    KeepsSame same (put field number : Sending L Unit) := by
  rintro t t' ⟨link, frame⟩
  rw [run_put, run_put, frame]
  split
  · exact ⟨rfl, link, rfl⟩
  · exact ⟨rfl, link, frame⟩

variable [Link L]

theorem keepsSame_write (apart : ApartFromReplies same) (byte : UInt8) :
    KeepsSame same (write byte : Sending L Unit) := by
  rintro t t' ⟨link, frame⟩
  obtain ⟨result, written⟩ := apart.write link byte
  rw [run_write, run_write]
  generalize Link.write t.link byte = wrote at result written
  generalize Link.write t'.link byte = wrote' at result written
  obtain ⟨r, later⟩ := wrote
  obtain ⟨_, later'⟩ := wrote'
  cases result
  cases r <;> exact ⟨rfl, written, frame⟩

theorem keepsSame_send (apart : ApartFromReplies same) :
    KeepsSame same (send : Sending L Unit) := by
  intro t t' alike
  rw [run_send, run_send, alike.frame]
  exact (keepsSame_write apart t'.frame.first).seq (keepsSame_write apart t'.frame.second)
    t t' alike

theorem keepsSame_sendStep (apart : ApartFromReplies same) (step : Step) :
    KeepsSame same (sendStep step : Sending L Unit) :=
  of_parts (fun _ _ alike => ⟨rfl, alike⟩) .seq (fun _ _ alike => ⟨rfl, alike.link, rfl⟩)
    keepsSame_put (keepsSame_send apart) step

end Transmitter

namespace Walker

open Link (ApartFromReplies)

variable {L : Type} {same : L → L → Prop} {w w' : Walker L}

/-- Walkers that are the same but for the replies that wait at their links. -/
structure Same (same : L → L → Prop) (w w' : Walker L) : Prop where
  transmitter : Transmitter.Same same w.transmitter w'.transmitter
  unlinked : w.unlinked = w'.unlinked

variable [Link L]

theorem Same.refl (apart : ApartFromReplies same) (w : Walker L) : Same same w w :=
  ⟨⟨apart.equivalence.refl _, rfl⟩, rfl⟩

/-- Taking a reply makes no other difference. -/
theorem Same.takeReply_left (apart : ApartFromReplies same) (alike : Same same w w') :
    Same same w.takeReply w' where
  transmitter :=
    ⟨apart.equivalence.trans (apart.read _) alike.transmitter.link, alike.transmitter.frame⟩
  unlinked := alike.unlinked

theorem Same.takeReply (apart : ApartFromReplies same) (alike : Same same w w') :
    Same same w.takeReply w'.takeReply where
  transmitter := by
    have taken := (alike.takeReply_left apart).transmitter
    exact ⟨apart.equivalence.trans taken.link (apart.equivalence.symm (apart.read _)), taken.frame⟩
  unlinked := alike.unlinked

theorem Same.tick (apart : ApartFromReplies same) (alike : Same same w w') (now : Nat) :
    (w.tick now).1 = (w'.tick now).1 ∧ Same same (w.tick now).2 (w'.tick now).2 := by
  have rest : (w.tick now).2.unlinked = (w'.tick now).2.unlinked := by
    rw [(w.tick_unlinked now).2, alike.unlinked, ← (w'.tick_unlinked now).2]
  have replied := (alike.takeReply apart).transmitter
  suffices parts : (w.tick now).1 = (w'.tick now).1 ∧
      Transmitter.Same same (w.tick now).2.transmitter (w'.tick now).2.transmitter from
    ⟨parts.1, parts.2, rest⟩
  have selected : w.selected? = w'.selected? :=
    congrArg (fun v : Walker Link.Null => v.selected?) alike.unlinked
  have lastTick : w.lastTick = w'.lastTick :=
    congrArg (fun v : Walker Link.Null => v.lastTick) alike.unlinked
  have wait : w.wait = w'.wait := congrArg (fun v : Walker Link.Null => v.wait) alike.unlinked
  have next : (w.nextStep now).1 = (w'.nextStep now).1 := by
    have step := congrArg (fun v : Walker Link.Null => (v.nextStep now).1) alike.unlinked
    rwa [nextStep_unlinked, nextStep_unlinked] at step
  rw [tick_eq, tick_eq, selected, lastTick, wait, next]
  cases w'.selected? with
  | none => exact ⟨rfl, replied⟩
  | some p =>
      dsimp only
      split
      · exact ⟨rfl, replied⟩
      · cases (w'.nextStep now).1 with
        | none => exact ⟨rfl, replied⟩
        | some step =>
            obtain ⟨result, sent⟩ := Transmitter.keepsSame_sendStep apart step _ _ replied
            exact ⟨congrArg playStatus result, sent⟩

end Walker

/-! ## Greedy polls -/

/-- None of these polls fires, as all of them come before the next firing is due. -/
def Waits (due : Nat) (shown : Option Step) (polls : List (Clock × Outcome)) : Prop :=
  ∀ e ∈ polls, e.1.now < due ∧ e.2 = .ticked .waiting shown

/-- Polls of a walker that shows a last step and has the next firing due at an instant.  The first
one from then on fires.  If it plays a step, the next firing is due when the delay of that step is
over; if it ends the cycle, all later polls are idle. -/
inductive Greedy : (due : Nat) → (shown : Option Step) → List (Clock × Outcome) → Prop
  | rests {due : Nat} {shown : Option Step} {early : List (Clock × Outcome)}
    (waits : Waits due shown early) : Greedy due shown early
  | plays {due : Nat} {shown : Option Step} {early later : List (Clock × Outcome)} {c : Clock}
    {status : Status} {step : Step} (waits : Waits due shown early) (reached : due ≤ c.now)
    (plays : status.plays = true) (greedy : Greedy (c.now + step.delay) (some step) later) :
    Greedy due shown (early ++ (c, .ticked status (some step)) :: later)
  | ends {due : Nat} {shown : Option Step} {early later : List (Clock × Outcome)} {c : Clock}
    (waits : Waits due shown early) (reached : due ≤ c.now)
    (idle : ∀ e ∈ later, e.2 = .ticked .idle shown) :
    Greedy due shown (early ++ (c, .ticked .endOfCycle shown) :: later)

theorem Waits.cons {due : Nat} {shown : Option Step} {polls : List (Clock × Outcome)} {c : Clock}
    (early : c.now < due) (waits : Waits due shown polls) :
    Waits due shown ((c, .ticked .waiting shown) :: polls) :=
  List.forall_mem_cons.2 ⟨⟨early, rfl⟩, waits⟩

/-- A poll before the next firing is due waits. -/
theorem Greedy.cons {due : Nat} {shown : Option Step} {polls : List (Clock × Outcome)} {c : Clock}
    (early : c.now < due) (greedy : Greedy due shown polls) :
    Greedy due shown ((c, .ticked .waiting shown) :: polls) := by
  cases greedy with
  | rests waits => exact .rests (waits.cons early)
  | plays waits reached plays greedy => exact .plays (waits.cons early) reached plays greedy
  | ends waits reached idle => exact .ends (waits.cons early) reached idle

/-- The second list is the first with some polls that fired nothing left out. -/
inductive Thinned : List (Clock × Outcome) → List (Clock × Outcome) → Prop
  | nil : Thinned [] []
  | keeps {polls kept : List (Clock × Outcome)} (poll : Clock × Outcome)
    (later : Thinned polls kept) : Thinned (poll :: polls) (poll :: kept)
  | drops {polls kept : List (Clock × Outcome)} {poll : Clock × Outcome}
    (quiet : poll.2.firing? = none) (later : Thinned polls kept) : Thinned (poll :: polls) kept

namespace Session

open Link (ApartFromReplies Logged)

variable {L : Type} [Link L]

/-- Tick at an instant. -/
def pollAt (σ : Session L) (c : Clock) : Outcome × Session L := { σ with clock := c }.perform .tick

/-- What a walker answers that is polled at some instants, with the instants. -/
def polls (σ : Session L) : List Clock → List (Clock × Outcome)
  | [] => []
  | c :: instants => (c, (σ.pollAt c).1) :: (σ.pollAt c).2.polls instants

/-- The session after some polls. -/
def afterPolls (σ : Session L) : List Clock → Session L
  | [] => σ
  | c :: instants => (σ.pollAt c).2.afterPolls instants

theorem polls_cons (σ : Session L) (c : Clock) (instants : List Clock) :
    σ.polls (c :: instants) =
      (c, .ticked (σ.walker.tick c.now).1 (σ.walker.tick c.now).2.lastStep) ::
        polls ⟨(σ.walker.tick c.now).2, c⟩ instants :=
  rfl

theorem map_fst_polls (σ : Session L) (instants : List Clock) :
    (σ.polls instants).map (·.1) = instants := by
  induction instants generalizing σ with
  | nil => rfl
  | cons c instants ih => exact congrArg (c :: ·) (ih _)

theorem polls_of_stopped {σ : Session L} (stopped : σ.walker.run = none) (instants : List Clock) :
    ∀ e ∈ σ.polls instants, e.2 = .ticked .idle σ.walker.lastStep := by
  induction instants generalizing σ with
  | nil => exact nofun
  | cons c instants ih =>
      rw [polls_cons, Walker.tick_of_run_eq_none stopped]
      exact List.forall_mem_cons.2 ⟨rfl, ih (σ := ⟨σ.walker.takeReply, c⟩) stopped⟩

theorem greedy_polls {σ : Session L} {instants : List Clock}
    (selected : σ.walker.selected? ≠ none)
    (ordered : instants.Pairwise fun c c' => c.microseconds ≤ c'.microseconds)
    (behind : ∀ c ∈ instants, σ.walker.lastTick ≤ c.now) :
    Greedy (σ.walker.lastTick + σ.walker.wait) σ.walker.lastStep (σ.polls instants) := by
  induction instants generalizing σ with
  | nil => exact .rests nofun
  | cons c instants ih =>
      obtain ⟨ahead, ordered'⟩ := List.pairwise_cons.1 ordered
      obtain ⟨here, behind'⟩ := List.forall_mem_cons.1 behind
      rw [polls_cons]
      rcases Walker.tick_cases σ.walker c.now with
        ⟨none, -⟩ | ⟨p, -, ⟨early, eq⟩ | ⟨due, step, -, eq⟩ | ⟨due, -, eq⟩⟩
      · exact (selected none).elim
      · rw [eq]
        have greedy := ih (σ := ⟨σ.walker.takeReply, c⟩) selected ordered' behind'
        exact greedy.cons (by omega)
      · rw [eq]
        have stays : (σ.walker.played c.now step).selected? ≠ none := by
          rwa [Walker.selected?_played]
        have greedy := ih (σ := ⟨σ.walker.played c.now step, c⟩) stays ordered' fun c' later =>
          Nat.div_le_div_right (ahead c' later)
        have waits : Waits (σ.walker.lastTick + σ.walker.wait) σ.walker.lastStep [] := nofun
        exact .plays waits (by omega) (Walker.plays_playStatus _) greedy
      · rw [eq]
        have waits : Waits (σ.walker.lastTick + σ.walker.wait) σ.walker.lastStep [] := nofun
        exact .ends waits (by omega) (polls_of_stopped rfl instants)

/-- Polls that fired nothing can be left out, also over a link with other replies. -/
theorem polls_of_thinned {same : L → L → Prop} (apart : ApartFromReplies same) {σ τ : Session L}
    (alike : Walker.Same same σ.walker τ.walker) {instants : List Clock}
    {kept : List (Clock × Outcome)} (thinned : Thinned (σ.polls instants) kept) :
    τ.polls (kept.map (·.1)) = kept ∧
      Walker.Same same (σ.afterPolls instants).walker
        (τ.afterPolls (kept.map (·.1))).walker := by
  induction instants generalizing σ τ kept with
  | nil =>
      cases thinned
      exact ⟨rfl, alike⟩
  | cons c instants ih =>
      cases thinned with
      | keeps _ later =>
          obtain ⟨status, alike'⟩ := alike.tick apart c.now
          have lastStep : (σ.walker.tick c.now).2.lastStep = (τ.walker.tick c.now).2.lastStep :=
            congrArg (fun v : Walker Link.Null => v.lastStep) alike'.unlinked
          obtain ⟨answers, after⟩ := ih (τ := ⟨(τ.walker.tick c.now).2, c⟩) alike' later
          refine ⟨?_, after⟩
          rw [List.map_cons, polls_cons, answers, ← status, ← lastStep]
          rfl
      | drops quiet later =>
          have ticks := ticks { σ with clock := c }
          rw [show (perform { σ with clock := c } .tick).1.firing? = none from quiet] at ticks
          refine ih (σ := (σ.pollAt c).2) ?_ later
          rw [pollAt, ticks.eq_of_quiet]
          exact alike.takeReply_left apart

/-! ## Sessions that can be reached -/

theorem Performs.lastTick_le {σ σ' : Session L} {op : Operation} {outcome : Outcome}
    (performs : Performs σ op outcome σ') (counted : σ.clock.microseconds ≤ countMax)
    (behind : σ.walker.lastTick ≤ σ.clock.now) : σ'.walker.lastTick ≤ σ'.clock.now := by
  cases performs with
  | selects => exact Nat.le_refl _
  | ticks =>
      rcases Walker.tick_cases σ.walker σ.clock.now with
        ⟨-, eq⟩ | ⟨p, -, ⟨-, eq⟩ | ⟨-, step, -, eq⟩ | ⟨-, -, eq⟩⟩
      · rw [eq]
        exact behind
      · rw [eq]
        exact behind
      · rw [eq]
        exact Nat.le_refl _
      · rw [eq]
        exact Nat.le_refl _
  | steps =>
      obtain ⟨run, eq, -⟩ := Walker.nextStep_eq σ.walker σ.clock.now
      rw [eq]
      exact behind
  | advances microseconds =>
      exact Nat.le_trans behind
        (Nat.div_le_div_right (Clock.microseconds_le_advance counted microseconds))
  | _ => exact behind

/-- No tick lies ahead of the clock. -/
theorem Reachable.lastTick_le {σ : Session L} (reachable : σ.Reachable) :
    σ.walker.lastTick ≤ σ.clock.now := by
  induction reachable with
  | start link policy => exact Nat.zero_le _
  | @perform σ reachable op ih => exact (σ.performs op).lastTick_le reachable.clock_le ih

/-- Polling is greedy, and polls that fire nothing do no harm.  Of the polls of a walker with a
selection, at instants in their order, the first fires that comes no earlier than the armed wait is
over, in whole milliseconds; after each step that is played, in full or not, the first that comes
no earlier than its delay after it; and so on until the cycle ends.  Before each of these the polls
wait, and behind the end they are idle.

If any polls that fire nothing are left out, the others answer as before, each at its instant.  The
walker is left with the same programs, run, wait and last step, the same frame and the same bytes
written, so that only the replies tell the difference that wait at the link. -/
theorem polls_fire_greedily {σ : Session (Logged L)} (reachable : σ.Reachable)
    (selected : σ.walker.selectedName? ≠ none) {instants : List Clock}
    (ordered : (σ.clock :: instants).Pairwise fun c c' => c.microseconds ≤ c'.microseconds) :
    (σ.polls instants).map (·.1) = instants ∧
      Greedy (σ.walker.lastTick + σ.walker.wait) σ.walker.lastStep (σ.polls instants) ∧
      ∀ same : L → L → Prop, ApartFromReplies same →
        ∀ kept, Thinned (σ.polls instants) kept →
          σ.polls (kept.map (·.1)) = kept ∧
            Walker.Same (Logged.Same same) (σ.afterPolls instants).walker
              (σ.afterPolls (kept.map (·.1))).walker := by
  obtain ⟨ahead, ordered'⟩ := List.pairwise_cons.1 ordered
  have selected' : σ.walker.selected? ≠ none := by
    rwa [Ne, reachable.coherent.selected?_eq_none_iff]
  refine ⟨map_fst_polls σ instants, greedy_polls selected' ordered' fun c later => ?_,
    fun same apart kept thinned => ?_⟩
  · exact Nat.le_trans reachable.lastTick_le (Nat.div_le_div_right (ahead c later))
  · exact polls_of_thinned apart.logged (.refl apart.logged σ.walker) thinned

end Session

/-- Simulated links with the same bytes written, both connected or both not. -/
def Link.Simulated.SameWrites (l l' : Simulated) : Prop :=
  l.written = l'.written ∧ l.closed = l'.closed

theorem Link.Simulated.apartFromReplies : ApartFromReplies SameWrites where
  equivalence := {
    refl l := ⟨rfl, rfl⟩
    symm := fun ⟨written, closed⟩ => ⟨written.symm, closed.symm⟩
    trans := fun ⟨written, closed⟩ ⟨written', closed'⟩ =>
      ⟨written.trans written', closed.trans closed'⟩ }
  read l := ⟨rfl, rfl⟩
  write := by
    rintro ⟨written, replies, closed⟩ ⟨_, replies', _⟩ ⟨⟨⟩, ⟨⟩⟩ byte
    cases closed with
    | false => exact ⟨rfl, rfl, rfl⟩
    | true => exact ⟨rfl, rfl, rfl⟩

namespace Session

open Link (Logged Simulated)

/-- The three polls that fire nothing take replies, and make no other difference. -/
theorem polls_of_waiting_wave :
    let first : Step := ⟨Vector.replicate servoCount 90, 2⟩
    let wave : Program := { name := "wave", use := some "prg", main := #[first, Step.zero] }
    let link : Logged Simulated := { link := { replies := [0xa1, 0xb2, 0xc3, 0xd4] } }
    let σ := (start link .replace).after [.register wave, .select "wave", .tick]
    let instants : List Clock := [⟨500⟩, ⟨1999⟩, ⟨2000⟩, ⟨2000⟩, ⟨2100⟩]
    σ.Reachable ∧ σ.walker.selectedName? ≠ none ∧
      (σ.polls instants).map (·.2.firing?) =
        [none, none, some (.step Step.zero), some .finish, none] ∧
      (σ.polls [⟨2000⟩, ⟨2000⟩]).map (·.2.firing?) = [some (.step Step.zero), some .finish] ∧
      Walker.Same (Logged.Same Simulated.SameWrites) (σ.afterPolls instants).walker
        (σ.afterPolls [⟨2000⟩, ⟨2000⟩]).walker := by
  intro first wave link σ instants
  have reachable : σ.Reachable := (Reachable.start link .replace).after _
  have selected : σ.walker.selectedName? ≠ none := by decide +kernel
  have ordered : (σ.clock :: instants).Pairwise fun c c' => c.microseconds ≤ c'.microseconds := by
    decide +kernel
  have fires : (σ.polls instants).map (·.2.firing?) =
      [none, none, some (.step Step.zero), some .finish, none] := by
    decide +kernel
  obtain ⟨-, -, thin⟩ := polls_fire_greedily reachable selected ordered
  obtain ⟨-, after⟩ := thin Simulated.SameWrites Simulated.apartFromReplies _
    (.drops (by decide +kernel) (.drops (by decide +kernel) (.keeps _ (.keeps _
      (.drops (by decide +kernel) .nil)))))
  exact ⟨reachable, selected, fires, by decide +kernel, after⟩

end Session

end Gait

import Gait.Proofs.Drive.Operations

/-!
# A queue between two threads

`StatusQueue.push` is not one operation on a queue that two threads share: the sender offers a
status, takes the oldest one if it was refused, and offers it again, and the receiver may take
statuses at any moment in between.  A `Channel` is the queue with what the sender has at hand; a
schedule of `Party`s says whose operation comes next, so that all interleavings are schedules.

`Moves` lists what one operation can do, and `Sound` is what all of them keep.  The main statement
is about every schedule: a status is refused at most once, what the receiver gets is in order, and
the newest status is never the one that is lost.
-/

namespace Gait

/-- The threads that share a queue. -/
inductive Party where
  | sender | receiver
  deriving DecidableEq, Repr

/-- How far the sender has come with a status. -/
inductive Stage where
  | ready
  /-- The queue was full when the status was offered. -/
  | refused (s : Status)
  /-- The oldest status was taken, if there was one, and this one is offered again next. -/
  | retrying (s : Status)
  deriving DecidableEq, Repr

/-- The status that was produced but is not yet in the queue. -/
def Stage.atHand : Stage → List Status
  | ready => []
  | refused s | retrying s => [s]

/-- A queue with what the sender has at hand. -/
structure Channel where
  /-- What is still to be produced and sent. -/
  pending : List Status
  stage : Stage := .ready
  queue : StatusQueue := {}
  /-- What was taken out of the queue so far, and by whom. -/
  taken : List (Party × Status) := []
  deriving DecidableEq

namespace Channel

/-! ## Operations -/

/-- One party takes the oldest status, if there is one. -/
def takeBy (c : Channel) (party : Party) : Channel :=
  { c with
    queue := c.queue.take.2
    taken := c.taken ++ c.queue.take.1.toList.map (party, ·) }

/-- The next operation of a party on the queue. -/
def step (c : Channel) : Party → Channel
  | .receiver => c.takeBy .receiver
  | .sender =>
    match c.stage, c.pending with
    | .ready, [] => c
    | .ready, s :: pending =>
      match c.queue.offer? s with
      | some queue => { c with pending, queue }
      | none => { c with pending, stage := .refused s }
    | .refused s, _ => { c.takeBy .sender with stage := .retrying s }
    | .retrying s, _ => { c with stage := .ready, queue := (c.queue.offer? s).getD c.queue }

/-- The channel after a schedule, whose parties act one by one. -/
def run (c : Channel) (schedule : List Party) : Channel := schedule.foldl step c

/-- An empty channel, through which these statuses will be sent. -/
def start (produced : List Status) : Channel := { pending := produced }

/-- What the receiver got. -/
def received (c : Channel) : List Status := (c.taken.filter (·.1 = .receiver)).map (·.2)

/-- The sender is done. -/
def Sent (c : Channel) : Prop := c.stage = .ready ∧ c.pending = []

/-- What an operation can do. -/
inductive Moves : Channel → Party → Channel → Prop
  | rests {q : StatusQueue} {taken : List (Party × Status)} :
    Moves ⟨[], .ready, q, taken⟩ .sender ⟨[], .ready, q, taken⟩
  | sends {s : Status} {pending : List Status} {q : StatusQueue} {taken : List (Party × Status)}
    (room : q.waiting.length < queueCapacity) :
    Moves ⟨s :: pending, .ready, q, taken⟩ .sender ⟨pending, .ready, ⟨q.waiting ++ [s]⟩, taken⟩
  | meetsFull {s : Status} {pending : List Status} {q : StatusQueue}
    {taken : List (Party × Status)} (full : queueCapacity ≤ q.waiting.length) :
    Moves ⟨s :: pending, .ready, q, taken⟩ .sender ⟨pending, .refused s, q, taken⟩
  | meetsEmpty {s : Status} {pending : List Status} {taken : List (Party × Status)} :
    Moves ⟨pending, .refused s, ⟨[]⟩, taken⟩ .sender ⟨pending, .retrying s, ⟨[]⟩, taken⟩
  | discards {s oldest : Status} {pending waiting : List Status} {taken : List (Party × Status)} :
    Moves ⟨pending, .refused s, ⟨oldest :: waiting⟩, taken⟩ .sender
      ⟨pending, .retrying s, ⟨waiting⟩, taken ++ [(.sender, oldest)]⟩
  | sendsAgain {s : Status} {pending : List Status} {q : StatusQueue}
    {taken : List (Party × Status)} (room : q.waiting.length < queueCapacity) :
    Moves ⟨pending, .retrying s, q, taken⟩ .sender ⟨pending, .ready, ⟨q.waiting ++ [s]⟩, taken⟩
  | loses {s : Status} {pending : List Status} {q : StatusQueue} {taken : List (Party × Status)}
    (full : queueCapacity ≤ q.waiting.length) :
    Moves ⟨pending, .retrying s, q, taken⟩ .sender ⟨pending, .ready, q, taken⟩
  | misses {stage : Stage} {pending : List Status} {taken : List (Party × Status)} :
    Moves ⟨pending, stage, ⟨[]⟩, taken⟩ .receiver ⟨pending, stage, ⟨[]⟩, taken⟩
  | receives {stage : Stage} {oldest : Status} {pending waiting : List Status}
    {taken : List (Party × Status)} :
    Moves ⟨pending, stage, ⟨oldest :: waiting⟩, taken⟩ .receiver
      ⟨pending, stage, ⟨waiting⟩, taken ++ [(.receiver, oldest)]⟩

theorem moves (c : Channel) (party : Party) : Moves c party (c.step party) := by
  obtain ⟨pending, stage, ⟨waiting⟩, taken⟩ := c
  cases party with
  | receiver =>
      cases waiting with
      | nil => simpa [step, takeBy, StatusQueue.take] using Moves.misses
      | cons oldest waiting => exact .receives
  | sender =>
      cases stage with
      | ready =>
          cases pending with
          | nil => exact .rests
          | cons s pending =>
              by_cases room : waiting.length < queueCapacity
              · simpa [step, StatusQueue.offer?, room] using Moves.sends room
              · simpa [step, StatusQueue.offer?, room] using Moves.meetsFull (Nat.not_lt.1 room)
      | refused s =>
          cases waiting with
          | nil => simpa [step, takeBy, StatusQueue.take] using Moves.meetsEmpty
          | cons oldest waiting => exact .discards
      | retrying s =>
          by_cases room : waiting.length < queueCapacity
          · simpa [step, StatusQueue.offer?, room] using Moves.sendsAgain room
          · simpa [step, StatusQueue.offer?, room] using Moves.loses (Nat.not_lt.1 room)

/-! ## What every operation keeps -/

/-- How many places the sender has made in the queue and not yet filled. -/
def freed : Stage → Nat
  | .ready | .refused _ => 0
  | .retrying _ => 1

/-- What any schedule keeps of the channel of a sender that produces these statuses. -/
structure Sound (produced : List Status) (c : Channel) : Prop where
  /-- Nothing is lost and nothing doubled, and all is in order. -/
  whole : c.taken.map (·.2) ++ c.queue.waiting ++ c.stage.atHand ++ c.pending = produced
  bounded : c.queue.waiting.length ≤ queueCapacity
  room : ∀ s, c.stage = .retrying s → c.queue.waiting.length < queueCapacity
  /-- If everything was taken, the receiver has the newest status. -/
  newest : c.stage = .ready → c.queue.waiting = [] →
    ∀ e, c.taken.getLast? = some e → e.1 = .receiver
  /-- As long as the receiver gets nothing, the sender keeps the queue full once it was. -/
  full : c.received = [] →
    (c.stage = .ready ∧ c.taken = []) ∨ queueCapacity ≤ c.queue.waiting.length + freed c.stage

variable {produced : List Status} {c c' : Channel} {party : Party}

theorem sound_start (produced : List Status) : Sound produced (start produced) where
  whole := rfl
  bounded := Nat.zero_le _
  room := nofun
  newest := nofun
  full := fun _ => .inl ⟨rfl, rfl⟩

/-- The cases in which the invariant changes are those of a sender that meets a full queue: the
place it makes is still there when it offers again, whatever the receiver does in between. -/
theorem Sound.moves (sound : Sound produced c) (moves : Moves c party c') :
    Sound produced c' := by
  obtain ⟨whole, bounded, room, newest, full⟩ := sound
  cases moves with
  | rests | misses => exact ⟨whole, bounded, room, newest, full⟩
  | sends here =>
      refine ⟨by simpa [Stage.atHand] using whole, by simp; omega, by rintro _ ⟨⟩, by simp,
        fun unreceived => ?_⟩
      rcases full unreceived with ⟨-, untaken⟩ | many
      · exact .inl ⟨rfl, untaken⟩
      · exact .inr (by simp [freed] at many ⊢; omega)
  | meetsFull here =>
      exact ⟨by simpa [Stage.atHand] using whole, bounded, by rintro _ ⟨⟩, by rintro ⟨⟩,
        fun _ => .inr here⟩
  | meetsEmpty =>
      refine ⟨by simpa [Stage.atHand] using whole, bounded,
        fun _ _ => by simp [queueCapacity], by rintro ⟨⟩, fun unreceived => ?_⟩
      rcases full unreceived with ⟨stage, -⟩ | many
      · cases stage
      · simp [freed, queueCapacity] at many
  | discards =>
      simp only [List.length_cons] at bounded
      refine ⟨by simpa [Stage.atHand] using whole, by simp; omega, fun _ _ => by simp; omega,
        by rintro ⟨⟩,
        fun unreceived => .inr ?_⟩
      rcases full (by simpa [received] using unreceived) with ⟨stage, -⟩ | many
      · cases stage
      · simpa [freed] using many
  | sendsAgain here =>
      refine ⟨by simpa [Stage.atHand] using whole, by simp; omega, by rintro _ ⟨⟩, by simp,
        fun unreceived => ?_⟩
      rcases full unreceived with ⟨stage, -⟩ | many
      · cases stage
      · exact .inr (by simpa [freed] using many)
  | loses here => exact (Nat.not_lt.2 here (room _ rfl)).elim
  | receives =>
      simp only [List.length_cons] at bounded room
      refine ⟨by simpa using whole, by simp; omega, fun s at_ => ?_, fun _ _ e last => ?_,
        fun unreceived => ?_⟩
      · exact Nat.lt_of_succ_lt (room s at_)
      · obtain rfl : (.receiver, _) = e := by simpa using last
        rfl
      · simp [received] at unreceived

theorem Sound.run (sound : Sound produced c) (schedule : List Party) :
    Sound produced (c.run schedule) := by
  induction schedule generalizing c with
  | nil => exact sound
  | cons party schedule ih => exact ih (sound.moves (c.moves party))

/-! ## What the invariant says -/

/-- A place was made for the status that is offered again, and nobody else fills it. -/
theorem Sound.offer? (sound : Sound produced c) {s : Status} (at_ : c.stage = .retrying s) :
    (c.queue.offer? s).isSome := by
  simp [StatusQueue.offer?, sound.room s at_]

theorem Sound.received_sublist (sound : Sound produced c) :
    (c.received ++ c.queue.waiting).Sublist produced := by
  have kept : c.received.Sublist (c.taken.map (·.2)) := List.filter_sublist.map _
  rw [← sound.whole, List.append_assoc _ c.stage.atHand]
  exact (kept.append (List.Sublist.refl _)).trans (List.sublist_append_left _ _)

theorem Sound.whole_of_sent (sound : Sound produced c) (sent : c.Sent) :
    c.taken.map (·.2) ++ c.queue.waiting = produced := by
  simpa [sent.1, sent.2, Stage.atHand] using sound.whole

theorem getLast?_received {e : Party × Status} (last : c.taken.getLast? = some e)
    (by_ : e.1 = .receiver) : c.received.getLast? = some e.2 := by
  obtain ⟨earlier, split⟩ := List.getLast?_eq_some_iff.1 last
  simp [received, split, by_]

theorem Sound.getLast? (sound : Sound produced c) (sent : c.Sent) :
    (c.received ++ c.queue.waiting).getLast? = produced.getLast? := by
  rw [← sound.whole_of_sent sent]
  cases waiting : c.queue.waiting with
  | cons oldest rest => simp [List.getLast?_append, List.getLast?_cons]
  | nil =>
      cases last : c.taken.getLast? with
      | none => simp [List.getLast?_eq_none_iff.1 last, received]
      | some e => simp [getLast?_received last (sound.newest sent.1 waiting e last), last]

theorem Sound.waiting_of_received_nil (sound : Sound produced c) (sent : c.Sent)
    (unreceived : c.received = []) :
    c.queue.waiting = produced.drop (produced.length - queueCapacity) := by
  have whole := sound.whole_of_sent sent
  have bounded := sound.bounded
  rcases sound.full unreceived with ⟨-, untaken⟩ | many
  · obtain rfl : c.queue.waiting = produced := by simpa [untaken] using whole
    rw [Nat.sub_eq_zero_of_le bounded, List.drop_zero]
  · have length : c.queue.waiting.length = queueCapacity := by
      simp only [sent.1, freed] at many
      omega
    rw [← whole, List.length_append, length, Nat.add_sub_cancel, List.drop_left]

/-! ## How long sending takes -/

/-- How many operations the sender has left at most. -/
def left (c : Channel) : Nat :=
  3 * c.pending.length +
    match c.stage with
    | .ready => 0
    | .refused _ => 2
    | .retrying _ => 1

theorem sent_of_left (done : c.left = 0) : c.Sent := by
  obtain ⟨pending, stage, queue, taken⟩ := c
  cases stage with
  | ready =>
      have empty : 3 * pending.length = 0 := done
      exact ⟨rfl, List.length_eq_zero_iff.1 (by show pending.length = 0; omega)⟩
  | refused s | retrying s => simp [left] at done

theorem Moves.left_le (moves : Moves c party c') : c'.left ≤ c.left - [party].count .sender := by
  cases moves <;> simp [left] <;> omega

theorem left_run_le (c : Channel) (schedule : List Party) :
    (c.run schedule).left ≤ c.left - schedule.count .sender := by
  induction schedule generalizing c with
  | nil => exact Nat.le_refl _
  | cons party schedule ih =>
      have first := (c.moves party).left_le
      have rest := ih (c.step party)
      simp only [run, List.foldl_cons, List.count_cons, List.count_nil] at first rest ⊢
      omega

/-! ## A sender by itself -/

/-- Without a receiver the sender's operations come to a `push`. -/
theorem run_push (s : Status) (pending : List Status) (q : StatusQueue)
    (taken : List (Party × Status)) :
    ∃ n taken', (Channel.mk (s :: pending) .ready q taken).run (List.replicate n .sender) =
      ⟨pending, .ready, q.push s, taken'⟩ := by
  cases offered : q.offer? s with
  | some q' => exact ⟨1, taken, by simp [run, step, StatusQueue.push, offered]⟩
  | none =>
      exact ⟨3, taken ++ q.take.1.toList.map (.sender, ·), by
        simp [run, step, takeBy, List.replicate, StatusQueue.push, offered]⟩

theorem run_alone (produced : List Status) (queue : StatusQueue) (taken : List (Party × Status)) :
    ∃ n taken', (Channel.mk produced .ready queue taken).run (List.replicate n .sender) =
      ⟨[], .ready, produced.foldl .push queue, taken'⟩ := by
  induction produced generalizing queue taken with
  | nil => exact ⟨0, taken, rfl⟩
  | cons s pending ih =>
      obtain ⟨n, between, first⟩ := run_push s pending queue taken
      obtain ⟨m, after, rest⟩ := ih (queue.push s) between
      refine ⟨n + m, after, ?_⟩
      rw [← List.replicate_append_replicate, run, List.foldl_append, ← run, ← run, first, rest]
      rfl

/-- What a poll queues by itself is what its sender leaves in a channel without a receiver. -/
theorem queue_of_poll {L : Type} [Link L] (poll fuel : Nat) (clock : Clock) (p : Poll L) :
    ∃ n taken, (Channel.mk (p.produced poll fuel clock) .ready p.queue []).run
      (List.replicate n .sender) = ⟨[], .ready, (p.run poll fuel clock).2.2.queue, taken⟩ := by
  rw [Poll.queue_run]
  exact run_alone (p.produced poll fuel clock) p.queue []

/-! ## Every interleaving -/

/-- What becomes of statuses that are sent one after the other while the receiver takes some at any
moment in between.  A status that is offered again is never refused; every status is at one place,
in order, so the receiver gets each at most once and in order; and the sender is done after three
operations for each at most.  Then the newest status was received or waits as the last one, and if
nothing was received, just the newest ones wait, as many as fit. -/
theorem newest_is_kept (produced : List Status) (schedule : List Party) :
    let c := (start produced).run schedule
    (∀ s, c.stage = .retrying s → (c.queue.offer? s).isSome) ∧
    c.taken.map (·.2) ++ c.queue.waiting ++ c.stage.atHand ++ c.pending = produced ∧
    (c.received ++ c.queue.waiting).Sublist produced ∧
    (3 * produced.length ≤ schedule.count .sender → c.Sent) ∧
    (c.Sent →
      (c.received ++ c.queue.waiting).getLast? = produced.getLast? ∧
      (c.received = [] →
        c.queue.waiting = produced.drop (produced.length - queueCapacity))) := by
  intro c
  have sound : Sound produced c := (sound_start produced).run schedule
  refine ⟨fun s => sound.offer?, sound.whole, sound.received_sublist,
    fun enough => sent_of_left ?_,
    fun sent => ⟨sound.getLast? sent, sound.waiting_of_received_nil sent⟩⟩
  have left : c.left ≤ 3 * produced.length - schedule.count .sender :=
    left_run_le (start produced) schedule
  omega

/-- Two statuses are discarded if nobody takes any; one is received and one discarded if the
receiver comes between a refused offer and the room made for it. -/
theorem newest_is_kept_when_full :
    let produced := List.replicate 65 Status.stepped ++ [.endOfCycle]
    let alone := (start produced).run (List.replicate 198 .sender)
    let racing := (start produced).run
      (List.replicate 65 .sender ++ .receiver :: List.replicate 133 .sender)
    alone.queue.waiting = List.replicate 63 .stepped ++ [.endOfCycle] ∧
    racing.received = [.stepped] ∧
    (racing.received ++ racing.queue.waiting).getLast? = some .endOfCycle := by
  intro produced alone racing
  obtain ⟨-, -, -, sent, kept⟩ := newest_is_kept produced (List.replicate 198 .sender)
  obtain ⟨-, -, -, sent', kept'⟩ := newest_is_kept produced
    (List.replicate 65 .sender ++ .receiver :: List.replicate 133 .sender)
  have unreceived : alone.received = [] := by decide +kernel
  have received : racing.received = [.stepped] := by decide +kernel
  refine ⟨?_, received, ?_⟩
  · have after := (kept (sent (by decide +kernel))).2 unreceived
    rw [after]
    decide +kernel
  · have after := (kept' (sent' (by decide +kernel))).1
    rw [after]
    decide +kernel

end Channel

end Gait

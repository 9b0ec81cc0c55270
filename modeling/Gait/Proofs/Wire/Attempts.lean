import Gait.Proofs.Wire.Receiver

/-!
# What a transmitter writes

`Link.Logged` keeps a log of the writes to any link, with what became of them.  An `Attempt` is one
command with the writes that were made for it; `Transmitter.attempts` lists the attempts of a step.
`sendCommand_leaves` says what one command leaves in the log: nothing, one failed write, one byte
and a failed write, or the whole frame.  `Attempted.received` and `Attempted.inOrder` say what a
receiver makes of the attempts of a step.
-/

namespace Gait

namespace Link

/-- A link with a log of its writes: each byte, and whether it was accepted. -/
structure Logged (L : Type) where
  link : L
  writes : List (UInt8 × Bool) := []

instance {L : Type} [Link L] : Link (Logged L) where
  write l byte :=
    let (result, link) := Link.write l.link byte
    (result, ⟨link, l.writes ++ [(byte, result.isOk)]⟩)
  read l :=
    let (result, link) := Link.read l.link
    (result, { l with link })

theorem Logged.write_eq {L : Type} [Link L] (l : Logged L) (byte : UInt8) :
    Link.write l byte =
      ((Link.write l.link byte).1,
        ⟨(Link.write l.link byte).2, l.writes ++ [(byte, (Link.write l.link byte).1.isOk)]⟩) :=
  rfl

end Link

open Link (Logged)

/-- The bytes of the writes that were accepted. -/
def accepted (writes : List (UInt8 × Bool)) : List UInt8 := (writes.filter (·.2)).map (·.1)

/-! ## Single operations -/

namespace Transmitter

variable {L : Type}

theorem run_seq (t : Transmitter L) (first second : Sending L Unit) :
    t.run (do first; second) =
      match t.run first with
      | (.ok (), t) => t.run second
      | (.error e, t) => (.error e, t) := by
  change StateT.bind first (ExceptT.bindCont fun _ => second) t = _
  unfold StateT.bind run
  rcases first t with ⟨_ | _, t'⟩ <;> rfl

theorem run_get (t : Transmitter L) (next : Transmitter L → Sending L Unit) :
    t.run (get >>= next) = t.run (next t) := rfl

theorem run_reset (t : Transmitter L) : t.run reset = (.ok (), { t with frame := .start }) := rfl

theorem run_put (t : Transmitter L) (field : Field) (number : Int) :
    t.run (put field number) =
      if 0 ≤ number ∧ number ≤ field.largest then
        (.ok (), { t with frame := t.frame.merge number.toNat.toUInt8 field })
      else (.error (.range ⟨field, number⟩), t) := by
  rw [put, run_get, Frame.put]
  by_cases fits : 0 ≤ number ∧ number ≤ field.largest
  · rw [if_pos fits, if_pos fits]
    rfl
  · rw [if_neg fits, if_neg fits]
    rfl

theorem run_put_seq (t : Transmitter L) (field : Field) (number : Int) (next : Sending L Unit) :
    t.run (do put field number; next) =
      if 0 ≤ number ∧ number ≤ field.largest then
        ({ t with frame := t.frame.merge number.toNat.toUInt8 field }).run next
      else (.error (.range ⟨field, number⟩), t) := by
  rw [run_seq, run_put]
  by_cases fits : 0 ≤ number ∧ number ≤ field.largest
  · rw [if_pos fits, if_pos fits]
  · rw [if_neg fits, if_neg fits]

variable [Link L]

theorem run_write (t : Transmitter L) (byte : UInt8) :
    t.run (write byte) =
      match Link.write t.link byte with
      | (.ok (), link) => (.ok (), { t with link })
      | (.error e, link) => (.error (.link e), { t with link }) := by
  rw [write, run_get]
  rcases Link.write t.link byte with ⟨_ | _, link⟩ <;> rfl

theorem run_send (t : Transmitter L) :
    t.run send = t.run (do write t.frame.first; write t.frame.second) := rfl

/-- What holds of the parts of a command, and of one operation after the other, holds of sending a
step. -/
theorem of_parts {P : Sending L Unit → Prop} (nothing : P (pure ()))
    (seq : ∀ {first next}, P first → P next → P (do first; next)) (reset : P reset)
    (put : ∀ field number, P (put field number)) (send : P send) (step : Step) :
    P (sendStep step) := by
  have command (pic servo mode value : Int) : P (command pic servo mode value) :=
    seq reset <| seq (put .pic pic) <| seq (put .servo servo) <| seq (put .mode mode) <|
      seq (put .value value) send
  have sendFrom (slot : Nat) (raws : List Setpoint) : P (sendFrom slot raws) := by
    induction raws generalizing slot with
    | nil => exact nothing
    | cons raw raws ih => exact seq (command _ _ _ _) (ih (slot + 1))
  exact sendFrom 0 step.positions.toList

/-- Build the frame of a command and send it. -/
def sendCommand (c : Command) : Sending L Unit := command c.pic c.servo c.mode c.value

/-- A command that fits is built as a whole and sent. -/
theorem run_sendCommand_of_fits (t : Transmitter L) {c : Command} (fits : c.Fits) :
    t.run (sendCommand c) = ({ t with frame := c.frame }).run send := by
  obtain ⟨pic, servo, mode, value⟩ := fits
  rw [sendCommand, command, run_seq, run_reset]
  dsimp only
  rw [run_put_seq, if_pos pic, run_put_seq, if_pos servo, run_put_seq, if_pos mode, run_put_seq,
    if_pos value]
  rfl

/-- Of any other command nothing is sent. -/
theorem run_sendCommand_of_not_fits (t : Transmitter L) {c : Command} (misfits : ¬c.Fits) :
    ∃ misfit frame, t.run (sendCommand c) = (.error (.range misfit), { t with frame }) := by
  rw [sendCommand, command, run_seq, run_reset]
  dsimp only
  rw [run_put_seq]
  split
  · next pic =>
    rw [run_put_seq]
    split
    · next servo =>
      rw [run_put_seq]
      split
      · next mode =>
        rw [run_put_seq, if_neg fun value => misfits ⟨pic, servo, mode, value⟩]
        exact ⟨_, _, rfl⟩
      · exact ⟨_, _, rfl⟩
    · exact ⟨_, _, rfl⟩
  · exact ⟨_, _, rfl⟩

end Transmitter

/-! ## Attempts -/

/-- What the log gains by a command, and what the command gives. -/
inductive Command.Leaves (c : Command) : List (UInt8 × Bool) → Except SendError Unit → Prop
  | misfit (misfits : ¬c.Fits) (e : SendError) : Leaves c [] (.error e)
  | refused (fits : c.Fits) (e : SendError) : Leaves c [(c.frame.first, false)] (.error e)
  | half (fits : c.Fits) (e : SendError) :
    Leaves c [(c.frame.first, true), (c.frame.second, false)] (.error e)
  | whole (fits : c.Fits) :
    Leaves c [(c.frame.first, true), (c.frame.second, true)] (.ok ())

namespace Transmitter

variable {L : Type} [Link L]

theorem run_write_logged (t : Transmitter (Logged L)) (byte : UInt8) :
    (∃ link, t.run (write byte) =
        (.ok (), { t with link := ⟨link, t.link.writes ++ [(byte, true)]⟩ })) ∨
      ∃ e link, t.run (write byte) =
        (.error (.link e), { t with link := ⟨link, t.link.writes ++ [(byte, false)]⟩ }) := by
  rw [run_write, Logged.write_eq]
  rcases Link.write t.link.link byte with ⟨e | ⟨⟨⟩⟩, link⟩
  · exact Or.inr ⟨e, link, rfl⟩
  · exact Or.inl ⟨link, rfl⟩

/-- What a command leaves in the log. -/
theorem sendCommand_leaves (t : Transmitter (Logged L)) (c : Command) :
    ∃ writes, (t.run (sendCommand c)).2.link.writes =
        t.link.writes ++ writes ∧
      c.Leaves writes (t.run (sendCommand c)).1 := by
  by_cases fits : c.Fits
  · rw [run_sendCommand_of_fits t fits, run_send, run_seq]
    rcases run_write_logged { t with frame := c.frame } c.frame.first with
      ⟨link, first⟩ | ⟨e, link, first⟩
    · rw [first]
      dsimp only
      rcases run_write_logged ⟨⟨link, t.link.writes ++ [(c.frame.first, true)]⟩, c.frame⟩
        c.frame.second with ⟨link', second⟩ | ⟨e, link', second⟩
      · rw [second]
        exact ⟨_, List.append_assoc .., .whole fits⟩
      · rw [second]
        exact ⟨_, List.append_assoc .., .half fits _⟩
    · rw [first]
      exact ⟨_, rfl, .refused fits _⟩
  · obtain ⟨misfit, frame, eq⟩ := run_sendCommand_of_not_fits t fits
    rw [eq]
    exact ⟨[], (List.append_nil _).symm, .misfit fits _⟩

end Transmitter

/-- A command with the writes that were made for it. -/
structure Attempt where
  command : Command
  writes : List (UInt8 × Bool)

namespace Attempt

/-- Both bytes of the command were accepted. -/
def whole (a : Attempt) : Bool := a.writes.length == 2 && a.writes.all (·.2)

end Attempt

/-- The commands of the attempts that were written as a whole. -/
def wholeCommands (attempts : List Attempt) : List Command :=
  (attempts.filter Attempt.whole).map (·.command)

/-- The command that moves the servo in a slot. -/
def Command.forSlot (slot : Nat) (raw : Setpoint) : Command :=
  ⟨(slot / 4 + 1 : Nat), (slot % 4 : Nat), 0, raw.toInt⟩

theorem Command.mapIdx_forSlot_cons (slot : Nat) (raw : Setpoint) (raws : List Setpoint) :
    ((raw :: raws).mapIdx fun i raw => forSlot (slot + i) raw) =
      forSlot slot raw :: raws.mapIdx fun i raw => forSlot (slot + 1 + i) raw := by
  have shift : (fun i => forSlot (slot + (i + 1))) = fun i => forSlot (slot + 1 + i) := by
    funext i
    rw [Nat.add_right_comm]
    rfl
  rw [List.mapIdx_cons, shift]
  rfl

namespace Transmitter

variable {L : Type} [Link L]

/-- The attempts for setpoints from a slot on, up to the first that fails. -/
def attemptsFrom (t : Transmitter (Logged L)) (slot : Nat) : List Setpoint → List Attempt
  | [] => []
  | raw :: raws =>
    let (result, later) := t.run (sendCommand (.forSlot slot raw))
    ⟨.forSlot slot raw, later.link.writes.drop t.link.writes.length⟩ ::
      match result with
      | .ok () => later.attemptsFrom (slot + 1) raws
      | .error _ => []

/-- The attempts for a step. -/
def attempts (t : Transmitter (Logged L)) (step : Step) : List Attempt :=
  t.attemptsFrom 0 step.positions.toList

end Transmitter

/-- The attempts for setpoints from a slot on, as the log shows them: whole ones, and behind them at
most one that failed. -/
inductive Attempted : Nat → List Setpoint → List Attempt → Prop
  | done (slot : Nat) : Attempted slot [] []
  | failed {slot : Nat} {raw : Setpoint} {raws : List Setpoint} {writes : List (UInt8 × Bool)}
    {e : SendError} (leaves : (Command.forSlot slot raw).Leaves writes (.error e)) :
    Attempted slot (raw :: raws) [⟨Command.forSlot slot raw, writes⟩]
  | next {slot : Nat} {raw : Setpoint} {raws : List Setpoint} {writes : List (UInt8 × Bool)}
    {attempts : List Attempt} (leaves : (Command.forSlot slot raw).Leaves writes (.ok ()))
    (later : Attempted (slot + 1) raws attempts) :
    Attempted slot (raw :: raws) (⟨Command.forSlot slot raw, writes⟩ :: attempts)

namespace Transmitter

variable {L : Type} [Link L]

theorem run_sendFrom_cons (t : Transmitter L) (slot : Nat) (raw : Setpoint)
    (raws : List Setpoint) :
    t.run (sendFrom slot (raw :: raws)) =
      match t.run (sendCommand (.forSlot slot raw)) with
      | (.ok (), later) => later.run (sendFrom (slot + 1) raws)
      | (.error e, later) => (.error e, later) := by
  have eq : sendFrom (L := L) slot (raw :: raws) =
      (do sendCommand (.forSlot slot raw); sendFrom (slot + 1) raws) := rfl
  rw [eq, run_seq]

/-- Every write of a step is in the log of one of its attempts. -/
theorem attemptsFrom_spec (t : Transmitter (Logged L)) (slot : Nat) (raws : List Setpoint) :
    Attempted slot raws (t.attemptsFrom slot raws) ∧
      (t.run (sendFrom slot raws)).2.link.writes =
        t.link.writes ++ (t.attemptsFrom slot raws).flatMap (·.writes) := by
  induction raws generalizing slot t with
  | nil => exact ⟨.done slot, (List.append_nil _).symm⟩
  | cons raw raws ih =>
      obtain ⟨writes, log, leaves⟩ := t.sendCommand_leaves (.forSlot slot raw)
      rw [attemptsFrom, run_sendFrom_cons]
      generalize t.run (sendCommand (.forSlot slot raw)) = sent at log leaves
      obtain ⟨e | ⟨⟨⟩⟩, later⟩ := sent
      · dsimp only at log leaves ⊢
        rw [log, List.drop_left]
        exact ⟨.failed leaves, by simp⟩
      · obtain ⟨attempted, log'⟩ := ih later (slot + 1)
        dsimp only at log leaves ⊢
        rw [log', log, List.drop_left]
        exact ⟨.next leaves attempted, by simp⟩

end Transmitter

/-! ## What a receiver makes of them -/

theorem accepted_append (writes later : List (UInt8 × Bool)) :
    accepted (writes ++ later) = accepted writes ++ accepted later := by
  simp [accepted]

theorem wholeCommands_append (attempts later : List Attempt) :
    wholeCommands (attempts ++ later) = wholeCommands attempts ++ wholeCommands later := by
  simp [wholeCommands]

/-- One attempt gives a receiver its command if it was written as a whole, and nothing otherwise. -/
theorem Command.Leaves.received {c : Command} {writes : List (UInt8 × Bool)}
    {result : Except SendError Unit} (leaves : c.Leaves writes result) (r : Receiver) :
    ((accepted writes).foldl Receiver.take r).received =
      r.received ++ wholeCommands [⟨c, writes⟩] := by
  cases leaves with
  | misfit _ e => exact (List.append_nil _).symm
  | refused _ e => exact (List.append_nil _).symm
  | half fits e => exact (r.received_first fits).trans (List.append_nil _).symm
  | whole fits => exact r.received_frame fits

namespace Attempted

variable {slot : Nat} {raws : List Setpoint} {attempts : List Attempt}

theorem received (attempted : Attempted slot raws attempts) (r : Receiver) :
    ((accepted (attempts.flatMap (·.writes))).foldl Receiver.take r).received =
      r.received ++ wholeCommands attempts := by
  induction attempted generalizing r with
  | done slot => exact (List.append_nil _).symm
  | failed leaves =>
      rw [List.flatMap_singleton]
      exact leaves.received r
  | next leaves later ih =>
      rw [List.flatMap_cons, accepted_append, List.foldl_append, ih, leaves.received,
        List.append_assoc, ← wholeCommands_append]
      rfl

/-- The whole commands are those of the first slots, each in its place. -/
theorem inOrder (attempted : Attempted slot raws attempts) :
    wholeCommands attempts <+: raws.mapIdx fun i raw => .forSlot (slot + i) raw := by
  induction attempted with
  | done slot => exact List.nil_prefix
  | failed leaves => cases leaves <;> exact List.nil_prefix
  | next leaves later ih =>
      cases leaves
      rw [Command.mapIdx_forSlot_cons]
      exact List.cons_prefix_cons.2 ⟨rfl, ih⟩

end Attempted

end Gait

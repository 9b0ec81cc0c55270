import Gait.Proofs.Wire.Attempts

/-!
# Links that answer alike

Two links are `Alike` if no requests tell them apart; they may be of different kinds.  Two
transmitters over such links go in step: whatever frames they were left with, they give the same
results and write the same bytes, since a command begins its frame anew.  `inStep_sendStep` says so
of a whole step.
-/

namespace Gait

namespace Link

/-! ## Requests and answers -/

/-- What is asked of a link. -/
inductive Request where
  | write (byte : UInt8)
  | read

/-- What a link gives back. -/
inductive Answer where
  | written (result : Except LinkError Unit)
  | reply (result : Except LinkError (Option UInt8))

/-- What a link answers to requests that are made one after the other. -/
def answers {L : Type} [Link L] (l : L) : List Request → List Answer
  | [] => []
  | .write byte :: later => .written (Link.write l byte).1 :: answers (Link.write l byte).2 later
  | .read :: later => .reply (Link.read l).1 :: answers (Link.read l).2 later

variable {L₁ L₂ : Type} [Link L₁] [Link L₂]

/-- The links give the same answers, whatever is asked of them. -/
def Alike (l₁ : L₁) (l₂ : L₂) : Prop := ∀ requests, answers l₁ requests = answers l₂ requests

theorem Alike.refl (l : L₁) : Alike l l := fun _ => rfl

variable {l₁ : L₁} {l₂ : L₂}

theorem Alike.after_write (alike : Alike l₁ l₂) (byte : UInt8) :
    (Link.write l₁ byte).1 = (Link.write l₂ byte).1 ∧
      Alike (Link.write l₁ byte).2 (Link.write l₂ byte).2 := by
  have both (later : List Request) := List.cons.inj (alike (.write byte :: later))
  exact ⟨Answer.written.inj (both []).1, fun later => (both later).2⟩

theorem Alike.after_read (alike : Alike l₁ l₂) : Alike (Link.read l₁).2 (Link.read l₂).2 :=
  fun later => (List.cons.inj (alike (.read :: later))).2

end Link

namespace Transmitter

open Link (Logged Alike)

/-! ## Transmitters in step -/

theorem run_sendCommand {L : Type} [Link L] (t : Transmitter L) (c : Command) :
    t.run (sendCommand c) = ({ t with frame := .start }).run (do
      put .pic c.pic
      put .servo c.servo
      put .mode c.mode
      put .value c.value
      send) := by
  rw [sendCommand, command, run_seq, run_reset]

/-- What does not fit is refused for the same reason by every transmitter. -/
theorem run_sendCommand_of_misfit {c : Command} (misfits : ¬c.Fits) :
    ∃ misfit, ∀ {L : Type} [Link L] (t : Transmitter L),
      ∃ frame, t.run (sendCommand c) = (.error (.range misfit), { t with frame }) := by
  by_cases pic : 0 ≤ c.pic ∧ c.pic ≤ Field.largest .pic
  · by_cases servo : 0 ≤ c.servo ∧ c.servo ≤ Field.largest .servo
    · by_cases mode : 0 ≤ c.mode ∧ c.mode ≤ Field.largest .mode
      · refine ⟨⟨.value, c.value⟩, fun t => ?_⟩
        rw [run_sendCommand, run_put_seq, if_pos pic, run_put_seq, if_pos servo, run_put_seq,
          if_pos mode, run_put_seq, if_neg fun value => misfits ⟨pic, servo, mode, value⟩]
        exact ⟨_, rfl⟩
      · refine ⟨⟨.mode, c.mode⟩, fun t => ?_⟩
        rw [run_sendCommand, run_put_seq, if_pos pic, run_put_seq, if_pos servo, run_put_seq,
          if_neg mode]
        exact ⟨_, rfl⟩
    · refine ⟨⟨.servo, c.servo⟩, fun t => ?_⟩
      rw [run_sendCommand, run_put_seq, if_pos pic, run_put_seq, if_neg servo]
      exact ⟨_, rfl⟩
  · refine ⟨⟨.pic, c.pic⟩, fun t => ?_⟩
    rw [run_sendCommand, run_put_seq, if_neg pic]
    exact ⟨_, rfl⟩

variable {L₁ L₂ : Type} [Link L₁] [Link L₂]

/-- Carrying out the operations gives the same result, writes the same and leaves links that are
alike. -/
structure InStep (t₁ : Transmitter (Logged L₁)) (t₂ : Transmitter (Logged L₂))
    (a₁ : Sending (Logged L₁) Unit) (a₂ : Sending (Logged L₂) Unit) : Prop where
  result : (t₁.run a₁).1 = (t₂.run a₂).1
  alike : Alike (t₁.run a₁).2.link.link (t₂.run a₂).2.link.link
  wrote : ∃ writes, (t₁.run a₁).2.link.writes = t₁.link.writes ++ writes ∧
    (t₂.run a₂).2.link.writes = t₂.link.writes ++ writes

variable {t₁ : Transmitter (Logged L₁)} {t₂ : Transmitter (Logged L₂)}

theorem InStep.seq {a₁ b₁ : Sending (Logged L₁) Unit} {a₂ b₂ : Sending (Logged L₂) Unit}
    (first : InStep t₁ t₂ a₁ a₂)
    (next : ∀ t₁ t₂, Alike t₁.link.link t₂.link.link → InStep t₁ t₂ b₁ b₂) :
    InStep t₁ t₂ (do a₁; b₁) (do a₂; b₂) := by
  obtain ⟨result, alike, writes, wrote₁, wrote₂⟩ := first
  have eq₁ := run_seq t₁ a₁ b₁
  have eq₂ := run_seq t₂ a₂ b₂
  generalize t₁.run a₁ = first₁ at result alike wrote₁ eq₁
  generalize t₂.run a₂ = first₂ at result alike wrote₂ eq₂
  obtain ⟨r, later₁⟩ := first₁
  obtain ⟨_, later₂⟩ := first₂
  cases result
  -- A failure ends both runs; otherwise both go on, from links that are alike again.
  cases r with
  | error e =>
      dsimp only at eq₁ eq₂
      constructor
      · rw [eq₁, eq₂]
      · rwa [eq₁, eq₂]
      · rw [eq₁, eq₂]
        exact ⟨writes, wrote₁, wrote₂⟩
  | ok =>
      obtain ⟨result', alike', writes', wrote₁', wrote₂'⟩ := next later₁ later₂ alike
      dsimp only at eq₁ eq₂ wrote₁ wrote₂
      constructor
      · rwa [eq₁, eq₂]
      · rwa [eq₁, eq₂]
      · rw [eq₁, eq₂, wrote₁', wrote₂', wrote₁, wrote₂, List.append_assoc, List.append_assoc]
        exact ⟨writes ++ writes', rfl, rfl⟩

theorem inStep_write (t₁ : Transmitter (Logged L₁)) (t₂ : Transmitter (Logged L₂))
    (alike : Alike t₁.link.link t₂.link.link) (byte : UInt8) :
    InStep t₁ t₂ (write byte) (write byte) := by
  obtain ⟨same, alike'⟩ := alike.after_write byte
  have eq₁ := run_write t₁ byte
  have eq₂ := run_write t₂ byte
  rw [Logged.write_eq] at eq₁ eq₂
  generalize Link.write t₁.link.link byte = answer₁ at same alike' eq₁
  generalize Link.write t₂.link.link byte = answer₂ at same alike' eq₂
  obtain ⟨answer, link₁⟩ := answer₁
  obtain ⟨_, link₂⟩ := answer₂
  cases same
  cases answer with
  | _ =>
      dsimp only at eq₁ eq₂
      constructor
      · rw [eq₁, eq₂]
      · rwa [eq₁, eq₂]
      · rw [eq₁, eq₂]
        exact ⟨_, rfl, rfl⟩

/-- The frame that a transmitter was left with has no part in the next command. -/
theorem inStep_sendCommand (alike : Alike t₁.link.link t₂.link.link) (c : Command) :
    InStep t₁ t₂ (sendCommand c) (sendCommand c) := by
  by_cases fits : c.Fits
  · have first := inStep_write ⟨t₁.link, c.frame⟩ ⟨t₂.link, c.frame⟩ alike c.frame.first
    have sent := first.seq fun t₁ t₂ alike => inStep_write t₁ t₂ alike c.frame.second
    constructor
    · rw [run_sendCommand_of_fits t₁ fits, run_sendCommand_of_fits t₂ fits]
      exact sent.result
    · rw [run_sendCommand_of_fits t₁ fits, run_sendCommand_of_fits t₂ fits]
      exact sent.alike
    · rw [run_sendCommand_of_fits t₁ fits, run_sendCommand_of_fits t₂ fits]
      exact sent.wrote
  · obtain ⟨misfit, refused⟩ := run_sendCommand_of_misfit fits
    obtain ⟨frame₁, eq₁⟩ := refused t₁
    obtain ⟨frame₂, eq₂⟩ := refused t₂
    constructor
    · rw [eq₁, eq₂]
    · rwa [eq₁, eq₂]
    · rw [eq₁, eq₂]
      exact ⟨[], (List.append_nil _).symm, (List.append_nil _).symm⟩

theorem inStep_sendFrom (alike : Alike t₁.link.link t₂.link.link) (slot : Nat)
    (raws : List Setpoint) : InStep t₁ t₂ (sendFrom slot raws) (sendFrom slot raws) := by
  induction raws generalizing slot t₁ t₂ with
  | nil => exact ⟨rfl, alike, [], (List.append_nil _).symm, (List.append_nil _).symm⟩
  | cons raw raws ih =>
      exact (inStep_sendCommand alike (.forSlot slot raw)).seq fun _ _ alike => ih alike (slot + 1)

/-- Transmitters over links that are alike send a step alike. -/
theorem inStep_sendStep (alike : Alike t₁.link.link t₂.link.link) (step : Step) :
    InStep t₁ t₂ (sendStep step) (sendStep step) :=
  inStep_sendFrom alike 0 step.positions.toList

end Transmitter

end Gait

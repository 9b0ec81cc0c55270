import Gait.Proofs.Walker.Playing
import Gait.Proofs.Walker.Unlinked
import Gait.Proofs.Wire.Alike

/-!
# Links that refuse nothing

What a step puts on a link that accepts every byte: the frames of its commands, up to the first
command that does not fit (`Step.bytes`).  A `Link.Record` tells from a link which bytes it
accepted; `Record.simulated` and `Record.logged` are two of them.  `run_sendStep_gains` says what
sending a step adds to any record, and `Session.after_gains` that a whole run adds what its ticks
fired.
-/

namespace Gait

/-! ## The bytes of a step -/

/-- The frame of a command, as it is sent. -/
def Command.bytes (c : Command) : List UInt8 := [c.frame.first, c.frame.second]

/-- The commands for setpoints from a slot on, up to the first that does not fit. -/
def commandsFrom (slot : Nat) (raws : List Setpoint) : List Command :=
  (raws.mapIdx fun i raw => .forSlot (slot + i) raw).takeWhile (·.Fits)

theorem commandsFrom_cons (slot : Nat) (raw : Setpoint) (raws : List Setpoint) :
    commandsFrom slot (raw :: raws) =
      if (Command.forSlot slot raw).Fits then
        .forSlot slot raw :: commandsFrom (slot + 1) raws
      else [] := by
  rw [commandsFrom, Command.mapIdx_forSlot_cons, List.takeWhile_cons]
  simp only [decide_eq_true_eq]
  rfl

namespace Step

/-- The commands for all servos of a step. -/
def commands (s : Step) : List Command := commandsFrom 0 s.positions.toList

/-- The bytes of the commands of a step. -/
def bytes (s : Step) : List UInt8 := s.commands.flatMap Command.bytes

end Step

/-- The bytes that go out when something fires. -/
def Firing.bytes : Firing → List UInt8
  | step s => s.bytes
  | finish => []

/-! ## Records -/

namespace Link

/-- What tells from a link which bytes it accepted, as long as it accepts all. -/
structure Record (L : Type) [Link L] where
  Accepts : L → Prop
  bytes : L → List UInt8
  write {l : L} (accepts : Accepts l) (byte : UInt8) :
    ∃ l', Link.write l byte = (.ok (), l') ∧ Accepts l' ∧ bytes l' = bytes l ++ [byte]
  read {l : L} (accepts : Accepts l) : Accepts (Link.read l).2 ∧ bytes (Link.read l).2 = bytes l

variable {L : Type} [Link L]

/-- No write fails, whatever is asked of the link before. -/
def Unfailing (l : L) : Prop :=
  ∀ requests result, .written result ∈ answers l requests → result = .ok ()

theorem Unfailing.write {l : L} (unfailing : Unfailing l) (byte : UInt8) :
    (Link.write l byte).1 = .ok () ∧ Unfailing (Link.write l byte).2 := by
  refine ⟨unfailing [.write byte] _ List.mem_cons_self, fun requests result answered => ?_⟩
  exact unfailing (.write byte :: requests) result (List.mem_cons_of_mem _ answered)

theorem Unfailing.read {l : L} (unfailing : Unfailing l) : Unfailing (Link.read l).2 :=
  fun requests result answered =>
    unfailing (.read :: requests) result (List.mem_cons_of_mem _ answered)

/-- Links of a kind that refuses nothing. -/
theorem unfailing_of_write (accepts : ∀ (l : L) byte, (Link.write l byte).1 = .ok ()) (l : L) :
    Unfailing l := by
  intro requests
  induction requests generalizing l with
  | nil => exact nofun
  | cons request requests ih =>
      intro result answered
      cases request with
      | write byte =>
          rcases List.mem_cons.1 answered with here | later
          · cases here
            exact accepts l byte
          · exact ih _ result later
      | read =>
          rcases List.mem_cons.1 answered with here | later
          · cases here
          · exact ih _ result later

namespace Record

/-- A simulated link accepts every byte while it is not disconnected. -/
def simulated : Record Simulated where
  Accepts l := l.closed = false
  bytes l := l.written.toList
  write := by
    intro l accepts byte
    refine ⟨{ l with written := l.written.push byte }, ?_, accepts, Array.toList_push⟩
    simp only [Link.write, accepts, Bool.false_eq_true, if_false]
  read accepts := ⟨accepts, rfl⟩

/-- A logged link accepts every byte if the link inside never fails. -/
def logged : Record (Logged L) where
  Accepts l := Unfailing l.link
  bytes l := accepted l.writes
  write := by
    intro l unfailing byte
    obtain ⟨ok, unfailing'⟩ := unfailing.write byte
    refine ⟨⟨(Link.write l.link byte).2, l.writes ++ [(byte, true)]⟩, ?_, unfailing',
      accepted_append l.writes [(byte, true)]⟩
    rw [Logged.write_eq, ok]
    rfl
  read unfailing := ⟨unfailing.read, rfl⟩

variable (r : Record L)

/-- The link went on accepting and got these bytes. -/
def Gains (l l' : L) (bytes : List UInt8) : Prop := r.Accepts l' ∧ r.bytes l' = r.bytes l ++ bytes

variable {r : Record L} {l l' l'' : L}

theorem Gains.none (accepts : r.Accepts l) : r.Gains l l [] :=
  ⟨accepts, (List.append_nil _).symm⟩

theorem Gains.trans {first second : List UInt8} (gains : r.Gains l l' first)
    (gains' : r.Gains l' l'' second) : r.Gains l l'' (first ++ second) :=
  ⟨gains'.1, by rw [gains'.2, gains.2, List.append_assoc]⟩

end Record

end Link

/-! ## What is sent -/

namespace Transmitter

open Link (Record)

variable {L : Type} [Link L] {r : Record L} {t : Transmitter L}

theorem run_write_gains (accepts : r.Accepts t.link) (byte : UInt8) :
    ∃ link, t.run (write byte) = (.ok (), { t with link }) ∧ r.Gains t.link link [byte] := by
  obtain ⟨link, written, gains⟩ := r.write accepts byte
  exact ⟨link, by rw [run_write, written], gains⟩

theorem run_sendCommand_gains (accepts : r.Accepts t.link) {c : Command} (fits : c.Fits) :
    ∃ t', t.run (sendCommand c) = (.ok (), t') ∧ r.Gains t.link t'.link c.bytes := by
  rw [run_sendCommand_of_fits t fits, run_send, run_seq]
  obtain ⟨link, first, gains⟩ :=
    run_write_gains (t := { t with frame := c.frame }) accepts c.frame.first
  rw [first]
  obtain ⟨link', second, gains'⟩ :=
    run_write_gains (t := { link, frame := c.frame }) gains.1 c.frame.second
  exact ⟨_, second, gains.trans gains'⟩

theorem run_sendFrom_gains (accepts : r.Accepts t.link) (slot : Nat) (raws : List Setpoint) :
    r.Gains t.link (t.run (sendFrom slot raws)).2.link
      ((commandsFrom slot raws).flatMap Command.bytes) := by
  induction raws generalizing slot t with
  | nil => exact .none accepts
  | cons raw raws ih =>
      rw [run_sendFrom_cons, commandsFrom_cons]
      by_cases fits : (Command.forSlot slot raw).Fits
      · obtain ⟨t', sent, gains⟩ := run_sendCommand_gains accepts fits
        rw [if_pos fits, sent]
        exact gains.trans (ih gains.1 (slot + 1))
      · obtain ⟨misfit, frame, refused⟩ := run_sendCommand_of_not_fits t fits
        rw [if_neg fits, refused]
        exact .none accepts

theorem run_sendStep_gains (accepts : r.Accepts t.link) (step : Step) :
    r.Gains t.link (t.run (sendStep step)).2.link step.bytes :=
  run_sendFrom_gains accepts 0 step.positions.toList

end Transmitter

namespace Session

open Link (Record)

variable {L : Type} [Link L] {r : Record L} {σ σ' : Session L} {op : Operation}
  {outcome : Outcome}

theorem gains_tick (accepts : r.Accepts σ.link) :
    r.Gains σ.link (σ.perform .tick).2.link
      ((σ.perform .tick).1.firing?.toList.flatMap Firing.bytes) := by
  have idle : r.Gains σ.link (Link.read σ.link).2 [] :=
    ⟨(r.read accepts).1, by rw [(r.read accepts).2, List.append_nil]⟩
  dsimp only [perform]
  rcases Walker.tick_cases σ.walker σ.clock.now with
    ⟨-, eq⟩ | ⟨p, -, ⟨-, eq⟩ | ⟨-, step, -, eq⟩ | ⟨-, -, eq⟩⟩
  · rw [eq]
    exact idle
  · rw [eq]
    exact idle
  · have sent := Transmitter.run_sendStep_gains (t := σ.walker.takeReply.transmitter) idle.1 step
    have fires := Walker.firing?_playStatus
      (σ.walker.takeReply.transmitter.run (Transmitter.sendStep step)).1 step
    rw [eq]
    dsimp only [Walker.played]
    rw [fires, Option.toList_some, List.flatMap_singleton]
    exact idle.trans sent
  · rw [eq]
    exact idle

/-- An operation adds to the record what it fires, unless it sends a step by itself. -/
theorem Performs.gains (performs : Performs σ op outcome σ') (accepts : r.Accepts σ.link)
    (unsent : ∀ step, op ≠ .sendStep step) :
    r.Gains σ.link σ'.link (outcome.firing?.toList.flatMap Firing.bytes) := by
  cases performs with
  | ticks => exact gains_tick accepts
  | sends step => exact (unsent step rfl).elim
  | steps =>
      obtain ⟨run, next, -⟩ := Walker.nextStep_eq σ.walker σ.clock.now
      rw [next]
      exact .none accepts
  | _ => exact .none accepts

theorem after_gains (accepts : r.Accepts σ.link) (ops : List Operation)
    (unsent : ∀ step, .sendStep step ∉ ops) :
    r.Gains σ.link (σ.after ops).link ((firings (σ.history ops)).flatMap Firing.bytes) := by
  induction ops generalizing σ with
  | nil => exact .none accepts
  | cons op ops ih =>
      have here : ∀ step, op ≠ .sendStep step := fun step same =>
        unsent step (same ▸ List.mem_cons_self)
      have gains := (σ.performs op).gains accepts here
      have gains' := ih gains.1 fun step later => unsent step (List.mem_cons_of_mem _ later)
      rw [history, firings_cons, List.flatMap_append]
      exact gains.trans gains'

end Session

end Gait

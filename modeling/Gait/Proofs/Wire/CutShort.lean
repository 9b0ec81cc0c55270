import Gait.Proofs.Wire.Accepting
import Mathlib.Data.ENat.Lattice

/-!
# Steps that are cut short

Two things can cut a step short on its way: a setpoint that does not fit into a frame, and a link
that refuses a byte.  `Step.frames` are the bytes that the step has for all servos, whether or not
they fit, and `Step.misfit` is the first servo whose setpoint does not fit.  `Link.Lasts` says how
many bytes a link accepts before it refuses one.

`Transmitter.run_sendFrom` reduces sending to `Link.writeOut`, which writes bytes until one is
refused; the main statement says from these numbers alone which bytes are written and which of the
two causes is reported.
-/

namespace Gait

/-! ## The bytes for all servos -/

/-- Whether a setpoint fits into a frame. -/
def Setpoint.Fits (raw : Setpoint) : Prop := 0 ≤ raw.toInt ∧ raw.toInt ≤ 255

instance (raw : Setpoint) : Decidable raw.Fits := inferInstanceAs (Decidable (_ ∧ _))

/-- The frame for the servo in a slot: in the first byte the opening bit, the board, the servo on it
and the top bit of the value, and in the second the other bits of the value. -/
def slotFrame (slot : Nat) (raw : Setpoint) : List UInt8 :=
  let value := raw.toInt.toNat.toUInt8
  let board := (slot / 4 + 1).toUInt8
  let servo := (slot % 4).toUInt8
  [(0x80 : UInt8) ||| board <<< 5 ||| servo <<< 3 ||| value >>> 7, value &&& 0x7f]

/-- The frames for setpoints of the servos from `slot` on. -/
def framesFrom (slot : Nat) (raws : List Setpoint) : List UInt8 :=
  (raws.mapIdx fun i raw => slotFrame (slot + i) raw).flatten

/-- The number of setpoints before the first that does not fit. -/
def fitting (raws : List Setpoint) : Nat := raws.findIdx fun raw => !decide raw.Fits

namespace Step

/-- The frames for all servos. -/
def frames (s : Step) : List UInt8 := (s.positions.toList.mapIdx slotFrame).flatten

/-- The first servo whose setpoint does not fit, or the number of servos. -/
def misfit (s : Step) : Nat := fitting s.positions.toList

end Step

section Frames

variable {slot : Nat} {raw : Setpoint} {raws : List Setpoint}

theorem framesFrom_cons : framesFrom slot (raw :: raws) =
    slotFrame slot raw ++ framesFrom (slot + 1) raws := by
  have shift : (fun i => slotFrame (slot + (i + 1))) = fun i => slotFrame (slot + 1 + i) := by
    funext i
    rw [Nat.add_right_comm]
    rfl
  rw [framesFrom, List.mapIdx_cons, shift]
  rfl

theorem fitting_cons :
    fitting (raw :: raws) = if raw.Fits then fitting raws + 1 else 0 := by
  rw [fitting, List.findIdx_cons]
  by_cases fits : raw.Fits
  · simp [fits, fitting]
  · simp [fits]

theorem fitting_le (raws : List Setpoint) : fitting raws ≤ raws.length := List.findIdx_le_length

theorem length_framesFrom (slot : Nat) (raws : List Setpoint) :
    (framesFrom slot raws).length = 2 * raws.length := by
  induction raws generalizing slot with
  | nil => rfl
  | cons raw raws ih =>
      rw [framesFrom_cons, List.length_append, ih, List.length_cons, slotFrame]
      simp only [List.length_cons, List.length_nil]
      omega

theorem Step.frames_eq (s : Step) : s.frames = framesFrom 0 s.positions.toList := by
  simp [frames, framesFrom]

theorem Step.length_frames (s : Step) : s.frames.length = 24 := by
  rw [frames_eq, length_framesFrom, Vector.length_toList, servoCount]

theorem Step.misfit_le (s : Step) : s.misfit ≤ servoCount := by
  have bounded := fitting_le s.positions.toList
  rwa [Vector.length_toList] at bounded

namespace Command

theorem bytes_forSlot : (forSlot slot raw).bytes = slotFrame slot raw := by
  have board : (((slot / 4 + 1 : Nat) : Int)).toNat = slot / 4 + 1 := Int.toNat_natCast _
  have servo : ((slot % 4 : Nat) : Int).toNat = slot % 4 := Int.toNat_natCast _
  simp only [bytes, frame, forSlot, slotFrame, Frame.start, Frame.merge, board, servo]
  simp

/-- The address and the mode of a command for a servo always fit. -/
theorem address_forSlot (raw : Setpoint) (inside : slot < servoCount) :
    (0 ≤ (forSlot slot raw).pic ∧ (forSlot slot raw).pic ≤ Field.pic.largest) ∧
      (0 ≤ (forSlot slot raw).servo ∧ (forSlot slot raw).servo ≤ Field.servo.largest) ∧
        (0 ≤ (forSlot slot raw).mode ∧ (forSlot slot raw).mode ≤ Field.mode.largest) := by
  have board : slot / 4 < 3 := Nat.div_lt_of_lt_mul inside
  simp only [forSlot, Field.largest]
  omega

theorem fits_forSlot_iff (inside : slot < servoCount) : (forSlot slot raw).Fits ↔ raw.Fits := by
  obtain ⟨pic, servo, mode⟩ := address_forSlot raw inside
  exact ⟨fun fits => fits.2.2.2, fun value => ⟨pic, servo, mode, value⟩⟩

end Command

end Frames

/-! ## Writing until a byte is refused -/

namespace Link

variable {L : Type} [Link L]

/-- Write bytes until one is refused. -/
def writeOut (l : L) : List UInt8 → Except LinkError Unit × L
  | [] => (.ok (), l)
  | byte :: bytes =>
    match Link.write l byte with
    | (.ok (), l) => writeOut l bytes
    | (.error e, l) => (.error e, l)

theorem writeOut_append (l : L) (bytes later : List UInt8) :
    writeOut l (bytes ++ later) =
      match writeOut l bytes with
      | (.ok (), l) => writeOut l later
      | (.error e, l) => (.error e, l) := by
  induction bytes generalizing l with
  | nil => rfl
  | cons byte bytes ih =>
      rw [List.cons_append, writeOut, writeOut]
      rcases Link.write l byte with ⟨e | ⟨⟨⟩⟩, l'⟩
      · rfl
      · exact ih l'

/-- Of the bytes that are written next, the link accepts the first `j` and refuses the one behind
them with an error, if there are so many. -/
inductive Lasts (e : LinkError) : L → List UInt8 → ℕ∞ → Prop
  | none (l : L) (j : ℕ∞) : Lasts e l [] j
  | refuses {l : L} {byte : UInt8} {bytes : List UInt8}
    (refused : (Link.write l byte).1 = .error e) : Lasts e l (byte :: bytes) 0
  | accepts {l : L} {byte : UInt8} {bytes : List UInt8} {j : ℕ∞}
    (accepted : (Link.write l byte).1 = .ok ()) (later : Lasts e (Link.write l byte).2 bytes j) :
    Lasts e l (byte :: bytes) (j + 1)

theorem write_of_ok {l : L} {byte : UInt8} (accepted : (Link.write l byte).1 = .ok ()) :
    Link.write l byte = (.ok (), (Link.write l byte).2) := by
  rw [← accepted]

theorem write_of_error {l : L} {byte : UInt8} {e : LinkError}
    (refused : (Link.write l byte).1 = .error e) :
    Link.write l byte = (.error e, (Link.write l byte).2) := by
  rw [← refused]

/-- Bytes are written out just if the link lasts so long. -/
theorem Lasts.writeOut {e : LinkError} {l : L} {bytes : List UInt8} {j : ℕ∞}
    (lasts : Lasts e l bytes j) {n : Nat} (within : n ≤ bytes.length) :
    (n ≤ j → (Link.writeOut l (bytes.take n)).1 = .ok ()) ∧
      (j < n → (Link.writeOut l (bytes.take n)).1 = .error e) := by
  induction lasts generalizing n with
  | none l j =>
      obtain rfl : n = 0 := Nat.le_zero.1 within
      exact ⟨fun _ => rfl, fun short => absurd short (by simp)⟩
  | refuses refused =>
      cases n with
      | zero => exact ⟨fun _ => rfl, fun short => absurd short (by simp)⟩
      | succ n =>
          rw [List.take_succ_cons, Link.writeOut, write_of_error refused]
          refine ⟨fun enough => ?_, fun _ => rfl⟩
          simp at enough
  | accepts accepted later ih =>
      cases n with
      | zero => exact ⟨fun _ => rfl, fun short => absurd short (by simp)⟩
      | succ n =>
          rw [List.take_succ_cons, Link.writeOut, write_of_ok accepted]
          obtain ⟨enough, short⟩ := ih (Nat.le_of_succ_le_succ within)
          rw [Nat.cast_succ, ENat.add_le_add_iff_right ENat.one_ne_top,
            ENat.add_lt_add_iff_right ENat.one_ne_top]
          exact ⟨enough, short⟩

theorem toNat_min_succ (n : Nat) (j : ℕ∞) :
    (min ((n + 1 : Nat) : ℕ∞) (j + 1)).toNat = (min (n : ℕ∞) j).toNat + 1 := by
  have finite : min (n : ℕ∞) j ≠ ⊤ := ne_top_of_le_ne_top (ENat.natCast_ne_top n) (min_le_left _ _)
  rw [Nat.cast_succ, min_add_add_right, ENat.toNat_add finite ENat.one_ne_top]
  rfl

/-- What the link accepts of these bytes is the part for which it lasts. -/
theorem Lasts.accepted {e : LinkError} {l : Logged L} {bytes : List UInt8} {j : ℕ∞}
    (lasts : Lasts e l bytes j) (n : Nat) :
    Gait.accepted (Link.writeOut l (bytes.take n)).2.writes =
      Gait.accepted l.writes ++ bytes.take (min (n : ℕ∞) j).toNat := by
  induction lasts generalizing n with
  | none l j => simp [Link.writeOut]
  | @refuses l byte bytes refused =>
      cases n with
      | zero => simp [Link.writeOut]
      | succ n =>
          have gained : (Link.write l byte).2.writes = l.writes ++ [(byte, false)] := by
            rw [Logged.write_eq] at refused ⊢
            dsimp only at refused ⊢
            rw [refused]
            rfl
          rw [List.take_succ_cons, Link.writeOut, write_of_error refused]
          simp [gained, Gait.accepted]
  | @accepts l byte bytes j accepts later ih =>
      cases n with
      | zero => simp [Link.writeOut]
      | succ n =>
          have gained : (Link.write l byte).2.writes = l.writes ++ [(byte, true)] := by
            rw [Logged.write_eq] at accepts ⊢
            dsimp only at accepts ⊢
            rw [accepts]
            rfl
          rw [List.take_succ_cons, Link.writeOut, write_of_ok accepts, toNat_min_succ,
            List.take_succ_cons]
          dsimp only
          rw [ih, gained, accepted_append, List.append_assoc]
          rfl

/-- Any link lasts for some of the bytes that are written next. -/
theorem exists_lasts (l : L) (bytes : List UInt8) : ∃ e j, Lasts e l bytes j := by
  induction bytes generalizing l with
  | nil => exact ⟨.closed, 0, .none l 0⟩
  | cons byte bytes ih =>
      rcases written : (Link.write l byte).1 with e | ⟨⟨⟩⟩
      · exact ⟨e, 0, .refuses written⟩
      · obtain ⟨e, j, later⟩ := ih (Link.write l byte).2
        exact ⟨e, j + 1, .accepts written later⟩

end Link

/-! ## Sending a step -/

/-- What the first setpoint that does not fit is answered by. -/
def refusal (raws : List Setpoint) : Except SendError Unit :=
  match raws[fitting raws]? with
  | some raw => .error (.range ⟨.value, raw.toInt⟩)
  | none => .ok ()

theorem refusal_cons (raw : Setpoint) (raws : List Setpoint) :
    refusal (raw :: raws) =
      if raw.Fits then refusal raws else .error (.range ⟨.value, raw.toInt⟩) := by
  rw [refusal, fitting_cons]
  by_cases fits : raw.Fits
  · rw [if_pos fits, if_pos fits]
    rfl
  · rw [if_neg fits, if_neg fits]
    rfl

theorem refusal_of_misfit {step : Step} (misfits : step.misfit < servoCount) :
    refusal step.positions.toList =
      .error (.range ⟨.value, (step.positions[step.misfit]).toInt⟩) := by
  have raw : step.positions.toList[fitting step.positions.toList]? =
      some step.positions[step.misfit] := by
    rw [Vector.getElem?_toList]
    exact Vector.getElem?_eq_getElem misfits
  rw [refusal, raw]

theorem refusal_of_fits {step : Step} (fits : step.misfit = servoCount) :
    refusal step.positions.toList = .ok () := by
  have none : step.positions.toList[fitting step.positions.toList]? = none := by
    rw [Vector.getElem?_toList]
    exact Vector.getElem?_eq_none (Nat.le_of_eq fits.symm)
  rw [refusal, none]

namespace Transmitter

open Link (writeOut Lasts Logged)

variable {L : Type}

/-- What is left when bytes were written out: a link error, or what `next` says. -/
def settle (frame : Frame) (next : Except SendError Unit) :
    Except LinkError Unit × L → Except SendError Unit × Transmitter L
  | (.ok (), link) => (next, ⟨link, frame⟩)
  | (.error e, link) => (.error (.link e), ⟨link, frame⟩)

theorem settle_spec (frame : Frame) (next : Except SendError Unit)
    (written : Except LinkError Unit × L) :
    (settle frame next written).2 = ⟨written.2, frame⟩ ∧
      (written.1 = .ok () → (settle frame next written).1 = next) ∧
        ∀ e, written.1 = .error e → (settle frame next written).1 = .error (.link e) := by
  rcases written with ⟨e | ⟨⟨⟩⟩, link⟩
  · exact ⟨rfl, nofun, fun e' same => by cases same; rfl⟩
  · exact ⟨rfl, fun _ => rfl, nofun⟩

variable [Link L]

theorem run_sendCommand_settle (t : Transmitter L) {c : Command} (fits : c.Fits) :
    t.run (sendCommand c) = settle c.frame (.ok ()) (writeOut t.link c.bytes) := by
  rw [run_sendCommand_of_fits t fits, run_send, run_seq, run_write, Command.bytes, writeOut]
  dsimp only
  rcases Link.write t.link c.frame.first with ⟨e | ⟨⟨⟩⟩, link⟩
  · rfl
  · dsimp only
    rw [run_write, writeOut]
    rcases Link.write link c.frame.second with ⟨e | ⟨⟨⟩⟩, link'⟩
    · rfl
    · rfl

theorem run_sendCommand_forSlot_of_not_fits (t : Transmitter L) {slot : Nat} {raw : Setpoint}
    (inside : slot < servoCount) (misfits : ¬raw.Fits) :
    ∃ frame, t.run (sendCommand (.forSlot slot raw)) =
      (.error (.range ⟨.value, raw.toInt⟩), { t with frame }) := by
  obtain ⟨pic, servo, mode⟩ := Command.address_forSlot raw inside
  have value : ¬(0 ≤ (Command.forSlot slot raw).value ∧
      (Command.forSlot slot raw).value ≤ Field.value.largest) := misfits
  rw [run_sendCommand, run_put_seq, if_pos pic, run_put_seq, if_pos servo, run_put_seq,
    if_pos mode, run_put_seq, if_neg value]
  exact ⟨_, rfl⟩

/-- Sending writes out the frames up to the first setpoint that does not fit, and is refused there
unless the link was the first to refuse. -/
theorem run_sendFrom (t : Transmitter L) {slot : Nat} {raws : List Setpoint}
    (inside : slot + raws.length ≤ servoCount) :
    ∃ frame, t.run (sendFrom slot raws) =
      settle frame (refusal raws)
        (writeOut t.link ((framesFrom slot raws).take (2 * fitting raws))) := by
  induction raws generalizing slot t with
  | nil => exact ⟨t.frame, rfl⟩
  | cons raw raws ih =>
      rw [List.length_cons] at inside
      have here : slot < servoCount := by omega
      have later : slot + 1 + raws.length ≤ servoCount := by omega
      rw [run_sendFrom_cons, refusal_cons, fitting_cons, framesFrom_cons]
      by_cases fits : raw.Fits
      · have whole : (slotFrame slot raw ++ framesFrom (slot + 1) raws).take
            (2 * (fitting raws + 1)) =
            slotFrame slot raw ++ (framesFrom (slot + 1) raws).take (2 * fitting raws) := rfl
        rw [if_pos fits, if_pos fits, whole, Link.writeOut_append,
          run_sendCommand_settle t ((Command.fits_forSlot_iff here).2 fits),
          Command.bytes_forSlot]
        rcases writeOut t.link (slotFrame slot raw) with ⟨e | ⟨⟨⟩⟩, link⟩
        · exact ⟨_, rfl⟩
        · exact ih ⟨link, (Command.forSlot slot raw).frame⟩ later
      · obtain ⟨frame, refused⟩ := t.run_sendCommand_forSlot_of_not_fits here fits
        rw [if_neg fits, if_neg fits, refused]
        exact ⟨frame, rfl⟩

theorem run_sendStep (t : Transmitter L) (step : Step) :
    ∃ frame, t.run (sendStep step) =
      settle frame (refusal step.positions.toList)
        (writeOut t.link (step.frames.take (2 * step.misfit))) := by
  rw [Step.frames_eq]
  exact t.run_sendFrom (by rw [Vector.length_toList, Nat.zero_add])

section Lasting

variable {t : Transmitter (Logged L)} {step : Step} {e : LinkError} {j : ℕ∞}

/-- The link gets the frames of the step up to the first servo whose setpoint does not fit, as far
as it lasts. -/
theorem accepted_sendStep (lasts : Lasts e t.link step.frames j) :
    accepted (t.run (sendStep step)).2.link.writes =
      accepted t.link.writes ++ step.frames.take (min ((2 * step.misfit : Nat) : ℕ∞) j).toNat := by
  obtain ⟨frame, sent⟩ := t.run_sendStep step
  rw [sent, (settle_spec ..).1]
  exact lasts.accepted (2 * step.misfit)

/-- A link that lasts up to the first setpoint that does not fit leaves the answer to it; any other
link error comes before. -/
theorem result_sendStep (lasts : Lasts e t.link step.frames j) :
    (((2 * step.misfit : Nat) : ℕ∞) ≤ j →
      (t.run (sendStep step)).1 = refusal step.positions.toList) ∧
      (j < ((2 * step.misfit : Nat) : ℕ∞) → (t.run (sendStep step)).1 = .error (.link e)) := by
  have within : 2 * step.misfit ≤ step.frames.length := by
    have bounded := step.misfit_le
    rw [step.length_frames]
    rw [servoCount] at bounded
    omega
  obtain ⟨enough, short⟩ := lasts.writeOut within
  obtain ⟨frame, sent⟩ := t.run_sendStep step
  obtain ⟨-, ok, error⟩ :=
    settle_spec frame (refusal step.positions.toList)
      (writeOut t.link (step.frames.take (2 * step.misfit)))
  rw [sent]
  exact ⟨fun lasting => ok (enough lasting), fun gone => error e (short gone)⟩

theorem sendStep_eq_ok_iff (lasts : Lasts e t.link step.frames j) :
    (t.run (sendStep step)).1 = .ok () ↔ step.misfit = servoCount ∧ 24 ≤ j := by
  obtain ⟨lasting, short⟩ := result_sendStep lasts
  have whole (fits : step.misfit = servoCount) : ((2 * step.misfit : Nat) : ℕ∞) = 24 := by
    rw [fits]
    rfl
  refine ⟨fun sent => ?_, fun ⟨fits, enough⟩ => ?_⟩
  · rcases lt_or_ge j ((2 * step.misfit : Nat) : ℕ∞) with early | enough
    · rw [short early] at sent
      cases sent
    · rcases Nat.lt_or_eq_of_le step.misfit_le with misfits | fits
      · rw [lasting enough, refusal_of_misfit misfits] at sent
        cases sent
      · exact ⟨fits, whole fits ▸ enough⟩
  · rw [lasting ((whole fits).le.trans enough), refusal_of_fits fits]

end Lasting

/-- A step is sent just if the link got the frames of all servos. -/
theorem exists_accepted_sendStep (t : Transmitter (Logged L)) (step : Step) :
    ∃ bytes, accepted (t.run (sendStep step)).2.link.writes = accepted t.link.writes ++ bytes ∧
      ((t.run (sendStep step)).1 = .ok () ↔ bytes = step.frames) := by
  obtain ⟨e, j, lasts⟩ := Link.exists_lasts t.link step.frames
  refine ⟨_, accepted_sendStep lasts, (sendStep_eq_ok_iff lasts).trans ?_⟩
  have finite : min ((2 * step.misfit : Nat) : ℕ∞) j ≠ ⊤ :=
    ne_top_of_le_ne_top (ENat.natCast_ne_top _) (min_le_left _ _)
  have bounded := step.misfit_le
  rw [servoCount] at bounded
  rw [List.take_eq_self_iff, step.length_frames, ← Nat.cast_le (α := ℕ∞), ENat.natCast_toNat finite,
    le_min_iff, Nat.cast_le, servoCount]
  exact and_congr_left fun _ => by omega

end Transmitter

/-- One step on its way, over any link.  Let the link accept the first `j` of the step's frames and
refuse the byte behind them with the error `e`, and let `k` be the first servo whose setpoint does
not fit.  The link gets the frames of the servos before `k`, as far as it lasts, and nothing else.
The step is sent if all setpoints fit and the link lasts for all of them; what is reported otherwise
is the setpoint of servo `k` if the link lasts up to there, and the link error if it does not.
Nothing of the walker is changed but its transmitter. -/
theorem Walker.sendStep_cut_short {L : Type} [Link L] {w : Walker (Link.Logged L)} {step : Step}
    {e : LinkError} {j : ℕ∞} (lasts : Link.Lasts e w.transmitter.link step.frames j) :
    let k := step.misfit
    let after := (w.sendStep step).2
    let reported := (w.sendStep step).1.mapError SendError.problem
    accepted after.transmitter.link.writes =
        accepted w.transmitter.link.writes ++
          step.frames.take (min ((2 * k : Nat) : ℕ∞) j).toNat ∧
      (reported = .ok () ↔ k = servoCount ∧ 24 ≤ j) ∧
      (∀ misfits : k < servoCount, ((2 * k : Nat) : ℕ∞) ≤ j →
        reported = .error (.range "value" step.positions[k].toInt)) ∧
      (j < ((2 * k : Nat) : ℕ∞) → reported = .error e.problem) ∧
      ∃ transmitter, after = { w with transmitter } := by
  intro k after reported
  obtain ⟨lasting, short⟩ := Transmitter.result_sendStep lasts
  refine ⟨Transmitter.accepted_sendStep lasts, ?_, fun misfits enough => ?_, fun early => ?_,
    (w.sendStep step).2.transmitter, rfl⟩
  · rw [← Transmitter.sendStep_eq_ok_iff lasts]
    change (w.transmitter.run (Transmitter.sendStep step)).1.mapError _ = _ ↔ _
    cases (w.transmitter.run (Transmitter.sendStep step)).1 with
    | error e => exact iff_of_false nofun nofun
    | ok => exact iff_of_true rfl rfl
  · have range := (lasting enough).trans (refusal_of_misfit misfits)
    exact congrArg (Except.mapError SendError.problem) range
  · exact congrArg (Except.mapError SendError.problem) (short early)

/-- A link that accepts some bytes and is closed then. -/
structure Link.Limited where
  left : Nat

instance : Link Link.Limited where
  write l _ := if l.left = 0 then (.error .closed, l) else (.ok (), ⟨l.left - 1⟩)
  read l := (.ok none, l)

theorem Link.Limited.lasts (left : Nat) (log : List (UInt8 × Bool)) (bytes : List UInt8) :
    Lasts .closed (⟨⟨left⟩, log⟩ : Logged Limited) bytes left := by
  induction bytes generalizing left log with
  | nil => exact .none _ _
  | cons byte bytes ih =>
      cases left with
      | zero => exact .refuses rfl
      | succ left =>
          have later : Lasts .closed (Link.write (⟨⟨left + 1⟩, log⟩ : Logged Limited) byte).2 bytes
              left := ih left (log ++ [(byte, true)])
          exact .accepts rfl later

theorem Walker.sendStep_cut_short_in_frame :
    let step : Step := ⟨#v[35, 157, 128, 300, 35, 35, 35, 35, 35, 35, 35, -1], 0⟩
    let limited (left : Nat) : Walker (Link.Logged Link.Limited) :=
      { transmitter := ⟨⟨⟨left⟩, []⟩, .blank⟩ }
    step.misfit = 3 ∧
      accepted ((limited 5).sendStep step).2.transmitter.link.writes =
        [0xa0, 0x23, 0xa9, 0x1d, 0xb1] ∧
      ((limited 5).sendStep step).1.mapError SendError.problem = .error (.link "link closed") ∧
      accepted ((limited 6).sendStep step).2.transmitter.link.writes =
        [0xa0, 0x23, 0xa9, 0x1d, 0xb1, 0x00] ∧
      ((limited 6).sendStep step).1.mapError SendError.problem = .error (.range "value" 300) := by
  intro step limited
  have misfit : step.misfit = 3 := by decide
  have lasts (left : Nat) :
      Link.Lasts .closed (limited left).transmitter.link step.frames left :=
    Link.Limited.lasts left [] step.frames
  obtain ⟨early, -, -, closed, -⟩ := sendStep_cut_short (lasts 5)
  obtain ⟨late, -, refused, -⟩ := sendStep_cut_short (lasts 6)
  rw [misfit] at early closed late refused
  refine ⟨misfit, early, closed ?_, late, refused ?_ ?_⟩
  · decide
  · decide
  · decide

end Gait

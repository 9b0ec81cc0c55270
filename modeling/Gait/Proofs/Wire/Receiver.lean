import Gait.Transmitter

/-!
# Receiving frames

The other end of the link.  A `Receiver` reads a stream of bytes: a byte with its top bit set opens
a frame, whatever was open before, and a byte without closes the open frame, if there is one.
`received_frame` says that it gets every command back that is sent as a whole, whatever it was left
with before, and `received_first` that half a frame gives it nothing.
-/

namespace Gait

/-- A position for a servo, as the boards understand it. -/
structure Command where
  pic : Int
  servo : Int
  mode : Int
  value : Int
  deriving DecidableEq, Repr

namespace Command

/-- The command that two bytes stand for. -/
def ofBytes (first second : UInt8) : Command where
  pic := (first >>> 5 &&& 3).toNat
  servo := (first >>> 3 &&& 3).toNat
  mode := (first >>> 1 &&& 3).toNat
  value := (first <<< 7 ||| second).toNat

/-- Every field of a command is in its domain. -/
def Fits (c : Command) : Prop :=
  (0 ≤ c.pic ∧ c.pic ≤ Field.pic.largest) ∧ (0 ≤ c.servo ∧ c.servo ≤ Field.servo.largest) ∧
    (0 ≤ c.mode ∧ c.mode ≤ Field.mode.largest) ∧ (0 ≤ c.value ∧ c.value ≤ Field.value.largest)

instance (c : Command) : Decidable c.Fits := inferInstanceAs (Decidable (_ ∧ _ ∧ _ ∧ _))

/-- The frame of a command that fits. -/
def frame (c : Command) : Frame :=
  (((Frame.start.merge c.pic.toNat.toUInt8 .pic).merge c.servo.toNat.toUInt8 .servo).merge
    c.mode.toNat.toUInt8 .mode).merge c.value.toNat.toUInt8 .value

end Command

/-- Whether a byte opens a frame. -/
def opensFrame (byte : UInt8) : Bool := 0x80 ≤ byte

/-- The first byte of an open frame, and the commands so far. -/
structure Receiver where
  pending : Option UInt8 := none
  received : List Command := []
  deriving DecidableEq, Repr

namespace Receiver

/-- Take in a byte: one that opens a frame waits for its partner, and any other byte without a
waiting one is passed over. -/
def take (r : Receiver) (byte : UInt8) : Receiver :=
  if opensFrame byte then { r with pending := some byte }
  else
    match r.pending with
    | some first => ⟨none, r.received ++ [.ofBytes first byte]⟩
    | none => r

end Receiver

/-- The commands in a stream of bytes. -/
def decode (bytes : List UInt8) : List Command := (bytes.foldl Receiver.take {}).received

/-! ## Frames of commands -/

namespace Command

/-- The first byte keeps the small fields and the top bit of the value apart. -/
theorem first_fields : ∀ pic servo mode : Fin 4, ∀ high : Fin 2,
    let first := (0x80 : UInt8) ||| pic.val.toUInt8 <<< 5 ||| servo.val.toUInt8 <<< 3 |||
      mode.val.toUInt8 <<< 1 ||| high.val.toUInt8
    opensFrame first = true ∧ (first >>> 5 &&& 3).toNat = pic ∧ (first >>> 3 &&& 3).toNat = servo ∧
      (first >>> 1 &&& 3).toNat = mode ∧ first <<< 7 = high.val.toUInt8 <<< 7 := by
  decide +kernel

/-- The value is split at its top bit. -/
theorem value_halves : ∀ value : Fin 256,
    let bits := value.val.toUInt8
    (bits >>> 7).toNat < 2 ∧ opensFrame (0 ||| bits &&& 0x7f) = false ∧
      (bits >>> 7 <<< 7 ||| (0 ||| bits &&& 0x7f)).toNat = value := by
  decide +kernel

/-- The first byte of a frame opens it, the second does not, and the command can be read off
them. -/
theorem frame_spec {c : Command} (fits : c.Fits) :
    opensFrame c.frame.first = true ∧ opensFrame c.frame.second = false ∧
      ofBytes c.frame.first c.frame.second = c := by
  obtain ⟨pic, servo, mode, value⟩ := c
  obtain ⟨⟨picLow, picHigh⟩, ⟨servoLow, servoHigh⟩, ⟨modeLow, modeHigh⟩, valueLow, valueHigh⟩ :=
    fits
  obtain ⟨pic, rfl⟩ := Int.eq_ofNat_of_zero_le picLow
  obtain ⟨servo, rfl⟩ := Int.eq_ofNat_of_zero_le servoLow
  obtain ⟨mode, rfl⟩ := Int.eq_ofNat_of_zero_le modeLow
  obtain ⟨value, rfl⟩ := Int.eq_ofNat_of_zero_le valueLow
  simp only [Field.largest] at picHigh servoHigh modeHigh valueHigh
  obtain ⟨high, closes, halves⟩ := value_halves ⟨value, by omega⟩
  obtain ⟨opens, picRead, servoRead, modeRead, valueRead⟩ :=
    first_fields ⟨pic, by omega⟩ ⟨servo, by omega⟩ ⟨mode, by omega⟩ ⟨_, high⟩
  have top : (value.toUInt8 >>> 7).toNat.toUInt8 = value.toUInt8 >>> 7 := UInt8.ofNat_toNat
  simp only [top] at opens picRead servoRead modeRead valueRead
  refine ⟨opens, closes, ?_⟩
  simp only [frame, Frame.start, Frame.merge, ofBytes, Int.toNat_natCast]
  rw [picRead, servoRead, modeRead, valueRead, halves]

end Command

namespace Receiver

variable {c : Command}

/-- Half a frame gives the receiver nothing. -/
theorem received_first (r : Receiver) (fits : c.Fits) :
    (r.take c.frame.first).received = r.received := by
  rw [take, if_pos (Command.frame_spec fits).1]

/-- A whole frame gives the receiver its command, whatever was open before. -/
theorem received_frame (r : Receiver) (fits : c.Fits) :
    ((r.take c.frame.first).take c.frame.second).received = r.received ++ [c] := by
  obtain ⟨opens, closes, read⟩ := Command.frame_spec fits
  have first : r.take c.frame.first = { r with pending := some c.frame.first } := by
    rw [take, if_pos opens]
  have second : ¬opensFrame c.frame.second = true := by
    rw [closes]
    nofun
  rw [first, take, if_neg second]
  dsimp only
  rw [read]

end Receiver

end Gait

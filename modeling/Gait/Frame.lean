import Gait.Report

/-!
# Frames

A command to a servo is a frame of two bytes:

```text
first:   1   board  board  servo  servo  mode  mode  value bit 7
second:  0   value bits 6 to 0
```

Fields are merged into a frame one at a time, so a frame starts from `Frame.start`.  A field outside
its domain is refused and leaves the frame as it was.
-/

namespace Gait

/-- The fields of a command. -/
inductive Field where
  | pic | servo | mode | value
  deriving DecidableEq, Repr

namespace Field

/-- The name of a field in messages. -/
def name : Field → String
  | pic => "pic"
  | servo => "servo"
  | mode => "mode"
  | value => "value"

/-- The largest number that a field takes; the smallest is zero. -/
def largest : Field → Nat
  | value => 255
  | _ => 3

end Field

/-- A number that does not fit its field. -/
structure OutOfRange where
  field : Field
  number : Int
  deriving DecidableEq, Repr

/-- The misfit as a problem. -/
def OutOfRange.problem (e : OutOfRange) : Problem := .range e.field.name e.number

/-- The two bytes of a command, complete or not. -/
structure Frame where
  first : UInt8
  second : UInt8
  deriving DecidableEq, Repr

namespace Frame

/-- No bit set, not even the one that opens a frame. -/
def blank : Frame := ⟨0, 0⟩

/-- A frame without fields: only the bit that opens it is set. -/
def start : Frame := ⟨0x80, 0⟩

/-- Put the bits of a field at its place, by an or with what is there already. -/
def merge (f : Frame) (bits : UInt8) : Field → Frame
  | .pic => { f with first := f.first ||| bits <<< 5 }
  | .servo => { f with first := f.first ||| bits <<< 3 }
  | .mode => { f with first := f.first ||| bits <<< 1 }
  | .value => ⟨f.first ||| bits >>> 7, f.second ||| bits &&& 0x7f⟩

/-- Merge a field that is in its domain. -/
def put (f : Frame) (field : Field) (number : Int) : Except OutOfRange Frame :=
  if 0 ≤ number ∧ number ≤ field.largest then .ok (f.merge number.toNat.toUInt8 field)
  else .error ⟨field, number⟩

/-- A byte as two hexadecimal digits. -/
def byteText (b : UInt8) : String :=
  String.ofList [Nat.digitChar (b.toNat / 16), Nat.digitChar (b.toNat % 16)]

/-- Both bytes of a frame in hexadecimal. -/
def text (f : Frame) : String := s!"[0x{byteText f.first}, 0x{byteText f.second}]"

end Frame

end Gait

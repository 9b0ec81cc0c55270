import Gait.Link

/-!
# Links in memory

Links without a device: one that records and answers from a script until it is disconnected, one
that only records and answers, one that swallows every byte and one that refuses every byte.
-/

namespace Gait.Link

/-- A link that records what is written and answers from a queue, until it is disconnected. -/
structure Simulated where
  written : Array UInt8 := #[]
  replies : List UInt8 := []
  closed : Bool := false

namespace Simulated

/-- Let the boards answer with more bytes. -/
def queue (l : Simulated) (bytes : List UInt8) : Simulated := { l with replies := l.replies ++ bytes }

/-- Forget the bytes written so far. -/
def clear (l : Simulated) : Simulated := { l with written := #[] }

/-- Let every further write fail; replies stay readable. -/
def disconnect (l : Simulated) : Simulated := { l with closed := true }

/-- Bytes in pairs; an odd byte at the end is left out. -/
def pairs : List UInt8 → List (UInt8 × UInt8)
  | a :: b :: rest => (a, b) :: pairs rest
  | _ => []

/-- The bytes written so far, two to a frame. -/
def frames (l : Simulated) : List (UInt8 × UInt8) := pairs l.written.toList

end Simulated

instance : Link Simulated where
  write l byte :=
    if l.closed then (.error .closed, l) else (.ok (), { l with written := l.written.push byte })
  read l := (.ok l.replies.head?, { l with replies := l.replies.tail })

/-- A link that records what is written and answers from a queue. -/
structure Recording where
  written : Array UInt8 := #[]
  replies : List UInt8 := []

instance : Link Recording where
  write l byte := (.ok (), { l with written := l.written.push byte })
  read l := (.ok l.replies.head?, { l with replies := l.replies.tail })

/-- A link that swallows every byte and never answers. -/
structure Null where

instance : Link Null where
  write l _ := (.ok (), l)
  read l := (.ok none, l)

/-- A link that refuses every byte and never answers. -/
structure Failing where

instance : Link Failing where
  write l _ := (.error (.io "link down"), l)
  read l := (.ok none, l)

end Gait.Link

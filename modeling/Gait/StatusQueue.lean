import Gait.Walker.Tick

/-!
# Status queues

Statuses wait in a queue of limited length until they are taken.  `offer` refuses a status when the
queue is full; `push` then discards the oldest one and offers again, so the newest status is always
kept.
-/

namespace Gait

/-- The number of statuses that a queue holds. -/
def queueCapacity : Nat := 64

/-- Statuses waiting to be taken, oldest first. -/
structure StatusQueue where
  waiting : List Status := []
  deriving DecidableEq, Repr

namespace StatusQueue

/-- Append a status, if there is room. -/
def offer? (q : StatusQueue) (s : Status) : Option StatusQueue :=
  if q.waiting.length < queueCapacity then some ⟨q.waiting ++ [s]⟩ else none

/-- Take the oldest status, if there is one. -/
def take (q : StatusQueue) : Option Status × StatusQueue := (q.waiting.head?, ⟨q.waiting.tail⟩)

/-- Append a status, in place of the oldest one if there is no room. -/
def push (q : StatusQueue) (s : Status) : StatusQueue :=
  match q.offer? s with
  | some q => q
  | none =>
    let q := q.take.2
    (q.offer? s).getD q

end StatusQueue

end Gait

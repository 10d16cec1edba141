/-! # The killer's queue

Passes are asked for through a queue of bounded capacity.  A signal asks for a pass without waiting
for its report (`on_pressure_signal`); signals are coalesced: while one is queued, further ones are
dropped.  A signal takes two steps, between which others may act: `claim` raises the flag, and whoever
raised it queues the signal by `offer`, or lowers the flag again if there is no room.
-/

namespace MemoryArbiter

inductive PassRequest
  | signal
  /-- Somebody waits for the report. -/
  | report
  deriving DecidableEq, Repr, Inhabited

structure PassQueue where
  capacity : Nat
  /-- A signal is queued, or about to be. -/
  signalled : Bool := false
  /-- The requests, oldest first. -/
  waiting : List PassRequest := []
  deriving DecidableEq, Repr, Inhabited

namespace PassQueue

/-- An empty queue; its capacity is at least one. -/
def new (capacity : Nat) : PassQueue := { capacity := max capacity 1 }

def isFull (q : PassQueue) : Bool := q.capacity ≤ q.waiting.length

/-- Raise the flag; the answer tells whether it was down before. -/
def claim (q : PassQueue) : PassQueue × Bool :=
  ({ q with signalled := true }, !q.signalled)

/-- Queue the signal that was claimed, or give the claim up. -/
def offer (q : PassQueue) : PassQueue :=
  if q.isFull then { q with signalled := false }
  else { q with waiting := q.waiting ++ [.signal] }

/-- A whole signal, with nothing in between. -/
def signal (q : PassQueue) : PassQueue :=
  if q.claim.2 then q.claim.1.offer else q.claim.1

/-- Ask for a pass with a report; `none` while the queue is full. -/
def request? (q : PassQueue) : Option PassQueue :=
  if q.isFull then none else some { q with waiting := q.waiting ++ [.report] }

def receive? (q : PassQueue) : Option (PassRequest × PassQueue) :=
  match q.waiting with
  | [] => none
  | r :: rest => some (r, { q with waiting := rest })

/-- Before the pass of a signal starts, the flag is lowered. -/
def lower (q : PassQueue) : PassRequest → PassQueue
  | .signal => { q with signalled := false }
  | .report => q

end PassQueue

end MemoryArbiter

import MemoryArbiter.Hierarchy

/-! # Where the killer gets its view

The killer works on a list of bundle rows, taken once per pass, and reports each kill back.  Both
may fail, since the owner of the rows may be gone.
-/

namespace MemoryArbiter

/-- A task that has stopped takes no more requests. -/
inductive ClosedQueue
  | priorities
  | killer
  deriving DecidableEq, Repr, Inhabited

def ClosedQueue.message : ClosedQueue → String
  | priorities => "priority queue is closed"
  | killer => "killer queue is closed"

/-- Whatever can list the live bundles and take note of kills (`PrioritySource`). -/
class Roster (σ : Type) where
  /-- The live bundles, most important first. -/
  rows : σ → Except ClosedQueue (List BundleRow)
  /-- Note that a bundle has been killed; `false` if it is gone already. -/
  mark : σ → Int → Except ClosedQueue Bool × σ

/-- Rows that never change, with one answer to every mark; `rows` is `none` if they cannot be had.
It keeps the uids that were marked, in order. -/
structure FixedRoster where
  rows : Option (List BundleRow)
  answer : Except ClosedQueue Bool := .ok true
  marked : List Int := []

instance : Roster FixedRoster where
  rows s :=
    match s.rows with
    | some rows => .ok rows
    | none => .error .priorities
  mark s uid := (s.answer, { s with marked := s.marked ++ [uid] })

end MemoryArbiter

import MemoryArbiter.TrackedProcess
import MemoryArbiter.Table.Lemmas

/-! # Bundles and accounts

Processes belong to bundles and bundles to accounts.  The records name each other by key only;
each kind of record has one table.  A `BundleRow` (`BundlePriorityInfo`) is what the outside sees of
a bundle.
-/

namespace MemoryArbiter

/-- Where a bundle stands with the killer. -/
inductive BundleState
  | normal
  /-- Its kill has been sent, its end has not been seen. -/
  | waitingForKill
  deriving DecidableEq, Repr, Inhabited

/-- An application: its live processes and the priority of the most important of them. -/
structure Bundle where
  uid : Int
  name : String
  account : Int
  priority : Int
  state : BundleState := .normal
  pinned : Bool
  pids : IdSet := ∅
  deriving DecidableEq

structure Account where
  id : Int
  isCurrent : Bool
  isPrevious : Bool
  shift : Int
  uids : IdSet := ∅
  deriving DecidableEq

/-- What is added to every process level in this account (`offset`); the least integer of 32 bits is
its own negation. -/
def Account.offset (a : Account) : Int := if a.isCurrent then wrapInt32 (-a.shift) else 0

/-- A bundle as it is listed for the killer and for reports. -/
structure BundleRow where
  uid : Int
  name : String
  priority : Int
  account : Int
  state : BundleState
  pinned : Bool
  /-- The live pids, ascending. -/
  pids : List Int
  deriving DecidableEq, Repr, Inhabited

def Bundle.row (b : Bundle) : BundleRow where
  uid := b.uid
  name := b.name
  priority := b.priority
  account := b.account
  state := b.state
  pinned := b.pinned
  pids := b.pids.toList

end MemoryArbiter

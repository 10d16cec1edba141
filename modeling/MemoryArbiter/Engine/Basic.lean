import MemoryArbiter.Event
import MemoryArbiter.Hierarchy
import MemoryArbiter.Index

/-! # The priority engine: state and outcomes

The engine (`ReclaimPriorityEngine`) is a state machine over the hierarchy of processes, bundles and
accounts.  A step never touches the kernel: it returns the changes of the index and the effects that
are left to perform (`Applied`), or why it was refused (`EngineError`).
-/

namespace MemoryArbiter

structure Settings where
  pinned : List String := []
  /-- Taken off every priority of the foreground account. -/
  shift : Int := 50
  shift_fits : FitsInt32 shift := by decide
  clamp : Bool := false
  /-- Milliseconds after which a boost is taken back; 0 means never. -/
  gracePeriod : Nat := 20000
  deriving DecidableEq, Repr, Inhabited

/-- Work that a step leaves to its caller. -/
inductive Effect
  | writeScore (pid : Int) (priority : Int)
  | armTimer (pid : Int) (token : Nat) (delay : Nat)
  | cancelTimer (pid : Int)
  deriving DecidableEq, Repr, Inhabited

/-- A bundle that entered the index, moved in it or left it. -/
structure Change where
  uid : Int
  name : String
  account : Int
  old : Option Int
  /-- `none` if the bundle is gone. -/
  new : Option Int
  deriving DecidableEq, Repr, Inhabited

structure StepReport where
  changes : List Change := []
  effects : List Effect := []
  deriving DecidableEq, Repr, Inhabited

inductive Rejection
  | unknownProcess (pid uid : Int)
  | unknownBundle (uid : Int)
  | pinnedBundle (uid : Int) (name : String)
  | accountUnchanged (account : Int)
  | staleTimer (pid : Int)
  deriving DecidableEq, Repr, Inhabited

def Rejection.message : Rejection → String
  | unknownProcess pid uid => s!"Unknown process: pid {pid} under uid {uid}"
  | unknownBundle uid => s!"Unknown bundle: uid {uid}"
  | pinnedBundle uid name => s!"Bundle {name} (uid {uid}) is pinned at system priority"
  | accountUnchanged account => s!"Account {account} is already the foreground account"
  | staleTimer pid => s!"Stale grace timer for pid {pid}"

structure Engine where
  settings : Settings
  processes : Table Int TrackedProcess := ∅
  bundles : Table Int Bundle := ∅
  accounts : Table Int Account := ∅
  index : Index := {}
  current : Option Int := none
  /-- The foreground account before it. -/
  previous : Option Int := none
  /-- The token of the last boost that was armed.  Tokens are not bounded here; a counter of 64 bits
  would start over after 2 ^ 64 boosts. -/
  lastToken : Nat := 0
  deriving DecidableEq

def Engine.new (settings : Settings) : Engine := { settings := settings }

/-- Result of a step: the engine after it, and what it did or why it was refused. -/
abbrev Engine.Outcome := Engine × Except Rejection StepReport

/-- Every live bundle, most important first (`bundle_priority_snapshot`). -/
def Engine.snapshot (e : Engine) : List BundleRow :=
  e.index.ranks.filterMap fun r => (e.bundles.get? r.uid).map Bundle.row

end MemoryArbiter

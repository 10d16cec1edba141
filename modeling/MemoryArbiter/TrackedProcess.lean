import MemoryArbiter.Reason
import MemoryArbiter.Scale

/-! # Processes

A process carries its lifecycle level, the priority that the level has in its account, the
keep-alive signals asserted for it (`ProcessFlags`), and the boost that waits for its grace timer
(`PendingGrace`), if any.
-/

namespace MemoryArbiter

/-- An extension held by the bundle that bound it. -/
structure Binding where
  caller : Option Int
  /-- The level at which the extension is held while it is bound. -/
  floor : Int
  deriving DecidableEq, Repr, Inhabited

structure Signals where
  backgroundTask : Bool := false
  suspendDelay : Bool := false
  shortEvent : Bool := false
  dataAbility : Bool := false
  foreground : Bool := false
  visible : Bool := false
  distDevice : Bool := false
  binding : Option Binding := none
  deriving DecidableEq, Repr, Inhabited

/-- One of the signals that hold a process at `Level.perceived` is asserted. -/
def Signals.perceived (s : Signals) : Bool := s.backgroundTask || s.shortEvent || s.dataAbility

/-- The level at which an extension is held for a caller at `callerLevel` (`extension_floor`). -/
def bindingFloor : Option Int → Int
  | none => Level.perceived
  | some callerLevel => max callerLevel Level.visible

/-- A boost that waits for its grace timer. -/
structure Boost where
  token : Nat
  reason : Reason
  deriving DecidableEq, Repr, Inhabited

structure TrackedProcess where
  pid : Int
  uid : Int
  /-- The lifecycle level, before the account's offset. -/
  level : Int
  /-- The level with the account's offset. -/
  priority : Int
  signals : Signals := {}
  boost : Option Boost := none
  deriving DecidableEq, Repr, Inhabited

def TrackedProcess.start (pid uid level : Int) : TrackedProcess where
  pid := pid
  uid := uid
  level := level
  priority := level
  signals := { foreground := level == Level.foreground }

end MemoryArbiter

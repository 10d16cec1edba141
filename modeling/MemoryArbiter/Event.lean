import MemoryArbiter.Reason
import MemoryArbiter.Scale

/-! # Lifecycle events

Everything that happens to a process reaches the engine as one `Event` (`ReclaimEvent`).
-/

namespace MemoryArbiter

structure Event where
  /-- The process that the event is about. -/
  pid : Int
  /-- The process that caused it. -/
  callerPid : Option Int := none
  callerUid : Option Int := none
  /-- The uid that owns `pid`. -/
  targetUid : Int
  bundleName : String := ""
  reason : Reason
  deriving DecidableEq, Repr, Inhabited

end MemoryArbiter

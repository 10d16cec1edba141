import MemoryArbiter.Kernel.Basic

/-! # The pressure monitor

A sample of the kernel (`sample`) calls for a pass if free memory is below the top tier, or if tasks
have stalled for long enough (`under_pressure`).  What cannot be read does not count.
-/

namespace MemoryArbiter

structure Monitor where
  /-- The buffer of the top tier. -/
  topKb : Nat
  /-- The share of stalled time that calls for a pass whatever the free memory. -/
  threshold : Binary64
  deriving DecidableEq, Repr, Inhabited

def Monitor.callsForPass (m : Monitor) (bufferKb : Option Nat) (stall : Option Stall) : Bool :=
  bufferKb.any (fun kb => kb < m.topKb) || stall.any fun s => s.someAvg10.atLeast m.threshold

def Monitor.sample {κ : Type} [Kernel κ] (m : Monitor) (kernel : κ) : Bool × κ :=
  let buffer := Kernel.readBuffer kernel
  let stall := Kernel.readStall buffer.2
  (m.callsForPass buffer.1.toOption (stall.toOption.bind id), buffer.2)

end MemoryArbiter

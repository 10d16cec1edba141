import MemoryArbiter.Kernel.Basic
import MemoryArbiter.Scale
import MemoryArbiter.Table.Lemmas

/-! # A simulated kernel

Processes are pids with a resident size (`InMemoryKernel`).  A kill takes the process away and, unless
that is switched off, gives its memory back to the buffer, as it happens on a device.
-/

namespace MemoryArbiter

structure SimulatedKernel where
  /-- Free memory; reads fail while it is `none`. -/
  buffer : Option Nat
  /-- A kill gives memory back. -/
  reclaim : Bool := true
  resident : Table Int Nat := ∅
  scores : Table Int Int := ∅
  /-- The pids killed, in order. -/
  killed : List Int := []
  /-- Live processes among these are not killed. -/
  denied : IdSet := ∅
  stall : Option Stall := none
  deriving DecidableEq

namespace SimulatedKernel

def new (bufferKb : Nat) : SimulatedKernel := { buffer := some bufferKb }

/-! ### What happens outside of the kernel's interface -/

/-- A process starts, or changes its size. -/
def spawn (k : SimulatedKernel) (pid : Int) (rssKb : Nat) : SimulatedKernel :=
  { k with resident := k.resident.insert pid rssKb }

def exit (k : SimulatedKernel) (pid : Int) : SimulatedKernel :=
  { k with resident := k.resident.erase pid }

def setBuffer (k : SimulatedKernel) (kb : Nat) : SimulatedKernel := { k with buffer := some kb }

/-- Let buffer reads fail until the buffer is set. -/
def failBuffer (k : SimulatedKernel) : SimulatedKernel := { k with buffer := none }

def setReclaim (k : SimulatedKernel) (on : Bool) : SimulatedKernel := { k with reclaim := on }

def deny (k : SimulatedKernel) (pid : Int) : SimulatedKernel :=
  { k with denied := k.denied.insert pid }

def allow (k : SimulatedKernel) (pid : Int) : SimulatedKernel :=
  { k with denied := Table.erase k.denied pid }

def setStall (k : SimulatedKernel) (stall : Stall) : SimulatedKernel :=
  { k with stall := some stall }

def isAlive (k : SimulatedKernel) (pid : Int) : Bool := k.resident.contains pid

/-! ### The interface -/

def readBuffer (k : SimulatedKernel) : Except KernelError Nat :=
  match k.buffer with
  | some kb => .ok kb
  | none => .error (.io "memory.buffer" "read failed")

def kill (k : SimulatedKernel) (pid : Int) : Except KernelError Nat × SimulatedKernel :=
  match k.resident.get? pid with
  | none => (.error (.noSuchProcess pid), k)
  | some rssKb =>
    if pid ∈ k.denied then (.error (.permissionDenied s!"kill pid {pid}"), k)
    else
      (.ok rssKb,
        { k with
          resident := k.resident.erase pid
          killed := k.killed ++ [pid]
          scores := k.scores.erase pid
          buffer := if k.reclaim then k.buffer.map (· + rssKb) else k.buffer })

def writeScore (k : SimulatedKernel) (pid priority : Int) :
    Except KernelError Unit × SimulatedKernel :=
  if k.isAlive pid then (.ok (), { k with scores := k.scores.insert pid (oomScore priority) })
  else (.error (.noSuchProcess pid), k)

instance : Kernel SimulatedKernel where
  name := "in_memory"
  readBuffer k := (k.readBuffer, k)
  livePids k := .ok k.resident.keys
  kill := kill
  writeScore := writeScore
  readStall k := .ok k.stall

end SimulatedKernel

end MemoryArbiter

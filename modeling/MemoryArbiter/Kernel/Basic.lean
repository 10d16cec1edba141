import MemoryArbiter.Binary64.Basic

/-! # The kernel as a collaborator

What the engine and the killer need of a kernel (`KernelInterface`): the free memory, the live
processes, killing, score writes and the stall averages.  An operation may answer anything and may
change the kernel's own state; memory moves by itself between two reads.
-/

namespace MemoryArbiter

inductive KernelError
  | io (path reason : String)
  | parse (path reason : String)
  | noSuchProcess (pid : Int)
  | permissionDenied (what : String)
  | signal (pid : Int) (reason : String)
  deriving DecidableEq, Repr, Inhabited

def KernelError.message : KernelError → String
  | io path reason => s!"I/O failed on {path}: {reason}"
  | parse path reason => s!"Unexpected contents in {path}: {reason}"
  | noSuchProcess pid => s!"No such process: {pid}"
  | permissionDenied what => s!"Permission denied: {what}"
  | signal pid reason => s!"Failed to signal pid {pid}: {reason}"

/-- Stall averages over ten seconds, in percent: some tasks stalled, all tasks stalled. -/
structure Stall where
  someAvg10 : Binary64
  fullAvg10 : Binary64
  deriving DecidableEq, Repr, Inhabited

class Kernel (κ : Type) where
  name : String
  /-- Free memory in KB. -/
  readBuffer : κ → Except KernelError Nat × κ
  /-- The live pids, ascending. -/
  livePids : κ → Except KernelError (List Int)
  /-- Kill a process; the memory in KB that it held. -/
  kill : κ → Int → Except KernelError Nat × κ
  /-- Set the kernel's score of a process by its priority. -/
  writeScore : κ → Int → Int → Except KernelError Unit × κ
  /-- The stall averages, if the kernel has them. -/
  readStall : κ → Except KernelError (Option Stall)

end MemoryArbiter

import MemoryArbiter.Config.Error
import MemoryArbiter.FileTree
import MemoryArbiter.Kernel.Basic
import MemoryArbiter.Killer.Roster

/-! # Failures

What may end a command before it is done.
-/

namespace MemoryArbiter

inductive Failure
  | kernel (e : KernelError)
  | service (e : ClosedQueue)
  | config (e : ConfigError)
  /-- The given line of a script is malformed; lines are counted from 1. -/
  | input (line : Nat)
  | file (e : FileError)
  deriving DecidableEq, Repr, Inhabited

def KernelError.failureMessage (e : KernelError) : String := "Kernel error: " ++ e.message

def ClosedQueue.failureMessage (e : ClosedQueue) : String := "Service error: " ++ e.message

def ConfigError.failureMessage (e : ConfigError) : String := "Configuration error: " ++ e.message

def Failure.message : Failure → String
  | kernel e => e.failureMessage
  | service e => e.failureMessage
  | config e => e.failureMessage
  | input line => s!"Malformed input at line {line}"
  | file e => "I/O error: " ++ e.message

end MemoryArbiter

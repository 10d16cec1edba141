/-! # Output of a command

A command prints lines and may end with an error.
-/

namespace MemoryArbiter

structure Output (ε : Type) where
  lines : List String := []
  error? : Option ε := none
  deriving DecidableEq, Repr, Inhabited

def Output.text {ε : Type} (o : Output ε) : String := String.join (o.lines.map fun s => s ++ "\n")

def Output.failed {ε : Type} (e : ε) : Output ε := { error? := some e }

end MemoryArbiter

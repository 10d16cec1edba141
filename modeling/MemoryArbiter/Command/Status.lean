import MemoryArbiter.Binary64.Writing
import MemoryArbiter.Command.Config
import MemoryArbiter.Kernel.Procfs

/-! # The status command

How much memory is free, and what may be killed because of that.
-/

namespace MemoryArbiter

def Host.procfs (h : Host) (c : Config) : Procfs := { root := c.procRoot, files := h.files }

namespace Status

def tierLine (tiers : TierTable) (kb : Nat) : String :=
  match tiers.minPriority? kb with
  | some floor =>
    let name := Level.name floor
    s!"  Kill tier:     ⚠️  priority >= {floor} ({name}) is killable"
  | none => "  Kill tier:     ✅ above top tier, nothing killable"

def bufferLines (tiers : TierTable) : Except KernelError Nat → List String
  | .ok kb => [s!"  Buffer:        {kb / 1024} MB ({kb} KB)", tierLine tiers kb]
  | .error e => ["  Buffer:        ❌ " ++ e.message]

def stallLine : Except KernelError (Option Stall) → String
  | .ok (some s) =>
    "  PSI:           some avg10 " ++ s.someAvg10.fixed 2 ++ ", full avg10 "
      ++ s.fullAvg10.fixed 2
  | .ok none => "  PSI:           unavailable"
  | .error e => "  PSI:           ❌ " ++ e.message

def processLine : Except KernelError (List Int) → String
  | .ok pids => s!"  Processes:     {pids.length}"
  | .error e => "  Processes:     ❌ " ++ e.message

end Status

open Status in
def Host.status (h : Host) : Output String :=
  match h.loadConfig with
  | .error e => .failed (loadFailure e)
  | .ok c =>
    let kernel := h.procfs c
    { lines :=
        ["🧠 reclaimd Status",
          "==================",
          "  Config:        " ++ h.configPath,
          "  procfs:        " ++ kernel.root,
          s!"  Account shift: {c.account.priorityShift}",
          s!"  Grace period:  {c.gracePeriod} ms",
          s!"  Kill cap:      {c.killer.maxKillsPerPass} per pass",
          ""]
        ++ bufferLines c.killTiers kernel.readBuffer
        ++ [stallLine kernel.readStall, processLine kernel.livePids] }

end MemoryArbiter

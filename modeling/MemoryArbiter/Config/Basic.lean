import MemoryArbiter.Binary64.Rounding
import MemoryArbiter.Engine.Basic
import MemoryArbiter.Killer.Monitor
import MemoryArbiter.Killer.Pass

/-! # The configuration

Everything that can be tuned (`AppConfig`), with what is used if it is left out.
-/

namespace MemoryArbiter

structure AccountSection where
  priorityShift : Int := 50
  priorityShift_fits : FitsInt32 priorityShift := by decide
  /-- The shift moves no priority below the foreground level. -/
  clampShiftedPriority : Bool := false
  foregroundAccount : Int := 100
  deriving Repr, Inhabited

def AccountSection.default : AccountSection := {}

structure KillerSection where
  enabled : Bool := true
  maxKillsPerPass : Nat := 3
  /-- The time between two samples of the monitor, in milliseconds. -/
  pollInterval : Nat := 1000
  /-- The stall average that calls for a pass whatever the free memory; ten percent by default. -/
  stallThreshold : Binary64 := .ofInt 10
  deriving DecidableEq, Repr, Inhabited

structure RuntimeSection where
  queueCapacity : Nat := 256
  /-- The time between two sweeps in seconds; none if it is 0. -/
  sweepInterval : Nat := 30
  deriving DecidableEq, Repr, Inhabited

structure Config where
  pinnedBundles : List String :=
    ["com.ohos.systemui", "com.ohos.launcher", "com.ohos.sceneboard"]
  account : AccountSection := AccountSection.default
  killer : KillerSection := {}
  /-- The time after which a boost is taken back, in milliseconds; never if it is 0. -/
  gracePeriod : Nat := 20000
  procRoot : String := "/proc"
  runtime : RuntimeSection := {}
  /-- Ascending by buffer. -/
  killTiers : TierTable := TierTable.default
  deriving Repr, Inhabited

namespace Config

def topBufferKb (c : Config) : Nat := c.killTiers.topBuffer

def settings (c : Config) : Settings where
  pinned := c.pinnedBundles
  shift := c.account.priorityShift
  shift_fits := c.account.priorityShift_fits
  clamp := c.account.clampShiftedPriority
  gracePeriod := c.gracePeriod

def makeKiller (c : Config) : Killer where
  tiers := c.killTiers
  maxKills := c.killer.maxKillsPerPass

def monitor (c : Config) : Monitor where
  topKb := c.topBufferKb
  threshold := c.killer.stallThreshold

def pinnedNames (c : Config) : List String :=
  (c.pinnedBundles.mergeSort fun a b => a ≤ b).eraseDups

end Config

end MemoryArbiter

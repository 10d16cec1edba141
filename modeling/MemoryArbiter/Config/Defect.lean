import MemoryArbiter.Config.Basic

/-! # Checking the configuration

A configuration is used only if it has no defect.  The first defect is reported, in the order of
`Config.defect?` (`validate`).
-/

namespace MemoryArbiter

inductive ConfigDefect
  | noTiers
  /-- The buffers of two neighbouring tiers do not ascend. -/
  | bufferOrder (first second : Nat)
  /-- The priorities of two neighbouring tiers do not ascend. -/
  | priorityOrder (first second : Int)
  | pinnedTier
  | negativeShift
  | noKills
  | noPollInterval
  | noQueueCapacity
  /-- The environment variable of the shift is no integer. -/
  | shiftVariable (value : String)
  deriving DecidableEq, Repr, Inhabited

def TierTable.orderDefect? : TierTable → Option ConfigDefect
  | a :: b :: rest =>
    if b.bufferKb ≤ a.bufferKb then some (.bufferOrder a.bufferKb b.bufferKb)
    else if b.minPriority ≤ a.minPriority then some (.priorityOrder a.minPriority b.minPriority)
    else orderDefect? (b :: rest)
  | _ => none

def Config.defect? (c : Config) : Option ConfigDefect :=
  if c.killTiers.isEmpty then some .noTiers
  else
    match c.killTiers.orderDefect? with
    | some d => some d
    | none =>
      if c.killTiers.any fun t => t.minPriority ≤ Level.system then some .pinnedTier
      else if c.account.priorityShift < 0 then some .negativeShift
      else if c.killer.maxKillsPerPass = 0 then some .noKills
      else if c.killer.pollInterval = 0 then some .noPollInterval
      else if c.runtime.queueCapacity = 0 then some .noQueueCapacity
      else none

end MemoryArbiter

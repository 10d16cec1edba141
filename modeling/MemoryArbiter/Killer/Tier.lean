import MemoryArbiter.Document

/-! # Kill tiers

While free memory is below the buffer of a tier, bundles at or above its priority may be killed.
A table of tiers is read from its start: the first tier above the free memory decides.
-/

namespace MemoryArbiter

structure Tier where
  bufferKb : Nat
  minPriority : Int
  deriving DecidableEq, Repr, Inhabited

abbrev TierTable := List Tier

namespace TierTable

/-- The lowest priority that may be killed at `kb` of free memory; `none` if memory is healthy
(`min_priority_for`). -/
def minPriority? (tiers : TierTable) (kb : Nat) : Option Int :=
  (tiers.find? fun t => kb < t.bufferKb).map Tier.minPriority

def topBuffer (tiers : TierTable) : Nat := (tiers.getLast?.map Tier.bufferKb).getD 0

/-- The tiers that are used when none are configured. -/
def default : TierTable :=
  [⟨102400, 0⟩, ⟨204800, 100⟩, ⟨307200, 200⟩, ⟨409600, 300⟩, ⟨512000, 400⟩]

end TierTable

/-! ### In documents -/

namespace Tier

open Document

variable {ν : Type} [Document ν]

def memberNames : List String := ["buffer_kb", "min_priority"]

def ofDocument? (n : ν) : Option Tier :=
  match members? memberNames n with
  | some [bufferKb, minPriority] => do
    let bufferKb ← required nat64? bufferKb
    let minPriority ← required int32? minPriority
    return { bufferKb, minPriority }
  | _ => none

end Tier

end MemoryArbiter
